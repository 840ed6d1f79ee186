import LakeFsAuth.Core.Json
import LakeFsAuth.Core.SecretBox
import LakeFsAuth.Core.Text
import LakeFsAuth.Library.Base64
import Std.Data.ExtTreeMap.Lemmas

/-! Claim handling: the raw verified payload and the text of a claim. -/
namespace LakeFsAuth.Authn
open Core.Json Core.Model Core.SecretBox Core.Text Library

abbrev Claims := List (String × Value)

inductive ClaimsError where
  | Malformed
  | NotBase64
  | NotAnObject
  deriving DecidableEq

def ClaimsError.message : ClaimsError → String
  | Malformed => "the ID token is not a three part JWT"
  | NotBase64 => "the ID token payload is not valid base64url"
  | NotAnObject => "the ID token payload is not a JSON object"

/-- `serde_json::from_slice`. -/
class JsonReader where
  fromSlice : Bytes → Option Value

/-- Decodes the payload of a JWT whose signature another component already verified. -/
def rawPayload [JsonReader] (token : String) : Except ClaimsError Claims :=
  match token.toList.splitOn '.' with
  | [_, payload, _] =>
      match Base64.urlSafe.decodeNoPad (asBytes (String.ofList payload)) with
      | none => .error .NotBase64
      | some bytes =>
          match JsonReader.fromSlice bytes with
          | some (.object entries) => .ok entries
          | _ => .error .NotAnObject
  | _ => .error .Malformed

def asStr : Value → Option String
  | .string text => some text
  | _ => none

/-- `Vec::<String>::deserialize`: every item is a string. -/
def asStrings : List Value → Option (List String)
  | [] => some []
  | item :: items => do
      let text ← asStr item
      let rest ← asStrings items
      return text :: rest

/-- Null is dropped, an array of strings joins with commas, and anything else
becomes compact JSON. -/
def flattenValue : Value → Option String
  | .null => none
  | .string text => some text
  | .bool flag => some (if flag then "true" else "false")
  | .number text => some text
  | .array items =>
      match asStrings items with
      | some texts => some (",".intercalate texts)
      | none => some (String.ofList (Value.array items).compact)
  | .object entries => some (String.ofList (Value.object entries).compact)

/-- One claim rendered as a string, if present and not empty. -/
def claimText (claims : Claims) (name : String) : Option String :=
  ((claims.lookup name).bind flattenValue).filter fun text => trim text != ""

/-- First claim in `names` that renders to a non-empty string. -/
def firstClaim (claims : Claims) (names : List String) : Option (String × String) :=
  names.findSome? fun name => (claimText claims name).map fun text => (name, text)

/-- Why a claim is not the expected one. -/
inductive ClaimMismatch where
  | missing (name : String)
  | unexpected (name : String)

/-- Enforces `--oidc-validate-claims`: the flattened value equals the expected value exactly. -/
def checkClaims (claims : Claims) : List (String × String) → Except ClaimMismatch Unit
  | [] => .ok ()
  | (name, want) :: expected =>
      match claims.lookup name with
      | none => .error (.missing name)
      | some value =>
          if flattenValue value ≠ some want then .error (.unexpected name)
          else checkClaims claims expected

def validateClaims (claims : Claims) (expected : Std.ExtTreeMap String String) :
    Except ClaimMismatch Unit :=
  checkClaims claims expected.toList

theorem checkClaims_ok {claims : Claims} {expected : List (String × String)}
    (h : checkClaims claims expected = .ok ()) {name want : String} (hmem : (name, want) ∈ expected) :
    (claims.lookup name).bind flattenValue = some want := by
  induction expected with
  | nil => cases hmem
  | cons entry rest ih =>
    rw [checkClaims] at h
    split at h
    · cases h
    · rename_i value hlookup
      split at h
      · cases h
      · rename_i hwant
        rcases List.mem_cons.mp hmem with rfl | hmem
        · simpa [hlookup] using hwant
        · exact ih h hmem

theorem validateClaims_ok {claims : Claims} {expected : Std.ExtTreeMap String String}
    (h : validateClaims claims expected = .ok ()) {name want : String}
    (hwant : expected[name]? = some want) : (claims.lookup name).bind flattenValue = some want :=
  checkClaims_ok h (Std.ExtTreeMap.mem_toList_iff_getElem?_eq_some.mpr hwant)

/-- A comma separated list: the pieces, trimmed, without the blank ones. -/
def commaList (value : String) : List String :=
  (value.toList.splitOn ',').filterMap fun piece => nonBlank (String.ofList piece)

/-- A groups claim, either an array of strings or one comma separated string. -/
inductive GroupsClaim where
  | list (items : List String)
  | text (text : String)

namespace GroupsClaim

def deserialize : Value → Option GroupsClaim
  | .array items => (asStrings items).map .list
  | .string value => some (.text value)
  | _ => none

/-- The group names, trimmed, without the blank ones. -/
def values : GroupsClaim → List String
  | list items => items.filterMap nonBlank
  | text value => commaList value

end GroupsClaim

end LakeFsAuth.Authn
