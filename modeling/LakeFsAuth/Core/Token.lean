import LakeFsAuth.Core.Wire

/-! The bearer token of the authorization API: a static token, or an HS256 token lakeFS and
the authentication server mint from the shared secret. -/
namespace LakeFsAuth.Core.Token
open LakeFsAuth.Core Core.Error Core.Json Core.Model Core.Text Library Authn.Jwt Authn.SecureCookie SecretBox

/-- Audience of the internal token. -/
def INTERNAL_AUDIENCE : String := "auth-client"

/-- Subject of that token. -/
def INTERNAL_SUBJECT : String := "_lakefs-internal"

def LEEWAY_SECONDS : Int := 60

/-! What `jsonwebtoken` reads. -/

/-- The claims that are checked. One that is absent or of another type is `none`. -/
structure ClaimsForValidation where
  exp : Option Nat
  aud : Option (List String)

structure Validation where
  audience : List String
  requiredSpecClaims : List String
  leeway : Int

inductive JwtError where
  | InvalidToken
  | InvalidAlgorithm
  | InvalidSignature
  | MissingRequiredClaim (claim : String)
  | ExpiredSignature
  | InvalidAudience
  deriving DecidableEq

/-- A date claim. A number that is not whole is rounded, which is left to `numericDate`. -/
class NumericDate where
  numericDate : String → Option Nat
  numericDate_text : ∀ n : Nat, n < 2 ^ 64 → numericDate (ascii (Decimal.text n)) = some n

def audience : Value → Option (List String)
  | .string text => some [text]
  | .array items => items.mapM fun item => match item with
      | .string text => some text
      | _ => none
  | _ => none

section Decode
variable [NumericDate] [FromSlice] [HmacSha256]

def claimsForValidation : Value → Option ClaimsForValidation
  | .object entries => do
      let exp ← Wire.field entries "exp"
      let aud ← Wire.field entries "aud"
      return {
        exp := exp.bind fun value => match value with
          | .number text => NumericDate.numericDate text
          | _ => none
        aud := aud.bind audience }
  | _ => none

def ClaimsForValidation.has (claims : ClaimsForValidation) (claim : String) : Bool :=
  match claim with
  | "exp" => claims.exp.isSome
  | "aud" => claims.aud.isSome
  | _ => true

def validate (claims : ClaimsForValidation) (options : Validation) (now : Int) :
    Except JwtError Unit :=
  match options.requiredSpecClaims.find? fun claim => !claims.has claim with
  | some claim => .error (.MissingRequiredClaim claim)
  | none =>
      if claims.exp.any fun exp : Nat => decide ((exp : Int) < now - options.leeway) then
        .error .ExpiredSignature
      else if claims.aud.any fun aud => !aud.any options.audience.contains then
        .error .InvalidAudience
      else .ok ()

def headerAlg : Value → Option String
  | .object entries => match Wire.field entries "alg" with
      | some (some (.string alg)) => some alg
      | _ => none
  | _ => none

/-- `jsonwebtoken::decode`, with HS256 as the only algorithm. -/
def decodeAt (token : String) (key : Bytes) (options : Validation) (now : Int) :
    Except JwtError Unit :=
  match Fields.rsplit dot (asBytes token) with
  | none => .error .InvalidToken
  | some (message, signature) =>
      match Fields.rsplit dot message with
      | none => .error .InvalidToken
      | some (header, payload) =>
          let part (text : Bytes) := (Base64.urlSafe.decodeNoPad text).bind FromSlice.fromSlice
          match (part header).bind headerAlg with
          | none => .error .InvalidToken
          | some alg =>
              if alg ≠ "HS256" then .error .InvalidAlgorithm
              else if Base64.urlSafe.decodeNoPad signature ≠ some (HmacSha256.mac key message) then
                .error .InvalidSignature
              else match (part payload).bind claimsForValidation with
                | none => .error .InvalidToken
                | some claims => validate claims options now

end Decode

/-! The tokens. -/

structure InternalClaims where
  jti : String
  aud : List String
  sub : String
  iat : Int
  exp : Int

def InternalClaims.new (jti : Uuid) (issuedAt : Int) (ttl : Nat) : InternalClaims where
  jti := jti.text
  aud := [INTERNAL_AUDIENCE]
  sub := INTERNAL_SUBJECT
  iat := issuedAt
  exp := expiresAt issuedAt ttl

def InternalClaims.serialize (claims : InternalClaims) : Value :=
  .object [("jti", .string claims.jti), ("aud", .array (claims.aud.map .string)),
    ("sub", .string claims.sub), ("iat", integer claims.iat), ("exp", integer claims.exp)]

def mintInternalTokenAt [HmacSha256] (key : Bytes) (jti : Uuid) (ttl : Nat) (issuedAt : Int) :
    String :=
  encode header (InternalClaims.new jti issuedAt ttl).serialize key

/-! The verifier. -/

structure TokenVerifier where
  staticToken : Option Bytes
  decodingKey : Option Bytes
  validation : Validation
  disabled : Bool

inductive VerifierConfigError where
  | NothingConfigured
  deriving DecidableEq

namespace TokenVerifier

/-- A static token closes the way of the shared secret. -/
def new (secretKey apiToken : Option String) (disabled : Bool) :
    Except VerifierConfigError TokenVerifier :=
  let staticToken := (apiToken.bind nonBlank).map asBytes
  let decodingKey := if staticToken.isSome then none else (secretKey.bind nonBlank).map asBytes
  if !disabled && staticToken.isNone && decodingKey.isNone then .error .NothingConfigured
  else .ok {
    staticToken, decodingKey, disabled
    validation := ⟨[INTERNAL_AUDIENCE], ["exp", "aud"], LEEWAY_SECONDS⟩ }

def verifyAt [NumericDate] [FromSlice] [HmacSha256] (self : TokenVerifier) (bearer : String)
    (now : Int) : Except ApiError Unit :=
  if self.disabled then .ok ()
  else if self.staticToken = some (asBytes bearer) then .ok ()
  else if self.decodingKey.any fun key =>
      (decodeAt bearer key self.validation now).toBool then .ok ()
  else .error (.Unauthorized "invalid bearer token")

end TokenVerifier

/-- The token of an `Authorization` header. -/
def bearerToken (header : String) : Option String :=
  match header.toList.dropWhile (· != ' ') with
  | [] => none
  | _ :: rest =>
      if eqIgnoreAsciiCase (String.ofList (header.toList.takeWhile (· != ' '))) "bearer" then
        nonBlank (String.ofList rest)
      else none

/-! What the reader makes of a token that was minted here. -/

theorem dot_not_mem_base64Url (bytes : Bytes) : dot ∉ base64Url bytes :=
  Base64.urlSafe.not_mem_encode (by decide) (by decide) false bytes

theorem header_written : Written header := by
  refine .object fun entry hentry => ?_
  simp only [List.mem_cons, List.not_mem_nil, or_false] at hentry
  rcases hentry with rfl | rfl <;> exact .string _

theorem internal_written (claims : InternalClaims) : Written claims.serialize := by
  refine .object fun entry hentry => ?_
  simp only [List.mem_cons, List.not_mem_nil, or_false] at hentry
  rcases hentry with rfl | rfl | rfl | rfl | rfl
  · exact .string _
  · refine .array fun item hitem => ?_
    obtain ⟨text, _, rfl⟩ := List.mem_map.mp hitem
    exact .string text
  · exact .string _
  · exact .integer _
  · exact .integer _

theorem login_written (claims : LoginClaims) : Written claims.serialize := by
  refine .object fun entry hentry => ?_
  simp only [List.mem_cons, List.not_mem_nil, or_false] at hentry
  rcases hentry with rfl | rfl | rfl | rfl | rfl | rfl
  · exact .string _
  · exact .string _
  · exact .string _
  · exact .string _
  · exact .integer _
  · exact .integer _

theorem expiresAt_range {issuedAt : Int} (start : 0 ≤ issuedAt) (ttl : Nat) :
    0 ≤ expiresAt issuedAt ttl ∧ expiresAt issuedAt ttl < 2 ^ 63 := by
  simp only [expiresAt, saturatingAdd]
  omega

/-- What the verifier of a shared secret checks. -/
def internalValidation : Validation := ⟨[INTERNAL_AUDIENCE], ["exp", "aud"], LEEWAY_SECONDS⟩

theorem validate_dated (exp : Nat) (aud : String) (now : Int) :
    validate ⟨some exp, some [aud]⟩ internalValidation now =
      if (exp : Int) < now - LEEWAY_SECONDS then .error .ExpiredSignature
      else if aud = INTERNAL_AUDIENCE then .ok () else .error .InvalidAudience := by
  have hrequired : (internalValidation.requiredSpecClaims.find? fun claim =>
      !ClaimsForValidation.has ⟨some exp, some [aud]⟩ claim) = none := rfl
  have haudience : ([aud].any internalValidation.audience.contains) = decide (aud = INTERNAL_AUDIENCE) := by
    simp [internalValidation]
  simp only [validate, hrequired, Option.any_some, haudience, decide_eq_true_eq, Bool.not_eq_true',
    decide_eq_false_iff_not]
  by_cases haud : aud = INTERNAL_AUDIENCE <;> simp [haud, internalValidation]

theorem validate_undated (aud : Option (List String)) (now : Int) :
    validate ⟨none, aud⟩ internalValidation now = .error (.MissingRequiredClaim "exp") := rfl

section Minted
variable [NumericDate] [FromSlice] [HmacSha256]

def signedPart (claims : Value) : Bytes := base64Url (toVec header) ++ dot :: base64Url (toVec claims)

/-- A token that was signed with the key is judged by its claims alone. -/
theorem decodeAt_encode {claims : Value} (written : Written claims) (key key' : Bytes)
    (options : Validation) (now : Int) : decodeAt (encode header claims key) key' options now =
      if HmacSha256.mac key (signedPart claims) ≠ HmacSha256.mac key' (signedPart claims) then
        .error .InvalidSignature
      else match claimsForValidation claims with
        | none => .error .InvalidToken
        | some claims => validate claims options now := by
  have hascii : asBytes (encode header claims key) = signedPart claims ++
      dot :: base64Url (HmacSha256.mac key (signedPart claims)) := by
    refine asBytes_ascii fun byte hbyte => ?_
    have hdot : dot < 128 := by decide
    simp only [List.mem_append, List.mem_cons] at hbyte
    rcases hbyte with (h | rfl | h) | rfl | h
    · exact base64_ascii h
    · exact hdot
    · exact base64_ascii h
    · exact hdot
    · exact base64_ascii h
  have hpart {value : Value} (written : Written value) :
      (Base64.urlSafe.decodeNoPad (base64Url (toVec value))).bind FromSlice.fromSlice =
        some value := by
    rw [base64Url, Base64.Alphabet.decodeNoPad_encode]
    exact FromSlice.fromSlice_toVec written
  have halg : headerAlg header = some "HS256" := rfl
  have htag : Base64.urlSafe.decodeNoPad (base64Url (HmacSha256.mac key (signedPart claims))) =
      some (HmacSha256.mac key (signedPart claims)) := Base64.Alphabet.decodeNoPad_encode _ _
  unfold decodeAt
  rw [hascii, Fields.rsplit_append (dot_not_mem_base64Url _)]
  simp only
  rw [show Fields.rsplit dot (signedPart claims) = _ from
    Fields.rsplit_append (dot_not_mem_base64Url _) _]
  simp only [hpart header_written, hpart written, Option.bind_some, halg, htag]
  simp

omit [FromSlice] [HmacSha256] in
theorem numericDate_integer {n : Int} (h : 0 ≤ n ∧ n < 2 ^ 63) :
    NumericDate.numericDate (ascii (Decimal.text n)) = some n.toNat := by
  obtain ⟨n, rfl⟩ := Int.eq_ofNat_of_zero_le h.1
  exact NumericDate.numericDate_text n (by omega)

omit [FromSlice] [HmacSha256] in
theorem claims_internal (jti : Uuid) (ttl : Nat) {issuedAt : Int} (start : 0 ≤ issuedAt) :
    claimsForValidation (InternalClaims.new jti issuedAt ttl).serialize =
      some ⟨some (expiresAt issuedAt ttl).toNat, some [INTERNAL_AUDIENCE]⟩ := by
  have hdate := numericDate_integer (expiresAt_range start ttl)
  simp [claimsForValidation, InternalClaims.serialize, InternalClaims.new, Wire.field, integer,
    audience, hdate]

omit [FromSlice] [HmacSha256] in
theorem claims_login (jti : Uuid) (username : String) (ttl : Nat) (issuedAt : Int) :
    ∃ exp, claimsForValidation (LoginClaims.new jti username issuedAt ttl).serialize =
      some ⟨exp, some [loginAudience]⟩ := by
  simp [claimsForValidation, LoginClaims.serialize, LoginClaims.new, Wire.field, integer, audience]

theorem decodeAt_internal (key : Bytes) (jti : Uuid) (ttl : Nat) {issuedAt : Int}
    (start : 0 ≤ issuedAt) (now : Int) :
    decodeAt (mintInternalTokenAt key jti ttl issuedAt) key internalValidation now = .ok () ↔
      now ≤ expiresAt issuedAt ttl + LEEWAY_SECONDS := by
  obtain ⟨hlow, _⟩ := expiresAt_range start ttl
  have hexp : ((expiresAt issuedAt ttl).toNat : Int) = expiresAt issuedAt ttl := Int.toNat_of_nonneg hlow
  rw [mintInternalTokenAt, decodeAt_encode (internal_written _), if_neg (not_not.mpr rfl),
    claims_internal jti ttl start]
  simp only [validate_dated, hexp]
  by_cases hlate : expiresAt issuedAt ttl < now - LEEWAY_SECONDS
  · simp only [if_pos hlate, reduceCtorEq, false_iff]
    omega
  · simp only [if_neg hlate, if_true, true_iff]
    omega

theorem decodeAt_login (key key' : Bytes) (jti : Uuid) (username : String) (ttl : Nat)
    (issuedAt now : Int) :
    decodeAt (mintLoginTokenAt key jti username ttl issuedAt) key' internalValidation now ≠ .ok () := by
  obtain ⟨exp, hclaims⟩ := claims_login jti username ttl issuedAt
  have haud : loginAudience ≠ INTERNAL_AUDIENCE := by decide
  rw [mintLoginTokenAt, decodeAt_encode (login_written _), hclaims]
  split
  · simp
  · cases exp with
    | none => simp [validate_undated]
    | some exp =>
      simp only [validate_dated, if_neg haud]
      split <;> simp

/-- A token that is accepted carries the tag of the key over what is before the tag. -/
theorem signed_of_decodeAt {token : String} {key : Bytes} {options : Validation} {now : Int}
    (h : decodeAt token key options now = .ok ()) :
    ∃ message signature, asBytes token = message ++ dot :: signature ∧
      Base64.urlSafe.decodeNoPad signature = some (HmacSha256.mac key message) := by
  unfold decodeAt at h
  split at h
  · cases h
  · rename_i message signature hsplit
    split at h
    · cases h
    · simp only at h
      split at h
      · cases h
      · split_ifs at h with halg hsignature
        exact ⟨message, signature, (Fields.rsplit_some hsplit).1, by simpa using hsignature⟩

omit [NumericDate] [FromSlice] [HmacSha256] in
theorem toBool_iff {result : Except JwtError Unit} : result.toBool = true ↔ result = .ok () := by
  cases result <;> simp [Except.toBool]

/-! A token that is good was good before: nothing but its end is compared with the clock. -/

section Clock
variable {now now' : Int}

omit [NumericDate] [FromSlice] [HmacSha256] in
theorem validate_mono {claims : ClaimsForValidation} {options : Validation} (later : now ≤ now')
    (h : validate claims options now' = .ok ()) : validate claims options now = .ok () := by
  unfold validate at h ⊢
  split at h
  · cases h
  · split_ifs at h with hexpired haudience
    rw [if_neg haudience, if_neg]
    intro hexp
    refine hexpired ?_
    cases hclaim : claims.exp with
    | none => simp [hclaim] at hexp
    | some exp =>
      simp only [hclaim, Option.any_some, decide_eq_true_eq] at hexp ⊢
      omega

theorem decodeAt_mono {token : String} {key : Bytes} {options : Validation} (later : now ≤ now')
    (h : decodeAt token key options now' = .ok ()) : decodeAt token key options now = .ok () := by
  unfold decodeAt at h ⊢
  split at h
  · cases h
  · split at h
    · cases h
    · simp only at h ⊢
      split at h
      · cases h
      · split_ifs at h with halg hsignature
        rw [if_neg halg, if_neg hsignature]
        split at h
        · cases h
        · exact validate_mono later h

theorem verifyAt_mono {verifier : TokenVerifier} {bearer : String} (later : now ≤ now')
    (h : verifier.verifyAt bearer now' = .ok ()) : verifier.verifyAt bearer now = .ok () := by
  unfold TokenVerifier.verifyAt at h ⊢
  split_ifs at h with hdisabled hstatic hkey
  · rw [if_pos hdisabled]
  · rw [if_neg hdisabled, if_pos hstatic]
  · rw [if_neg hdisabled, if_neg hstatic, if_pos]
    obtain ⟨key, hsome, hdecode⟩ := (Option.any_eq_true _ _).mp hkey
    exact (Option.any_eq_true _ _).mpr
      ⟨key, hsome, toBool_iff.mpr (decodeAt_mono later (toBool_iff.mp hdecode))⟩

end Clock

section Verifier
variable {secretKey apiToken : Option String} {disabled : Bool} {verifier : TokenVerifier}

omit [NumericDate] [FromSlice] [HmacSha256] in
theorem new_eq_ok (built : TokenVerifier.new secretKey apiToken disabled = .ok verifier) :
    verifier.disabled = disabled ∧ verifier.validation = internalValidation ∧
      verifier.staticToken = (apiToken.bind nonBlank).map asBytes ∧
      verifier.decodingKey = if (apiToken.bind nonBlank).isSome then none
        else (secretKey.bind nonBlank).map asBytes := by
  have hok {guard : Bool} {made : TokenVerifier} {error : VerifierConfigError}
      (h : (if guard = true then .error error else .ok made) = Except.ok verifier) :
      made = verifier := by
    cases guard with
    | true => cases h
    | false => exact Except.ok.inj h
  obtain rfl := hok built
  exact ⟨rfl, rfl, rfl, by simp only [Option.isSome_map]⟩

/-- What opens a verifier: nothing is asked, or the static token, or, where there is none, a
token of the shared secret. -/
theorem verifyAt_iff (built : TokenVerifier.new secretKey apiToken disabled = .ok verifier)
    (bearer : String) (now : Int) : verifier.verifyAt bearer now = .ok () ↔
      disabled = true ∨ apiToken.bind nonBlank = some bearer ∨
        (apiToken.bind nonBlank = none ∧ ∃ secret, secretKey.bind nonBlank = some secret ∧
          decodeAt bearer (asBytes secret) internalValidation now = .ok ()) := by
  obtain ⟨rfl, hvalidation, hstatic, hkey⟩ := new_eq_ok built
  unfold TokenVerifier.verifyAt
  by_cases hdisabled : verifier.disabled = true
  · simp [hdisabled]
  rw [if_neg hdisabled, hstatic, hkey, hvalidation]
  cases hapi : apiToken.bind nonBlank with
  | none =>
    cases hsecret : secretKey.bind nonBlank with
    | none => simp [hdisabled]
    | some secret => simp [hdisabled, toBool_iff]
  | some token =>
    by_cases hsame : token = bearer
    · simp [hsame]
    · simp [hdisabled, hsame, asBytes_inj]

end Verifier

/-- A shared secret opens the API to the tokens minted for it, for as long as they last and a
minute more. It never opens it to the login token of a browser session, under whatever key that
was minted, nor to anything its holder did not sign. -/
theorem shared_secret_keeps_audiences_apart {secretKey secret : String} {apiToken : Option String}
    {verifier : TokenVerifier} (built : TokenVerifier.new (some secretKey) apiToken false = .ok verifier)
    (shared : nonBlank secretKey = some secret) (noStatic : apiToken.bind nonBlank = none) :
    (∀ jti ttl issuedAt now, 0 ≤ issuedAt →
      (verifier.verifyAt (mintInternalTokenAt (asBytes secret) jti ttl issuedAt) now = .ok () ↔
        now ≤ expiresAt issuedAt ttl + LEEWAY_SECONDS)) ∧
    (∀ key jti username ttl issuedAt now,
      verifier.verifyAt (mintLoginTokenAt key jti username ttl issuedAt) now ≠ .ok ()) ∧
    (∀ bearer now, verifier.verifyAt bearer now = .ok () →
      ∃ message signature, asBytes bearer = message ++ dot :: signature ∧
        Base64.urlSafe.decodeNoPad signature = some (HmacSha256.mac (asBytes secret) message)) := by
  have hverify (bearer : String) (now : Int) : verifier.verifyAt bearer now = .ok () ↔
      decodeAt bearer (asBytes secret) internalValidation now = .ok () := by
    rw [verifyAt_iff built]
    simp [noStatic, shared]
  refine ⟨fun jti ttl issuedAt now start => ?_, fun key jti username ttl issuedAt now => ?_,
    fun bearer now h => ?_⟩
  · rw [hverify, decodeAt_internal _ _ _ start]
  · rw [Ne, hverify]
    exact decodeAt_login _ _ _ _ _ _ _
  · exact signed_of_decodeAt ((hverify bearer now).mp h)

end Minted

section Once

/-- Whole seconds, and no other number. -/
@[reducible] def wholeSeconds : NumericDate where
  numericDate text := ((Decimal.read (asBytes text)).filter (0 ≤ ·)).map Int.toNat
  numericDate_text := by
    intro n _
    rw [asBytes_ascii fun _ => text_ascii, Decimal.read_text]
    simp

attribute [local instance] plainMac wholeSeconds compactReader

def sharedOnly : TokenVerifier := ⟨none, some (asBytes "shared"), internalValidation, false⟩

theorem shared_secret_keeps_audiences_apart_once :
    ∃ verifier, TokenVerifier.new (some " shared ") (some " ") false = .ok verifier ∧
    (∀ jti ttl issuedAt now, 0 ≤ issuedAt →
      (verifier.verifyAt (mintInternalTokenAt (asBytes "shared") jti ttl issuedAt) now = .ok () ↔
        now ≤ expiresAt issuedAt ttl + LEEWAY_SECONDS)) ∧
    (∀ key jti username ttl issuedAt now,
      verifier.verifyAt (mintLoginTokenAt key jti username ttl issuedAt) now ≠ .ok ()) ∧
    (∀ bearer now, verifier.verifyAt bearer now = .ok () →
      ∃ message signature, asBytes bearer = message ++ dot :: signature ∧
        Base64.urlSafe.decodeNoPad signature = some (HmacSha256.mac (asBytes "shared") message)) := by
  have hsecret : nonBlank " shared " = some "shared" := by decide
  have hapi : (some " ").bind nonBlank = none := by decide
  have hbuilt : TokenVerifier.new (some " shared ") (some " ") false = .ok sharedOnly := by
    simp only [TokenVerifier.new, hapi, Option.bind_some, hsecret]
    rfl
  exact ⟨sharedOnly, hbuilt, shared_secret_keeps_audiences_apart hbuilt hsecret hapi⟩

end Once

end LakeFsAuth.Core.Token
