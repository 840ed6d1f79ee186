import LakeFsAuth.Authn.Browser
import LakeFsAuth.Authn.Isolation
import LakeFsAuth.Authn.Sts
import LakeFsAuth.Authz.Http
import LakeFsAuth.Library.Join

/-! The login of an SDK. lakeFS forwards the code it was given, gets the claims of the token that
comes back, and then looks the user up by their `sub`. -/
namespace LakeFsAuth.Authn.Sts
open LakeFsAuth.Core Core.Error Core.Json Core.Text Library Program
open Authz Authz.Store Authz.Api AuthzClient
open Oidc hiding exchangeCode

structure StsLoginRequest where
  code : String
  /-- The lakeFS sample client puts the PKCE verifier here. -/
  state : String
  redirectUri : String

def stsLoginRequest : Wire.Codec StsLoginRequest := .struct
  ["code", "state", "redirect_uri"]
  (fun request => [("code", some (Wire.Codec.string.write request.code)),
    ("state", some (Wire.Codec.string.write request.state)),
    ("redirect_uri", some (Wire.Codec.string.write request.redirectUri))])
  (fun
    | [code, state, redirectUri] => do
        return {
          code := ← Wire.Codec.string.required code
          state := ← state.elim (some "") Wire.Codec.string.read
          redirectUri := ← Wire.Codec.string.required redirectUri }
    | _ => none)
  (fun _ => True)
  (by decide) (fun _ => rfl) (by simp)
  (by
    intro request _
    simp [show Wire.Codec.string.read (Wire.Codec.string.write request.state) = some request.state from rfl])

/-- Every value is a string. -/
structure StsLoginResponse where
  claims : Std.ExtTreeMap String String

def StsLoginResponse.serialize (response : StsLoginResponse) : Value :=
  .object [("claims", .object (response.claims.toList.map fun claim => (claim.1, .string claim.2)))]

/-- Renders every claim as a string, and drops the ones that are null. -/
def flattenClaims (claims : Claims) : Std.ExtTreeMap String String :=
  claims.foldr (fun claim flat => flat.alter claim.1 fun _ => flattenValue claim.2) ∅

theorem flattenClaims_get (claims : Claims) (name : String) :
    (flattenClaims claims)[name]? = (claims.lookup name).bind flattenValue := by
  induction claims with
  | nil => simp [flattenClaims]
  | cons claim claims ih =>
    obtain ⟨key, value⟩ := claim
    change ((flattenClaims claims).alter key fun _ => flattenValue value)[name]? = _
    rw [Std.ExtTreeMap.getElem?_alter, ih, List.lookup_cons]
    by_cases hkey : key = name
    · subst hkey
      simp
    · have hne : (name == key) = false := by simpa using Ne.symm hkey
      simp [hkey, hne]

/-! What the route does. -/

/-- The exchange of a code that comes with its own redirect URI. -/
inductive Exchange (Discovered : Type) where
  | exchangeCode (discovered : Discovered) (code : String) (pkceVerifier : Option String)
      (redirectUri : String)

abbrev Exchange.Reply {Discovered : Type} : Exchange Discovered → Type
  | exchangeCode _ _ _ _ => Except OidcError TokenResponse

/-- A request of this route: it redeems a code, refreshes keys, and calls the authorization server. -/
abbrev StsOp (Discovered : Type) := Exchange Discovered ⊕ (ProviderCall Discovered ⊕ Call)

abbrev StsReply (Discovered : Type) : StsOp Discovered → Type :=
  Program.Either Exchange.Reply (Program.Either ProviderCall.Reply Call.Reply)

abbrev StsHandler (Discovered α : Type) := Program (StsOp Discovered) (StsReply Discovered) α

/-- Exchanges an authorization code for tokens. -/
def exchangeCode {Discovered : Type} (discovered : Discovered) (code : String)
    (pkceVerifier : Option String) (redirectUri : String) :
    StsHandler Discovered (Except OidcError TokenResponse) :=
  .call (.inl (.exchangeCode discovered code pkceVerifier redirectUri)) .done

/-- lakeFS never issued a nonce, so any value in the token is acceptable. -/
def anyNonce : NonceVerifier := fun _ => .ok ()

/-- The settings of the route, beside those of the browser login. -/
structure StsState extends Browser.AppState where
  stsAllowedRedirectUris : List String
  stateIsPkceVerifier : Bool

section Login
variable {Discovered : Type} [OpenIdConnect Discovered] [JsonReader] (state : StsState)

def StsState.pkceVerifier (request : StsLoginRequest) : Option String :=
  if state.stateIsPkceVerifier && request.state ≠ "" then some request.state else none

/-- The claims of a verified token, once they pass the checks and their user is there. -/
def admitUser (claims : Claims) : StsHandler Discovered (Except ApiError StsLoginResponse) :=
  match validateClaims claims state.oidcValidateClaims with
  | .error _ =>
      return .error (.Unauthorized "the identity does not satisfy the configured claim requirements")
  | .ok () => do
      match ← (state.prov.ensureUser state.maxRetries claims).right.right with
      | .error error => return .error (Browser.provisionErrorToApi error)
      | .ok _ => return .ok ⟨flattenClaims claims⟩

def redeem (discovered : Discovered) (request : StsLoginRequest) :
    StsHandler Discovered (Except ApiError StsLoginResponse) := do
  match ← exchangeCode discovered request.code (state.pkceVerifier request) request.redirectUri with
  | .error error => return .error error.toApi
  | .ok tokens =>
      match ← (verifyIdToken discovered tokens anyNonce).right with
      | .error error => return .error error.toApi
      | .ok (claims, _) => admitUser state claims

variable [Url.HostParser]

/-- This is the one route that redeems codes of callers it does not know, and nothing binds the code
to the caller, so an empty allow list refuses every request. -/
def login (current : Option Discovered) (request : StsLoginRequest) :
    StsHandler Discovered (Except ApiError StsLoginResponse) :=
  match current with
  | none => return .error OidcError.NotReady.toApi
  | some discovered =>
      if redirectUriAllowed state.stsAllowedRedirectUris request.redirectUri then
        match Url.parse none request.redirectUri.toList with
        | none => return .error (.invalid "redirect_uri is not a valid URL")
        | some _ => redeem state discovered request
      else return .error (.invalid "redirect_uri is not allowed")

/-- `POST {base}/sts/login` -/
def stsLogin (current : Option Discovered) (body : Http.Body) : StsHandler Discovered Http.HttpResponse :=
  match Http.apiJson stsLoginRequest body with
  | .error error => return Http.errorResponse error
  | .ok request => do
      return Http.respond 200 (fun response => .json response.serialize) (← login state current request)

end Login

end LakeFsAuth.Authn.Sts
