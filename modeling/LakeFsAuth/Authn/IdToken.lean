import LakeFsAuth.Authn.Claims
import LakeFsAuth.Authz.Api
import LakeFsAuth.Core.Error
import LakeFsAuth.Library.Replay

/-! The code exchange and the check of the ID token that comes with it. -/
namespace LakeFsAuth.Authn.Oidc
open Core.Error Authz.Api Library

inductive OidcError where
  | NotReady
  | NoTokenEndpoint
  | CodeRejected
  | ProviderUnreachable
  | BadTokenResponse
  | MissingIdToken
  | InvalidIdToken (reason : String)
  | UnreadableClaims (error : ClaimsError)
  deriving DecidableEq

def OidcError.message : OidcError → String
  | NotReady => "the identity provider is not available yet"
  | NoTokenEndpoint => "the identity provider advertises no token endpoint"
  | CodeRejected => "the identity provider rejected the authorization code"
  | ProviderUnreachable => "the identity provider could not be reached"
  | BadTokenResponse => "the identity provider returned an unreadable token response"
  | MissingIdToken => "the identity provider returned no ID token"
  | InvalidIdToken reason => s!"the ID token is not valid: {reason}"
  | UnreadableClaims _ => "the ID token claims cannot be read"

/-- A provider that is not there is an outage; a rejected code or a bad token is a 401. -/
def OidcError.toApi (error : OidcError) : ApiError :=
  match error with
  | NotReady | NoTokenEndpoint | ProviderUnreachable => .Unavailable error.message
  | _ => .Unauthorized error.message

/-- Why the request to the token endpoint failed. -/
inductive RequestTokenError where
  | ServerResponse
  | Request
  | Parse
  | Other

def OidcError.ofRequest : RequestTokenError → OidcError
  | .ServerResponse => .CodeRejected
  | .Request => .ProviderUnreachable
  | .Parse | .Other => .BadTokenResponse

structure TokenResponse where
  idToken : Option String

/-- Why an ID token is refused, with the text of the error. -/
inductive ClaimsVerificationError where
  | NoMatchingKey (text : String)
  | AmbiguousKeyId (text : String)
  | Other (text : String)

namespace ClaimsVerificationError

def text : ClaimsVerificationError → String
  | NoMatchingKey text | AmbiguousKeyId text | Other text => text

/-- True when the signature failed because no key in the set matched the key id. -/
def isUnknownKey : ClaimsVerificationError → Bool
  | NoMatchingKey _ | AmbiguousKeyId _ => true
  | Other _ => false

end ClaimsVerificationError

/-- What a check makes of the nonce claim. -/
abbrev NonceVerifier := Option String → Except String Unit

/-- Nonce verifier for the browser flow: the nonce must equal the one we stored. -/
def expectedNonce (stored : String) : NonceVerifier
  | none => .error "missing nonce claim"
  | some nonce => if nonce = stored then .ok () else .error "nonce mismatch"

/-- The client of one discovery: whether it knows the token endpoint, and its verifier of the
signature, the audience, the nonce, and the timestamps. -/
class OpenIdConnect (Discovered : Type) where
  hasTokenEndpoint : Discovered → Bool
  claims : Discovered → (idToken : String) → NonceVerifier → Except ClaimsVerificationError Unit

/-- What a login asks of the provider. -/
inductive ProviderCall (Discovered : Type) where
  | exchangeCode (discovered : Discovered) (code pkceVerifier : String)
  | refreshForKeyError

abbrev ProviderCall.Reply {Discovered : Type} : ProviderCall Discovered → Type
  | exchangeCode _ _ _ => Except OidcError TokenResponse
  | refreshForKeyError => Option Discovered

/-- A request of this server, which calls the provider and the authorization server. -/
abbrev Handler (Discovered α : Type) :=
  Program (ProviderCall Discovered ⊕ Call) (Program.Either ProviderCall.Reply Call.Reply) α

/-- What such a request called, and the answers. -/
abbrev Log (Discovered : Type) :=
  List (Program.Entry (Program.Either (@ProviderCall.Reply Discovered) Call.Reply))

section Log
variable {Discovered : Type}

/-- How often a request ran `exchange_code`. -/
def exchanges (log : Log Discovered) : Nat :=
  log.countP fun entry =>
    match entry.1 with
    | .inl (.exchangeCode _ _ _) => true
    | _ => false

@[simp] theorem exchanges_nil : exchanges ([] : Log Discovered) = 0 := rfl

@[simp] theorem exchanges_append (log more : Log Discovered) :
    exchanges (log ++ more) = exchanges log + exchanges more := by
  simp [exchanges]

@[simp] theorem exchanges_right (calls : List (Program.Entry Call.Reply)) :
    exchanges (calls.map Program.Entry.right : Log Discovered) = 0 := by
  simp [exchanges, Program.Entry.right]

end Log

section Provider
variable {Discovered : Type} [OpenIdConnect Discovered]

/-- `exchange_code`, with what comes of its request. Without an endpoint nothing is sent. -/
def exchanged (discovered : Discovered) (answer : Except RequestTokenError TokenResponse) :
    Except OidcError TokenResponse :=
  if OpenIdConnect.hasTokenEndpoint discovered then answer.mapError .ofRequest
  else .error .NoTokenEndpoint

/-- Exchanges an authorization code for tokens. -/
def exchangeCode (discovered : Discovered) (code pkceVerifier : String) :
    Handler Discovered (Except OidcError TokenResponse) :=
  .call (.inl (.exchangeCode discovered code pkceVerifier)) .done

/-- One rate-limited refresh after a signature failed on an unknown key id. -/
def refreshForKeyError : Handler Discovered (Option Discovered) :=
  .call (.inl .refreshForKeyError) .done

omit [OpenIdConnect Discovered] in
theorem exchangeCode_returns {discovered : Discovered} {code pkceVerifier : String}
    {log : Log Discovered} {tokens : Except OidcError TokenResponse}
    (h : Program.Returns (exchangeCode discovered code pkceVerifier) log tokens) :
    log = [⟨.inl (.exchangeCode discovered code pkceVerifier), tokens⟩] :=
  Program.Returns.of_perform h

omit [OpenIdConnect Discovered] in
theorem refreshForKeyError_returns {log : Log Discovered} {answer : Option Discovered}
    (h : Program.Returns refreshForKeyError log answer) :
    log = [⟨.inl .refreshForKeyError, answer⟩] :=
  Program.Returns.of_perform h

variable [JsonReader]

/-- The claims of a verified token, and the token. -/
def readClaims (raw : String) : Except OidcError (Claims × String) :=
  match rawPayload raw with
  | .ok claims => .ok (claims, raw)
  | .error error => .error (.UnreadableClaims error)

/-- Verifies an ID token and returns the claims as they were signed.

On an unknown key id the metadata refreshes once, and the verification runs again against the
new key set. -/
def verifyIdToken (discovered : Discovered) (response : TokenResponse) (nonceVerifier : NonceVerifier) :
    Handler Discovered (Except OidcError (Claims × String)) :=
  match response.idToken with
  | none => return .error .MissingIdToken
  | some raw =>
      match OpenIdConnect.claims discovered raw nonceVerifier with
      | .ok () => return readClaims raw
      | .error error =>
          if error.isUnknownKey then do
            match ← refreshForKeyError with
            | none => return .error (.InvalidIdToken error.text)
            | some refreshed =>
                match OpenIdConnect.claims refreshed raw nonceVerifier with
                | .ok () => return readClaims raw
                | .error error => return .error (.InvalidIdToken error.text)
          else return .error (.InvalidIdToken error.text)

/-- A verified token: the keys are the ones at hand, or the ones a refresh brought. -/
structure Verified (discovered : Discovered) (log : Log Discovered) (response : TokenResponse)
    (nonceVerifier : NonceVerifier) (claims : Claims) (raw : String) : Prop where
  token : response.idToken = some raw
  payload : rawPayload raw = .ok claims
  verified : ∃ keys : Discovered,
    (keys = discovered ∨ ⟨.inl .refreshForKeyError, some keys⟩ ∈ log) ∧
      OpenIdConnect.claims keys raw nonceVerifier = .ok ()

omit [OpenIdConnect Discovered] in
theorem readClaims_ok {raw text : String} {claims : Claims}
    (h : readClaims raw = .ok (claims, text)) : rawPayload raw = .ok claims ∧ text = raw := by
  unfold readClaims at h
  split at h
  · rename_i payload hpayload
    cases h
    exact ⟨hpayload, rfl⟩
  · cases h

theorem verifyIdToken_verified {discovered : Discovered} {response : TokenResponse}
    {nonceVerifier : NonceVerifier} {claims : Claims} {raw : String} {log : Log Discovered}
    (h : Program.Returns (verifyIdToken discovered response nonceVerifier) log (.ok (claims, raw))) :
    Verified discovered log response nonceVerifier claims raw := by
  unfold verifyIdToken at h
  split at h
  · obtain ⟨_, h⟩ := h.of_done
    cases h
  rename_i text htoken
  split at h
  · rename_i hverified
    obtain ⟨_, h⟩ := h.of_done
    obtain ⟨hpayload, rfl⟩ := readClaims_ok h.symm
    exact ⟨htoken, hpayload, discovered, .inl rfl, hverified⟩
  split at h
  · obtain ⟨_, rest, answer, rfl, hrefresh, hrest⟩ := h.of_bind
    obtain rfl := refreshForKeyError_returns hrefresh
    split at hrest
    · obtain ⟨_, hrest⟩ := hrest.of_done
      cases hrest
    rename_i refreshed
    split at hrest
    · rename_i hverified
      obtain ⟨_, hrest⟩ := hrest.of_done
      obtain ⟨hpayload, rfl⟩ := readClaims_ok hrest.symm
      exact ⟨htoken, hpayload, refreshed, .inr (List.mem_append_left _ (List.mem_singleton_self _)),
        hverified⟩
    · obtain ⟨_, hrest⟩ := hrest.of_done
      cases hrest
  · obtain ⟨_, h⟩ := h.of_done
    cases h

theorem verifyIdToken_exchanges {discovered : Discovered} {tokens : TokenResponse}
    {nonceVerifier : NonceVerifier} {log : Log Discovered}
    {result : Except OidcError (Claims × String)}
    (h : Program.Returns (verifyIdToken discovered tokens nonceVerifier) log result) :
    exchanges log = 0 := by
  unfold verifyIdToken at h
  split at h
  · rw [h.of_done.1]
    rfl
  split at h
  · rw [h.of_done.1]
    rfl
  split at h
  · obtain ⟨_, rest, answer, rfl, hrefresh, hrest⟩ := h.of_bind
    have hnone : rest = [] := by
      split at hrest
      · exact hrest.of_done.1
      · split at hrest
        · exact hrest.of_done.1
        · exact hrest.of_done.1
    rw [refreshForKeyError_returns hrefresh, hnone]
    rfl
  · rw [h.of_done.1]
    rfl

end Provider

end LakeFsAuth.Authn.Oidc
