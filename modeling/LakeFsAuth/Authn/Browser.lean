import LakeFsAuth.Authn.IdToken
import LakeFsAuth.Authn.Provision
import LakeFsAuth.Authn.Redirect
import LakeFsAuth.Authn.Session

/-! The browser login: `/oidc/login` and `/oidc/callback`. The detail of an internal error goes to
the log only, and is left out. -/
namespace LakeFsAuth.Authn.Browser
open Core.Error Core.Json Core.SecretBox SecureCookie Jwt Session Oidc Redirect Library AuthzClient
open Core.Text (isHeaderValue)

structure LoginQuery where
  next : Option String

structure CallbackQuery where
  code : Option String
  state : Option String
  error : Option String
  errorDescription : Option String

/-- What the login handler stores in the private flow cookie. -/
structure FlowState where
  state : String
  nonce : String
  pkceVerifier : String
  next : Option String
  issuedAt : Int
  deriving DecidableEq

def FlowState.serialize (flow : FlowState) : Value :=
  .object ([("s", .string flow.state), ("n", .string flow.nonce), ("p", .string flow.pkceVerifier)] ++
    (flow.next.elim [] fun next => [("x", .string next)]) ++ [("t", integer flow.issuedAt)])

/-- `serde_json::to_string`. -/
def FlowState.text (flow : FlowState) : String := String.ofList flow.serialize.compact

/-- `serde_json::from_str::<FlowState>`. -/
class FlowReader where
  fromStr : String → Option FlowState

/-- The encryption of private cookies under the key of the server. It covers the name of the
cookie, and no text is empty. -/
class PrivateCookies where
  encrypt : Nonce → (name value : String) → String
  decrypt : (name text : String) → Option String
  decrypt_encrypt : ∀ nonce name value, decrypt name (encrypt nonce name value) = some value
  decrypt_empty : ∀ name, decrypt name "" = none

/-- `PrivateCookieJar`: the cookies of a request that decrypt, and what the response changes. -/
structure Jar where
  original : List (String × String)
  delta : List Cookie

namespace Jar
variable [PrivateCookies]

def fromHeaders (cookies : List (String × String)) : Jar where
  original := cookies.filterMap fun (name, text) =>
    (PrivateCookies.decrypt name text).map fun value => (name, value)
  delta := []

/-- A cookie of the request. -/
def get (jar : Jar) (name : String) : Option String := jar.original.lookup name

def without (jar : Jar) (name : String) : List Cookie := jar.delta.filter fun cookie => cookie.name != name

def add (jar : Jar) (nonce : Nonce) (cookie : Cookie) : Jar :=
  { jar with delta := jar.without cookie.name ++
      [{ cookie with value := PrivateCookies.encrypt nonce cookie.name cookie.value }] }

/-- A cookie the request did not carry needs no removal. -/
def remove (jar : Jar) (removal : Cookie) : Jar :=
  { jar with delta := jar.without removal.name ++
      if (jar.get removal.name).isSome then [removal] else [] }

end Jar

def sameSiteText : SameSite → String
  | .strict => "Strict"
  | .lax => "Lax"
  | .none => "None"

/-- `Cookie::to_string`. -/
def cookieText (cookie : Cookie) : String :=
  cookie.name ++ "=" ++ cookie.value ++ (if cookie.httpOnly then "; HttpOnly" else "") ++
    (cookie.sameSite.elim "" fun sameSite => "; SameSite=" ++ sameSiteText sameSite) ++
    (if cookie.secure then "; Secure" else "") ++
    (cookie.path.elim "" fun path => "; Path=" ++ path) ++
    (cookie.domain.elim "" fun domain => "; Domain=" ++ domain) ++
    (cookie.maxAge.elim "" fun maxAge => "; Max-Age=" ++ toString (asSecs maxAge))

/-- A response, with the message of an error body. -/
structure Response where
  status : Nat
  location : Option String
  message : Option String
  setCookie : List Cookie

def errorResponse (error : ApiError) : Response :=
  ⟨error.statusCode, none, some error.publicMessage, []⟩

/-- A 302 with a `Location` header, which is what browsers expect after a login. -/
def redirectFound (target : String) : Response :=
  if isHeaderValue target then ⟨302, some target, none, []⟩ else ⟨500, none, none, []⟩

/-- Appends the lakeFS session `Set-Cookie` header with its value verbatim. -/
def withSessionCookie (response : Response) (cookie : Cookie) : Response :=
  if isHeaderValue (cookieText cookie) then
    { response with setCookie := response.setCookie ++ [cookie] }
  else errorResponse (.Internal "")

/-- `(jar, response).into_response()`. -/
def Response.withJar (response : Response) (jar : Jar) : Response :=
  { response with setCookie := response.setCookie ++ jar.delta }

/-- What the routes use of the configuration and of the shared state. -/
structure AppState where
  allowedRedirectHosts : List String
  oidcValidateClaims : Std.ExtTreeMap String String
  postLoginRedirectUrl : String
  rpInitiatedLogout : Bool
  sessionTtl : Nat
  prov : ProvisionSettings
  maxRetries : Nat
  session : SessionCookies
  jwtKey : Core.Model.Bytes

/-- What `authorize_url` draws, and the URL it builds with it. -/
structure AuthorizeRequest where
  url : String
  state : String
  nonce : String
  pkceVerifier : String

/-- Seconds of the clock. -/
abbrev Clock := { now : Int // InClock now }

/-- The errors of a provisioner are the caller's, unless the authorization server failed. -/
def provisionErrorToApi : ProvisionError → ApiError
  | .Authz _ => .Internal ""
  | .MissingSubject => .Unauthorized "the ID token has no subject"
  | .NoUsernameClaim names => .Unauthorized s!"no claim in {names} carries a username"
  | .InvalidUsername username reason =>
      .Unauthorized ("the derived username " ++ username.quote ++ " is not usable: " ++ reason)
  | .UsernameCollision =>
      .Unauthorized "the username derived for this identity already belongs to another identity"
  | .UnknownIdentity =>
      .Unauthorized "the identity is not known and automatic provisioning is off"

/-- What a successful callback hands to the browser. -/
structure LoginOutcome where
  rawIdToken : String
  target : String
  /-- The lakeFS session cookie. -/
  sessionCookie : Cookie

/-- A failed callback, and whether it proved to be the provider's answer to the stored flow, in
which case the flow cookie is consumed. -/
structure CallbackFailure where
  error : ApiError
  consumeFlow : Bool

/-- What a callback reads from its clock and draws, in the order in which it does. -/
structure Readings where
  now : Clock
  jti : Uuid
  issuedAt : Clock
  sealedAt : Clock
  nonce : Nonce

section Login
variable {Discovered : Type} [Url.HostParser] [PrivateCookies] (state : AppState)

/-- The `next` of a login, when it asks for one and may have it. -/
def acceptNext (query : LoginQuery) : Except ApiError (Option String) :=
  match query.next with
  | some value =>
      if value ≠ "" then
        match safeNext value state.allowedRedirectHosts with
        | .ok next => .ok (some next)
        | .error error => .error (.invalid error.message)
      else .ok none
  | none => .ok none

/-- `GET /oidc/login?next=` -/
def login (current : Option Discovered) (jar : Jar) (query : LoginQuery) (request : AuthorizeRequest)
    (now : Clock) (nonce : Nonce) : Response :=
  match current with
  | none => errorResponse OidcError.NotReady.toApi
  | some _ =>
      match acceptNext state query with
      | .error error => errorResponse error
      | .ok next =>
          let flow : FlowState := {
            state := request.state
            nonce := request.nonce
            pkceVerifier := request.pkceVerifier
            next := next
            issuedAt := now }
          (redirectFound request.url).withJar (jar.add nonce (state.session.flow flow.text))

end Login

section Callback
variable {Discovered : Type} [OpenIdConnect Discovered] [Url.HostParser] [PrivateCookies] [FlowReader]
  [JsonReader] [HmacSha256] (state : AppState) (readings : Readings)

/-- The session of a provisioned user. -/
def openSession (flow : FlowState) (raw : String) (provisioned : EnsuredUser) :
    Except ApiError LoginOutcome :=
  let token := mintLoginTokenAt state.jwtKey readings.jti provisioned.user.username
    (effectiveSessionTtl state.sessionTtl) readings.issuedAt
  match state.session.login token readings.sealedAt with
  | .error _ => .error (.Internal "")
  | .ok sessionCookie => .ok {
      rawIdToken := raw
      target := resolveNext state.postLoginRedirectUrl flow.next
      sessionCookie := sessionCookie }

/-- `finish_login`, once the ID token is verified. -/
def admitUser (flow : FlowState) (claims : Claims) (raw : String) :
    Handler Discovered (Except ApiError LoginOutcome) :=
  match validateClaims claims state.oidcValidateClaims with
  | .error _ =>
      return .error (.Forbidden "the identity does not satisfy the configured claim requirements")
  | .ok () => do
      match ← (state.prov.ensureUser state.maxRetries claims).right with
      | .error error => return .error (provisionErrorToApi error)
      | .ok provisioned => return openSession state readings flow raw provisioned

/-- `finish_login`, with the code. -/
def redeem (discovered : Discovered) (flow : FlowState) (code : String) :
    Handler Discovered (Except ApiError LoginOutcome) := do
  match ← exchangeCode discovered code flow.pkceVerifier with
  | .error error => return .error error.toApi
  | .ok tokens =>
      match ← verifyIdToken discovered tokens (expectedNonce flow.nonce) with
      | .error error => return .error error.toApi
      | .ok (claims, raw) => admitUser state readings flow claims raw

/-- The part of the callback that is the provider's answer to the flow: the code exchange, the
token checks, the provisioning, and the session cookie. -/
def finishLogin (discovered : Discovered) (flow : FlowState) (code : Option String) :
    Handler Discovered (Except ApiError LoginOutcome) :=
  if (asSecs flowTtl : Int) < subI64 readings.now flow.issuedAt then
    return .error (.invalid "the login session expired, start again")
  else
    match code.filter (· != "") with
    | none => return .error (.invalid "the callback carries no authorization code")
    | some code => redeem state readings discovered flow code

/-- The part of the callback that anyone can trigger: the server must be ready, the browser must
carry a flow, and the state must match it. -/
def checkState (current : Option Discovered) (flow : Option FlowState) (stateMatches : Bool) :
    Except ApiError (Discovered × FlowState) :=
  match current with
  | none => .error OidcError.NotReady.toApi
  | some discovered =>
      match flow with
      | none => .error (.invalid "the login session is missing or expired, start again")
      | some flow =>
          if stateMatches then .ok (discovered, flow)
          else .error (.invalid "the login state does not match, start again")

/-- Whether the query answers the flow. -/
def answers (flow : Option FlowState) (received : Option String) : Bool :=
  match flow, received with
  | some flow, some received => asBytes received == asBytes flow.state
  | _, _ => false

/-- The body of the callback, without the cookie jar. -/
def callbackInner (current : Option Discovered) (stored : Option String) (query : CallbackQuery) :
    Handler Discovered (Except CallbackFailure LoginOutcome) :=
  let flow := stored.bind FlowReader.fromStr
  let stateMatches := answers flow query.state
  match query.error with
  | some error =>
      let detail := query.errorDescription.getD error
      return .error ⟨.Unauthorized s!"login failed: {detail}", stateMatches⟩
  | none =>
      match checkState current flow stateMatches with
      | .error error => return .error ⟨error, false⟩
      | .ok (discovered, flow) => do
          let outcome ← finishLogin state readings discovered flow query.code
          return outcome.mapError fun error => ⟨error, true⟩

/-- One cookie decision for every exit. -/
def respond (jar : Jar) : Except CallbackFailure LoginOutcome → Response
  | .ok login =>
      let jar := jar.remove (state.session.removal flowCookie)
      let jar :=
        match state.rpInitiatedLogout, state.session.idToken login.rawIdToken with
        | true, some cookie => jar.add readings.nonce cookie
        | _, _ => jar
      (withSessionCookie (redirectFound login.target) login.sessionCookie).withJar jar
  | .error ⟨error, consumeFlow⟩ =>
      if consumeFlow then (errorResponse error).withJar (jar.remove (state.session.removal flowCookie))
      else errorResponse error

/-- `GET /oidc/callback?code&state`.

The flow cookie holds the state, nonce, and PKCE verifier of one login and is single use. It is
cleared on success and on every failure that comes after the state check. Before the state check
it stays: anyone can send a browser to this URL with a bad or missing state. -/
def callback (current : Option Discovered) (jar : Jar) (query : CallbackQuery) :
    Handler Discovered Response := do
  let outcome ← callbackInner state readings current (jar.get flowCookie) query
  return respond state readings jar outcome

end Callback

/-! What a login and a callback do, exit by exit. -/

section Finish
variable {Discovered : Type} [Url.HostParser] [JsonReader] [HmacSha256] {state : AppState}
  {readings : Readings}

/-- A user the authorization server answered for, with claims that pass the checks, and the session
that was opened for it. -/
structure Admitted (state : AppState) (readings : Readings) (flow : FlowState) (claims : Claims)
    (raw : String) (log : Log Discovered) (login : LoginOutcome) : Prop where
  checked : ∀ name want, state.oidcValidateClaims[name]? = some want →
    (claims.lookup name).bind flattenValue = some want
  ensured : ∃ calls provisioned, log = calls.map Program.Entry.right ∧
    Program.Returns (state.prov.ensureUser state.maxRetries claims) calls (.ok provisioned) ∧
      openSession state readings flow raw provisioned = .ok login

omit [JsonReader] in
theorem admit_returns {flow : FlowState} {claims : Claims} {raw : String} {log : Log Discovered}
    {result : Except ApiError LoginOutcome}
    (h : Program.Returns (admitUser state readings flow claims raw) log result) :
    exchanges log = 0 ∧
      ∀ login, result = .ok login → Admitted state readings flow claims raw log login := by
  unfold admitUser at h
  split at h
  · obtain ⟨rfl, rfl⟩ := h.of_done
    exact ⟨rfl, by simp⟩
  · rename_i hclaims
    obtain ⟨_, rest, answer, rfl, hensure, hrest⟩ := h.of_bind
    obtain ⟨calls, rfl, hcalls⟩ := hensure.of_right
    split at hrest
    · obtain ⟨rfl, rfl⟩ := hrest.of_done
      exact ⟨by simp, by simp⟩
    · rename_i provisioned
      obtain ⟨rfl, rfl⟩ := hrest.of_done
      refine ⟨by simp, fun login hlogin => ⟨fun name want => ?_, ?_⟩⟩
      · exact validateClaims_ok hclaims
      · exact ⟨calls, provisioned, by simp, hcalls, hlogin⟩

/-- A code that was exchanged with the verifier of the flow, for a token that was verified against
the nonce of the flow. -/
structure Redeemed [OpenIdConnect Discovered] (state : AppState) (readings : Readings)
    (discovered : Discovered) (flow : FlowState) (code : String) (log : Log Discovered)
    (login : LoginOutcome) : Prop where
  exchange : ∃ tokens claims raw verifying admitting,
    log = ⟨.inl (.exchangeCode discovered code flow.pkceVerifier), .ok tokens⟩ ::
      (verifying ++ admitting) ∧
    Verified discovered verifying tokens (expectedNonce flow.nonce) claims raw ∧
    Admitted state readings flow claims raw admitting login

theorem redeem_returns [OpenIdConnect Discovered] {discovered : Discovered} {flow : FlowState} {code : String}
    {log : Log Discovered} {result : Except ApiError LoginOutcome}
    (h : Program.Returns (redeem state readings discovered flow code) log result) :
    exchanges log = 1 ∧
      ∀ login, result = .ok login → Redeemed state readings discovered flow code log login := by
  unfold redeem at h
  obtain ⟨_, rest, tokens, rfl, hexchange, hrest⟩ := h.of_bind
  obtain rfl := exchangeCode_returns hexchange
  have hone {later : Log Discovered} (hlater : exchanges later = 0) :
      exchanges ([⟨.inl (.exchangeCode discovered code flow.pkceVerifier), tokens⟩] ++ later) = 1 := by
    rw [exchanges_append, hlater]
    rfl
  split at hrest
  · obtain ⟨rfl, rfl⟩ := hrest.of_done
    exact ⟨hone rfl, by simp⟩
  · rename_i response
    obtain ⟨verifying, admitting, verified, rfl, hverify, hadmit⟩ := hrest.of_bind
    have hverifying := verifyIdToken_exchanges hverify
    split at hadmit
    · obtain ⟨rfl, rfl⟩ := hadmit.of_done
      exact ⟨hone (by simp [hverifying]), by simp⟩
    · rename_i claims raw
      obtain ⟨hnone, hadmitted⟩ := admit_returns hadmit
      refine ⟨hone (by rw [exchanges_append, hverifying, hnone]), fun login hlogin => ⟨?_⟩⟩
      exact ⟨response, claims, raw, verifying, admitting, rfl, verifyIdToken_verified hverify,
        hadmitted login hlogin⟩

/-- A login that got through, with what it took. -/
structure Passed [OpenIdConnect Discovered] (state : AppState) (readings : Readings)
    (discovered : Discovered) (flow : FlowState) (received : Option String) (log : Log Discovered)
    (login : LoginOutcome) : Prop where
  recent : subI64 readings.now flow.issuedAt ≤ asSecs flowTtl
  redeemed : ∃ code, received = some code ∧ code ≠ "" ∧
    Redeemed state readings discovered flow code log login

theorem finishLogin_returns [OpenIdConnect Discovered] {discovered : Discovered} {flow : FlowState}
    {received : Option String} {log : Log Discovered} {result : Except ApiError LoginOutcome}
    (h : Program.Returns (finishLogin state readings discovered flow received) log result) :
    exchanges log ≤ 1 ∧
      ∀ login, result = .ok login → Passed state readings discovered flow received log login := by
  unfold finishLogin at h
  split at h
  · obtain ⟨rfl, rfl⟩ := h.of_done
    exact ⟨by simp, by simp⟩
  rename_i hrecent
  split at h
  · obtain ⟨rfl, rfl⟩ := h.of_done
    exact ⟨by simp, by simp⟩
  rename_i code hcode
  obtain ⟨hone, hredeemed⟩ := redeem_returns h
  refine ⟨hone.le, fun login hlogin => ⟨Int.not_lt.mp hrecent, code, ?_⟩⟩
  obtain ⟨hreceived, hfilled⟩ := Option.filter_eq_some_iff.mp hcode
  exact ⟨hreceived, by simpa using hfilled, hredeemed login hlogin⟩

end Finish

section Cookies
variable [PrivateCookies]

@[simp] theorem fromHeaders_delta (cookies : List (String × String)) :
    (Jar.fromHeaders cookies).delta = [] := rfl

omit [PrivateCookies] in
@[simp] theorem removal_name (session : SessionCookies) (name : String) :
    (session.removal name).name = name := rfl

omit [PrivateCookies] in
theorem idToken_name {session : SessionCookies} {raw : String} {cookie : Cookie}
    (h : session.idToken raw = some cookie) : cookie.name = idTokenCookie := by
  unfold SessionCookies.idToken at h
  split at h
  · cases h
  · cases h
    rfl

/-- What a jar with a flow cookie sends when the flow is consumed. -/
theorem remove_flow (state : AppState) {cookies : List (String × String)} {stored : String}
    (hstored : (Jar.fromHeaders cookies).get flowCookie = some stored) :
    ((Jar.fromHeaders cookies).remove (state.session.removal flowCookie)).delta =
      [state.session.removal flowCookie] := by
  simp [Jar.remove, Jar.without, hstored]

variable {Discovered : Type} [Url.HostParser]

/-- A login that is accepted sets the flow cookie, and any other sets none. -/
theorem login_setCookie (state : AppState) (current : Option Discovered)
    (cookies : List (String × String)) (query : LoginQuery) (request : AuthorizeRequest)
    (now : Clock) (nonce : Nonce) :
    (login state current (Jar.fromHeaders cookies) query request now nonce).setCookie = [] ∨
      ∃ next, acceptNext state query = .ok next ∧
        (login state current (Jar.fromHeaders cookies) query request now nonce).setCookie =
        [let flow : FlowState := ⟨request.state, request.nonce, request.pkceVerifier, next, now⟩
         { state.session.flow flow.text with
           value := PrivateCookies.encrypt nonce flowCookie flow.text }] := by
  unfold login
  split
  · exact .inl rfl
  split
  · exact .inl rfl
  rename_i next hnext
  refine .inr ⟨next, hnext, ?_⟩
  have hplain : (redirectFound request.url).setCookie = [] := by
    unfold redirectFound
    split <;> rfl
  simp only [Response.withJar, hplain, Jar.add, Jar.without, fromHeaders_delta]
  rfl

variable [FlowReader]

/-- The query answers the flow of a request. -/
def Matches (cookies : List (String × String)) (query : CallbackQuery) (flow : FlowState) : Prop :=
  ((Jar.fromHeaders cookies).get flowCookie).bind FlowReader.fromStr = some flow ∧
    query.state = some flow.state

omit [Url.HostParser] in
theorem matches_of_answers {cookies : List (String × String)} {query : CallbackQuery}
    (h : answers (((Jar.fromHeaders cookies).get flowCookie).bind FlowReader.fromStr) query.state =
      true) : ∃ flow, Matches cookies query flow := by
  unfold answers at h
  split at h
  · rename_i flow received hflow hreceived
    have heq : received = flow.state := asBytes_inj.mp (by simpa using h)
    exact ⟨flow, hflow, by rw [hreceived, heq]⟩
  · cases h

omit [Url.HostParser] in
theorem Matches.stored {cookies : List (String × String)} {query : CallbackQuery} {flow : FlowState}
    (matching : Matches cookies query flow) :
    ∃ stored, (Jar.fromHeaders cookies).get flowCookie = some stored := by
  obtain ⟨stored, hstored, _⟩ := Option.bind_eq_some_iff.mp matching.1
  exact ⟨stored, hstored⟩

omit [Url.HostParser] in
theorem checkState_ok {current : Option Discovered} {cookies : List (String × String)}
    {query : CallbackQuery} {discovered : Discovered} {flow : FlowState}
    (h : checkState current (((Jar.fromHeaders cookies).get flowCookie).bind FlowReader.fromStr)
      (answers (((Jar.fromHeaders cookies).get flowCookie).bind FlowReader.fromStr) query.state) =
        .ok (discovered, flow)) : current = some discovered ∧ Matches cookies query flow := by
  unfold checkState at h
  split at h
  · cases h
  split at h
  · cases h
  rename_i stored hstored
  split at h
  · rename_i hanswers
    cases h
    obtain ⟨other, matching⟩ := matches_of_answers hanswers
    obtain rfl : other = flow := Option.some.inj (matching.1.symm.trans hstored)
    exact ⟨rfl, matching⟩
  · cases h

variable [OpenIdConnect Discovered] [JsonReader] [HmacSha256]

/-- What a callback does: it keeps the flow cookie, it clears it, or it logs in and clears it. -/
inductive Does (state : AppState) (readings : Readings) (current : Option Discovered)
    (cookies : List (String × String)) (query : CallbackQuery) (log : Log Discovered)
    (setCookie : List Cookie) : Prop where
  | kept (silent : exchanges log = 0) (nothing : setCookie = [])
  | cleared (flow : FlowState) (matching : Matches cookies query flow)
      (once : exchanges log ≤ 1) (removes : setCookie = [state.session.removal flowCookie])
  | loggedIn (flow : FlowState) (matching : Matches cookies query flow)
      (once : exchanges log ≤ 1) (discovered : Discovered) (ready : current = some discovered)
      (accepted : query.error = none) (login : LoginOutcome)
      (passed : Passed state readings discovered flow query.code log login)
      (session idToken : List Cookie)
      (sets : setCookie = session ++ state.session.removal flowCookie :: idToken)
      (opened : ∀ cookie ∈ session, cookie = login.sessionCookie)
      (kept : ∀ cookie ∈ idToken, cookie.name = idTokenCookie)

omit [OpenIdConnect Discovered] [JsonReader] [HmacSha256] [FlowReader] [Url.HostParser] in
/-- What a successful callback sets. -/
theorem respond_ok (state : AppState) (readings : Readings) {cookies : List (String × String)}
    {stored : String} (hstored : (Jar.fromHeaders cookies).get flowCookie = some stored)
    (login : LoginOutcome) :
    ∃ session idToken, (respond state readings (Jar.fromHeaders cookies) (.ok login)).setCookie =
        session ++ state.session.removal flowCookie :: idToken ∧
      (∀ cookie ∈ session, cookie = login.sessionCookie) ∧
      ∀ cookie ∈ idToken, cookie.name = idTokenCookie := by
  have hplain : (redirectFound login.target).setCookie = [] := by
    unfold redirectFound
    split <;> rfl
  have hsession : ∀ cookie ∈ (withSessionCookie (redirectFound login.target)
      login.sessionCookie).setCookie, cookie = login.sessionCookie := by
    unfold withSessionCookie
    split <;> simp [hplain, errorResponse]
  unfold respond
  dsimp only
  split
  · rename_i cookie _ hcookie
    have hname := idToken_name hcookie
    have hne : flowCookie ≠ cookie.name := by
      rw [hname]
      decide
    refine ⟨_, [{ cookie with
      value := PrivateCookies.encrypt readings.nonce cookie.name cookie.value }], ?_, hsession,
      by simpa using hname⟩
    simp [Response.withJar, Jar.add, Jar.without, remove_flow state hstored, List.filter_cons, hne]
  · refine ⟨_, [], ?_, hsession, by simp⟩
    rw [Response.withJar, remove_flow state hstored]

omit [OpenIdConnect Discovered] [JsonReader] [HmacSha256] [FlowReader] [Url.HostParser] in
/-- What a failed callback sets. -/
theorem respond_error (state : AppState) (readings : Readings) {cookies : List (String × String)}
    (failure : CallbackFailure) :
    (respond state readings (Jar.fromHeaders cookies) (.error failure)).setCookie =
      if failure.consumeFlow then
        ((Jar.fromHeaders cookies).remove (state.session.removal flowCookie)).delta
      else [] := by
  unfold respond
  dsimp only
  split <;> simp [Response.withJar, errorResponse]

theorem callback_does {state : AppState} {readings : Readings} {current : Option Discovered}
    {cookies : List (String × String)} {query : CallbackQuery} {log : Log Discovered}
    {response : Response}
    (h : Program.Returns
      (callback state readings current (Jar.fromHeaders cookies) query) log response) :
    Does state readings current cookies query log response.setCookie := by
  obtain ⟨_, _, outcome, rfl, hinner, hrespond⟩ := h.of_bind
  obtain ⟨rfl, rfl⟩ := hrespond.of_done
  rw [List.append_nil]
  unfold callbackInner at hinner
  dsimp only at hinner
  split at hinner
  · obtain ⟨rfl, rfl⟩ := hinner.of_done
    rw [respond_error]
    split
    · rename_i hanswers
      obtain ⟨flow, matching⟩ := matches_of_answers hanswers
      obtain ⟨stored, hstored⟩ := matching.stored
      exact .cleared flow matching (by simp) (remove_flow state hstored)
    · exact .kept (by simp) rfl
  rename_i herror
  split at hinner
  · obtain ⟨rfl, rfl⟩ := hinner.of_done
    exact .kept (by simp) rfl
  rename_i discovered flow hchecked
  obtain ⟨hcurrent, matching⟩ := checkState_ok hchecked
  obtain ⟨stored, hstored⟩ := matching.stored
  obtain ⟨_, _, result, rfl, hfinish, hdone⟩ := hinner.of_bind
  obtain ⟨rfl, rfl⟩ := hdone.of_done
  obtain ⟨hone, hpassed⟩ := finishLogin_returns hfinish
  rw [List.append_nil]
  cases result with
  | error error =>
    exact .cleared flow matching hone ((respond_error state readings _).trans (remove_flow state hstored))
  | ok login =>
    obtain ⟨session, idToken, hsets, hopened, hkept⟩ := respond_ok state readings hstored login
    exact .loggedIn flow matching hone discovered hcurrent herror login (hpassed login rfl) session
      idToken hsets hopened hkept

end Cookies

end LakeFsAuth.Authn.Browser
