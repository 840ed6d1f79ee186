import LakeFsAuth.Authn.LoginRuns
import LakeFsAuth.Library.Cookies

/-! `/oidc/logout`, and what a browser keeps of its sessions. Its tabs may have any number of
requests under way, whose answers arrive in any order or not at all. -/
namespace LakeFsAuth.Authn.Browser
open Core.SecretBox SecureCookie Session Oidc Library
open Core.Model (secs)
open Core.Text (isHeaderValue isHeaderValue_append)

/-- The end session endpoint of a discovery, and the URLs of a logout. -/
class LogoutRequests (Discovered : Type) where
  endSessionEndpoint : Discovered → Option String
  /-- `AuthnIdToken::from_str`. -/
  readIdToken : String → Option String
  /-- `LogoutRequest::http_get_url`. -/
  httpGetUrl : (endpoint clientId : String) → (idTokenHint postLogoutRedirectUri : Option String) → String
  /-- `Url::parse`. -/
  parse : String → Option String
  /-- `Url::join`. -/
  join : (base input : String) → Option String

/-- What a logout uses of the configuration. -/
structure LogoutSettings where
  oidcClientId : String
  postLogoutRedirectUrl : String
  publicUrl : String

section Logout
variable {Discovered : Type} [LogoutRequests Discovered] [PrivateCookies] (state : AppState)
  (settings : LogoutSettings)

variable (Discovered) in
/-- The provider needs an absolute URI, so a relative setting resolves against the public URL. -/
def postLogoutRedirect : Option String :=
  match LogoutRequests.parse Discovered settings.postLogoutRedirectUrl with
  | some url => some url
  | none => LogoutRequests.join Discovered settings.publicUrl settings.postLogoutRedirectUrl

def logoutTarget (current : Option Discovered) (idToken : Option String) : String :=
  match state.rpInitiatedLogout, current.bind LogoutRequests.endSessionEndpoint with
  | true, some endSession =>
      LogoutRequests.httpGetUrl Discovered endSession settings.oidcClientId
        (idToken.bind (LogoutRequests.readIdToken Discovered))
        (postLogoutRedirect Discovered settings)
  | _, _ => settings.postLogoutRedirectUrl

/-- `GET /oidc/logout` -/
def logout (current : Option Discovered) (jar : Jar) : Response :=
  let idToken := jar.get idTokenCookie
  let jar := (jar.remove (state.session.removal flowCookie)).remove
    (state.session.removal idTokenCookie)
  (withSessionCookie (redirectFound (logoutTarget state settings current idToken))
    state.session.clear).withJar jar

end Logout

/-! Every `Set-Cookie` of the server for a name has one domain and path, so a browser keeps one
cookie of that name. -/

/-- What the browser makes of a cookie. -/
def told (cookie : Cookie) : Cookies.SetCookie where
  key := ⟨cookie.name, cookie.domain, cookie.path⟩
  value := cookie.value
  maxAge := cookie.maxAge.map fun ttl => secs (Jwt.asSecs ttl)

/-- Under which the server sets a cookie. -/
def keyOf (state : AppState) (name : String) : Cookies.Key where
  name := name
  domain := if name = sessionCookie then state.session.options.domain else none
  path := some cookiePath

/-- What the server sets, or removes. -/
inductive Sets [PrivateCookies] [HmacSha256] (state : AppState) (cookie : Cookie) : Prop where
  | opens (token : String) (now : Int) (login : state.session.login token now = .ok cookie)
      (sendable : isHeaderValue (cookieText cookie) = true)
  | clears (same : cookie = state.session.clear)
  | hides (nonce : Nonce) (name value : String) (ttl : Nat) (own : name = flowCookie ∨ name = idTokenCookie)
      (same : cookie = { state.session.privateCookie name value ttl with
        value := PrivateCookies.encrypt nonce name value })
  | removes (name : String) (own : name = flowCookie ∨ name = idTokenCookie)
      (same : cookie = state.session.removal name)

theorem private_name {name : String} (own : name = flowCookie ∨ name = idTokenCookie) :
    name ≠ sessionCookie := by
  rcases own with rfl | rfl <;> decide

section Cookies
variable [PrivateCookies] [HmacSha256] {state : AppState} {cookie : Cookie}

theorem Sets.key (sets : Sets state cookie) : (told cookie).key = keyOf state cookie.name := by
  cases sets with
  | opens token now login sendable =>
    unfold SessionCookies.login at login
    split at login
    · cases login
    · cases login
      rfl
  | clears same =>
    subst same
    rfl
  | hides nonce name value ttl own same =>
    subst same
    have hname := private_name own
    simp [told, keyOf, SessionCookies.privateCookie, baseCookie, hname]
  | removes name own same =>
    subst same
    have hname := private_name own
    simp [told, keyOf, SessionCookies.removal, baseCookie, hname]

end Cookies

theorem redirectFound_setCookie (target : String) : (redirectFound target).setCookie = [] := by
  unfold redirectFound
  split <;> rfl

/-- What a redirect with a session cookie sets. -/
theorem withSessionCookie_setCookie (target : String) (cookie : Cookie) :
    (withSessionCookie (redirectFound target) cookie).setCookie =
      if isHeaderValue (cookieText cookie) then [cookie] else [] := by
  unfold withSessionCookie
  split
  · simp [redirectFound_setCookie]
  · rfl

section Sent
variable [PrivateCookies] {state : AppState} {cookie : Cookie} {cookies : List (String × String)}

omit [PrivateCookies] in
/-- What a jar sends when one more cookie is removed from it. -/
theorem remove_delta {jar : Jar} {name : String} (clean : ∀ cookie ∈ jar.delta, cookie.name ≠ name) :
    (jar.remove (state.session.removal name)).delta =
      jar.delta ++ if (jar.get name).isSome then [state.session.removal name] else [] := by
  have hkept : jar.without name = jar.delta := by
    refine List.filter_eq_self.mpr fun cookie hcookie => ?_
    simpa using clean cookie hcookie
  rw [Jar.remove, removal_name, hkept]

/-- What is sent for a flow that ends. -/
theorem flow_removed (state : AppState) (cookies : List (String × String)) :
    ((Jar.fromHeaders cookies).remove (state.session.removal flowCookie)).delta =
      if ((Jar.fromHeaders cookies).get flowCookie).isSome then [state.session.removal flowCookie]
      else [] :=
  remove_delta (by simp)

variable {Discovered : Type}

/-- What a logout sets. -/
theorem logout_setCookie [LogoutRequests Discovered] {settings : LogoutSettings}
    {current : Option Discovered} (cookies : List (String × String)) :
    (logout state settings current (Jar.fromHeaders cookies)).setCookie =
      (if isHeaderValue (cookieText state.session.clear) then [state.session.clear] else []) ++
        ((if ((Jar.fromHeaders cookies).get flowCookie).isSome then
          [state.session.removal flowCookie] else []) ++
        if ((Jar.fromHeaders cookies).get idTokenCookie).isSome then
          [state.session.removal idTokenCookie] else []) := by
  have hflow := flow_removed state cookies
  have hclean : ∀ cookie ∈ ((Jar.fromHeaders cookies).remove (state.session.removal flowCookie)).delta,
      cookie.name ≠ idTokenCookie := by
    rw [hflow]
    intro cookie hcookie
    split at hcookie
    · rw [List.mem_singleton.mp hcookie, removal_name]
      decide
    · cases hcookie
  unfold logout
  rw [Response.withJar, withSessionCookie_setCookie, remove_delta hclean, hflow]
  rfl

theorem logout_sets [HmacSha256] [LogoutRequests Discovered] {settings : LogoutSettings}
    {current : Option Discovered}
    (h : cookie ∈ (logout state settings current (Jar.fromHeaders cookies)).setCookie) :
    cookie = state.session.clear ∨
      ∃ name, (name = flowCookie ∨ name = idTokenCookie) ∧ cookie = state.session.removal name := by
  rw [logout_setCookie, List.mem_append, List.mem_append] at h
  rcases h with h | h | h
  · split at h
    · exact .inl (List.mem_singleton.mp h)
    · cases h
  · split at h
    · exact .inr ⟨_, .inl rfl, List.mem_singleton.mp h⟩
    · cases h
  · split at h
    · exact .inr ⟨_, .inr rfl, List.mem_singleton.mp h⟩
    · cases h

theorem login_sets [HmacSha256] [Url.HostParser] {current : Option Discovered} {query : LoginQuery}
    {request : AuthorizeRequest} {now : Clock} {nonce : Nonce}
    (h : cookie ∈ (login state current (Jar.fromHeaders cookies) query request now nonce).setCookie) :
    Sets state cookie ∧ cookie.name = flowCookie := by
  rcases login_setCookie state current cookies query request now nonce with hnone | ⟨next, _, hone⟩
  · rw [hnone] at h
    cases h
  · rw [hone, List.mem_singleton] at h
    exact ⟨.hides nonce flowCookie _ flowTtl (.inl rfl) h, h ▸ rfl⟩

/-- What a callback responds with: its session cookie, the removal of the flow, or the ID token. -/
theorem respond_sets {readings : Readings} {outcome : Except CallbackFailure LoginOutcome}
    (h : cookie ∈ (respond state readings (Jar.fromHeaders cookies) outcome).setCookie) :
    (∃ login, outcome = .ok login ∧ cookie = login.sessionCookie ∧
        isHeaderValue (cookieText cookie) = true) ∨
      cookie = state.session.removal flowCookie ∨
      ∃ raw, cookie = { state.session.privateCookie idTokenCookie raw state.session.options.ttl with
        value := PrivateCookies.encrypt readings.nonce idTokenCookie raw } := by
  have hflow := flow_removed state cookies
  have removed (hmem : cookie ∈
      ((Jar.fromHeaders cookies).remove (state.session.removal flowCookie)).delta) :
      cookie = state.session.removal flowCookie := by
    rw [hflow] at hmem
    split at hmem
    · exact List.mem_singleton.mp hmem
    · cases hmem
  unfold respond at h
  split at h
  · rename_i login
    dsimp only at h
    rw [Response.withJar, withSessionCookie_setCookie, List.mem_append] at h
    rcases h with h | h
    · split at h
      · rename_i hsendable
        obtain rfl := List.mem_singleton.mp h
        exact .inl ⟨login, rfl, rfl, hsendable⟩
      · cases h
    · right
      split at h
      · rename_i idToken _ hidToken
        rw [Jar.add, List.mem_append] at h
        rcases h with h | h
        · exact .inl (removed (List.mem_filter.mp h).1)
        · right
          unfold SessionCookies.idToken at hidToken
          split at hidToken
          · cases hidToken
          · cases hidToken
            exact ⟨login.rawIdToken, List.mem_singleton.mp h⟩
      · exact .inl (removed h)
  · split at h
    · exact .inr (.inl (removed (by simpa [Response.withJar, errorResponse] using h)))
    · simp [errorResponse] at h

end Sent

section Callbacks
variable {Discovered : Type} [OpenIdConnect Discovered] [Url.HostParser] [PrivateCookies] [FlowReader]
  [JsonReader] [HmacSha256] {state : AppState} {cookies : List (String × String)}

variable (Discovered) in
/-- A session cookie that a callback has earned: its flow was answered, its code was redeemed, and
its user is known. -/
structure Earns (state : AppState) (cookies : List (String × String)) (cookie : Cookie) : Prop where
  passed : ∃ (readings : Readings) (discovered : Discovered) (query : CallbackQuery) (flow : FlowState)
    (log : Log Discovered) (login : LoginOutcome), Matches cookies query flow ∧
      Passed state readings discovered flow query.code log login ∧ login.sessionCookie = cookie
  opened : ∃ token now, state.session.login token now = .ok cookie

omit [OpenIdConnect Discovered] [PrivateCookies] [FlowReader] [JsonReader] in
theorem openSession_login {readings : Readings} {flow : FlowState} {raw : String}
    {provisioned : AuthzClient.EnsuredUser} {login : LoginOutcome}
    (h : openSession state readings flow raw provisioned = .ok login) :
    ∃ token now, state.session.login token now = .ok login.sessionCookie := by
  unfold openSession at h
  dsimp only at h
  split at h
  · cases h
  · rename_i cookie hlogin
    cases h
    exact ⟨_, _, hlogin⟩

/-- A callback that succeeds. -/
theorem callbackInner_ok {readings : Readings} {current : Option Discovered} {query : CallbackQuery}
    {log : Log Discovered} {login : LoginOutcome}
    (h : Program.Returns (callbackInner state readings current
      ((Jar.fromHeaders cookies).get flowCookie) query) log (.ok login)) :
    ∃ discovered flow, Matches cookies query flow ∧
      Passed state readings discovered flow query.code log login := by
  unfold callbackInner at h
  dsimp only at h
  split at h
  · obtain ⟨_, hresult⟩ := h.of_done
    cases hresult
  split at h
  · obtain ⟨_, hresult⟩ := h.of_done
    cases hresult
  rename_i discovered flow hchecked
  obtain ⟨_, matching⟩ := checkState_ok hchecked
  obtain ⟨_, _, result, rfl, hfinish, hdone⟩ := h.of_bind
  obtain ⟨rfl, hresult⟩ := hdone.of_done
  obtain ⟨_, hpassed⟩ := finishLogin_returns hfinish
  rw [List.append_nil]
  cases result with
  | error error => cases hresult
  | ok other =>
    obtain rfl : login = other := Except.ok.inj hresult
    exact ⟨discovered, flow, matching, hpassed login rfl⟩

/-- A callback opens one session at most. -/
theorem callback_session {readings : Readings} {current : Option Discovered} {query : CallbackQuery}
    {log : Log Discovered} {response : Response}
    (h : Program.Returns (callback state readings current (Jar.fromHeaders cookies) query) log response)
    {cookie other : Cookie} (hcookie : cookie ∈ response.setCookie) (hother : other ∈ response.setCookie)
    (hname : cookie.name = sessionCookie) (hname' : other.name = sessionCookie) : cookie = other := by
  obtain ⟨_, _, outcome, rfl, -, hrespond⟩ := h.of_bind
  obtain ⟨rfl, rfl⟩ := hrespond.of_done
  have opened {cookie : Cookie} (hname : cookie.name = sessionCookie)
      (hcookie : cookie ∈ (respond state readings (Jar.fromHeaders cookies) outcome).setCookie) :
      ∃ login, outcome = .ok login ∧ cookie = login.sessionCookie := by
    rcases respond_sets hcookie with ⟨login, hlogin, hopened, _⟩ | rfl | ⟨raw, rfl⟩
    · exact ⟨login, hlogin, hopened⟩
    · rw [removal_name] at hname
      exact absurd hname (by decide)
    · exact absurd (show idTokenCookie = sessionCookie from hname) (by decide)
  obtain ⟨login, rfl, rfl⟩ := opened hname hcookie
  obtain ⟨login', hlogin, rfl⟩ := opened hname' hother
  rw [Except.ok.inj hlogin]

theorem callback_sets {readings : Readings} {current : Option Discovered} {query : CallbackQuery}
    {log : Log Discovered} {response : Response} {cookie : Cookie}
    (h : Program.Returns (callback state readings current (Jar.fromHeaders cookies) query) log response)
    (hcookie : cookie ∈ response.setCookie) :
    Sets state cookie ∧
      (cookie.name = sessionCookie → Earns Discovered state cookies cookie) := by
  obtain ⟨_, _, outcome, rfl, hinner, hrespond⟩ := h.of_bind
  obtain ⟨rfl, rfl⟩ := hrespond.of_done
  rcases respond_sets hcookie with ⟨login, rfl, rfl, hsendable⟩ | rfl | ⟨raw, rfl⟩
  · obtain ⟨discovered, flow, matching, passed⟩ := callbackInner_ok hinner
    obtain ⟨code, _, _, redeemed⟩ := passed.redeemed
    obtain ⟨_, _, _, _, _, _, _, admitted⟩ := redeemed.exchange
    obtain ⟨_, _, _, _, hopened⟩ := admitted.ensured
    obtain ⟨token, now, hlogin⟩ := openSession_login hopened
    exact ⟨.opens token now hlogin hsendable,
      fun _ => ⟨⟨readings, discovered, query, flow, _, login, matching, passed, rfl⟩, token, now, hlogin⟩⟩
  · refine ⟨.removes flowCookie (.inl rfl) rfl, fun hname => absurd hname ?_⟩
    rw [removal_name]
    decide
  · exact ⟨.hides readings.nonce idTokenCookie raw _ (.inr rfl) rfl, fun hname =>
      absurd (show idTokenCookie = sessionCookie from hname) (by decide)⟩

end Callbacks

/-- Where a session cookie can be sent, so can its removal: both carry the same domain. -/
theorem clear_sendable [HmacSha256] {session : SessionCookies} {token : String} {now : Int}
    {cookie : Cookie} (h : session.login token now = .ok cookie)
    (sendable : isHeaderValue (cookieText cookie) = true) :
    isHeaderValue (cookieText session.clear) = true := by
  unfold SessionCookies.login at h
  split at h
  · cases h
  · cases h
    simp only [cookieText, isHeaderValue_append, Bool.and_eq_true, SessionCookies.clear, baseCookie]
      at sendable ⊢
    obtain ⟨⟨⟨⟨⟨⟨⟨⟨hname, hequals⟩, _⟩, hhttpOnly⟩, hsameSite⟩, hsecure⟩, hpath⟩, hdomain⟩, _⟩ := sendable
    exact ⟨⟨⟨⟨⟨⟨⟨⟨hname, hequals⟩, by decide⟩, hhttpOnly⟩, hsameSite⟩, hsecure⟩, hpath⟩, hdomain⟩, by decide⟩

/-! The tabs of one browser. -/

inductive Route where
  | login
  | callback
  | logout
  deriving DecidableEq

/-- An answer of the server, with the cookies of its request. -/
structure Answer where
  route : Route
  sent : List (String × String)
  response : Response

/-- What the server answers. -/
inductive Serves (Discovered : Type) [OpenIdConnect Discovered] [LogoutRequests Discovered]
    [Url.HostParser] [PrivateCookies] [FlowReader] [JsonReader] [HmacSha256] (state : AppState)
    (settings : LogoutSettings) : Answer → Prop where
  | login (sent : List (String × String)) (current : Option Discovered) (query : LoginQuery)
      (request : AuthorizeRequest) (now : Clock) (nonce : Nonce) :
      Serves Discovered state settings
        ⟨.login, sent, login state current (Jar.fromHeaders sent) query request now nonce⟩
  | callback (sent : List (String × String)) (current : Option Discovered) (query : CallbackQuery)
      (readings : Readings) (log : Log Discovered) (response : Response)
      (returns : Program.Returns
        (callback state readings current (Jar.fromHeaders sent) query) log response) :
      Serves Discovered state settings ⟨.callback, sent, response⟩
  | logout (sent : List (String × String)) (current : Option Discovered) :
      Serves Discovered state settings
        ⟨.logout, sent, logout state settings current (Jar.fromHeaders sent)⟩
  /-- A query that cannot be read, or a request that took too long. -/
  | refused (route : Route) (sent : List (String × String)) (response : Response)
      (early : response = badQuery ∧ route ≠ .logout ∨ response = requestTimeout ∧ route = .callback) :
      Serves Discovered state settings ⟨route, sent, response⟩

structure Tabs where
  /-- In nanoseconds. -/
  now : Nat
  store : List Cookies.Kept
  inFlight : List Answer

namespace Tabs

def initial (now : Nat) : Tabs := ⟨now, [], []⟩

/-- The cookies of a request. -/
def cookies (w : Tabs) : List (String × String) :=
  (Cookies.shown w.now w.store).map fun kept => (kept.key.name, kept.value)

inductive Event where
  | passed (time : Nat)
  | requested (answer : Answer)
  | received (i : Nat) (answer : Answer)
  | lost (i : Nat)

def Event.heard (now : Nat) : Event → List (Nat × Cookies.SetCookie)
  | .received _ answer => answer.response.setCookie.map fun cookie => (now, told cookie)
  | _ => []

/-- All a step tells the browser was set by an answer. -/
theorem Event.mem_heard {event : Event} {now : Nat} {entry : Nat × Cookies.SetCookie} :
    entry ∈ event.heard now ↔ ∃ i answer cookie, event = .received i answer ∧
      cookie ∈ answer.response.setCookie ∧ entry = (now, told cookie) := by
  constructor
  · intro h
    cases event with
    | received i answer =>
      obtain ⟨cookie, hcookie, rfl⟩ := List.mem_map.mp h
      exact ⟨i, answer, cookie, rfl, hcookie, rfl⟩
    | _ => cases h
  · rintro ⟨i, answer, cookie, rfl, hcookie, rfl⟩
    exact List.mem_map_of_mem hcookie

section Steps
variable (Discovered : Type) [OpenIdConnect Discovered] [LogoutRequests Discovered]
    [Url.HostParser] [PrivateCookies] [FlowReader] [JsonReader] [HmacSha256] (state : AppState)
    (settings : LogoutSettings)

/-- One step. A request is answered for the cookies it was sent with. -/
inductive Step (w : Tabs) : Event → Tabs → Prop where
  | passed (time : Nat) : Step w (.passed time) { w with now := w.now + time }
  | requested (answer : Answer) (sent : answer.sent = w.cookies)
      (serves : Serves Discovered state settings answer) :
      Step w (.requested answer) { w with inFlight := w.inFlight ++ [answer] }
  | received (i : Nat) (answer : Answer) (arrives : w.inFlight[i]? = some answer) :
      Step w (.received i answer) { w with
        store := (Event.heard w.now (.received i answer)).foldl
          (fun store (now, cookie) => Cookies.receive now store cookie) w.store
        inFlight := w.inFlight.eraseIdx i }
  | lost (i : Nat) : Step w (.lost i) { w with inFlight := w.inFlight.eraseIdx i }

end Steps

/-- All the browser was told along a run. -/
def heard (log : List (Move Event Tabs)) : List (Nat × Cookies.SetCookie) :=
  log.flatMap fun move => move.label.heard move.before.now

section Runs
variable {Discovered : Type} [OpenIdConnect Discovered] [LogoutRequests Discovered]
    [Url.HostParser] [PrivateCookies] [FlowReader] [JsonReader] [HmacSha256] {state : AppState}
    {settings : LogoutSettings} {log : List (Move Event Tabs)} {w : Tabs} {start : Nat} {answer : Answer}
    {cookie : Cookie}

theorem serves_sets (serves : Serves Discovered state settings answer)
    (h : cookie ∈ answer.response.setCookie) : Sets state cookie ∧ (cookie.name = sessionCookie →
      answer.route = .logout ∧ cookie = state.session.clear ∨
        answer.route = .callback ∧ Earns Discovered state answer.sent cookie) := by
  cases serves with
  | login sent current query request now nonce =>
    obtain ⟨sets, hflow⟩ := login_sets h
    exact ⟨sets, fun hname => absurd (hflow.symm.trans hname) (by decide)⟩
  | callback sent current query readings log response returns =>
    obtain ⟨sets, earns⟩ := callback_sets returns h
    exact ⟨sets, fun hname => .inr ⟨rfl, earns hname⟩⟩
  | logout sent current =>
    rcases logout_sets h with rfl | ⟨name, own, rfl⟩
    · exact ⟨.clears rfl, fun _ => .inl ⟨rfl, rfl⟩⟩
    · refine ⟨.removes name own rfl, fun hname => ?_⟩
      exact absurd hname (private_name own)
  | refused route sent response early =>
    rcases early with ⟨rfl, _⟩ | ⟨rfl, _⟩ <;> cases h

theorem serves_session (serves : Serves Discovered state settings answer) {other : Cookie}
    (hcookie : cookie ∈ answer.response.setCookie) (hother : other ∈ answer.response.setCookie)
    (hname : cookie.name = sessionCookie) (hname' : other.name = sessionCookie) : cookie = other := by
  have hlogout (hroute : answer.route = .logout) : cookie = other := by
    rcases (serves_sets serves hcookie).2 hname with ⟨_, hclear⟩ | ⟨hcallback, _⟩
    · rcases (serves_sets serves hother).2 hname' with ⟨_, hclear'⟩ | ⟨hcallback, _⟩
      · rw [hclear, hclear']
      · exact absurd (hroute.symm.trans hcallback) (by decide)
    · exact absurd (hroute.symm.trans hcallback) (by decide)
  cases serves with
  | callback sent current query readings log response returns =>
    exact callback_session returns hcookie hother hname hname'
  | logout sent current => exact hlogout rfl
  | login sent current query request now nonce =>
    exact absurd ((login_sets hcookie).2.symm.trans hname) (by decide)
  | refused route sent response early => rcases early with ⟨rfl, _⟩ | ⟨rfl, _⟩ <;> cases hcookie

/-- The store is what the browser was told, and every answer is the server's. -/
theorem state_of_trace (trace : Trace (Step Discovered state settings) (.initial start) log w) :
    w.store = Cookies.storeOf (heard log) ∧ ∀ answer ∈ w.inFlight, Serves Discovered state settings answer := by
  induction trace with
  | nil => exact ⟨rfl, by simp [initial]⟩
  | @snoc log event w w' trace step ih =>
    obtain ⟨hstore, hserves⟩ := ih
    have hheard : heard (log ++ [⟨w, event, w'⟩]) = heard log ++ event.heard w.now := by
      simp [heard]
    have silent (hnone : event.heard w.now = []) :
        w.store = Cookies.storeOf (heard (log ++ [⟨w, event, w'⟩])) := by
      rw [hheard, hnone, List.append_nil]
      exact hstore
    cases step with
    | passed time => exact ⟨silent rfl, hserves⟩
    | requested answer sent serves =>
      refine ⟨silent rfl, fun other hother => ?_⟩
      rcases List.mem_append.mp hother with hmem | hmem
      · exact hserves other hmem
      · rw [List.mem_singleton.mp hmem]
        exact serves
    | received i answer arrives =>
      rw [hheard, Cookies.storeOf_append, hstore]
      exact ⟨rfl, fun other hother => hserves other (List.mem_of_mem_eraseIdx hother)⟩
    | lost i =>
      exact ⟨silent rfl, fun other hother => hserves other (List.mem_of_mem_eraseIdx hother)⟩

theorem now_le_of_trace {w' : Tabs} (trace : Trace (Step Discovered state settings) w log w') :
    w.now ≤ w'.now := by
  induction trace with
  | nil => exact Nat.le_refl _
  | snoc trace step ih =>
    cases step with
    | passed time => exact Nat.le_add_right_of_le ih
    | requested => exact ih
    | received => exact ih
    | lost => exact ih

/-- Where a run receives an answer. -/
theorem received_of_trace (trace : Trace (Step Discovered state settings) (.initial start) log w)
    {earlier later : List (Move Event Tabs)} {move : Move Event Tabs} {i : Nat}
    (hlog : log = earlier ++ move :: later) (hlabel : move.label = .received i answer) :
    Serves Discovered state settings answer ∧
      move.after.store = Cookies.storeOf (heard earlier ++ move.label.heard move.before.now) ∧
        move.before.now ≤ w.now := by
  obtain ⟨hearlier, step, hlater⟩ := trace.cut hlog
  obtain ⟨hstore, hserves⟩ := state_of_trace hearlier
  have hnow := now_le_of_trace hlater
  generalize hafter : move.after = after at step hnow
  rw [hlabel] at step
  cases step with
  | received _ _ arrives =>
    refine ⟨hserves answer (List.mem_of_getElem? arrives), ?_, hnow⟩
    rw [hlabel, Cookies.storeOf_append, hstore]

/-- All the browser was told was set by the server. -/
theorem heard_sets (trace : Trace (Step Discovered state settings) (.initial start) log w)
    {entry : Nat × Cookies.SetCookie} (h : entry ∈ heard log) :
    ∃ cookie, Sets state cookie ∧ entry.2 = told cookie := by
  obtain ⟨move, hmove, hentry⟩ := List.mem_flatMap.mp h
  obtain ⟨earlier, later, hlog⟩ := List.append_of_mem hmove
  obtain ⟨i, answer, cookie, hlabel, hcookie, rfl⟩ := Event.mem_heard.mp hentry
  obtain ⟨hserves, _, _⟩ := received_of_trace trace hlog hlabel
  exact ⟨cookie, (serves_sets hserves hcookie).1, rfl⟩

/-- The browser is told of its session. -/
def Speaks (move : Move Event Tabs) : Prop :=
  ∃ i answer, move.label = .received i answer ∧
    ∃ cookie ∈ answer.response.setCookie, cookie.name = sessionCookie

variable (Discovered) in
/-- A callback that passed opens a session that lasts until now. -/
structure LogsIn (state : AppState) (move : Move Event Tabs) (value : String) (now : Nat) : Prop where
  callback : ∃ i answer cookie, move.label = .received i answer ∧ answer.route = .callback ∧
    cookie ∈ answer.response.setCookie ∧ cookie.name = sessionCookie ∧ cookie.value = value ∧
      Earns Discovered state answer.sent cookie
  recent : now < move.before.now + secs (Jwt.asSecs state.session.options.ttl)

variable (Discovered) in
/-- What a browser keeps of the sessions of a user. -/
structure Browses (state : AppState) (log : List (Move Event Tabs)) (w : Tabs) : Prop where
  /-- It shows one cookie of a name. -/
  single : (w.cookies.map Prod.fst).Nodup
  /-- It shows the session of the last login it heard of, until that expires or it hears of another
  one or a logout. -/
  session : ∀ value, (sessionCookie, value) ∈ w.cookies ↔
    ∃ earlier move later, log = earlier ++ move :: later ∧ LogsIn Discovered state move value w.now ∧
      ∀ other ∈ later, ¬ Speaks other
  /-- A logout takes the session, and every private cookie it was asked with. -/
  loggedOut : ∀ move ∈ log, ∀ i answer, move.label = .received i answer → answer.route = .logout →
    ∀ kept ∈ move.after.store, kept.key.name ≠ sessionCookie ∧
      (kept.key.name = flowCookie ∨ kept.key.name = idTokenCookie →
        (kept.key.name, kept.value) ∉ answer.sent)

omit [OpenIdConnect Discovered] [LogoutRequests Discovered] [Url.HostParser] [PrivateCookies]
  [FlowReader] [JsonReader] in
theorem login_maxAge {token : String} {now : Int} (h : state.session.login token now = .ok cookie) :
    (told cookie).maxAge = some (secs (Jwt.asSecs state.session.options.ttl)) := by
  unfold SessionCookies.login at h
  split at h
  · cases h
  · cases h
    rfl

omit [OpenIdConnect Discovered] [LogoutRequests Discovered] [Url.HostParser]
  [FlowReader] [JsonReader] in
/-- A cookie that stays is a session, or one the server can open. -/
theorem sets_stays (sets : Sets state cookie) (stays : (told cookie).removes = false) :
    cookie.name = sessionCookie ∧ isHeaderValue (cookieText state.session.clear) = true ∨
      cookie.name ≠ sessionCookie ∧ (PrivateCookies.decrypt cookie.name cookie.value).isSome = true := by
  cases sets with
  | opens token now login sendable => exact .inl ⟨sessionCookie_name login, clear_sendable login sendable⟩
  | clears same =>
    subst same
    cases stays
  | hides nonce name value ttl own same =>
    subst same
    refine .inr ⟨private_name own, ?_⟩
    show (PrivateCookies.decrypt name (PrivateCookies.encrypt nonce name value)).isSome = true
    rw [PrivateCookies.decrypt_encrypt]
    rfl
  | removes name own same =>
    subst same
    cases stays

/-- What the browser keeps, and the cookie it is. -/
theorem kept_sets (trace : Trace (Step Discovered state settings) (.initial start) log w)
    {kept : Cookies.Kept} (h : kept ∈ w.store) : ∃ now cookie, Sets state cookie ∧
      Cookies.word kept.key (heard log) = some (now, told cookie) ∧
        (told cookie).removes = false ∧ kept = (told cookie).keep now := by
  rw [(state_of_trace trace).1] at h
  obtain ⟨now, setCookie, hword, hstays, rfl⟩ := Cookies.mem_storeOf.mp h
  obtain ⟨_, before, after, hheard, _⟩ := Cookies.word_eq_some hword
  obtain ⟨cookie, sets, htold⟩ := heard_sets trace (hheard ▸ List.mem_append_right _ List.mem_cons_self)
  dsimp only at htold
  subst htold
  exact ⟨now, cookie, sets, hword, hstays, rfl⟩

theorem single_of_trace (trace : Trace (Step Discovered state settings) (.initial start) log w) :
    (w.cookies.map Prod.fst).Nodup := by
  have hnames : (w.store.map fun kept => kept.key.name).Nodup := by
    have hkeys := Cookies.storeOf_nodup (heard log)
    rw [← (state_of_trace trace).1] at hkeys
    rw [show (fun kept : Cookies.Kept => kept.key.name) = Cookies.Key.name ∘ Cookies.Kept.key from rfl,
      ← List.map_map]
    refine List.Nodup.map_on ?_ hkeys
    intro key hkey other hother hname
    obtain ⟨kept, hkept, rfl⟩ := List.mem_map.mp hkey
    obtain ⟨kept', hkept', rfl⟩ := List.mem_map.mp hother
    obtain ⟨_, cookie, sets, _, _, rfl⟩ := kept_sets trace hkept
    obtain ⟨_, cookie', sets', _, _, rfl⟩ := kept_sets trace hkept'
    have hsame : cookie.name = cookie'.name := hname
    exact sets.key.trans (hsame ▸ sets'.key.symm)
  refine List.Nodup.sublist ?_ hnames
  rw [cookies, List.map_map]
  exact List.filter_sublist.map _

/-- All a logout sets are removals. -/
theorem logout_removes (serves : Serves Discovered state settings answer) (hroute : answer.route = .logout)
    (h : cookie ∈ answer.response.setCookie) : (told cookie).removes = true := by
  cases serves with
  | logout sent current => rcases logout_sets h with rfl | ⟨name, own, rfl⟩ <;> rfl
  | login => cases hroute
  | callback => cases hroute
  | refused route sent response early => rcases early with ⟨rfl, _⟩ | ⟨rfl, _⟩ <;> cases h

omit [HmacSha256] [FlowReader] [JsonReader] [Url.HostParser] [LogoutRequests Discovered]
  [OpenIdConnect Discovered] in
theorem get_of_sent {sent : List (String × String)} {name value : String} (h : (name, value) ∈ sent)
    (opens : (PrivateCookies.decrypt name value).isSome = true) :
    ((Jar.fromHeaders sent).get name).isSome = true := by
  obtain ⟨text, htext⟩ := Option.isSome_iff_exists.mp opens
  have hmem : (name, text) ∈ (Jar.fromHeaders sent).original :=
    List.mem_filterMap.mpr ⟨(name, value), h, by simp [htext]⟩
  rw [Jar.get, List.lookup_isSome_iff]
  exact ⟨(name, text), hmem, by simp⟩

/-- What a logout removes. -/
theorem logout_tells (serves : Serves Discovered state settings answer) (hroute : answer.route = .logout) :
    (isHeaderValue (cookieText state.session.clear) = true →
      state.session.clear ∈ answer.response.setCookie) ∧
    ∀ name value, name = flowCookie ∨ name = idTokenCookie → (name, value) ∈ answer.sent →
      (PrivateCookies.decrypt name value).isSome = true →
        state.session.removal name ∈ answer.response.setCookie := by
  cases serves with
  | logout sent current =>
    refine ⟨fun hsendable => ?_, fun name value own hsent opens => ?_⟩
    · rw [logout_setCookie, if_pos hsendable]
      exact List.mem_append_left _ (List.mem_singleton_self _)
    · have hget := get_of_sent hsent opens
      rw [logout_setCookie]
      rcases own with rfl | rfl <;> simp [hget]
  | login => cases hroute
  | callback => cases hroute
  | refused route sent response early =>
    cases hroute
    rcases early with ⟨_, hother⟩ | ⟨_, hother⟩
    · exact absurd rfl hother
    · cases hother

/-- A cookie that a logout removes is gone. -/
theorem gone_after_logout (trace : Trace (Step Discovered state settings) (.initial start) log w)
    {move : Move Event Tabs} (hmove : move ∈ log) {i : Nat} (hlabel : move.label = .received i answer)
    (hroute : answer.route = .logout) (h : cookie ∈ answer.response.setCookie)
    {kept : Cookies.Kept} (hkept : kept ∈ move.after.store) : kept.key.name ≠ cookie.name := by
  intro hname
  obtain ⟨earlier, later, hlog⟩ := List.append_of_mem hmove
  obtain ⟨hearlier, step, _⟩ := trace.cut hlog
  obtain ⟨hserves, _, _⟩ := received_of_trace trace hlog hlabel
  have htrace : Trace (Step Discovered state settings) (.initial start) (earlier ++ [move]) move.after :=
    .snoc hearlier step
  obtain ⟨now, other, sets, hword, hstays, rfl⟩ := kept_sets htrace hkept
  have hsame : other.name = cookie.name := hname
  have hkey : (told cookie).key = (told other).key := by
    rw [(serves_sets hserves h).1.key, sets.key, hsame]
  have hentry : (move.before.now, told cookie) ∈ move.label.heard move.before.now :=
    Event.mem_heard.mpr ⟨i, answer, cookie, hlabel, h, rfl⟩
  have hheard : heard (earlier ++ [move]) = heard earlier ++ move.label.heard move.before.now := by
    simp [heard]
  have hword' : Cookies.word (told cookie).key (heard earlier ++ move.label.heard move.before.now) =
      some (now, told other) := by
    rw [hkey, ← hheard]
    exact hword
  obtain ⟨last, hlast, _, hlast'⟩ := Cookies.word_append hentry
  obtain rfl := Option.some.inj (hword'.symm.trans hlast')
  rw [hlabel] at hlast
  obtain ⟨removal, hremoval, heq⟩ := List.mem_map.mp hlast
  have hremoves := logout_removes hserves hroute hremoval
  rw [(Prod.mk.inj heq).2, hstays] at hremoves
  cases hremoves

theorem loggedOut_of_trace (trace : Trace (Step Discovered state settings) (.initial start) log w)
    {move : Move Event Tabs} (hmove : move ∈ log) {i : Nat} (hlabel : move.label = .received i answer)
    (hroute : answer.route = .logout) {kept : Cookies.Kept} (hkept : kept ∈ move.after.store) :
    kept.key.name ≠ sessionCookie ∧ (kept.key.name = flowCookie ∨ kept.key.name = idTokenCookie →
      (kept.key.name, kept.value) ∉ answer.sent) := by
  obtain ⟨earlier, later, hlog⟩ := List.append_of_mem hmove
  obtain ⟨hearlier, step, _⟩ := trace.cut hlog
  obtain ⟨hserves, _, _⟩ := received_of_trace trace hlog hlabel
  have htrace : Trace (Step Discovered state settings) (.initial start) (earlier ++ [move]) move.after :=
    .snoc hearlier step
  have hgone {cookie : Cookie} (h : cookie ∈ answer.response.setCookie) : kept.key.name ≠ cookie.name :=
    gone_after_logout trace hmove hlabel hroute h hkept
  obtain ⟨now, cookie, sets, _, hstays, hkeep⟩ := kept_sets htrace hkept
  have hname : kept.key.name = cookie.name := by rw [hkeep]; rfl
  have hvalue : kept.value = cookie.value := by rw [hkeep]; rfl
  obtain ⟨hclear, hremoval⟩ := logout_tells hserves hroute
  rw [hname, hvalue]
  rw [hname] at hgone
  rcases sets_stays sets hstays with ⟨hsession, hsendable⟩ | ⟨hother, hopens⟩
  · exact absurd hsession (hgone (hclear hsendable))
  · exact ⟨hother, fun own hsent => hgone (hremoval _ _ own hsent hopens) rfl⟩

omit [OpenIdConnect Discovered] [LogoutRequests Discovered] [Url.HostParser] [PrivateCookies]
  [FlowReader] [JsonReader] [HmacSha256] in
theorem mem_cookies {name value : String} : (name, value) ∈ w.cookies ↔
    ∃ kept ∈ Cookies.shown w.now w.store, kept.key.name = name ∧ kept.value = value := by
  simp [cookies]

theorem logsIn_of_shown (trace : Trace (Step Discovered state settings) (.initial start) log w)
    {value : String} (h : (sessionCookie, value) ∈ w.cookies) :
    ∃ earlier move later, log = earlier ++ move :: later ∧
      LogsIn Discovered state move value w.now ∧ ∀ other ∈ later, ¬ Speaks other := by
  obtain ⟨kept, hkept, hname, rfl⟩ := mem_cookies.mp h
  rw [(state_of_trace trace).1] at hkept
  obtain ⟨now, setCookie, hword, hstays, hlive, rfl⟩ := Cookies.mem_shown.mp hkept
  obtain ⟨hkey, before, after, hheard, hafter⟩ := Cookies.word_eq_some hword
  obtain ⟨earlier, move, later, back, hlog, hitem, rfl⟩ := EventLog.split_flatMap hheard
  refine ⟨earlier, move, later, hlog, ?_, ?_⟩
  · obtain ⟨i, answer, cookie, hlabel, hcookie, heq⟩ := Event.mem_heard.mp hitem
    obtain ⟨rfl, rfl⟩ := Prod.mk.inj heq
    obtain ⟨hserves, _, _⟩ := received_of_trace trace hlog hlabel
    rcases (serves_sets hserves hcookie).2 hname with ⟨_, rfl⟩ | ⟨hroute, earns⟩
    · cases hstays
    · obtain ⟨token, at', hlogin⟩ := earns.opened
      exact ⟨⟨i, answer, cookie, hlabel, hroute, hcookie, hname, rfl, earns⟩,
        hlive _ (login_maxAge hlogin)⟩
  · rintro other hother ⟨i, answer, hlabel, cookie, hcookie, hsession⟩
    obtain ⟨front, rest, rfl⟩ := List.append_of_mem hother
    have hserves : Serves Discovered state settings answer :=
      (received_of_trace trace (hlog.trans (by simp :
        earlier ++ move :: (front ++ other :: rest) = (earlier ++ move :: front) ++ other :: rest)) hlabel).1
    have hentry : (other.before.now, told cookie) ∈ back ++ (front ++ other :: rest).flatMap
        fun move => move.label.heard move.before.now :=
      List.mem_append_right _ (List.mem_flatMap.mpr ⟨other, hother,
        Event.mem_heard.mpr ⟨i, answer, cookie, hlabel, hcookie, rfl⟩⟩)
    obtain ⟨kept, sets, htold⟩ := heard_sets trace (hheard ▸ List.mem_append_right _ List.mem_cons_self)
    dsimp only at htold
    subst htold
    have hname' : kept.name = sessionCookie := hname
    refine hafter _ hentry ?_
    show (told cookie).key = (told kept).key
    rw [(serves_sets hserves hcookie).1.key, sets.key, hsession, hname']

theorem shown_of_logsIn (trace : Trace (Step Discovered state settings) (.initial start) log w)
    {value : String} {earlier later : List (Move Event Tabs)} {move : Move Event Tabs}
    (hlog : log = earlier ++ move :: later) (logsIn : LogsIn Discovered state move value w.now)
    (silent : ∀ other ∈ later, ¬ Speaks other) : (sessionCookie, value) ∈ w.cookies := by
  obtain ⟨i, answer, cookie, hlabel, hroute, hcookie, hname, rfl, earns⟩ := logsIn.callback
  obtain ⟨hserves, _, hpast⟩ := received_of_trace trace hlog hlabel
  obtain ⟨token, at', hlogin⟩ := earns.opened
  have hmaxAge := login_maxAge hlogin
  have hrecent := logsIn.recent
  have hheard : heard log = (heard earlier ++ move.label.heard move.before.now) ++ heard later := by
    simp [hlog, heard]
  have hlater : ∀ entry ∈ heard later, entry.2.key ≠ (told cookie).key := by
    intro entry hentry hkey
    obtain ⟨other, hother, hitem⟩ := List.mem_flatMap.mp hentry
    obtain ⟨j, answer', cookie', hlabel', hcookie', rfl⟩ := Event.mem_heard.mp hitem
    have hsame : cookie'.name = cookie.name := congrArg Cookies.Key.name hkey
    exact silent other hother ⟨j, answer', hlabel', cookie', hcookie', hsame.trans hname⟩
  have hentry : (move.before.now, told cookie) ∈ move.label.heard move.before.now :=
    Event.mem_heard.mpr ⟨i, answer, cookie, hlabel, hcookie, rfl⟩
  have hword : Cookies.word (told cookie).key (heard log) = some (move.before.now, told cookie) := by
    obtain ⟨last, hlast, hkey, hword⟩ := Cookies.word_append hentry
    rw [hheard, Cookies.word_append_other hlater]
    refine hword.trans (congrArg some ?_)
    rw [hlabel] at hlast
    obtain ⟨cookie', hcookie', rfl⟩ := List.mem_map.mp hlast
    have hsame : cookie'.name = cookie.name := congrArg Cookies.Key.name hkey
    rw [serves_session hserves hcookie' hcookie (hsame.trans hname) hname]
  refine mem_cookies.mpr ⟨(told cookie).keep move.before.now, ?_, hname, rfl⟩
  rw [(state_of_trace trace).1]
  refine Cookies.mem_shown.mpr ⟨_, _, hword, ?_, fun maxAge h => ?_, rfl⟩
  · rw [Cookies.SetCookie.removes, hmaxAge]
    refine beq_eq_false_iff_ne.mpr fun hzero => ?_
    have hzero' := Option.some.inj hzero
    omega
  · rw [hmaxAge] at h
    cases h
    exact hrecent

/-- However the tabs of a browser log in and out, and however late their answers arrive, the browser
shows the session of the last login it heard of, and none after a logout. -/
theorem logout_ends_sessions (trace : Trace (Step Discovered state settings) (.initial start) log w) :
    Browses Discovered state log w where
  single := single_of_trace trace
  session _ := ⟨logsIn_of_shown trace, fun ⟨_, _, _, hlog, logsIn, silent⟩ =>
    shown_of_logsIn trace hlog logsIn silent⟩
  loggedOut _ hmove _ _ hlabel hroute _ hkept := loggedOut_of_trace trace hmove hlabel hroute hkept

end Runs

end Tabs

section Ada
open Redirect Authz.Api Authz.Store.Mem

attribute [local instance] plainHosts plainMac openCookies adaReader adaClaims credulous

/-- A provider that ends its sessions. -/
@[reducible] def endsSessions : LogoutRequests Unit where
  endSessionEndpoint _ := some "https://idp.test/logout"
  readIdToken := some
  httpGetUrl endpoint _ _ _ := endpoint
  parse _ := none
  join base input := some (base ++ input)

attribute [local instance] endsSessions

def adaSettings : LogoutSettings := ⟨"lakefs", "/", "https://lakefs.test"⟩

def noTimeout (_ : Nat) (_ : ProviderCall Unit ⊕ Call) : Bool := false

def loginOf (w : Tabs) : Answer :=
  ⟨.login, w.cookies, login adaState (some ()) (Jar.fromHeaders w.cookies) ⟨none⟩
    ⟨"https://idp.test/", "s1", "n1", "p1"⟩ (clockAt 1 inClock_one) noNonce⟩

def returnOf (w : Tabs) : Answer :=
  ⟨.callback, w.cookies, responseOf ((callback adaState adaReadings (some ())
    (Jar.fromHeaders w.cookies) ⟨some "c1", some "s1", none, none⟩).serve adaAnswers.reply
      noTimeout 0) id⟩

def logoutOf (w : Tabs) : Answer :=
  ⟨.logout, w.cookies, logout adaState adaSettings (some ()) (Jar.fromHeaders w.cookies)⟩

/-- What an answer leaves. -/
def Tabs.hears (w : Tabs) (answer : Answer) : Tabs := { w with
  store := (Event.heard w.now (.received 0 answer)).foldl
    (fun store (now, cookie) => Cookies.receive now store cookie) w.store
  inFlight := [] }

/-- A request, and its answer. -/
theorem Tabs.visit {log : List (Move Event Tabs)} {w : Tabs} {answer : Tabs → Answer}
    (serves : ∀ w, Serves Unit adaState adaSettings (answer w)) (sent : ∀ w, (answer w).sent = w.cookies)
    (trace : Trace (Step Unit adaState adaSettings) (.initial 0) log w) (idle : w.inFlight = []) :
    Trace (Step Unit adaState adaSettings) (.initial 0)
      (log ++ [⟨w, .requested (answer w), { w with inFlight := [answer w] }⟩] ++
        [⟨{ w with inFlight := [answer w] }, .received 0 (answer w), w.hears (answer w)⟩])
      (w.hears (answer w)) := by
  have asks : Step Unit adaState adaSettings w (.requested (answer w))
      { w with inFlight := [answer w] } := by
    have step := Step.requested (w := w) (answer w) (sent w) (serves w)
    rwa [idle] at step
  exact (trace.snoc asks).snoc (.received 0 (answer w) rfl)

def arrived : Tabs := (Tabs.initial 0).hears (loginOf (.initial 0))

def signedIn : Tabs := arrived.hears (returnOf arrived)

def signedOut : Tabs := signedIn.hears (logoutOf signedIn)

theorem serves_login (w : Tabs) : Serves Unit adaState adaSettings (loginOf w) :=
  .login _ (some ()) _ _ _ _

theorem serves_logout (w : Tabs) : Serves Unit adaState adaSettings (logoutOf w) :=
  .logout _ (some ())

theorem serves_return (w : Tabs) : Serves Unit adaState adaSettings (returnOf w) := by
  have patient : ∀ n (op : ProviderCall Unit ⊕ Call), noTimeout n op = false := fun _ _ => rfl
  obtain ⟨log, response, hserve⟩ := Program.serve_finishes patient (callback adaState adaReadings
    (some ()) (Jar.fromHeaders w.cookies) ⟨some "c1", some "s1", none, none⟩) 0
  have hreturns := Program.returns_of_serve hserve
  unfold returnOf
  rw [hserve]
  exact .callback _ _ _ _ log response hreturns

theorem logout_ends_sessions_ada : arrived.cookies.map Prod.fst = [flowCookie] ∧
    ∃ log, Tabs.Browses Unit adaState log signedOut ∧
      ∀ value, (sessionCookie, value) ∉ signedOut.cookies := by
  have hlogin := Tabs.visit serves_login (fun _ => rfl) .nil rfl
  have hreturn := Tabs.visit serves_return (fun _ => rfl) hlogin rfl
  have hlogout := Tabs.visit serves_logout (fun _ => rfl) hreturn rfl
  have browses := Tabs.logout_ends_sessions hlogout
  refine ⟨by decide, _, browses, fun value hvalue => ?_⟩
  obtain ⟨kept, hkept, hname, -⟩ := Tabs.mem_cookies.mp hvalue
  exact (browses.loggedOut _ (List.mem_append_right _ (List.mem_singleton_self _)) 0 _ rfl rfl kept
    (List.mem_filter.mp hkept).1).1 hname

end Ada

end LakeFsAuth.Authn.Browser
