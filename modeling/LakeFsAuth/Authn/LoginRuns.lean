import LakeFsAuth.Authn.Browser
import LakeFsAuth.Authn.Isolation
import LakeFsAuth.Library.Trace
import Mathlib.Logic.Function.Basic

/-! Runs of browsers against the login routes, one request at a time. A browser stores what
responses set, and a request can be ended by the timeout layer where it waits. -/
namespace LakeFsAuth.Authn.Browser
open Core.SecretBox SecureCookie Session Oidc Library Authz.Api
open Core.Model (secs)

/-- The cookies a browser keeps for this server. -/
abbrev CookieStore := String → Option String

namespace CookieStore

/-- A `Set-Cookie` that is obeyed. -/
def receive (store : CookieStore) (cookie : Cookie) : CookieStore :=
  Function.update store cookie.name
    (if cookie.maxAge.map Jwt.asSecs = some 0 then none else some cookie.value)

/-- The private cookies of a request. -/
def sent (store : CookieStore) : List (String × String) :=
  [flowCookie, idTokenCookie].filterMap fun name => (store name).map fun text => (name, text)

end CookieStore

/-- What the provider and the authorization server answer to a request. -/
structure Answers (Discovered : Type) where
  token : Except RequestTokenError TokenResponse
  refreshed : Option Discovered
  authz : Nat → (call : Call) → call.Reply

structure LoginEnv (Discovered : Type) where
  current : Option Discovered
  request : AuthorizeRequest
  now : Clock
  nonce : Nonce

structure CallbackEnv (Discovered : Type) where
  current : Option Discovered
  readings : Readings
  answers : Answers Discovered
  /-- The call during which the timeout layer ends the request. -/
  timeout : Option Nat

/-- A query that cannot be read is `none`. -/
inductive Event (ι Discovered : Type) where
  | login (who : ι) (query : Option LoginQuery) (env : LoginEnv Discovered)
  | callback (who : ι) (query : Option CallbackQuery) (env : CallbackEnv Discovered)
  /-- A cookie is gone, as after its `Max-Age`. -/
  | expired (who : ι) (name : String)
  /-- A cookie from elsewhere. -/
  | planted (who : ι) (name text : String)

structure World (ι : Type) where
  /-- Every cookie the server has set. -/
  issued : List Cookie
  stores : ι → CookieStore
  /-- The flow cookie of the request, for every run of `exchange_code`. -/
  redeemed : List String

/-- Before the first request. -/
def World.initial {ι : Type} : World ι := ⟨[], fun _ _ => none, []⟩

/-- The answer of the query extractor. -/
def badQuery : Response := ⟨400, none, some "Failed to deserialize query string", []⟩

/-- The answer of the timeout layer. -/
def requestTimeout : Response := ⟨408, none, none, []⟩

section Serve
variable {Discovered : Type} [OpenIdConnect Discovered]

def Answers.reply (self : Answers Discovered) (n : Nat) :
    (op : ProviderCall Discovered ⊕ Call) → Program.Either ProviderCall.Reply Call.Reply op
  | .inl (.exchangeCode discovered _ _) => exchanged discovered self.token
  | .inl .refreshForKeyError => self.refreshed
  | .inr call => self.authz n call

/-- Without a token endpoint there is nothing to wait for. -/
def awaits : ProviderCall Discovered ⊕ Call → Bool
  | .inl (.exchangeCode discovered _ _) => OpenIdConnect.hasTokenEndpoint discovered
  | .inl .refreshForKeyError | .inr _ => true

/-- How often a request ran `exchange_code`, to its end or not. -/
def runs {α : Type} (served : Log Discovered × Program.Outcome (ProviderCall Discovered ⊕ Call) α) :
    Nat :=
  exchanges served.1 +
    match served.2 with
    | .dropped (.inl (.exchangeCode _ _ _)) => 1
    | _ => 0

variable [Url.HostParser] [PrivateCookies] [FlowReader] [JsonReader] [HmacSha256] (state : AppState)

def serveCallback (store : CookieStore) (query : CallbackQuery) (env : CallbackEnv Discovered) :
    Log Discovered × Program.Outcome (ProviderCall Discovered ⊕ Call) Response :=
  (callback state env.readings env.current (Jar.fromHeaders store.sent) query).serve
    env.answers.reply (fun n op => env.timeout == some n && awaits op) 0

/-- What the browser gets. -/
def responseOf {α : Type} :
    Log Discovered × Program.Outcome (ProviderCall Discovered ⊕ Call) α → (α → Response) → Response
  | (_, .finished value), f => f value
  | (_, .dropped _), _ => requestTimeout

variable {ι : Type} [DecidableEq ι]

def World.receive (w : World ι) (who : ι) (response : Response) : World ι where
  issued := w.issued ++ response.setCookie
  stores := Function.update w.stores who (response.setCookie.foldl .receive (w.stores who))
  redeemed := w.redeemed

/-- The response to a request, and how often it ran `exchange_code`. -/
def World.respond (w : World ι) : Event ι Discovered → Option (ι × Response × Nat)
  | .login who query env =>
      let response := query.elim badQuery fun query =>
        login state env.current (Jar.fromHeaders (w.stores who).sent) query env.request env.now env.nonce
      some (who, response, 0)
  | .callback who query env =>
      match query with
      | none => some (who, badQuery, 0)
      | some query =>
          let served := serveCallback state (w.stores who) query env
          some (who, responseOf served id, runs served)
  | .expired _ _ | .planted _ _ _ => none

/-- The encryption never yields the same text twice. -/
def Fresh (w : World ι) (response : Response) : Prop :=
  ∀ cookie ∈ response.setCookie, (PrivateCookies.decrypt cookie.name cookie.value).isSome →
    ∀ old ∈ w.issued, old.value ≠ cookie.value

/-- What the encryption authenticates was set by the server under that name. -/
def Authentic (w : World ι) (name text : String) : Prop :=
  (PrivateCookies.decrypt name text).isSome →
    ∃ cookie ∈ w.issued, cookie.name = name ∧ cookie.value = text

/-- The flow of a request, once for every run of `exchange_code`. -/
def redeemedBy (flow : Option String) (count : Nat) : List String :=
  flow.elim [] fun text => List.replicate count text

/-- One step. -/
inductive Step (w : World ι) : Event ι Discovered → World ι → Prop where
  | request {event : Event ι Discovered} {who : ι} {response : Response} {count : Nat}
      (responds : w.respond state event = some (who, response, count)) (fresh : Fresh w response) :
      Step w event { w.receive who response with
        redeemed := w.redeemed ++ redeemedBy (w.stores who flowCookie) count }
  | expired (who : ι) (name : String) :
      Step w (.expired who name)
        { w with stores := Function.update w.stores who (Function.update (w.stores who) name none) }
  | planted (who : ι) (name text : String) (authentic : Authentic w name text) :
      Step w (.planted who name text)
        { w with stores :=
            Function.update w.stores who (Function.update (w.stores who) name (some text)) }

end Serve

/-! What a response does to the flow cookie of a browser. -/

section Slot

theorem receive_other {store : CookieStore} {cookie : Cookie} {name : String}
    (h : cookie.name ≠ name) : store.receive cookie name = store name := by
  simp [CookieStore.receive, Function.update_of_ne (Ne.symm h)]

theorem foldl_receive_other {name : String} (cookies : List Cookie) (store : CookieStore)
    (h : ∀ cookie ∈ cookies, cookie.name ≠ name) :
    (cookies.foldl .receive store : CookieStore) name = store name := by
  induction cookies generalizing store with
  | nil => rfl
  | cons cookie cookies ih =>
    rw [List.foldl_cons, ih _ fun other hother => h other (List.mem_cons_of_mem _ hother)]
    exact receive_other (h cookie List.mem_cons_self)

/-- What a browser keeps was there before, or it came with the response. -/
theorem foldl_receive_some {name text : String} (cookies : List Cookie) (store : CookieStore)
    (h : (cookies.foldl .receive store : CookieStore) name = some text) :
    store name = some text ∨ ∃ cookie ∈ cookies, cookie.name = name ∧ cookie.value = text := by
  induction cookies generalizing store with
  | nil => exact .inl h
  | cons cookie cookies ih =>
    rcases ih _ h with hbefore | ⟨other, hmem, hother⟩
    · by_cases hname : cookie.name = name
      · subst hname
        simp only [CookieStore.receive, Function.update_self] at hbefore
        split at hbefore
        · cases hbefore
        · exact .inr ⟨cookie, List.mem_cons_self, rfl, Option.some.inj hbefore⟩
      · rw [receive_other hname] at hbefore
        exact .inl hbefore
    · exact .inr ⟨other, List.mem_cons_of_mem _ hmem, hother⟩

/-- One cookie of one browser is another one, or gone. -/
theorem update_store {ι : Type} [DecidableEq ι] {stores : ι → CookieStore} {who other : ι}
    {name key text : String} {value : Option String}
    (h : Function.update stores who (Function.update (stores who) name value) other key = some text) :
    stores other key = some text ∨ key = name ∧ value = some text := by
  by_cases hother : other = who
  · subst hother
    rw [Function.update_self] at h
    by_cases hname : key = name
    · subst hname
      rw [Function.update_self] at h
      exact .inr ⟨rfl, h⟩
    · rw [Function.update_of_ne hname] at h
      exact .inl h
  · rw [Function.update_of_ne hother] at h
    exact .inl h

theorem receive_removal (session : SessionCookies) (name : String) (store : CookieStore) :
    store.receive (session.removal name) name = none := by
  simp [CookieStore.receive, SessionCookies.removal, baseCookie, Jwt.asSecs]

/-- What surrounds the removal of the flow cookie does not bring it back. -/
theorem foldl_removal (session : SessionCookies) (before after : List Cookie) (store : CookieStore)
    (h : ∀ cookie ∈ after, cookie.name = idTokenCookie) :
    ((before ++ session.removal flowCookie :: after).foldl .receive store : CookieStore) flowCookie =
      none := by
  rw [List.foldl_append, List.foldl_cons, foldl_receive_other]
  · exact receive_removal session flowCookie _
  · intro cookie hcookie
    rw [h cookie hcookie]
    decide

theorem receive_flow (session : SessionCookies) (store : CookieStore) (payload text : String) :
    store.receive { session.flow payload with value := text } flowCookie = some text := by
  simp [CookieStore.receive, SessionCookies.flow, SessionCookies.privateCookie, baseCookie,
    Jwt.asSecs, flowTtl, secs]

theorem sessionCookie_name [HmacSha256] {session : SessionCookies} {token : String} {now : Int}
    {cookie : Cookie} (h : session.login token now = .ok cookie) : cookie.name = sessionCookie := by
  unfold SessionCookies.login at h
  split at h
  · cases h
  · cases h
    rfl

@[simp] theorem redeemedBy_zero (flow : Option String) : redeemedBy flow 0 = [] := by
  cases flow <;> rfl

theorem redeemedBy_le_one (flow : Option String) {count : Nat} (h : count ≤ 1) :
    redeemedBy flow count = [] ∨ ∃ text, flow = some text ∧ redeemedBy flow count = [text] := by
  obtain rfl | rfl : count = 0 ∨ count = 1 := by omega
  · exact .inl (redeemedBy_zero flow)
  · cases flow with
    | none => exact .inl rfl
    | some text => exact .inr ⟨text, rfl, rfl⟩

end Slot

section Runs
variable {ι Discovered : Type} [DecidableEq ι] [OpenIdConnect Discovered] [Url.HostParser]
  [PrivateCookies] [FlowReader] [JsonReader] [HmacSha256] {state : AppState}

omit [PrivateCookies] [FlowReader] [JsonReader] in
theorem openSession_name {readings : Readings} {flow : FlowState} {raw : String}
    {provisioned : AuthzClient.EnsuredUser} {login : LoginOutcome}
    (h : openSession state readings flow raw provisioned = .ok login) :
    login.sessionCookie.name = sessionCookie := by
  unfold openSession at h
  dsimp only at h
  split at h
  · cases h
  · rename_i cookie hlogin
    cases h
    exact sessionCookie_name hlogin

/-- What a request that is not cut off does to the flow cookie: nothing, or a new one, or none is
left. Only the last runs an exchange, once. -/
inductive Touches (w : World ι) (who : ι) (response : Response) (count : Nat) : Prop where
  | quiet (none : count = 0)
      (same : (w.receive who response).stores who flowCookie = w.stores who flowCookie)
  | issued (none : count = 0) (cookie : Cookie) (sets : cookie ∈ response.setCookie)
      (opens : (PrivateCookies.decrypt cookie.name cookie.value).isSome)
      (stored : (w.receive who response).stores who flowCookie = some cookie.value)
  | cleared (once : count ≤ 1) (removed : (w.receive who response).stores who flowCookie = .none)

/-- The timeout layer ends a callback while it waits. -/
def CutOff (state : AppState) (w : World ι) (event : Event ι Discovered) : Prop :=
  ∃ who query env op, event = .callback who (some query) env ∧
    (serveCallback state (w.stores who) query env).2 = .dropped op

/-- What a response comes from: it sets nothing, a login issues a flow, or a callback ran to its
end. -/
inductive Answered (state : AppState) (w : World ι) (event : Event ι Discovered) (who : ι)
    (response : Response) (count : Nat) : Prop where
  | silent (nothing : response.setCookie = []) (idle : count = 0 ∨ CutOff state w event)
  | issues (query : LoginQuery) (env : LoginEnv Discovered)
      (asked : event = .login who (some query) env) (idle : count = 0)
      (same : response = login state env.current (Jar.fromHeaders (w.stores who).sent) query
        env.request env.now env.nonce)
      (flow : FlowState) (accepted : acceptNext state query = .ok flow.next)
      (made : flow = ⟨env.request.state, env.request.nonce, env.request.pkceVerifier, flow.next,
        env.now⟩)
      (sets : response.setCookie = [{ state.session.flow flow.text with
        value := PrivateCookies.encrypt env.nonce flowCookie flow.text }])
  | finished (query : CallbackQuery) (env : CallbackEnv Discovered)
      (asked : event = .callback who (some query) env) (log : Log Discovered)
      (served : serveCallback state (w.stores who) query env = (log, .finished response))
      (counted : count = exchanges log)
      (does : Does state env.readings env.current (w.stores who).sent query log
        response.setCookie)

omit [DecidableEq ι] in
theorem answered_of_respond {w : World ι} {event : Event ι Discovered} {who : ι}
    {response : Response} {count : Nat}
    (responds : w.respond state event = some (who, response, count)) :
    Answered state w event who response count := by
  cases event with
  | login other query env =>
    simp only [World.respond, Option.some.injEq, Prod.mk.injEq] at responds
    obtain ⟨rfl, hresponse, rfl⟩ := responds
    cases query with
    | none => exact .silent (by rw [← hresponse]; rfl) (.inl rfl)
    | some query =>
      rw [Option.elim_some] at hresponse
      rcases login_setCookie state env.current (w.stores other).sent query env.request env.now
        env.nonce with hnone | ⟨next, hnext, hflow⟩
      · exact .silent (hresponse ▸ hnone) (.inl rfl)
      · rw [hresponse] at hflow
        exact .issues query env rfl rfl hresponse.symm _ hnext rfl hflow
  | callback other query env =>
    cases query with
    | none =>
      simp only [World.respond, Option.some.injEq, Prod.mk.injEq] at responds
      obtain ⟨rfl, hresponse, rfl⟩ := responds
      exact .silent (by rw [← hresponse]; rfl) (.inl rfl)
    | some query =>
      simp only [World.respond, Option.some.injEq, Prod.mk.injEq] at responds
      obtain ⟨rfl, hresponse, rfl⟩ := responds
      cases hserved : serveCallback state (w.stores other) query env with
      | mk log outcome =>
        rw [hserved] at hresponse
        cases outcome with
        | dropped op =>
          refine .silent (by rw [← hresponse]; rfl) (.inr ⟨other, query, env, op, rfl, ?_⟩)
          rw [hserved]
        | finished answer =>
          obtain rfl : answer = response := hresponse
          exact .finished query env rfl log hserved (Nat.add_zero _)
            (callback_does (Program.returns_of_serve hserved))
  | expired other name => cases responds
  | planted other name text => cases responds

omit [OpenIdConnect Discovered] [Url.HostParser] [PrivateCookies] [FlowReader] [JsonReader]
  [HmacSha256] in
theorem receive_stores (w : World ι) (who : ι) (response : Response) :
    (w.receive who response).stores who = response.setCookie.foldl .receive (w.stores who) := by
  simp [World.receive]

theorem touches_of_respond {w : World ι} {event : Event ι Discovered} {who : ι}
    {response : Response} {count : Nat}
    (responds : w.respond state event = some (who, response, count))
    (ended : ¬ CutOff state w event) : Touches w who response count := by
  have silent (hnone : response.setCookie = []) : 
      (w.receive who response).stores who flowCookie = w.stores who flowCookie := by
    rw [receive_stores, hnone]
    rfl
  cases answered_of_respond responds with
  | silent nothing idle => exact .quiet (idle.resolve_right ended) (silent nothing)
  | issues query env asked idle same flow accepted made sets =>
    refine .issued idle _ (by rw [sets]; exact List.mem_singleton_self _) ?_ ?_
    · rw [Option.isSome_iff_exists]
      exact ⟨_, PrivateCookies.decrypt_encrypt _ _ _⟩
    · rw [receive_stores, sets]
      exact receive_flow state.session (w.stores who) _ _
  | finished query env asked log served counted does =>
    cases does with
    | kept hzero nothing => exact .quiet (counted.trans hzero) (silent nothing)
    | cleared flow matching once removes =>
      refine .cleared (counted.le.trans once) ?_
      rw [receive_stores, removes]
      exact receive_removal state.session flowCookie (w.stores who)
    | loggedIn flow matching once discovered ready accepted login passed session idToken sets
        opened kept =>
      refine .cleared (counted.le.trans once) ?_
      rw [receive_stores, sets]
      exact foldl_removal _ _ _ _ kept

/-! A flow is redeemed once. -/

/-- Every redeemed flow was issued, and is gone from every browser. -/
structure Single (w : World ι) : Prop where
  once : w.redeemed.Nodup
  known : ∀ text ∈ w.redeemed, ∃ cookie ∈ w.issued, cookie.value = text
  live : ∀ who text, w.stores who flowCookie = some text →
    (∃ cookie ∈ w.issued, cookie.value = text) ∧ text ∉ w.redeemed
  apart : ∀ who other text, w.stores who flowCookie = some text →
    w.stores other flowCookie = some text → who = other

omit [DecidableEq ι] [OpenIdConnect Discovered] [Url.HostParser] [PrivateCookies] [FlowReader]
  [JsonReader] [HmacSha256] in
theorem single_initial : Single (World.initial : World ι) := by
  constructor <;> simp [World.initial]

omit [OpenIdConnect Discovered] [Url.HostParser] [PrivateCookies] [FlowReader] [JsonReader]
  [HmacSha256] in
/-- The flow cookies of the others stay. -/
theorem receive_stores_other (w : World ι) {who other : ι} (h : other ≠ who) (response : Response) :
    (w.receive who response).stores other = w.stores other := by
  simp [World.receive, h]

omit [OpenIdConnect Discovered] [Url.HostParser] [FlowReader] [JsonReader] [HmacSha256] in
theorem Single.request {w : World ι} (single : Single w) {who : ι} {response : Response}
    {count : Nat} (fresh : Fresh w response) (touches : Touches w who response count) :
    Single { w.receive who response with
      redeemed := w.redeemed ++ redeemedBy (w.stores who flowCookie) count } := by
  have older {text : String} (h : ∃ cookie ∈ w.issued, cookie.value = text) :
      ∃ cookie ∈ (w.receive who response).issued, cookie.value = text :=
    h.imp fun cookie h => ⟨List.mem_append_left _ h.1, h.2⟩
  cases touches with
  | quiet hzero same =>
    subst hzero
    have hslot (other : ι) : (w.receive who response).stores other flowCookie =
        w.stores other flowCookie := by
      by_cases hother : other = who
      · rw [hother, same]
      · rw [receive_stores_other w hother]
    simp only [redeemedBy_zero, List.append_nil]
    refine ⟨single.once, fun text h => older (single.known text h), fun other text h => ?_,
      fun one other text h h' => ?_⟩
    · rw [hslot] at h
      exact ⟨older (single.live other text h).1, (single.live other text h).2⟩
    · rw [hslot] at h h'
      exact single.apart one other text h h'
  | issued hzero cookie sets opens stored =>
    subst hzero
    have hnew : ∀ old ∈ w.issued, old.value ≠ cookie.value := fresh cookie sets opens
    have hunknown : cookie.value ∉ w.redeemed := by
      intro hmem
      obtain ⟨old, hold, hvalue⟩ := single.known _ hmem
      exact hnew old hold hvalue
    have hunstored (other : ι) (text : String) (h : w.stores other flowCookie = some text) :
        text ≠ cookie.value := by
      rintro rfl
      obtain ⟨⟨old, hold, hvalue⟩, _⟩ := single.live other _ h
      exact hnew old hold hvalue
    simp only [redeemedBy_zero, List.append_nil]
    refine ⟨single.once, fun text h => older (single.known text h), fun other text h => ?_,
      fun one other text h h' => ?_⟩
    · by_cases hother : other = who
      · subst hother
        obtain rfl : cookie.value = text := Option.some.inj (stored.symm.trans h)
        exact ⟨⟨cookie, List.mem_append_right _ sets, rfl⟩, hunknown⟩
      · have hlive := single.live other text (by rw [← receive_stores_other w hother, h])
        exact ⟨older hlive.1, hlive.2⟩
    · by_cases hone : one = who
      · by_cases hother : other = who
        · rw [hone, hother]
        · subst hone
          obtain rfl : cookie.value = text := Option.some.inj (stored.symm.trans h)
          exact absurd rfl (hunstored other _ (by rw [← receive_stores_other w hother, h']))
      · by_cases hother : other = who
        · subst hother
          obtain rfl : cookie.value = text := Option.some.inj (stored.symm.trans h')
          exact absurd rfl (hunstored one _ (by rw [← receive_stores_other w hone, h]))
        · refine single.apart one other text ?_ ?_
          · rw [← receive_stores_other w hone, h]
          · rw [← receive_stores_other w hother, h']
  | cleared once removed =>
    have hlive (other : ι) (text : String)
        (h : (w.receive who response).stores other flowCookie = some text) :
        other ≠ who ∧ w.stores other flowCookie = some text := by
      have hother : other ≠ who := by
        rintro rfl
        rw [removed] at h
        cases h
      exact ⟨hother, by rw [← receive_stores_other w hother, h]⟩
    have happart (one other : ι) (text : String)
        (h : (w.receive who response).stores one flowCookie = some text)
        (h' : (w.receive who response).stores other flowCookie = some text) : one = other :=
      single.apart one other text (hlive one text h).2 (hlive other text h').2
    rcases redeemedBy_le_one (w.stores who flowCookie) once with hnone | ⟨text, hflow, hone⟩
    · rw [hnone, List.append_nil]
      refine ⟨single.once, fun text h => older (single.known text h), fun other text h => ?_, happart⟩
      have hbefore := single.live other text (hlive other text h).2
      exact ⟨older hbefore.1, hbefore.2⟩
    · rw [hone]
      obtain ⟨hissued, hnew⟩ := single.live who text hflow
      refine ⟨?_, fun other h => ?_, fun other text' h => ?_, happart⟩
      · rw [List.nodup_append]
        refine ⟨single.once, List.nodup_singleton text, fun old hold new hmem => ?_⟩
        rw [List.mem_singleton.mp hmem]
        exact fun heq => hnew (heq ▸ hold)
      · rcases List.mem_append.mp h with hold | hmem
        · exact older (single.known other hold)
        · rw [List.mem_singleton.mp hmem]
          exact older hissued
      · obtain ⟨hother, hbefore⟩ := hlive other text' h
        have hlive' := single.live other text' hbefore
        refine ⟨older hlive'.1, fun hmem => ?_⟩
        rcases List.mem_append.mp hmem with hold | hsame
        · exact hlive'.2 hold
        · rw [List.mem_singleton.mp hsame] at hbefore
          exact hother (single.apart other who text hbefore hflow)

theorem Single.step {w w' : World ι} {event : Event ι Discovered} (single : Single w)
    (step : Step state w event w') (ended : ¬ CutOff state w event)
    (obedient : ∀ who name text, event ≠ .planted who name text) : Single w' := by
  cases step with
  | request responds fresh => exact single.request fresh (touches_of_respond responds ended)
  | expired who name =>
    have hslot (other : ι) (text : String)
        (h : Function.update w.stores who (Function.update (w.stores who) name none) other flowCookie =
          some text) : w.stores other flowCookie = some text :=
      (update_store h).resolve_right (by simp)
    exact ⟨single.once, single.known, fun other text h => single.live other text (hslot other text h),
      fun one other text h h' => single.apart one other text (hslot one text h) (hslot other text h')⟩
  | planted who name text authentic => exact absurd rfl (obedient who name text)

/-- In every run of browsers that obey what they receive, in which the timeout layer cuts no
callback off, the server exchanges a code at most once for each flow cookie it issued. -/
theorem flow_redeemed_once {log : List (Move (Event ι Discovered) (World ι))} {w : World ι}
    (trace : Trace (Step state) .initial log w)
    (obedient : ∀ move ∈ log, ∀ who name text, move.label ≠ .planted who name text)
    (ended : ∀ move ∈ log, ¬ CutOff state move.before move.label) :
    ∀ cookie ∈ w.issued, cookie.name = flowCookie → w.redeemed.count cookie.value ≤ 1 := by
  have single : Single w := by
    induction trace with
    | nil => exact single_initial
    | @snoc log event before after trace step ih =>
      have hlast : (⟨before, event, after⟩ : Move (Event ι Discovered) (World ι)) ∈
          log ++ [⟨before, event, after⟩] := by simp
      refine (ih (fun move hmove => ?_) fun move hmove => ?_).step step (ended _ hlast)
        (obedient _ hlast)
      · exact obedient move (List.mem_append_left _ hmove)
      · exact ended move (List.mem_append_left _ hmove)
  intro cookie _ _
  exact List.nodup_iff_count_le_one.mp single.once cookie.value

/-! A session is earned. -/

omit [DecidableEq ι] [OpenIdConnect Discovered] [Url.HostParser] [FlowReader] [JsonReader]
  [HmacSha256] in
/-- The jar of a request holds the flow cookie, when it decrypts. -/
theorem get_sent (store : CookieStore) : (Jar.fromHeaders store.sent).get flowCookie =
    (store flowCookie).bind (PrivateCookies.decrypt flowCookie) := by
  have hne : (flowCookie == idTokenCookie) = false := by decide
  cases hflow : store flowCookie with
  | none =>
    cases htoken : store idTokenCookie with
    | none => simp [Jar.fromHeaders, Jar.get, CookieStore.sent, hflow, htoken]
    | some token =>
      cases hvalue : PrivateCookies.decrypt idTokenCookie token <;>
        simp [Jar.fromHeaders, Jar.get, CookieStore.sent, hflow, htoken, hvalue, hne]
  | some text =>
    cases hopened : PrivateCookies.decrypt flowCookie text with
    | some value => simp [Jar.fromHeaders, Jar.get, CookieStore.sent, hflow, hopened]
    | none =>
      cases htoken : store idTokenCookie with
      | none => simp [Jar.fromHeaders, Jar.get, CookieStore.sent, hflow, htoken, hopened]
      | some token =>
        cases hvalue : PrivateCookies.decrypt idTokenCookie token <;>
          simp [Jar.fromHeaders, Jar.get, CookieStore.sent, hflow, htoken, hvalue, hopened,
            hne]

/-- A login that issued a flow, under the text of its cookie. -/
structure Issues (state : AppState) (move : Move (Event ι Discovered) (World ι)) (flow : FlowState)
    (text : String) : Prop where
  login : ∃ who query env, move.label = .login who (some query) env ∧
    (Browser.login state env.current (Jar.fromHeaders (move.before.stores who).sent) query
      env.request env.now env.nonce).setCookie = [{ state.session.flow flow.text with value := text }] ∧
    flow.state = env.request.state ∧ flow.nonce = env.request.nonce ∧
    flow.pkceVerifier = env.request.pkceVerifier ∧ acceptNext state query = .ok flow.next ∧
    flow.issuedAt = env.now
  opens : PrivateCookies.decrypt flowCookie text = some flow.text

/-- The reader reads the flows of a run back as they were written. -/
def ReadsBack (state : AppState) (log : List (Move (Event ι Discovered) (World ι))) : Prop :=
  ∀ move ∈ log, ∀ flow text, Issues state move flow text → FlowReader.fromStr flow.text = some flow

/-- The flow cookies that open were issued by logins of the run. -/
structure Known (state : AppState) (log : List (Move (Event ι Discovered) (World ι)))
    (w : World ι) : Prop where
  issued : ∀ cookie ∈ w.issued, cookie.name = flowCookie →
    (PrivateCookies.decrypt flowCookie cookie.value).isSome →
      ∃ move ∈ log, ∃ flow, Issues state move flow cookie.value
  stored : ∀ who text, w.stores who flowCookie = some text →
    (PrivateCookies.decrypt flowCookie text).isSome →
      ∃ cookie ∈ w.issued, cookie.name = flowCookie ∧ cookie.value = text

omit [DecidableEq ι] in
/-- A flow cookie in a response that opens is the one of a login. -/
theorem issues_of_respond {w w' : World ι} {event : Event ι Discovered} {who : ι}
    {response : Response} {count : Nat}
    (responds : w.respond state event = some (who, response, count)) {cookie : Cookie}
    (hmem : cookie ∈ response.setCookie) (hname : cookie.name = flowCookie)
    (opens : (PrivateCookies.decrypt flowCookie cookie.value).isSome) :
    ∃ flow, Issues state ⟨w, event, w'⟩ flow cookie.value := by
  have hremoval : cookie ≠ state.session.removal flowCookie := by
    rintro rfl
    have hempty : (state.session.removal flowCookie).value = "" := rfl
    rw [hempty, PrivateCookies.decrypt_empty] at opens
    cases opens
  cases answered_of_respond responds with
  | silent nothing idle =>
    rw [nothing] at hmem
    cases hmem
  | issues query env asked idle same flow accepted made sets =>
    subst asked
    have hcookie := hmem
    rw [sets, List.mem_singleton] at hcookie
    subst hcookie
    rw [same] at sets
    refine ⟨flow, ⟨who, query, env, rfl, sets, ?_, ?_, ?_, accepted, ?_⟩,
      PrivateCookies.decrypt_encrypt _ _ _⟩ <;> rw [made]
  | finished query env asked log served counted does =>
    exfalso
    cases does with
    | kept hzero nothing =>
      rw [nothing] at hmem
      cases hmem
    | cleared flow matching once removes =>
      rw [removes] at hmem
      exact hremoval (List.mem_singleton.mp hmem)
    | loggedIn flow matching once discovered ready accepted login passed session idToken sets
        opened kept =>
      rw [sets] at hmem
      rcases List.mem_append.mp hmem with hsession | hrest
      · have hsame := opened cookie hsession
        obtain ⟨_, _, _, redeemed⟩ := passed.redeemed
        obtain ⟨_, _, _, _, _, _, _, admitted⟩ := redeemed.exchange
        obtain ⟨_, provisioned, _, _, hopen⟩ := admitted.ensured
        rw [hsame, openSession_name hopen] at hname
        exact absurd hname (by decide)
      · rcases List.mem_cons.mp hrest with hsame | htoken
        · exact hremoval hsame
        · rw [kept cookie htoken] at hname
          exact absurd hname (by decide)

theorem Known.step {w w' : World ι} {event : Event ι Discovered}
    {log : List (Move (Event ι Discovered) (World ι))} (known : Known state log w)
    (step : Step state w event w') : Known state (log ++ [⟨w, event, w'⟩]) w' := by
  have older {cookie : Cookie} (h : ∃ move ∈ log, ∃ flow, Issues state move flow cookie.value) :
      ∃ move ∈ log ++ [⟨w, event, w'⟩], ∃ flow, Issues state move flow cookie.value :=
    h.imp fun move h => ⟨List.mem_append_left _ h.1, h.2⟩
  cases step with
  | @request _ who response count responds fresh =>
    refine ⟨fun cookie hmem hname opens => ?_, fun other text h opens => ?_⟩
    · rcases List.mem_append.mp hmem with hold | hnew
      · exact older (known.issued cookie hold hname opens)
      · obtain ⟨flow, issues⟩ := issues_of_respond responds hnew hname opens
        exact ⟨_, List.mem_append_right _ (List.mem_singleton_self _), flow, issues⟩
    · have hbefore (hstored : w.stores other flowCookie = some text) :
          ∃ cookie ∈ (w.receive who response).issued, cookie.name = flowCookie ∧ cookie.value = text :=
        (known.stored other text hstored opens).imp fun cookie h =>
          ⟨List.mem_append_left _ h.1, h.2⟩
      by_cases hother : other = who
      · subst hother
        have hslot : (response.setCookie.foldl .receive (w.stores other) : CookieStore) flowCookie =
            some text := by rw [← receive_stores w other response, ← h]
        rcases foldl_receive_some response.setCookie (w.stores other) hslot with
          hold | ⟨cookie, hmem, hcookie⟩
        · exact hbefore hold
        · exact ⟨cookie, List.mem_append_right _ hmem, hcookie⟩
      · exact hbefore (by rw [← receive_stores_other w hother response, ← h])
  | expired who name =>
    refine ⟨fun cookie hmem hname opens => older (known.issued cookie hmem hname opens),
      fun other text h opens => known.stored other text ?_ opens⟩
    exact (update_store h).resolve_right (by simp)
  | planted who name text authentic =>
    refine ⟨fun cookie hmem hname opens => older (known.issued cookie hmem hname opens),
      fun other stored h opens => ?_⟩
    rcases update_store h with hbefore | ⟨rfl, hsame⟩
    · exact known.stored other stored hbefore opens
    · cases hsame
      exact authentic opens

theorem known_of_trace {log : List (Move (Event ι Discovered) (World ι))} {w : World ι}
    (trace : Trace (Step state) .initial log w) : Known state log w := by
  induction trace with
  | nil => constructor <;> simp [World.initial]
  | snoc trace step ih => exact ih.step step

/-- What a response needs to set a session. -/
structure Earned (state : AppState) (earlier : List (Move (Event ι Discovered) (World ι)))
    (w : World ι) (who : ι) (query : CallbackQuery) (env : CallbackEnv Discovered) (cookie : Cookie)
    (flow : FlowState) (login : LoginOutcome) : Prop where
  issued : ∃ text, w.stores who flowCookie = some text ∧ ∃ move ∈ earlier, Issues state move flow text
  recent : (env.readings.now : Int) - flow.issuedAt ≤ 600
  answers : query.state = some flow.state
  accepted : query.error = none
  redeemed : ∃ code discovered, query.code = some code ∧ code ≠ "" ∧
    env.current = some discovered ∧ Redeemed state env.readings discovered flow code
      (serveCallback state (w.stores who) query env).1 login
  named : cookie = login.sessionCookie

omit [DecidableEq ι] [OpenIdConnect Discovered] [JsonReader] [HmacSha256] in
/-- The flow a request matches is the one a login of the run issued. -/
theorem Known.matched {w : World ι} {log : List (Move (Event ι Discovered) (World ι))}
    (known : Known state log w) (reads : ReadsBack state log) {who : ι} {query : CallbackQuery}
    {flow : FlowState} (matching : Matches (w.stores who).sent query flow) :
    ∃ text, w.stores who flowCookie = some text ∧ ∃ move ∈ log, Issues state move flow text := by
  have hstored := matching.1
  rw [get_sent] at hstored
  obtain ⟨payload, hpayload, hread⟩ := Option.bind_eq_some_iff.mp hstored
  obtain ⟨text, htext, hopened⟩ := Option.bind_eq_some_iff.mp hpayload
  have opens : (PrivateCookies.decrypt flowCookie text).isSome := by rw [hopened]; rfl
  obtain ⟨cookie, hcookie, hname, rfl⟩ := known.stored who text htext opens
  obtain ⟨move, hmove, issuedFlow, issues⟩ := known.issued cookie hcookie hname opens
  have hsame : issuedFlow = flow := by
    have hagain := reads move hmove issuedFlow cookie.value issues
    have hpayload : payload = issuedFlow.text := Option.some.inj (hopened.symm.trans issues.opens)
    rw [hpayload] at hread
    exact Option.some.inj (hagain.symm.trans hread)
  exact ⟨cookie.value, htext, move, hmove, hsame ▸ issues⟩

omit [DecidableEq ι] in
/-- A response that sets a session answers a callback that earned it. -/
theorem earned_of_session {w : World ι} {log : List (Move (Event ι Discovered) (World ι))}
    (known : Known state log w) (reads : ReadsBack state log) {event : Event ι Discovered} {who : ι}
    {response : Response} {count : Nat}
    (responds : w.respond state event = some (who, response, count)) {cookie : Cookie}
    (hmem : cookie ∈ response.setCookie) (hname : cookie.name = sessionCookie) :
    ∃ query env flow login, event = .callback who (some query) env ∧
      Earned state log w who query env cookie flow login := by
  have hremoval : cookie ≠ state.session.removal flowCookie := by
    rintro rfl
    revert hname
    rw [removal_name]
    decide
  cases answered_of_respond responds with
  | silent nothing idle =>
    rw [nothing] at hmem
    cases hmem
  | issues query env asked idle same flow accepted made sets =>
    rw [sets, List.mem_singleton] at hmem
    rw [hmem] at hname
    exact absurd (show flowCookie = sessionCookie from hname) (by decide)
  | finished query env asked calls served counted does =>
    cases does with
    | kept hzero nothing =>
      rw [nothing] at hmem
      cases hmem
    | cleared flow matching once removes =>
      rw [removes] at hmem
      exact absurd (List.mem_singleton.mp hmem) hremoval
    | loggedIn flow matching once discovered ready accepted login passed session idToken sets
        opened kept =>
      rw [sets] at hmem
      have hsame : cookie = login.sessionCookie := by
        rcases List.mem_append.mp hmem with hsession | hrest
        · exact opened cookie hsession
        · rcases List.mem_cons.mp hrest with hsame | htoken
          · exact absurd hsame hremoval
          · rw [kept cookie htoken] at hname
            exact absurd hname (by decide)
      obtain ⟨text, htext, move, hmove, issues⟩ := known.matched reads matching
      obtain ⟨code, hcode, hfilled, redeemed⟩ := passed.redeemed
      refine ⟨query, env, flow, login, asked, ⟨text, htext, move, hmove, issues⟩, ?_,
        matching.2, accepted, ⟨code, discovered, hcode, hfilled, ready, ?_⟩, hsame⟩
      · -- Both readings are in the range of the clock, so their difference does not wrap.
        obtain ⟨_, _, issuedEnv, _, _, _, _, _, _, hissued⟩ := issues.login
        have hnow := env.readings.now.2
        have hthen := issuedEnv.now.2
        have hrecent := passed.recent
        rw [← hissued] at hthen
        simp only [InClock] at hnow hthen
        have hrange : InI64 (env.readings.now - flow.issuedAt) := by
          simp only [InI64]
          omega
        rw [subI64_eq hrange] at hrecent
        simpa [Jwt.asSecs, flowTtl, secs] using hrecent
      · rw [served]
        exact redeemed

omit [DecidableEq ι] in
/-- A callback whose state is not the one of the stored flow sets nothing. -/
theorem mismatch_silent {w : World ι} {who : ι} {query : CallbackQuery} {env : CallbackEnv Discovered}
    {other : ι} {response : Response} {count : Nat}
    (responds : w.respond state (.callback who (some query) env) = some (other, response, count))
    (mismatch : ∀ flow, ((Jar.fromHeaders (w.stores who).sent).get flowCookie).bind
      FlowReader.fromStr = some flow → query.state ≠ some flow.state) : response.setCookie = [] := by
  cases answered_of_respond responds with
  | silent nothing idle => exact nothing
  | finished query env asked log served counted does =>
    cases asked
    cases does with
    | kept hzero nothing => exact nothing
    | cleared flow matching once removes => exact absurd matching.2 (mismatch flow matching.1)
    | loggedIn flow matching => exact absurd matching.2 (mismatch flow matching.1)
  | issues query env asked => cases asked

/-- The flow cookie a browser sends, opened and read. -/
def storedFlow (w : World ι) (who : ι) : Option FlowState :=
  ((w.stores who flowCookie).bind (PrivateCookies.decrypt flowCookie)).bind FlowReader.fromStr

/-- Along every run, whatever cookies and answers there are: a response that sets a session was
earned, and a callback with another state than the stored flow sets no session and leaves the flow
cookie as it is. -/
theorem callback_safe {log : List (Move (Event ι Discovered) (World ι))} {w : World ι}
    (trace : Trace (Step state) .initial log w) (reads : ReadsBack state log)
    {earlier later : List (Move (Event ι Discovered) (World ι))}
    {move : Move (Event ι Discovered) (World ι)} (hlog : log = earlier ++ move :: later) :
    (∀ who response count, move.before.respond state move.label = some (who, response, count) →
      ∀ cookie ∈ response.setCookie, cookie.name = sessionCookie →
        ∃ query env flow login, move.label = .callback who (some query) env ∧
          Earned state earlier move.before who query env cookie flow login) ∧
    ∀ who query env, move.label = .callback who (some query) env →
      (∀ flow, storedFlow move.before who = some flow → query.state ≠ some flow.state) →
        (∀ other response count,
          move.before.respond state move.label = some (other, response, count) →
            ∀ cookie ∈ response.setCookie, cookie.name ≠ sessionCookie) ∧
          move.after.stores who flowCookie = move.before.stores who flowCookie := by
  obtain ⟨hearlier, hstep, _⟩ := (hlog ▸ trace).cut rfl
  have known := known_of_trace hearlier
  have hreads : ReadsBack state earlier := fun other hother =>
    reads other (hlog ▸ List.mem_append_left _ hother)
  refine ⟨fun who response count responds cookie hmem hname =>
    earned_of_session known hreads responds hmem hname, fun who query env hlabel mismatch => ?_⟩
  rw [hlabel] at hstep ⊢
  have silent {other : ι} {response : Response} {count : Nat}
      (responds : move.before.respond state (.callback who (some query) env) =
        some (other, response, count)) : response.setCookie = [] := by
    refine mismatch_silent responds fun flow hflow => mismatch flow ?_
    rw [storedFlow, ← get_sent, hflow]
  refine ⟨fun other response count responds => by rw [silent responds]; simp, ?_⟩
  generalize hafter : move.after = after at hstep
  cases hstep with
  | @request _ other response count responds fresh =>
    have hnone := silent responds
    by_cases hother : who = other
    · subst hother
      change (move.before.receive who response).stores who flowCookie = _
      rw [receive_stores, hnone]
      rfl
    · change (move.before.receive other response).stores who flowCookie = _
      rw [receive_stores_other _ hother]

/-! Runs that are computed. -/

instance (w : World ι) (response : Response) : Decidable (Fresh w response) :=
  inferInstanceAs (Decidable (∀ cookie ∈ response.setCookie,
    (PrivateCookies.decrypt cookie.name cookie.value).isSome → ∀ old ∈ w.issued,
      old.value ≠ cookie.value))

/-- The step of a request. -/
def request (state : AppState) (w : World ι) (event : Event ι Discovered) : Option (World ι) :=
  match w.respond state event with
  | some (who, response, count) =>
      if Fresh w response then
        some { w.receive who response with
          redeemed := w.redeemed ++ redeemedBy (w.stores who flowCookie) count }
      else none
  | none => none

theorem request_step {w w' : World ι} {event : Event ι Discovered}
    (h : request state w event = some w') : Step state w event w' := by
  unfold request at h
  split at h
  · rename_i who response count responds
    split at h
    · rename_i fresh
      cases h
      exact .request responds fresh
    · cases h
  · cases h

theorem play_requests (state : AppState) (w : World ι) (events : List (Event ι Discovered)) :
    Trace (Step state) w (play (request state) w events).1 (play (request state) w events).2 :=
  (play_trace (request state) w events).mono request_step

end Runs

section Ada
open AuthzClient Redirect Authz.Store.Mem
open Core.Text (isHeaderChar isHeaderValue isHeaderValue_append)

attribute [local instance] plainHosts plainMac

/-- A cookie in the open, after its name. -/
@[reducible] def openCookies : PrivateCookies where
  encrypt _ name value := String.ofList ('.' :: name.toList ++ '=' :: value.toList)
  decrypt name text :=
    match text.toList with
    | '.' :: rest =>
        if (name.toList ++ ['=']).isPrefixOf rest then
          some (String.ofList (rest.drop (name.toList.length + 1)))
        else none
    | _ => none
  decrypt_encrypt nonce name value := by
    have hname : (name.toList ++ ['=']).isPrefixOf (name.toList ++ '=' :: value.toList) = true := by
      simp
    have hdrop : (name.toList ++ '=' :: value.toList).drop (name.toList.length + 1) =
        value.toList := by
      rw [← List.drop_drop]
      simp
    simp only [String.toList_ofList, List.cons_append, hname, if_true, hdrop, String.ofList_toList]
  decrypt_empty name := rfl

def adaFlow : FlowState := ⟨"s1", "n1", "p1", none, 1⟩

@[reducible] def adaReader : FlowReader where
  fromStr text := if text = adaFlow.text then some adaFlow else none

@[reducible] def adaClaims : JsonReader where
  fromSlice _ := some (.object (loginAs "1" "ada").claims)

/-- A provider that takes every token. -/
@[reducible] def credulous : OpenIdConnect Unit where
  hasTokenEndpoint _ := true
  claims _ _ _ := .ok ()

attribute [local instance] openCookies adaReader adaClaims credulous

def adaState : AppState where
  allowedRedirectHosts := []
  oidcValidateClaims := ∅
  postLoginRedirectUrl := "/"
  rpInitiatedLogout := true
  sessionTtl := secs 3600
  prov := (loginAs "1" "ada").settings
  maxRetries := 0
  session := aliceCookies
  jwtKey := [7]

def noNonce : Nonce := .zero

def clockAt (now : Int) (h : InClock now) : Clock := ⟨now, h⟩

theorem inClock_one : InClock 1 := by decide

theorem inClock_two : InClock 2 := by decide

def adaReadings : Readings :=
  ⟨clockAt 2 inClock_two, nilUuid, clockAt 2 inClock_two, clockAt 2 inClock_two, noNonce⟩

def adaAnswers : Answers Unit :=
  ⟨.ok ⟨some "h.e30.s"⟩, none, fun _ call => (Call.pick memStore ⟨0⟩ .answered call Inner.new).1⟩

def adaLogin : Event Unit Unit :=
  .login () (some ⟨none⟩)
    ⟨some (), ⟨"https://idp.test/", "s1", "n1", "p1"⟩, clockAt 1 inClock_one, noNonce⟩

def adaCallback (received : String) (timeout : Option Nat) : Event Unit Unit :=
  .callback () (some ⟨some "c1", some received, none, none⟩) ⟨some (), adaReadings, adaAnswers, timeout⟩

/-- A run of Ada's requests. -/
def Adas (log : List (Move (Event Unit Unit) (World Unit))) : Prop :=
  ∀ move ∈ log, move.label = adaLogin ∨ ∃ received timeout, move.label = adaCallback received timeout

theorem Adas.obedient {log : List (Move (Event Unit Unit) (World Unit))} (adas : Adas log) :
    ∀ move ∈ log, ∀ who name text, move.label ≠ .planted who name text := by
  intro move hmove who name text hlabel
  rcases adas move hmove with hevent | ⟨received, timeout, hevent⟩ <;>
    rw [hlabel] at hevent <;> cases hevent

/-- The reader knows the one flow of these runs. -/
theorem Adas.readsBack {log : List (Move (Event Unit Unit) (World Unit))} (adas : Adas log) :
    ReadsBack adaState log := by
  intro move hmove flow text issues
  obtain ⟨who, query, env, hlabel, -, hstate, hnonce, hverifier, hnext, hissued⟩ := issues.login
  have hflow : flow = adaFlow := by
    rcases adas move hmove with hlogin | ⟨received, timeout, hcallback⟩
    · rw [hlabel] at hlogin
      cases hlogin
      have hnone : none = flow.next := Except.ok.inj hnext
      cases flow
      simp_all [adaFlow, clockAt]
    · rw [hlabel] at hcallback
      cases hcallback
  subst hflow
  exact if_pos rfl

/-- The callback is cut off while the provider answers, and the browser comes back. -/
def replayed : List (Event Unit Unit) :=
  [adaLogin, adaCallback "s1" (some 0), adaCallback "s1" (some 0)]

def adaRun (events : List (Event Unit Unit)) :
    List (Move (Event Unit Unit) (World Unit)) × World Unit :=
  play (request adaState) .initial events

/-- Some flow cookie was redeemed twice. -/
def World.redeemsAgain (w : World Unit) : Bool :=
  w.issued.any fun cookie =>
    cookie.name == flowCookie && decide (1 < w.redeemed.count cookie.value)

theorem redeemed_again {w : World Unit} (h : w.redeemsAgain = true) :
    ¬ ∀ cookie ∈ w.issued, cookie.name = flowCookie → w.redeemed.count cookie.value ≤ 1 := by
  intro once
  simp only [World.redeemsAgain, List.any_eq_true, Bool.and_eq_true, beq_iff_eq,
    decide_eq_true_eq] at h
  obtain ⟨cookie, hissued, hname, htwice⟩ := h
  have hone := once cookie hissued hname
  omega

theorem replayed_redeems_again : (adaRun replayed).2.redeemsAgain = true := by
  decide

theorem cut_off_callback_redeems_again :
    ¬ ∀ (log : List (Move (Event Unit Unit) (World Unit))) (w : World Unit),
      Trace (Step adaState) .initial log w →
        (∀ move ∈ log, ∀ who name text, move.label ≠ .planted who name text) →
          ∀ cookie ∈ w.issued, cookie.name = flowCookie → w.redeemed.count cookie.value ≤ 1 := by
  intro claim
  have adas : Adas (adaRun replayed).1 := by
    intro move hmove
    have hevent := mem_play hmove
    simp only [replayed, List.mem_cons, List.not_mem_nil, or_false] at hevent
    rcases hevent with h | h | h
    · exact .inl h
    · exact .inr ⟨_, _, h⟩
    · exact .inr ⟨_, _, h⟩
  exact redeemed_again replayed_redeems_again
    (claim (adaRun replayed).1 (adaRun replayed).2 (play_requests adaState .initial replayed)
      adas.obedient)

/-! A login, a callback with another state, the callback of the provider, and that callback
again. -/

/-- Base64 can be sent, and it is no open cookie. -/
theorem base64_char {bytes : Core.Model.Bytes} {ch : Char}
    (h : ch ∈ (Jwt.ascii (base64 bytes)).toList) : isHeaderChar ch = true ∧ ch ≠ '.' := by
  let plain (byte : UInt8) : Prop :=
    isHeaderChar (Char.ofNat byte.toNat) = true ∧ Char.ofNat byte.toNat ≠ '.'
  have hsymbol : ∀ n, plain (Base64.urlSafe.symbol n) := by decide
  have hpad : plain Base64.pad := by decide
  rw [Jwt.ascii, String.toList_ofList] at h
  obtain ⟨byte, hbyte, rfl⟩ := List.mem_map.mp h
  exact Base64.urlSafe.encode_all hsymbol hpad hbyte

def adaSession (value : String) : Cookie :=
  { baseCookie sessionCookie value false with maxAge := some (secs 3600) }

/-- A session that Ada's login opens, and that can be sent. It is none of the private cookies. -/
structure Opened (value : String) : Prop where
  opens : openSession adaState adaReadings adaFlow "h.e30.s" ⟨userOf "ada" "1", true⟩ =
    .ok ⟨"h.e30.s", "/", adaSession value⟩
  sendable : isHeaderValue (cookieText (adaSession value)) = true
  closed : PrivateCookies.decrypt sessionCookie value = none

theorem adaSession_opened : ∃ value, Opened value := by
  have valid : Core.Validate.validateEntityId "user" "ada" = .ok () := by decide
  obtain ⟨value, hencode, hlogin, -⟩ := login_sealed valid [7] ⟨false, none, secs 3600⟩
    (effectiveSessionTtl (secs 3600)) nilUuid inClock_two inClock_two
  have hvalue := (encodeAt_eq_ok.mp hencode).1
  have hchar (ch : Char) (h : ch ∈ (Jwt.ascii value).toList) : isHeaderChar ch = true ∧ ch ≠ '.' := by
    rw [hvalue] at h
    exact base64_char h
  refine ⟨Jwt.ascii value, ?_, ?_, ?_⟩
  · have hopens : adaState.session.login (Jwt.mintLoginTokenAt adaState.jwtKey adaReadings.jti "ada"
        (effectiveSessionTtl adaState.sessionTtl) adaReadings.issuedAt) adaReadings.sealedAt =
          .ok (adaSession (Jwt.ascii value)) := hlogin
    simp only [openSession, userOf, hopens]
    rfl
  · have hsendable : isHeaderValue (Jwt.ascii value) = true :=
      List.all_eq_true.mpr fun ch h => (hchar ch h).1
    simp only [cookieText, isHeaderValue_append, adaSession, baseCookie, hsendable]
    rfl
  · unfold PrivateCookies.decrypt
    dsimp only
    split
    · rename_i rest hopen
      exact absurd rfl (hchar '.' (hopen ▸ List.mem_cons_self)).2
    · rfl

/-- What a response leaves. -/
def World.hears (w : World Unit) (response : Response) (count : Nat) : World Unit :=
  { w.receive () response with redeemed := w.redeemed ++ redeemedBy (w.stores () flowCookie) count }

def adaAsked : World Unit :=
  World.initial.hears (login adaState (some ()) (Jar.fromHeaders []) ⟨none⟩
    ⟨"https://idp.test/", "s1", "n1", "p1"⟩ (clockAt 1 inClock_one) noNonce) 0

def adaMistaken : World Unit :=
  adaAsked.hears (errorResponse (.invalid "the login state does not match, start again")) 0

def adaWelcome (value : String) : Response :=
  respond adaState adaReadings (Jar.fromHeaders (adaMistaken.stores ()).sent)
    (.ok ⟨"h.e30.s", "/", adaSession value⟩)

def adaSignedIn (value : String) : World Unit := adaMistaken.hears (adaWelcome value) 1

def adaReturned (value : String) : World Unit :=
  (adaSignedIn value).hears
    (errorResponse (.invalid "the login session is missing or expired, start again")) 0

/-- The callback of the provider is answered with the session. -/
theorem adaMistaken_answers {value : String} (opened : Opened value) :
    adaMistaken.respond adaState (adaCallback "s1" none) = some ((), adaWelcome value, 1) := by
  obtain ⟨log, hserve, hone⟩ : ∃ log, serveCallback adaState (adaMistaken.stores ())
      ⟨some "c1", some "s1", none, none⟩ ⟨some (), adaReadings, adaAnswers, none⟩ =
        (log, .finished (respond adaState adaReadings (Jar.fromHeaders (adaMistaken.stores ()).sent)
          ((openSession adaState adaReadings adaFlow "h.e30.s" ⟨userOf "ada" "1", true⟩).mapError
            fun error => ⟨error, true⟩))) ∧ exchanges log = 1 := ⟨_, rfl, rfl⟩
  rw [opened.opens] at hserve
  simp only [World.respond, adaCallback, hserve, responseOf, runs, hone]
  rfl

theorem adaWelcome_setCookie {value : String} (opened : Opened value) :
    (adaWelcome value).setCookie = [adaSession value, adaState.session.removal flowCookie,
      { adaState.session.privateCookie idTokenCookie "h.e30.s" (secs 3600) with
        value := PrivateCookies.encrypt noNonce idTokenCookie "h.e30.s" }] := by
  simp only [adaWelcome, respond, withSessionCookie, opened.sendable, if_true]
  rfl

/-- Once the session is set the flow is gone, and the same callback finds none. -/
theorem adaSignedIn_answers {value : String} (opened : Opened value) :
    (adaSignedIn value).respond adaState (adaCallback "s1" none) =
      some ((), errorResponse (.invalid "the login session is missing or expired, start again"), 0) := by
  have hflow : (adaSignedIn value).stores () flowCookie = none := by
    simp only [adaSignedIn, World.hears, receive_stores, adaWelcome_setCookie opened]
    rfl
  have hget : (Jar.fromHeaders ((adaSignedIn value).stores ()).sent).get flowCookie = none := by
    rw [get_sent, hflow]
    rfl
  simp only [World.respond, adaCallback, serveCallback, callback, hget]
  rfl

/-- What Ada's requests meet, one after the other. -/
def adaLog (value : String) : List (Move (Event Unit Unit) (World Unit)) :=
  [⟨.initial, adaLogin, adaAsked⟩, ⟨adaAsked, adaCallback "s0" none, adaMistaken⟩,
    ⟨adaMistaken, adaCallback "s1" none, adaSignedIn value⟩,
    ⟨adaSignedIn value, adaCallback "s1" none, adaReturned value⟩]

theorem adaLog_trace {value : String} (opened : Opened value) :
    Trace (Step adaState) .initial (adaLog value) (adaReturned value) := by
  have asked : Step adaState .initial adaLogin adaAsked :=
    .request rfl fun _ _ _ _ hold => absurd hold List.not_mem_nil
  have mistaken : Step adaState adaAsked (adaCallback "s0" none) adaMistaken :=
    .request rfl fun _ hcookie => absurd hcookie List.not_mem_nil
  have welcome : Step adaState adaMistaken (adaCallback "s1" none) (adaSignedIn value) := by
    refine .request (adaMistaken_answers opened) fun cookie hcookie hopen => ?_
    rw [adaWelcome_setCookie opened] at hcookie
    simp only [List.mem_cons, List.not_mem_nil, or_false] at hcookie
    rcases hcookie with rfl | rfl | rfl
    · rw [show PrivateCookies.decrypt (adaSession value).name (adaSession value).value = none
        from opened.closed] at hopen
      cases hopen
    · cases hopen
    · decide
  have returned : Step adaState (adaSignedIn value) (adaCallback "s1" none) (adaReturned value) :=
    .request (adaSignedIn_answers opened) fun _ hcookie => absurd hcookie List.not_mem_nil
  exact (((Trace.nil.snoc asked).snoc mistaken).snoc welcome).snoc returned

theorem adas_adaLog (value : String) : Adas (adaLog value) := by
  intro move hmove
  simp only [adaLog, List.mem_cons, List.not_mem_nil, or_false] at hmove
  rcases hmove with rfl | rfl | rfl | rfl
  · exact .inl rfl
  all_goals exact .inr ⟨_, _, rfl⟩

theorem adaLog_ended (value : String) :
    ∀ move ∈ adaLog value, ¬ CutOff adaState move.before move.label := by
  rintro move hmove ⟨who, query, env, op, hlabel, hdropped⟩
  have hpatient : env.timeout = none := by
    simp only [adaLog, List.mem_cons, List.not_mem_nil, or_false] at hmove
    rcases hmove with rfl | rfl | rfl | rfl <;> cases hlabel
    all_goals rfl
  have patient : ∀ n (op : ProviderCall Unit ⊕ Call),
      (env.timeout == some n && awaits op) = false := by simp [hpatient]
  obtain ⟨log, response, hserve⟩ := Program.serve_finishes patient
    (callback adaState env.readings env.current (Jar.fromHeaders (move.before.stores who).sent) query) 0
  rw [serveCallback, hserve] at hdropped
  cases hdropped

/-- The flow of Ada's login is redeemed, and the callback that comes again does not redeem it. -/
theorem flow_redeemed_once_returned : ∃ log w, Trace (Step adaState) .initial log w ∧
    log.map Move.label =
      [adaLogin, adaCallback "s0" none, adaCallback "s1" none, adaCallback "s1" none] ∧
    ∃ cookie ∈ w.issued, cookie.name = flowCookie ∧ w.redeemed.count cookie.value = 1 := by
  obtain ⟨value, opened⟩ := adaSession_opened
  have trace := adaLog_trace opened
  have once := flow_redeemed_once trace (adas_adaLog value).obedient (adaLog_ended value)
  obtain ⟨cookie, hissued, hname, htext⟩ : ∃ cookie ∈ adaMistaken.issued, cookie.name = flowCookie ∧
      (adaSignedIn value).redeemed = [cookie.value] := ⟨_, List.mem_singleton_self _, rfl, rfl⟩
  have hlast : cookie ∈ (adaReturned value).issued :=
    List.mem_append_left _ (List.mem_append_left _ hissued)
  refine ⟨adaLog value, adaReturned value, trace, rfl, cookie, hlast, hname,
    Nat.le_antisymm (once cookie hlast hname) ?_⟩
  rw [List.one_le_count_iff, adaReturned, World.hears, redeemedBy_zero, htext]
  simp

/-- The callback with another state leaves Ada's flow where it is, and the one of the provider
earns the session. -/
theorem callback_safe_returned : ∃ login mistaken welcome again w,
    Trace (Step adaState) .initial [login, mistaken, welcome, again] w ∧
      (mistaken.label = adaCallback "s0" none ∧ storedFlow mistaken.before () = some adaFlow ∧
        mistaken.after.stores () flowCookie = mistaken.before.stores () flowCookie) ∧
      ∃ response cookie, welcome.before.respond adaState welcome.label = some ((), response, 1) ∧
        cookie ∈ response.setCookie ∧ cookie.name = sessionCookie ∧
          ∃ query env flow outcome, welcome.label = .callback () (some query) env ∧
            Earned adaState [login, mistaken] welcome.before () query env cookie flow outcome := by
  obtain ⟨value, opened⟩ := adaSession_opened
  have trace := adaLog_trace opened
  have safe (earlier : List (Move (Event Unit Unit) (World Unit))) {later} {move}
      (hlog : adaLog value = earlier ++ move :: later) :=
    callback_safe trace (adas_adaLog value).readsBack hlog
  refine ⟨_, _, _, _, _, trace, ⟨rfl, by decide, ?_⟩, adaWelcome value, adaSession value,
    adaMistaken_answers opened, ?_, rfl, ?_⟩
  · refine ((safe [_] rfl).2 () _ _ rfl fun flow hflow => ?_).2
    obtain rfl : adaFlow = flow := Option.some.inj hflow
    decide
  · rw [adaWelcome_setCookie opened]
    exact List.mem_cons_self
  · exact (safe [_, _] rfl).1 () _ 1 (adaMistaken_answers opened) _
      (by rw [adaWelcome_setCookie opened]; exact List.mem_cons_self) rfl

end Ada

end LakeFsAuth.Authn.Browser
