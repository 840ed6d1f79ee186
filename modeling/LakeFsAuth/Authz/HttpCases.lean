import LakeFsAuth.Authz.Http

/-! What a request may run. The routes, the bearer check and the extractors are taken apart
here once: what is left is a service, whose result is turned into a response. -/
namespace LakeFsAuth.Authz.Http
open Library Program LakeFsAuth.Core Core.Error Core.Json Core.Model Core.Pagination Core.Token Store Api

/-! Routes. -/

theorem findRoute_mem {routes : List Route} {path : List Text} {route : Route}
    {params : List Text} (h : findRoute routes path = some (route, params)) : route ∈ routes := by
  obtain ⟨found, hfound, hmatch⟩ := List.exists_of_findSome?_eq_some h
  obtain ⟨_, _, heq⟩ := Option.map_eq_some_iff.mp hmatch
  cases heq
  exact hfound

theorem Route.operation_mem {verb : Verb} {operation : Operation} (route : Route)
    (found : route.operation verb = some operation) :
    (if verb = .HEAD then .GET else verb, operation) ∈ route.methods := by
  obtain ⟨_, _, hmethods, _⟩ := List.lookup_eq_some_iff.mp found
  rw [hmethods]
  exact List.mem_append_right _ List.mem_cons_self

/-- The operation of a request is one of a route. -/
theorem target_route {options : RouterOptions} {request : HttpRequest} {guarded : Bool}
    {operation : Option Operation} {params : List Text}
    (h : target options request = .route guarded operation params) :
    ∃ route ∈ if guarded then protectedRouter else publicRouter ++ rootRouter,
      operation = route.operation request.verb := by
  unfold target at h
  simp only at h
  split at h
  · rename_i route _ hfind
    obtain ⟨path, _, hroute⟩ := Option.bind_eq_some_iff.mp hfind
    cases h
    exact ⟨route, findRoute_mem hroute, rfl⟩
  · split at h
    · rename_i route _ hfind
      obtain ⟨path, _, hroute⟩ := Option.bind_eq_some_iff.mp hfind
      cases h
      exact ⟨route, List.mem_append_left _ (findRoute_mem hroute), rfl⟩
    · split at h
      · rename_i route _ hroute
        cases h
        exact ⟨route, List.mem_append_right _ (findRoute_mem hroute), rfl⟩
      · cases h

/-! Extractors. What they answer themselves is answered without a call. -/

section Extractors
variable {P : Action HttpResponse → Prop} {request : HttpRequest} {params : List Text}

theorem path1_cases {handler : String → Action HttpResponse} (pure : ∀ response, P (pure response))
    (h : ∀ value, P (handler value)) : P (path1 params handler) := by
  unfold path1
  split
  · exact pure _
  · exact h _
  · exact pure _

theorem path2_cases {handler : String → String → Action HttpResponse}
    (pure : ∀ response, P (pure response)) (h : ∀ first second, P (handler first second)) :
    P (path2 params handler) := by
  unfold path2
  split
  · exact pure _
  · exact h _ _
  · exact pure _

theorem withQuery_cases {α : Type} {read : List (String × String) → Option α}
    {handler : α → Action HttpResponse} (pure : ∀ response, P (pure response))
    (h : ∀ query, P (handler query)) : P (withQuery read request handler) := by
  unfold withQuery
  split
  · exact pure _
  · exact h _

theorem withJson_cases {α : Type} {codec : Wire.Codec α} {handler : α → Action HttpResponse}
    (pure : ∀ response, P (pure response)) (h : ∀ body, P (handler body)) :
    P (withJson codec request handler) := by
  unfold withJson
  split
  · exact pure _
  · exact h _

end Extractors

/-! Operations. -/

section Operations
variable [SecretBox.Aes256Gcm] [Validate.SerdeJson]

/-- The service an operation runs, and the status of its success. -/
inductive Runs (draw : Service.Draw) : Operation → Nat → {α : Type} →
    Action (Except ApiError α) → Prop where
  | listUsers (query) : Runs draw .listUsers 200 (Handlers.listUsers query)
  | createUser (body) : Runs draw .createUser 201 (Service.createUser body)
  | getUser (username) : Runs draw .getUser 200 (Handlers.getUser username)
  | deleteUser (username) : Runs draw .deleteUser 204 (Handlers.deleteUser username)
  | updateFriendlyName (username name) :
      Runs draw .updateFriendlyName 204 (Handlers.updateFriendlyName username name)
  | listGroups (params) : Runs draw .listGroups 200 (listGroups params)
  | createGroup (body) : Runs draw .createGroup 201 (Service.createGroup body)
  | getGroup (id) : Runs draw .getGroup 200 (getGroup id)
  | deleteGroup (id) : Runs draw .deleteGroup 204 (deleteGroup id)
  | listPolicies (params) : Runs draw .listPolicies 200 (listPolicies params)
  | createPolicy (body) : Runs draw .createPolicy 201 (Service.createPolicy body)
  | getPolicy (name) : Runs draw .getPolicy 200 (getPolicy name)
  | updatePolicy (name body) : Runs draw .updatePolicy 200 (Service.updatePolicy name body)
  | deletePolicy (name) : Runs draw .deletePolicy 204 (deletePolicy name)
  | listGroupMembers (id params) : Runs draw .listGroupMembers 200 (listGroupMembers id params)
  | addMembership (id username) : Runs draw .addMembership 201 (Handlers.addMembership id username)
  | deleteMembership (id username) : Runs draw .deleteMembership 204 (deleteMembership id username)
  | listUserCredentials (username params) :
      Runs draw .listUserCredentials 200 (listUserCredentials username params)
  | createCredentials (username accessKey secretKey) : Runs draw .createCredentials 201
      (Service.createCredentials draw username accessKey secretKey)
  | getCredentialsForUser (username key) :
      Runs draw .getCredentialsForUser 200 (getCredentialsForUser username key)
  | deleteCredentials (username key) :
      Runs draw .deleteCredentials 204 (deleteCredentials username key)
  | getCredentials (key) : Runs draw .getCredentials 200 (Service.credentialsWithSecret key)
  | listUserGroups (username params) :
      Runs draw .listUserGroups 200 (Handlers.listUserGroups username params)
  | listUserPolicies (username query) :
      Runs draw .listUserPolicies 200 (listUserPolicies username query)
  | attachPolicyToUser (username policy) :
      Runs draw .attachPolicyToUser 201 (Handlers.attachPolicyToUser username policy)
  | detachPolicyFromUser (username policy) :
      Runs draw .detachPolicyFromUser 204 (detachPolicyFromUser username policy)
  | listGroupPolicies (id params) : Runs draw .listGroupPolicies 200 (listGroupPolicies id params)
  | attachPolicyToGroup (id policy) :
      Runs draw .attachPolicyToGroup 201 (Handlers.attachPolicyToGroup id policy)
  | detachPolicyFromGroup (id policy) :
      Runs draw .detachPolicyFromGroup 204 (detachPolicyFromGroup id policy)
  | claimTokenId (body) : Runs draw .claimTokenId 201 (Service.claimTokenId body)
  | listUserExternalPrincipals (username params) :
      Runs draw .listUserExternalPrincipals 200 (listUserExternalPrincipals username params)
  | createUserExternalPrincipal (username query) :
      Runs draw .createUserExternalPrincipal 201 (createUserExternalPrincipal username query)
  | deleteUserExternalPrincipal (username query) :
      Runs draw .deleteUserExternalPrincipal 204 (deleteUserExternalPrincipal username query)
  | getExternalPrincipal (query) :
      Runs draw .getExternalPrincipal 200 (getExternalPrincipal query)
  | version : Runs draw .version 200 Handlers.version
  | healthcheck : Runs draw .healthcheck 204 Handlers.healthcheck
  | readyz : Runs draw .readyz 200 readyz

/-- A property of the answers without a call, and of the answers of the services, is one of
every handler. -/
theorem handle_cases {P : Action HttpResponse → Prop} {draw : Service.Draw} {request : HttpRequest}
    {params : List Text} {operation : Operation} (pure : ∀ response, P (pure response))
    (run : ∀ {success : Nat} {α : Type} {p : Action (Except ApiError α)} (write : α → Payload),
      Runs draw operation success p → P (do return respond success write (← p))) :
    P (handle draw request params operation) := by
  cases operation with
  | listUsers => exact withQuery_cases pure fun query => run _ (.listUsers query)
  | createUser => exact withJson_cases pure fun body => run _ (.createUser body)
  | getUser => exact path1_cases pure fun username => run _ (.getUser username)
  | deleteUser => exact path1_cases pure fun username => run _ (.deleteUser username)
  | updatePassword => exact pure _
  | updateFriendlyName =>
    exact path1_cases pure fun username => withJson_cases pure fun body =>
      run _ (.updateFriendlyName username body.friendlyName)
  | listGroups => exact withQuery_cases pure fun query => run _ (.listGroups query)
  | createGroup => exact withJson_cases pure fun body => run _ (.createGroup body)
  | getGroup => exact path1_cases pure fun id => run _ (.getGroup id)
  | deleteGroup => exact path1_cases pure fun id => run _ (.deleteGroup id)
  | listPolicies => exact withQuery_cases pure fun query => run _ (.listPolicies query)
  | createPolicy => exact withJson_cases pure fun body => run _ (.createPolicy body)
  | getPolicy => exact path1_cases pure fun name => run _ (.getPolicy name)
  | updatePolicy =>
    exact path1_cases pure fun name => withJson_cases pure fun body =>
      run _ (.updatePolicy name body)
  | deletePolicy => exact path1_cases pure fun name => run _ (.deletePolicy name)
  | listGroupMembers =>
    exact path1_cases pure fun id => withQuery_cases pure fun query =>
      run _ (.listGroupMembers id query)
  | addMembership =>
    exact path2_cases pure fun id username => run _ (.addMembership id username)
  | deleteMembership =>
    exact path2_cases pure fun id username => run _ (.deleteMembership id username)
  | listUserCredentials =>
    exact path1_cases pure fun username => withQuery_cases pure fun query =>
      run _ (.listUserCredentials username query)
  | createCredentials =>
    exact path1_cases pure fun username => withQuery_cases pure fun query =>
      run _ (.createCredentials username query.accessKey query.secretKey)
  | getCredentialsForUser =>
    exact path2_cases pure fun username key => run _ (.getCredentialsForUser username key)
  | deleteCredentials =>
    exact path2_cases pure fun username key => run _ (.deleteCredentials username key)
  | getCredentials => exact path1_cases pure fun key => run _ (.getCredentials key)
  | listUserGroups =>
    exact path1_cases pure fun username => withQuery_cases pure fun query =>
      run _ (.listUserGroups username query)
  | listUserPolicies =>
    exact path1_cases pure fun username => withQuery_cases pure fun query =>
      run _ (.listUserPolicies username query)
  | attachPolicyToUser =>
    exact path2_cases pure fun username policy => run _ (.attachPolicyToUser username policy)
  | detachPolicyFromUser =>
    exact path2_cases pure fun username policy => run _ (.detachPolicyFromUser username policy)
  | listGroupPolicies =>
    exact path1_cases pure fun id => withQuery_cases pure fun query =>
      run _ (.listGroupPolicies id query)
  | attachPolicyToGroup =>
    exact path2_cases pure fun id policy => run _ (.attachPolicyToGroup id policy)
  | detachPolicyFromGroup =>
    exact path2_cases pure fun id policy => run _ (.detachPolicyFromGroup id policy)
  | claimTokenId => exact withJson_cases pure fun body => run _ (.claimTokenId body)
  | listUserExternalPrincipals =>
    exact path1_cases pure fun username => withQuery_cases pure fun query =>
      run _ (.listUserExternalPrincipals username query)
  | createUserExternalPrincipal =>
    exact path1_cases pure fun username => withQuery_cases pure fun query =>
      run _ (.createUserExternalPrincipal username query)
  | deleteUserExternalPrincipal =>
    exact path1_cases pure fun username => withQuery_cases pure fun query =>
      run _ (.deleteUserExternalPrincipal username query)
  | getExternalPrincipal => exact withQuery_cases pure fun query => run _ (.getExternalPrincipal query)
  | version => exact run _ .version
  | healthcheck => exact run _ .healthcheck
  | readyz => exact run _ .readyz

end Operations

/-! The server. -/

section Server
variable [NumericDate] [FromSlice] [Authn.SecureCookie.HmacSha256] {verifier : TokenVerifier}
  {options : RouterOptions} {draw : Service.Draw} {request : HttpRequest}

theorem requireAuth_cases {P : Action HttpResponse → Prop} {next : Action HttpResponse}
    {authorization : Option String} (pure : ∀ response, P (pure response))
    (clock : ∀ f, (∀ time, P (f time)) → P (now >>= f)) (hnext : P next) :
    P (requireAuth verifier authorization next) := by
  unfold requireAuth
  split
  · split
    · exact hnext
    · exact pure _
  · refine clock _ fun time => ?_
    split
    · exact hnext
    · exact pure _

/-- The bearer check passes a request at a time. -/
def letsIn (verifier : TokenVerifier) (authorization : Option String) (date : Timestamp) : Prop :=
  match authorization.bind bearerToken with
  | none => verifier.disabled = true
  | some token => verifier.verifyAt token date.asSecond = .ok ()

theorem run_requireAuth {σ : Type} {impl : StoreImpl σ} {authorization : Option String}
    {date : Timestamp} (h : letsIn verifier authorization date) (fault : Fault)
    (next : Action HttpResponse) (s : σ) :
    run (Call.pick impl date fault) (requireAuth verifier authorization next) s =
      run (Call.pick impl date fault) next s := by
  unfold letsIn at h
  unfold requireAuth
  cases htoken : authorization.bind bearerToken with
  | none =>
    rw [htoken] at h
    simp only [if_pos h]
  | some token =>
    rw [htoken] at h
    dsimp only
    rw [run_bind]
    simp only [now, perform, run_call, run_done, Call.pick, h]

variable [SecretBox.Aes256Gcm] [Validate.SerdeJson]

/-- The same of everything that is served. -/
theorem serve_cases {P : Action HttpResponse → Prop} (pure : ∀ response, P (pure response))
    (clock : ∀ f, (∀ time, P (f time)) → P (now >>= f))
    (body : ∀ p, P p → P (do return bodyFor request.verb (← p)))
    (run : ∀ {guarded : Bool} {operation : Operation} {params : List Text} {success : Nat}
      {α : Type} {p : Action (Except ApiError α)} (write : α → Payload),
      target options request = .route guarded (some operation) params →
      Runs draw operation success p → P (do return respond success write (← p))) :
    P (serve verifier options draw request) := by
  unfold serve
  split
  · exact pure _
  · cases htarget : target options request with
    | unmatched => exact pure _
    | route guarded operation params =>
      have hdispatch : P (dispatch draw request params operation) := by
        cases operation with
        | none => exact pure _
        | some operation => exact handle_cases pure fun write hruns => run write htarget hruns
      cases guarded with
      | true => exact body _ (requireAuth_cases pure clock hdispatch)
      | false => exact body _ hdispatch

end Server

end LakeFsAuth.Authz.Http
