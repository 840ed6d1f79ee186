import LakeFsAuth.Authn.Provision
import LakeFsAuth.Authz.Store.UserTable
import LakeFsAuth.AuthzClient.Rules

/-! What a run of the client knows from its own calls, whatever others do to the
store meanwhile: which row its answer was taken from, and what it has created
when it deletes. -/
namespace LakeFsAuth.AuthzClient
open Core.Error Core.Model Core.Text Core.Validate Authz Authz.Store Authz.Api Authz.Handlers
open Library Library.Program

/-- The user row a store call answers with, for the calls a run may take its own
answer from. -/
def shown : Entry Call.Reply → Option UserRecord
  | ⟨.store (.createUser _), .ok row⟩ | ⟨.store (.getUser _), .ok row⟩ => some row
  | ⟨.store (.findUserByExternalId _), .ok row⟩ => row
  | _ => none

def Told (log : List (Entry Call.Reply)) (row : UserRecord) : Prop :=
  ∃ entry ∈ log, shown entry = some row

/-- What single replies say about the rows in them. -/
def Law : (call : Call) → call.Reply → Prop
  | .store (.createUser user), .ok row =>
      row.username = user.username ∧ row.externalId = user.externalId
  | .store (.getUser username), .ok row => row.username = username
  | .store (.findUserByExternalId externalId), .ok (some row) =>
      row.externalId = some externalId
  | _, _ => True

/-- A create of this user stored the row. -/
structure Inserted (log : List (Entry Call.Reply)) (requested : NewUser) (row : UserRecord) :
    Prop where
  entry : ⟨.store (.createUser requested), .ok row⟩ ∈ log
  username : row.username = requested.username
  externalId : row.externalId = requested.externalId

/-- A create of this user was refused, and the row read back matches it. -/
structure Matched (log : List (Entry Call.Reply)) (requested : NewUser) (row : UserRecord) :
    Prop where
  refused : ∃ error : StoreError, error.isAlreadyExists = true ∧
    ⟨.store (.createUser requested), .error error⟩ ∈ log
  read : ⟨.store (.getUser requested.username), .ok row⟩ ∈ log
  username : row.username = requested.username
  same : Service.sameUser requested row = true

/-- The row was inserted by a create of this body, or a create of this body was
refused and the row read back matches it. -/
def Answered (log : List (Entry Call.Reply)) (body : UserCreation) (row : UserRecord) : Prop :=
  ∃ requested date, Service.requestedUser body date = .ok requested ∧
    (Inserted log requested row ∨ Matched log requested row)

theorem Answered.mono {log log' : List (Entry Call.Reply)} {body : UserCreation}
    {row : UserRecord} (h : Answered log body row) (hsub : log <+: log') :
    Answered log' body row := by
  obtain ⟨requested, date, hbody, hinsert | hmatch⟩ := h
  · exact ⟨requested, date, hbody, .inl { hinsert with entry := hsub.subset hinsert.entry }⟩
  · obtain ⟨error, herror, hrefused⟩ := hmatch.refused
    exact ⟨requested, date, hbody, .inr { hmatch with
      refused := ⟨error, herror, hsub.subset hrefused⟩
      read := hsub.subset hmatch.read }⟩

theorem Told.mono {log log' : List (Entry Call.Reply)} {row : UserRecord} (h : Told log row)
    (hsub : log <+: log') : Told log' row := by
  obtain ⟨entry, hentry, hshown⟩ := h
  exact ⟨entry, hsub.subset hentry, hshown⟩

theorem Answered.told {log : List (Entry Call.Reply)} {body : UserCreation} {row : UserRecord}
    (h : Answered log body row) : Told log row := by
  obtain ⟨requested, date, _, hinsert | hmatch⟩ := h
  · exact ⟨_, hinsert.entry, rfl⟩
  · exact ⟨_, hmatch.read, rfl⟩

/-- A delete needs a create of that name that was answered before. -/
def MayCall (log : List (Entry Call.Reply)) (_ : Unit) (call : Call) : Prop :=
  ∀ username, call = .store (.deleteUser username) →
    ∃ body row, Answered log body row ∧ row.username = username

theorem requestedUser_ok {body : UserCreation} {date : Timestamp} {requested : NewUser}
    (h : Service.requestedUser body date = .ok requested) :
    validateEntityId "user" body.username = .ok () ∧
      requested = ⟨body.username, date, optionalText body.friendlyName,
        optionalText body.email, optionalText body.source, optionalText body.externalId,
        body.encryptedPassword⟩ := by
  unfold Service.requestedUser NewUser.validated at h
  cases hvalid : validateEntityId "user" body.username with
  | error error =>
    rw [hvalid] at h
    cases h
  | ok =>
    rw [hvalid] at h
    cases h
    exact ⟨rfl, rfl⟩

section Spec
variable {log : List (Entry Call.Reply)}

/-- The judgement of a conversation: every call is allowed, and the answer good. -/
abbrev Conveys (p : Action α) (Post : List (Entry Call.Reply) → α → Prop)
    (log : List (Entry Call.Reply)) : Prop :=
  Meets (Seen Law) MayCall (fun log _ value => Post log value) p log ()

theorem mayCall_store {op : StoreOp} (h : ∀ username, op ≠ .deleteUser username) :
    MayCall log () (.store op) := by
  intro username heq
  cases heq
  exact absurd rfl (h username)

theorem mayCall_now : MayCall log () .now := by
  intro username heq
  cases heq

theorem mayCall_attempt {request : Request} : MayCall log () (.attempt request) := by
  intro username heq
  cases heq

theorem createOrExisting_conveys {requested : NewUser} {created : StoreResult UserRecord}
    (hcreated : ⟨.store (.createUser requested), created⟩ ∈ log)
    (law : Law (.store (.createUser requested)) created) :
    Conveys (Service.createOrExisting created (store (.getUser requested.username))
        (Service.sameUser requested))
      (fun log result => ∀ row, result = .ok row →
        Inserted log requested row ∨ Matched log requested row) log := by
  unfold Service.createOrExisting
  cases created with
  | ok created =>
    intro row h
    cases h
    exact .inl ⟨hcreated, law.1, law.2⟩
  | error conflict =>
    dsimp only
    split
    · rename_i hconflict
      refine Meets.perform_bind (mayCall_store (by simp)) fun reply _ hread => ?_
      cases reply with
      | ok existing =>
        dsimp only
        split
        · rename_i hsame
          intro row h
          cases h
          exact .inr ⟨⟨conflict, hconflict, List.mem_append_left _ hcreated⟩,
            List.mem_append_right _ List.mem_cons_self, hread, hsame⟩
        · intro row h
          cases h
      | error error =>
        cases error <;> (intro row h; cases h)
    · intro row h
      cases h

theorem service_createUser_conveys (body : UserCreation) :
    Conveys (Service.createUser body) (fun log result => ∀ user, result = .ok user →
      ∃ row, user = Service.userToWire row ∧ Answered log body row) log := by
  unfold Service.createUser
  split
  · intro user h
    cases h
  · refine Meets.perform_bind mayCall_now fun date _ _ => ?_
    cases hrequested : Service.requestedUser body date with
    | error error =>
      intro user h
      cases h
    | ok requested =>
      refine Meets.perform_bind (mayCall_store (by simp)) fun created _ law => ?_
      refine Meets.bind (createOrExisting_conveys
        (List.mem_append_right _ List.mem_cons_self) law) fun log _ result hresult => ?_
      intro user h
      cases result with
      | error error => cases h
      | ok row =>
        cases h
        exact ⟨row, rfl, requested, date, hrequested, hresult row rfl⟩

/-- Only an answered attempt carries a body the client can read. -/
theorem deliver_json {response answer : Response α} {fault : Fault} {value : α}
    (h : fault.deliver response = .ok answer) (hbody : answer.body = .json value) :
    response.body = .json value := by
  cases fault with
  | answered =>
    cases h
    exact hbody
  | unreachable | lost committed loss => cases h
  | failed committed status | garbled =>
    cases h
    cases hbody

theorem refusal_json {answer : Response α} {fault : Fault} {value : α}
    (h : fault.refusal = .ok answer) (hbody : answer.body = .json value) : False := by
  cases fault with
  | failed committed status =>
    cases h
    cases hbody
  | answered | unreachable | garbled | lost committed loss => cases h

/-- A request that is sent, perhaps repeatedly, ends with what its handler
promises. -/
theorem sendWithRetry_conveys {request : Request} (Ready : List (Entry Call.Reply) → Prop)
    {Q : List (Entry Call.Reply) → request.Success → Prop}
    (mono : ∀ {log log'}, Ready log → log <+: log' → Ready log')
    (handler : ∀ log, Ready log → Conveys (answer request)
      (fun log result => ∀ value, result = .ok value → Q log value) log)
    (retries : Nat) (ready : Ready log) :
    Conveys (sendWithRetry request retries) (fun log result => ∀ response value,
      result = .ok response → response.body = .json value → Q log value) log := by
  refine sendWithRetry_meets (fun log _ => Ready log) ?_ retries ready
  intro log _ ready
  refine attempt_meets mayCall_attempt ?_ ?_
  · intro fault _ _ _
    have ready' := mono ready (List.prefix_append log [⟨.attempt request, fault⟩])
    refine handle_meets ((handler _ ready').extends.mono fun log' _ result h => ?_)
    refine ⟨fun _ => mono ready' h.1, ?_⟩
    intro response value hresponse hbody
    exact h.2 value (respond_json (deliver_json (mapError_ok hresponse) hbody))
  · intro fault _ _ _
    refine ⟨fun _ => mono ready (List.prefix_append log _), ?_⟩
    intro response value hresponse hbody
    exact (refusal_json (mapError_ok hresponse) hbody).elim

/-- A request that deletes no user is always allowed. -/
theorem answer_conveys (request : Request) (h : ∀ username, request ≠ .deleteUser username) :
    Conveys (answer request) (fun _ _ => True) log := by
  cases request with
  | deleteUser username => exact absurd rfl (h username)
  | createUser body => exact (service_createUser_conveys body).mono fun _ _ _ _ => trivial
  | healthcheck | version => exact trivial
  | getUser username => exact ⟨mayCall_store (by simp), fun _ _ _ => trivial⟩
  | listUserGroups username params => exact ⟨mayCall_store (by simp), fun _ _ _ => trivial⟩
  | createCredentials cipher draw username =>
    change Conveys (@Service.createCredentials cipher draw username none none) _ _
    unfold Service.createCredentials
    refine Meets.perform_bind mayCall_now fun date _ _ => ?_
    split
    · exact trivial
    · refine Meets.perform_bind (mayCall_store (by simp)) fun reply _ _ => ?_
      cases reply <;> exact trivial
  | updateFriendlyName username name => exact ⟨mayCall_store (by simp), fun _ _ _ => trivial⟩
  | addMembership groupId username => exact ⟨mayCall_store (by simp), fun _ _ _ => trivial⟩
  | listUsers query =>
    change Conveys (listUsers query) _ _
    unfold listUsers
    split
    · split
      · exact trivial
      · exact ⟨mayCall_store (by simp), fun _ _ _ => trivial⟩
    · exact ⟨mayCall_store (by simp), fun _ _ _ => trivial⟩
    · exact ⟨mayCall_store (by simp), fun _ _ _ => trivial⟩
    · exact ⟨mayCall_store (by simp), fun _ _ _ => trivial⟩

theorem send_harmless (request : Request) (h : ∀ username, request ≠ .deleteUser username)
    (retries : Nat) : Conveys (sendWithRetry request retries) (fun _ _ => True) log :=
  (sendWithRetry_conveys (fun _ => True) (fun _ _ => trivial) (fun _ _ =>
    (answer_conveys request h).mono fun _ _ _ _ _ _ => trivial) retries trivial).mono
    fun _ _ _ _ => trivial

variable (maxRetries : Nat)

theorem decoded {response : Response α} {expected : Nat} {value : α}
    (h : (expectStatus response expected >>= decodeJson) = .ok value) :
    response.status = expected ∧ response.body = .json value := by
  unfold expectStatus at h
  split at h
  · rename_i hstatus
    refine ⟨hstatus, ?_⟩
    change decodeJson response = .ok value at h
    unfold decodeJson at h
    cases hbody : response.body with
    | json value' =>
      rw [hbody] at h
      cases h
      rfl
    | error message =>
      rw [hbody] at h
      cases h
    | broken =>
      rw [hbody] at h
      cases h
  · cases h

/-- The row a lookup by external id answers with carries that id, trimmed. -/
theorem findUserByExternalId_conveys (externalId : String) :
    Conveys (findUserByExternalId maxRetries externalId)
      (fun log result => ∀ user, result = .ok (some user) → ∃ row,
        user = Service.userToWire row ∧ Told log row ∧
          row.externalId = some (trim externalId)) log := by
  unfold findUserByExternalId findUser
  split
  · intro user h
    cases h
  · rename_i hblank
    have hnonblank : nonBlank externalId = some (trim externalId) :=
      nonBlank_of_trim_ne _ hblank
    refine Meets.bind (sendWithRetry_conveys (fun _ => True)
      (Q := fun log list => ∃ found : Option UserRecord, list = single found ∧
        ∀ row, found = some row → Told log row ∧ row.externalId = some (trim externalId))
      (fun _ _ => trivial) (fun log _ => ?_) maxRetries trivial) fun log _ result hresult => ?_
    · change Conveys (listUsers _) _ _
      unfold listUsers
      simp only [Option.bind_none, Option.bind_some, hnonblank]
      refine Meets.perform_bind (mayCall_store (by simp)) fun reply _ hlaw => ?_
      intro value h
      cases reply with
      | error error => cases h
      | ok found =>
        cases h
        refine ⟨found, rfl, ?_⟩
        rintro row rfl
        exact ⟨⟨_, List.mem_append_right _ List.mem_cons_self, rfl⟩, hlaw⟩
    · cases result with
      | error error =>
        intro user h
        cases h
      | ok response =>
        dsimp only
        cases hdecode : expectStatus response 200 >>= decodeJson with
        | error error =>
          intro user h
          cases h
        | ok list =>
          obtain ⟨found, rfl, hfound⟩ := hresult response list rfl (decoded hdecode).2
          cases found with
          | none =>
            intro user h
            cases h
          | some row =>
            intro user h
            cases h
            exact ⟨row, rfl, hfound row rfl⟩

theorem findUserByEmail_conveys (email : String) :
    Conveys (findUserByEmail maxRetries email) (fun _ _ => True) log := by
  unfold findUserByEmail findUser
  split
  · exact trivial
  · refine Meets.bind (send_harmless (.listUsers _) (by simp) maxRetries) fun log _ result _ => ?_
    cases result with
    | error error => exact trivial
    | ok response =>
      dsimp only
      split
      · exact trivial
      · split <;> exact trivial

theorem createUser_conveys (body : UserCreation) :
    Conveys (createUser maxRetries body) (fun log result => ∀ user, result = .ok user →
      ∃ row, user = Service.userToWire row ∧ Answered log body row) log := by
  unfold createUser
  have handler : ∀ log, Conveys (answer (.createUser body)) _ log :=
    fun log => service_createUser_conveys body
  refine Meets.bind (sendWithRetry_conveys (fun _ => True) (fun _ _ => trivial)
    (fun log _ => handler log) maxRetries trivial) fun log _ result hresult => ?_
  cases result with
  | error error =>
    intro user h
    cases h
  | ok response =>
    intro user h
    exact hresult response user rfl (decoded h).2

theorem addGroupMembership_conveys (groupId username : String) :
    Conveys (addGroupMembership maxRetries groupId username) (fun _ _ => True) log := by
  unfold addGroupMembership
  split
  · exact trivial
  · exact trivial
  · refine Meets.bind (send_harmless (.addMembership _ _) (by simp) maxRetries)
      fun log _ result _ => ?_
    cases result <;> exact trivial

theorem updateFriendlyName_conveys (username name : String) :
    Conveys (updateFriendlyName maxRetries username name) (fun _ _ => True) log := by
  unfold updateFriendlyName
  split
  · exact trivial
  · refine Meets.bind (send_harmless (.updateFriendlyName _ _) (by simp) maxRetries)
      fun log _ result _ => ?_
    cases result <;> exact trivial

/-- Some create of this name was answered. -/
def Created (log : List (Entry Call.Reply)) (username : String) : Prop :=
  ∃ body row, Answered log body row ∧ row.username = username

theorem Created.mono {log log' : List (Entry Call.Reply)} {username : String}
    (h : Created log username) (hsub : log <+: log') : Created log' username := by
  obtain ⟨body, row, hanswered, hname⟩ := h
  exact ⟨body, row, hanswered.mono hsub, hname⟩

theorem rollBackCreate_conveys (username : String) (created : Created log username) :
    Conveys (rollBackCreate maxRetries username) (fun _ _ => True) log := by
  unfold rollBackCreate deleteUser
  refine Meets.bind (M := fun _ _ _ => True) ?_ fun _ _ _ _ => trivial
  split
  · exact trivial
  · rename_i path hpath
    rw [segment_ok hpath]
    refine Meets.bind (sendWithRetry_conveys (fun log => Created log username)
      (Q := fun _ _ => True) Created.mono (fun log created => ?_) maxRetries created)
      fun _ _ result _ => ?_
    · refine Meets.perform_bind ?_ fun _ _ _ => fun _ _ => trivial
      rintro _ heq
      cases heq
      exact created
    · cases result <;> exact trivial

theorem joinGroups_conveys (user : User) (groups : List String)
    (created : Created log user.username) :
    Conveys (joinGroups maxRetries user groups)
      (fun _ result => ∀ ensured, result = .ok ensured → ensured.user = user) log := by
  induction groups generalizing log with
  | nil =>
    intro ensured h
    cases h
    rfl
  | cons group groups ih =>
    unfold joinGroups
    refine Meets.bind (addGroupMembership_conveys maxRetries group user.username).extends
      fun log' _ result hresult => ?_
    have created' := created.mono hresult.1
    split
    · exact ih created'
    · exact ih created'
    · exact ih created'
    · refine Meets.bind (rollBackCreate_conveys maxRetries _ created') fun _ _ _ _ => ?_
      intro ensured h
      cases h

/-- The user of an answer is a row the run was shown, and that row carries the
external id asked for, normalised. -/
def Holds (externalId : String) (log : List (Entry Call.Reply)) (user : User) : Prop :=
  ∃ row, user = Service.userToWire row ∧ Told log row ∧
    ∀ e, nonBlank externalId = some e → row.externalId = some e

theorem Holds.mono {externalId : String} {log log' : List (Entry Call.Reply)} {user : User}
    (h : Holds externalId log user) (hsub : log <+: log') : Holds externalId log' user := by
  obtain ⟨row, huser, htold, hid⟩ := h
  exact ⟨row, huser, htold.mono hsub, hid⟩

/-- Text that is given and the same is the same text. -/
theorem sameIfGiven_some {text : String} {existing : Option String}
    (h : Service.sameIfGiven (some text) existing = true) : existing = some text := by
  have heq : some text = existing := by simpa [Service.sameIfGiven] using h
  exact heq.symm

/-- A created user carries the external id of the body, when it gives one. -/
theorem Answered.externalId {body : UserCreation} {row : UserRecord} {e : String}
    (h : Answered log body row) (given : optionalText body.externalId = some e) :
    row.externalId = some e := by
  obtain ⟨requested, date, hbody, hanswer⟩ := h
  have hrequested : requested.externalId = some e := by
    rw [(requestedUser_ok hbody).2, ← given]
  rcases hanswer with hinsert | hmatch
  · rw [hinsert.externalId, hrequested]
  · have hsame := hmatch.same
    simp only [Service.sameUser, Bool.and_eq_true] at hsame
    rw [hrequested] at hsame
    exact sameIfGiven_some hsame.1.2

theorem Answered.holds {body : UserCreation} {row : UserRecord} {externalId : String}
    (h : Answered log body row) (hbody : body.externalId = some externalId) :
    Holds externalId log (Service.userToWire row) :=
  ⟨row, rfl, h.told, fun e he => h.externalId (by rw [hbody]; exact he)⟩

theorem joinCreated_conveys {body : UserCreation} {externalId : String} {row : UserRecord}
    (answered : Answered log body row) (hbody : body.externalId = some externalId)
    (groups : List String) :
    Conveys (joinGroups maxRetries (Service.userToWire row) groups)
      (fun log result => ∀ ensured, result = .ok ensured →
        Holds externalId log ensured.user) log := by
  refine (joinGroups_conveys maxRetries (Service.userToWire row) groups
    ⟨body, row, answered, rfl⟩).extends.mono fun log' _ result h => ?_
  intro ensured hensured
  rw [h.2 ensured hensured]
  exact (answered.holds hbody).mono h.1

theorem emailHolder_conveys (spec : EnsureUserSpec) :
    Conveys (emailHolder maxRetries spec) (fun _ _ => True) log := by
  unfold emailHolder
  split
  · exact trivial
  · refine Meets.bind (findUserByEmail_conveys maxRetries _) fun log _ result _ => ?_
    cases result <;> exact trivial

theorem resolveConflict_conveys (spec : EnsureUserSpec) :
    Conveys (resolveConflict maxRetries spec) (fun log result => ∀ ensured,
      result = .ok ensured → Holds spec.externalId log ensured.user) log := by
  unfold resolveConflict
  refine Meets.bind (findUserByExternalId_conveys maxRetries spec.externalId)
    fun log _ found hfound => ?_
  cases found with
  | error error =>
    intro ensured h
    cases h
  | ok found =>
    cases found with
    | some user =>
      intro ensured h
      cases h
      obtain ⟨row, huser, htold, hid⟩ := hfound user rfl
      refine ⟨row, huser, htold, fun e he => ?_⟩
      rw [hid, (nonBlank_some he).1]
    | none =>
      refine Meets.bind (emailHolder_conveys maxRetries spec) fun log _ holder _ => ?_
      cases holder with
      | error error =>
        intro ensured h
        cases h
      | ok holder =>
        cases holder with
        | none =>
          intro ensured h
          cases h
        | some holder =>
          refine Meets.bind (createUser_conveys maxRetries (spec.creation none))
            fun log _ created hcreated => ?_
          cases created with
          | error error =>
            intro ensured h
            cases h
          | ok user =>
            obtain ⟨row, rfl, answered⟩ := hcreated user rfl
            exact joinCreated_conveys maxRetries answered rfl spec.groups

theorem createUserWithGroups_conveys (spec : EnsureUserSpec) :
    Conveys (createUserWithGroups maxRetries spec) (fun log result => ∀ ensured,
      result = .ok ensured → Holds spec.externalId log ensured.user) log := by
  unfold createUserWithGroups
  refine Meets.bind (createUser_conveys maxRetries (spec.creation spec.email))
    fun log _ created hcreated => ?_
  split
  · rename_i user
    obtain ⟨row, rfl, answered⟩ := hcreated user rfl
    exact joinCreated_conveys maxRetries answered rfl spec.groups
  · exact resolveConflict_conveys maxRetries spec
  · intro ensured h
    cases h

end Spec

end LakeFsAuth.AuthzClient
