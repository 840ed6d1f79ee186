import LakeFsAuth.Authz.Creates
import LakeFsAuth.Authz.HttpCases
import LakeFsAuth.Library.Commit

/-! What requests do to the store over HTTP. However they interleave, a request changes the
store in one step or not at all, and one that is answered with an error has not changed it. -/
namespace LakeFsAuth.Authz.Http
open Library Program LakeFsAuth.Core Core.Error Core.Json Core.Token Store Api

def Writes : Call → Prop
  | .store op => Mem.writes op ≠ []
  | _ => False

/-- An error reply of the store. -/
def Refused : (call : Call) → call.Reply → Prop
  | .store _, reply => ∃ error, reply = .error error
  | _, _ => False

def Succeeded {α : Type} (result : Except ApiError α) : Prop := ∃ value, result = .ok value

def NoError (response : HttpResponse) : Prop := response.status < 400

abbrev Writer {α : Type} (p : Action (Except ApiError α)) : Prop :=
  Commits Writes Refused Succeeded p

abbrev Served (p : Action HttpResponse) : Prop := Commits Writes Refused NoError p

abbrev Reads {α : Type} (p : Action α) : Prop := Only (fun call => ¬ Writes call) p

/-! The store. -/

theorem quiet_of_exec {call : Call} {s s' : Mem.Inner} {reply : call.Reply}
    (exec : Call.Exec Mem.memStore call s reply s') (quiet : Writes call → Refused call reply) :
    s' = s := by
  cases call with
  | store op =>
    have hexec : Mem.Inner.exec op s = (reply, s') := exec
    by_cases hreads : Mem.writes op = []
    · rw [← Creates.exec_read s hreads, hexec]
    · obtain ⟨error, rfl⟩ := quiet hreads
      have hfailed := (s.exec_sound op).failed error
      rw [hexec] at hfailed
      exact hfailed rfl
  | now => exact exec
  | attempt request => exact exec

/-! Handlers. -/

section Handlers
variable {α β : Type}

/-- A store call. Where it succeeds, all is decided but what is read on the way to the answer. -/
theorem writer_store {op : StoreOp} {f : op.Reply → Action (Except ApiError α)}
    (ok : ∀ value, Settled Writes Succeeded (f (.ok value)))
    (failed : ∀ error, Writer (f (.error error))) : Writer (store op >>= f) := by
  constructor
  · intro reply _ wrote
    cases reply with
    | ok value => exact ok value
    | error error => exact absurd ⟨error, rfl⟩ wrote
  · intro reply _
    cases reply with
    | ok value => exact .of_reads (ok value).reads
    | error error => exact failed error

theorem writer_storeCall (op : StoreOp) (wire : op.Value → α) : Writer (storeCall op wire) :=
  writer_store (fun value => ⟨wire value, rfl⟩) fun _ => trivial

theorem reads_store {op : StoreOp} (h : Mem.writes op = []) {f : op.Reply → Action α}
    (hf : ∀ reply, Reads (f reply)) : Reads (store op >>= f) :=
  .perform_bind (not_not.mpr h) hf

theorem reads_storeCall {op : StoreOp} (h : Mem.writes op = []) (wire : op.Value → α) :
    Reads (storeCall op wire) :=
  reads_store h fun _ => trivial

theorem writer_now {f : Timestamp → Action (Except ApiError α)} (h : ∀ time, Writer (f time)) :
    Writer (now >>= f) :=
  .read_bind (fun writes => writes) h

/-- A create that conflicts is decided by a read. -/
theorem createOrExisting_reads (op : StoreOp) (h : Mem.writes op = [])
    (created : StoreResult op.Value) (matchesRow : op.Value → Bool) (wire : op.Value → α) :
    Reads (Service.createOrExisting created (store op) matchesRow >>= fun row =>
      pure (row.map wire)) := by
  refine Only.bind ?_ fun _ => trivial
  unfold Service.createOrExisting
  split
  · trivial
  · split
    · refine reads_store h fun reply => ?_
      split
      · split <;> trivial
      · trivial
      · trivial
    · trivial

end Handlers

/-! The services. -/

theorem createUser_writer (body : Model.UserCreation) : Writer (Service.createUser body) := by
  unfold Service.createUser
  split
  · trivial
  · refine writer_now fun date => ?_
    split
    · trivial
    · exact writer_store (fun value => ⟨_, rfl⟩) fun _ =>
        .of_reads (createOrExisting_reads (.getUser _) rfl _ _ _)

theorem createGroup_writer (body : Model.GroupCreation) : Writer (Service.createGroup body) := by
  refine writer_now fun date => ?_
  split
  · trivial
  · exact writer_store (fun value => ⟨_, rfl⟩) fun _ =>
      .of_reads (createOrExisting_reads (.getGroup _) rfl _ _ _)

theorem claimTokenId_writer (body : Model.ClaimTokenId) : Writer (Service.claimTokenId body) := by
  unfold Service.claimTokenId
  split
  · trivial
  · split
    · trivial
    · refine writer_store (fun value => ⟨_, rfl⟩) fun error => ?_
      cases error <;> trivial

theorem createPolicy_writer [Validate.SerdeJson] (body : Model.Policy) :
    Writer (Service.createPolicy body) := by
  refine writer_now fun date => ?_
  split
  · trivial
  · exact writer_store (fun value => ⟨_, rfl⟩) fun _ =>
      .of_reads (createOrExisting_reads (.getPolicy _) rfl _ _ _)

theorem updatePolicy_writer [Validate.SerdeJson] (name : String) (body : Model.Policy) :
    Writer (Service.updatePolicy name body) := by
  unfold Service.updatePolicy
  split
  · trivial
  · refine .read_bind (not_not.mpr rfl) fun reply => ?_
    split
    · trivial
    · split
      · trivial
      · exact writer_store (fun value => ⟨_, rfl⟩) fun _ => trivial

theorem createCredentials_writer [SecretBox.Aes256Gcm] (draw : Service.Draw) (username : String)
    (accessKey secretKey : Option String) :
    Writer (Service.createCredentials draw username accessKey secretKey) := by
  refine writer_now fun date => ?_
  split
  · trivial
  · exact writer_store (fun value => ⟨_, rfl⟩) fun _ => trivial

theorem createUserExternalPrincipal_writer (username : String) (query : PrincipalQuery) :
    Writer (createUserExternalPrincipal username query) := by
  unfold createUserExternalPrincipal
  split
  · trivial
  · exact writer_storeCall _ _

theorem deleteUserExternalPrincipal_writer (username : String) (query : PrincipalQuery) :
    Writer (deleteUserExternalPrincipal username query) := by
  unfold deleteUserExternalPrincipal
  split
  · trivial
  · exact writer_storeCall _ _

theorem listUsers_reads (query : ListUsersQuery) : Reads (Handlers.listUsers query) := by
  unfold Handlers.listUsers
  split
  · split
    · trivial
    · exact reads_store rfl fun _ => trivial
  · exact reads_store rfl fun _ => trivial
  · exact reads_store rfl fun _ => trivial
  · exact reads_store rfl fun _ => trivial

theorem listUserPolicies_reads (username : String) (query : ListUserPoliciesQuery) :
    Reads (listUserPolicies username query) := by
  unfold listUserPolicies
  split <;> exact reads_storeCall rfl _

theorem credentialsWithSecret_reads [SecretBox.Aes256Gcm] (accessKeyId : String) :
    Reads (Service.credentialsWithSecret accessKeyId) := by
  refine reads_store rfl fun reply => ?_
  split
  · trivial
  · split <;> trivial

theorem getExternalPrincipal_reads (query : PrincipalQuery) : Reads (getExternalPrincipal query) := by
  unfold getExternalPrincipal
  split
  · trivial
  · exact reads_storeCall rfl _

/-! The server. -/

section Operations
variable [SecretBox.Aes256Gcm] [Validate.SerdeJson] {draw : Service.Draw} {operation : Operation}
  {success : Nat} {α : Type} {p : Action (Except ApiError α)}

/-- What a `GET` of some route asks for. -/
def Operation.safe (operation : Operation) : Bool :=
  (protectedRouter ++ publicRouter ++ rootRouter).any fun route =>
    route.methods.lookup .GET == some operation

theorem Runs.reads (h : Runs draw operation success p) (safe : operation.safe = true) : Reads p := by
  cases h with
  | listUsers query => exact listUsers_reads query
  | getUser username => exact reads_store rfl fun _ => trivial
  | listGroups params => exact reads_storeCall rfl _
  | getGroup id => exact reads_storeCall rfl _
  | listPolicies params => exact reads_storeCall rfl _
  | getPolicy name => exact reads_storeCall rfl _
  | listGroupMembers id params => exact reads_storeCall rfl _
  | listUserCredentials username params => exact reads_storeCall rfl _
  | getCredentialsForUser username key => exact reads_storeCall rfl _
  | getCredentials key => exact credentialsWithSecret_reads key
  | listUserGroups username params => exact reads_store rfl fun _ => trivial
  | listUserPolicies username query => exact listUserPolicies_reads username query
  | listGroupPolicies id params => exact reads_storeCall rfl _
  | listUserExternalPrincipals username params => exact reads_storeCall rfl _
  | getExternalPrincipal query => exact getExternalPrincipal_reads query
  | version => trivial
  | healthcheck => trivial
  | readyz => exact reads_store rfl fun reply => by cases reply <;> trivial
  | _ => exact absurd safe (by decide)

theorem Runs.writer (h : Runs draw operation success p) : Writer p ∧ success < 400 := by
  have hstore {op : StoreOp} {f : op.Reply → Except ApiError Unit}
      (ok : ∀ value, Succeeded (f (.ok value))) : Writer (store op >>= fun reply => pure (f reply)) :=
    writer_store ok fun _ => trivial
  by_cases safe : operation.safe = true
  · refine ⟨.of_reads (h.reads safe), ?_⟩
    cases h <;> decide
  cases h with
  | createUser body => exact ⟨createUser_writer body, by decide⟩
  | deleteUser username => exact ⟨hstore fun _ => ⟨_, rfl⟩, by decide⟩
  | updateFriendlyName username name => exact ⟨hstore fun _ => ⟨_, rfl⟩, by decide⟩
  | createGroup body => exact ⟨createGroup_writer body, by decide⟩
  | deleteGroup id => exact ⟨writer_storeCall _ _, by decide⟩
  | createPolicy body => exact ⟨createPolicy_writer body, by decide⟩
  | updatePolicy name body => exact ⟨updatePolicy_writer name body, by decide⟩
  | deletePolicy name => exact ⟨writer_storeCall _ _, by decide⟩
  | addMembership id username => exact ⟨hstore fun _ => ⟨_, rfl⟩, by decide⟩
  | deleteMembership id username => exact ⟨writer_storeCall _ _, by decide⟩
  | createCredentials username accessKey secretKey =>
    exact ⟨createCredentials_writer draw username accessKey secretKey, by decide⟩
  | deleteCredentials username key => exact ⟨writer_storeCall _ _, by decide⟩
  | attachPolicyToUser username policy => exact ⟨hstore fun _ => ⟨_, rfl⟩, by decide⟩
  | detachPolicyFromUser username policy => exact ⟨writer_storeCall _ _, by decide⟩
  | attachPolicyToGroup id policy => exact ⟨hstore fun _ => ⟨_, rfl⟩, by decide⟩
  | detachPolicyFromGroup id policy => exact ⟨writer_storeCall _ _, by decide⟩
  | claimTokenId body => exact ⟨claimTokenId_writer body, by decide⟩
  | createUserExternalPrincipal username query =>
    exact ⟨createUserExternalPrincipal_writer username query, by decide⟩
  | deleteUserExternalPrincipal username query =>
    exact ⟨deleteUserExternalPrincipal_writer username query, by decide⟩
  | _ => exact absurd (by decide) safe

end Operations

/-- Only a `POST`, a `PUT` or a `DELETE` asks for anything but a read. -/
theorem target_safe {options : RouterOptions} {request : HttpRequest} {guarded : Bool}
    {operation : Operation} {params : List Text} (verb : request.verb ∉ [.POST, .PUT, .DELETE])
    (h : target options request = .route guarded (some operation) params) :
    operation.safe = true := by
  have hmethods : ∀ route ∈ protectedRouter ++ publicRouter ++ rootRouter, ∀ method ∈ route.methods,
      method.1 ∈ [.POST, .PUT, .DELETE] ∨ method.2.safe = true := by decide
  obtain ⟨route, hroute, hoperation⟩ := target_route h
  have hmem : route ∈ protectedRouter ++ publicRouter ++ rootRouter := by
    cases guarded <;> simp_all
  rcases hmethods route hmem _ (route.operation_mem hoperation.symm) with hverb | hsafe
  · split_ifs at hverb with hhead
    · simp at hverb
    · exact absurd hverb verb
  · exact hsafe

theorem bodyFor_status (verb : Verb) (response : HttpResponse) :
    (bodyFor verb response).status = response.status := by
  unfold bodyFor
  split <;> rfl

section Server
variable [NumericDate] [FromSlice] [Authn.SecureCookie.HmacSha256]
  [SecretBox.Aes256Gcm] [Validate.SerdeJson] (verifier : TokenVerifier) (options : RouterOptions)
  (draw : Service.Draw) (request : HttpRequest)

theorem serve_served : Served (serve verifier options draw request) := by
  refine serve_cases (fun _ => trivial) (fun f h => .read_bind (fun writes => writes) h)
    (fun p h => ?_) fun write _ hruns => ?_
  · refine h.bind (fun _ => trivial) fun response hgood => ?_
    exact (bodyFor_status request.verb response).trans_lt hgood
  · refine hruns.writer.1.bind (fun _ => trivial) fun result hresult => ?_
    obtain ⟨value, rfl⟩ := hresult
    exact hruns.writer.2

theorem serve_reads (verb : request.verb ∉ [.POST, .PUT, .DELETE]) :
    Reads (serve verifier options draw request) := by
  refine serve_cases (P := Reads) (fun _ => trivial)
    (fun f h => .perform_bind (fun writes => writes) h) (fun p h => h.bind fun _ => trivial) ?_
  intro _ _ _ _ _ _ write htarget hruns
  exact (hruns.reads (target_safe verb htarget)).bind fun _ => trivial

variable {ι : Type} [DecidableEq ι] {Others : Call → Prop} {draws : ι → Service.Draw}
  {requests : ι → HttpRequest} {s₀ s : Mem.Inner} {log : List (Record Call.Reply Mem.Inner ι)}
  {now : ι → Action HttpResponse}

variable {verifier} {options} in
/-- However requests interleave, whatever the store holds: a request that is answered with an
error has changed nothing, no request changes the store by more than one of its calls, and one
that is no `POST`, `PUT` or `DELETE` changes nothing at all. -/
theorem requests_are_atomic
    (pool : Pool (Call.Exec Mem.memStore) Others
      (fun i => serve verifier options (draws i) (requests i)) s₀ log now s) (i : ι) :
    (∀ response, now i = .done response → 400 ≤ response.status →
      ∀ record ∈ log, record.who = some i → record.after = record.before) ∧
    (∀ earlier record later, log = earlier ++ record :: later → record.who = some i →
      record.after ≠ record.before →
        ∀ other ∈ earlier ++ later, other.who = some i → other.after = other.before) ∧
    ((requests i).verb ∉ [.POST, .PUT, .DELETE] →
      ∀ record ∈ log, record.who = some i → record.after = record.before) := by
  have hserved (i : ι) : Served (serve verifier options (draws i) (requests i)) :=
    serve_served verifier options (draws i) (requests i)
  have hquiet {record : Record Call.Reply Mem.Inner ι} (hrecord : record ∈ log)
      (h : ¬ Wrote Writes Refused record.entry) : record.after = record.before := by
    refine quiet_of_exec (pool.chain.exec hrecord) fun writes => ?_
    by_contra refused
    exact h ⟨writes, refused⟩
  have hwrote {record : Record Call.Reply Mem.Inner ι} (hrecord : record ∈ log)
      (hchanged : record.after ≠ record.before) : Wrote Writes Refused record.entry := by
    by_contra h
    exact hchanged (hquiet hrecord h)
  refine ⟨fun response hdone hbad record hrecord hwho => ?_,
    fun earlier record later hlog hwho hchanged other hother hwho' => ?_,
    fun verb record hrecord hwho => ?_⟩
  · exact hquiet hrecord (pool.quiet_of_not_good hserved hdone (Nat.not_lt.mpr hbad) hrecord hwho)
  · have hrecord := hwrote (by simp [hlog]) hchanged
    rcases List.mem_append.mp hother with hearlier | hlater
    · exact hquiet (by simp [hlog, hearlier])
        (pool.quiet_before hserved hlog hwho hrecord.1 hearlier hwho')
    · obtain ⟨between, rest, rfl⟩ := List.append_of_mem hlater
      by_contra hchanged'
      have hwrites := (hwrote (by simp [hlog]) hchanged').1
      have hlog' : log = (earlier ++ record :: between) ++ other :: rest := by simp [hlog]
      exact pool.quiet_before hserved hlog' hwho' hwrites (by simp) hwho hrecord
  · have lawful : Lawful (Call.Exec Mem.memStore) (fun _ => True) (fun _ _ => True) :=
      ⟨fun _ _ => trivial, fun _ _ => trivial⟩
    have hreads (i : ι) : Meets (Seen fun _ _ => True)
        (fun _ _ call => (requests i).verb ∉ [.POST, .PUT, .DELETE] → ¬ Writes call)
        (fun _ _ _ => True) (serve verifier options (draws i) (requests i)) [] () := by
      by_cases verb : (requests i).verb ∈ [.POST, .PUT, .DELETE]
      · exact .always (fun _ _ _ _ other => absurd verb other) fun _ _ _ _ => trivial
      · exact (serve_reads verifier options (draws i) (requests i) verb).allows fun _ _ _ reads _ => reads
    obtain ⟨earlier, later, hlog⟩ := List.append_of_mem hrecord
    exact hquiet hrecord fun wrote => pool.allows lawful trivial hreads hlog hwho verb wrote.1

end Server

/-! Two creates of one group, side by side. The second asks for another description. -/

section Once
attribute [local instance] Authn.SecureCookie.plainMac wholeSeconds compactReader
  SecretBox.plainCipher Validate.noLists

def unchecked : TokenVerifier := ⟨none, none, internalValidation, true⟩

def creation (second : Bool) : HttpRequest where
  verb := .POST
  path := ["auth", "groups"].map String.toList
  query := none
  authorization := none
  body := .json (Wire.groupCreation.write ⟨"staff", some (if second then "two" else "one")⟩) ""

def creating (second : Bool) : Action HttpResponse :=
  serve unchecked ⟨"", []⟩ ⟨"", "", .zero⟩ (creation second)

def raced : Moment Call Call.Reply HttpResponse Mem.Inner Bool :=
  let pick : Program.Pick Call.Reply Mem.Inner := Call.pick Mem.memStore ⟨0⟩ .answered
  (Moment.initial creating Mem.Inner.new).play
    ([false, true, false, true, true].map fun i => (i, pick))

theorem raced_pool : Pool (Call.Exec Mem.memStore) (fun _ => False) creating Mem.Inner.new
    raced.log raced.now raced.state := by
  refine Moment.Reached.initial.play fun next hnext op s => ?_
  obtain ⟨i, _, rfl⟩ := List.mem_map.mp hnext
  exact Call.pick_exec Mem.memStore ⟨0⟩ .answered op s

theorem requests_are_atomic_raced : ∃ response, raced.now true = .done response ∧
    response.status = 409 ∧
      ∀ record ∈ raced.log, record.who = some true → record.after = record.before := by
  have hatomic := requests_are_atomic raced_pool true
  have hconflict : ∃ response, raced.now true = .done response ∧ response.status = 409 := ⟨_, rfl, rfl⟩
  obtain ⟨response, hdone, hstatus⟩ := hconflict
  exact ⟨response, hdone, hstatus, hatomic.1 response hdone (by rw [hstatus]; decide)⟩

end Once

end LakeFsAuth.Authz.Http
