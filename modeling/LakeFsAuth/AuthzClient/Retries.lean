import LakeFsAuth.Authz.Store.Run
import LakeFsAuth.AuthzClient.Rules

/-! What the retries of the client do when attempts fail on the way. A network that follows a
script is compared with one that answers every request. -/
namespace LakeFsAuth.AuthzClient.Retries
open Core.Error Core.Model Core.Text Core.Pagination Core.Validate Authz Authz.Store
open Authz.Store.Mem Authz.Api Authz.Handlers Library Library.Program Library.OrderedMap

/-- A fault after which a request of this method is sent again, if retries are left. -/
def repeats (method : Method) : Fault → Bool
  | .unreachable => true
  | .lost _ .timeout | .lost _ .request => idempotent method
  | .failed _ status => idempotent method && isServerError status.code
  | .lost _ .other | .answered | .garbled => false

/-- The store, a clock that reads `date`, and a network that follows a script, and then
answers every request. -/
def following (date : Timestamp) : Pick Call.Reply (Inner × List Fault)
  | .store op, (s, script) => ((Inner.exec op s).1, (Inner.exec op s).2, script)
  | .now, (s, script) => (date, s, script)
  | .attempt _, (s, []) => (.answered, s, [])
  | .attempt _, (s, fault :: script) => (fault, s, script)

/-- Attempts are answered, or fail so that they are repeated, and not too many of them fail. -/
structure Tolerable (maxRetries : Nat) (method : Method) (script : List Fault) : Prop where
  kinds : ∀ fault ∈ script, fault = .answered ∨ repeats method fault = true
  few : script.countP (repeats method) ≤ maxRetries

/-! The server. -/

/-- A call of a handler: the network is none of its business. -/
def OfServer : Call → Prop
  | .attempt _ => False
  | .store _ | .now => True

theorem answer_only (request : Request) : Only OfServer (answer request) := by
  have stored {op : StoreOp} {β : Type} {f : op.Reply → β} :
      Only OfServer (store op >>= fun reply => (pure (f reply) : Action β)) :=
    .perform_bind trivial fun _ => trivial
  cases request with
  | healthcheck | version => trivial
  | getUser username => exact stored
  | deleteUser username => exact stored
  | updateFriendlyName username name => exact stored
  | addMembership groupId username => exact stored
  | listUserGroups username params => exact stored
  | listUsers query =>
    change Only OfServer (listUsers query)
    unfold listUsers
    split
    · split
      · trivial
      · exact stored
    · exact stored
    · exact stored
    · exact stored
  | createUser body =>
    change Only OfServer (Service.createUser body)
    unfold Service.createUser
    split
    · trivial
    · refine .perform_bind trivial fun date => ?_
      split
      · trivial
      · refine .perform_bind trivial fun created => .bind ?_ fun _ => trivial
        unfold Service.createOrExisting
        split
        · trivial
        · split
          · refine .perform_bind trivial fun reread => ?_
            split
            · split <;> trivial
            · trivial
            · trivial
          · trivial
  | createCredentials cipher draw username =>
    change Only OfServer (@Service.createCredentials cipher draw username none none)
    unfold Service.createCredentials
    refine .perform_bind trivial fun date => ?_
    split
    · trivial
    · refine .perform_bind trivial fun created => ?_
      split <;> trivial

section Sends
variable (date : Timestamp) (request : Request)

/-- What the server makes of a request that reaches it. -/
def served (s : Inner) : Except ApiError request.Success × Inner :=
  (answer request).run (answering memStore date) s

theorem answer_following (s : Inner) (script : List Fault) :
    (answer request).run (following date) (s, script) =
      ((served date request s).1, (served date request s).2, script) := by
  refine (answer_only request).run_framed (fun call ofServer s rest => ?_) s script
  cases call with
  | store op => rfl
  | now => rfl
  | attempt request => exact ofServer.elim

/-- Where the attempts that fail leave the store, and what is left of the script behind the
one that does not. -/
def failing : List Fault → Inner → Inner × List Fault
  | [], s => (s, [])
  | fault :: script, s =>
      if repeats request.method fault then
        failing script (if fault.committed then (served date request s).2 else s)
      else (s, script)

theorem deliver_repeats {method : Method} {fault : Fault} {response : Response α}
    (h : repeats method fault = true) : retryable method (fault.deliver response) = true := by
  cases fault with
  | answered | garbled => cases h
  | unreachable => rfl
  | lost committed loss => cases loss <;> exact h
  | failed committed status => exact h

theorem refusal_repeats {method : Method} {fault : Fault} (h : repeats method fault = true) :
    retryable method (fault.refusal : Except TransportError (Response α)) = true := by
  cases fault with
  | answered | garbled => cases h
  | unreachable => rfl
  | lost committed loss => cases loss <;> exact h
  | failed committed status => exact h

/-- An attempt that fails so that it is repeated. -/
theorem attempt_repeated {fault : Fault} (h : repeats request.method fault = true) (s : Inner)
    (script : List Fault) : ∃ outcome, retryable request.method outcome = true ∧
      (attempt request).run (following date) (s, fault :: script) =
        (outcome, if fault.committed then (served date request s).2 else s, script) := by
  cases hcommitted : fault.committed with
  | true =>
    refine ⟨fault.deliver (respond request (served date request s).1), deliver_repeats h, ?_⟩
    rw [attempt_run_committed _ _ _ hcommitted]
    change (fault.deliver ((handle request).run (following date) (s, script)).1,
      ((handle request).run (following date) (s, script)).2) = _
    rw [handle_run, answer_following]
    rfl
  | false =>
    refine ⟨fault.refusal, refusal_repeats h, ?_⟩
    rw [attempt_run_dropped _ _ _ hcommitted]
    rfl

variable {date request}

/-- The attempts that fail are repeated, and the next one is answered. -/
theorem send_run {retries : Nat} {script : List Fault} (s : Inner)
    (tolerable : Tolerable retries request.method script)
    (quiet : ∀ s, isServerError (respond request (served date request s).1).status = false) :
    (sendWithRetry request retries).run (following date) (s, script) =
      (.ok (respond request (served date request (failing date request script s).1).1),
        (served date request (failing date request script s).1).2,
        (failing date request script s).2) := by
  induction script generalizing retries s with
  | nil => exact send_run_answered _ request _ rfl (answer_following date request s []) (quiet s) _
  | cons fault script ih =>
    cases h : repeats request.method fault with
    | true =>
      have hfew := tolerable.few
      rw [List.countP_cons_of_pos h] at hfew
      obtain ⟨retries, rfl⟩ : ∃ left, retries = left + 1 := ⟨retries - 1, by omega⟩
      obtain ⟨outcome, again, tried⟩ := attempt_repeated date request h s script
      rw [send_run_repeated _ request _ tried again]
      have rest : Tolerable retries request.method script :=
        ⟨fun other hother => tolerable.kinds other (List.mem_cons_of_mem _ hother), by omega⟩
      rw [ih _ rest, failing, if_pos h]
    | false =>
      rcases tolerable.kinds fault List.mem_cons_self with rfl | habsurd
      · exact send_run_answered _ request _ rfl (answer_following date request s script)
          (quiet s) _
      · rw [h] at habsurd
        cases habsurd

theorem failing_tolerable {retries : Nat} {script : List Fault} (s : Inner)
    (tolerable : Tolerable retries request.method script) :
    Tolerable retries request.method (failing date request script s).2 := by
  induction script generalizing s with
  | nil => exact tolerable
  | cons fault script ih =>
    have rest : Tolerable retries request.method script :=
      ⟨fun other hother => tolerable.kinds other (List.mem_cons_of_mem _ hother),
        (List.sublist_cons_self fault script).countP_le.trans tolerable.few⟩
    unfold failing
    split
    · exact ih _ rest
    · exact rest

end Sends

/-! Requests that may be applied again. -/

/-- The server answers without a server error, and a second application changes neither the
answer nor the store. -/
structure Settles (date : Timestamp) (request : Request) : Prop where
  quiet : ∀ s, isServerError (respond request (served date request s).1).status = false
  again : ∀ s, served date request (served date request s).2 = served date request s

section Settles
variable {date : Timestamp}

theorem reads_settles {request : Request} (reads : ∀ s, (served date request s).2 = s)
    (quiet : ∀ s, isServerError (respond request (served date request s).1).status = false) :
    Settles date request where
  quiet := quiet
  again s := by rw [reads s]

theorem healthcheck_settles : Settles date .healthcheck :=
  reads_settles (fun _ => rfl) fun _ => rfl

theorem version_settles : Settles date .version :=
  reads_settles (fun _ => rfl) fun _ => rfl

theorem getUser_settles (username : String) : Settles date (.getUser username) := by
  refine reads_settles (fun _ => rfl) fun s => ?_
  change isServerError (respond (.getUser username) (((found s.users[username]? "user" username).map
    Service.userToWire).mapError StoreError.toApiError)).status = false
  cases s.users[username]? <;> rfl

theorem listUsers_settles (query : ListUsersQuery) : Settles date (.listUsers query) := by
  have reads (s : Inner) : (served date (.listUsers query) s).2 = s ∧
      ∃ list, (served date (.listUsers query) s).1 = .ok list := by
    change ((listUsers query).run _ s).2 = s ∧ ∃ list, ((listUsers query).run _ s).1 = .ok list
    unfold listUsers
    split
    · split <;> exact ⟨rfl, _, rfl⟩
    · exact ⟨rfl, _, rfl⟩
    · exact ⟨rfl, _, rfl⟩
    · exact ⟨rfl, _, rfl⟩
  refine reads_settles (fun s => (reads s).1) fun s => ?_
  obtain ⟨_, list, hlist⟩ := reads s
  rw [hlist]
  rfl

theorem listUserGroups_settles (username : String) (params : PaginationParams) :
    Settles date (.listUserGroups username params) := by
  refine reads_settles (fun _ => rfl) fun s => ?_
  change isServerError (respond (.listUserGroups username params)
    (((s.listUserGroups username params.normalize).map fun page =>
      (page.map Service.groupToWire).intoResponse).mapError StoreError.toApiError)).status = false
  unfold Inner.listUserGroups Inner.requireUser Mem.require
  cases s.users.contains username <;> rfl

theorem setFriendlyName_of_some {s : Inner} {username : String} {user : UserRecord}
    (h : s.users[username]? = some user) (name : String) : s.setFriendlyName username name =
      (.ok (), { s with
        users := s.users.insert username { user with friendlyName := some name } }) := by
  rw [Inner.setFriendlyName, h]

theorem updateFriendlyName_settles (username name : String) :
    Settles date (.updateFriendlyName username name) := by
  have hserved (s : Inner) : served date (.updateFriendlyName username name) s =
      ((s.setFriendlyName username name).1.mapError StoreError.toApiError,
        (s.setFriendlyName username name).2) := rfl
  constructor
  · intro s
    rw [hserved, Inner.setFriendlyName]
    cases s.users[username]? <;> rfl
  · intro s
    have again : (s.setFriendlyName username name).2.setFriendlyName username name =
        s.setFriendlyName username name := by
      cases huser : s.users[username]? with
      | none =>
        have hnone : s.setFriendlyName username name = (.error (.notFound "user" username), s) := by
          rw [Inner.setFriendlyName, huser]
        rw [hnone]
        exact hnone
      | some user =>
        rw [setFriendlyName_of_some huser, setFriendlyName_of_some (by rw [get_insert, if_pos rfl])]
        dsimp only
        rw [insert_insert]
    rw [hserved, hserved, again]

theorem addMembership_settles (groupId username : String) :
    Settles date (.addMembership groupId username) := by
  have hserved (s : Inner) : served date (.addMembership groupId username) s =
      ((s.addMembership groupId username).1.mapError StoreError.toApiError,
        (s.addMembership groupId username).2) := rfl
  constructor
  · intro s
    rw [hserved]
    unfold Inner.addMembership Inner.requireGroup Inner.requireUser Mem.require
    cases s.groups.contains groupId <;> cases s.users.contains username <;> rfl
  · intro s
    have again : (s.addMembership groupId username).2.addMembership groupId username =
        s.addMembership groupId username := by
      unfold Inner.addMembership Inner.requireGroup Inner.requireUser Mem.require
      cases hgroup : s.groups.contains groupId <;> cases huser : s.users.contains username
      · simp [hgroup]
      · simp [hgroup]
      · simp [hgroup, huser]
      · simp [hgroup, huser, insert_of_mem]
    rw [hserved, hserved, again]

/-- However often the server has applied it, it answers as if it had not. -/
theorem Settles.failing {request : Request} (settles : Settles date request)
    (script : List Fault) (s : Inner) :
    served date request (failing date request script s).1 = served date request s := by
  induction script generalizing s with
  | nil => rfl
  | cons fault script ih =>
    unfold Retries.failing
    split
    · rw [ih]
      split
      · exact settles.again s
      · rfl
    · rfl

end Settles

/-! Calls of the client. -/

section Calls
variable {maxRetries : Nat} {method : Method} {date : Timestamp} {α β : Type}

/-- Faults on the way change neither the result nor the store. -/
def Transparent (maxRetries : Nat) (method : Method) (date : Timestamp) (p : Action α) : Prop :=
  ∀ s script, Tolerable maxRetries method script → ∃ rest, Tolerable maxRetries method rest ∧
    p.run (following date) (s, script) =
      ((p.run (answering memStore date) s).1, (p.run (answering memStore date) s).2, rest)

theorem Transparent.done (value : α) : Transparent maxRetries method date (.done value) :=
  fun _ script tolerable => ⟨script, tolerable, rfl⟩

theorem Transparent.bind {p : Action α} {f : α → Action β}
    (hp : Transparent maxRetries method date p)
    (hf : ∀ value, Transparent maxRetries method date (f value)) :
    Transparent maxRetries method date (p >>= f) := by
  intro s script tolerable
  obtain ⟨mid, hmid, hrun⟩ := hp s script tolerable
  obtain ⟨rest, hrest, hnext⟩ := hf (p.run (answering memStore date) s).1
    (p.run (answering memStore date) s).2 mid hmid
  exact ⟨rest, hrest, by rw [run_bind, hrun, hnext, run_bind]⟩

theorem send_transparent {request : Request} (settles : Settles date request) :
    Transparent maxRetries request.method date (sendWithRetry request maxRetries) := by
  intro s script tolerable
  refine ⟨(failing date request script s).2, failing_tolerable s tolerable, ?_⟩
  have answered := send_run_answered (answering memStore date) request s rfl rfl
    (settles.quiet s) maxRetries
  rw [send_run s tolerable settles.quiet, settles.failing script s, answered]
  rfl

/-- A request with what the client makes of its outcome. -/
theorem request_transparent {request : Request} (settles : Settles date request)
    {f : Except ClientError (Response request.Success) → Action α}
    (hf : ∀ outcome, ∃ value, f outcome = .done value) :
    Transparent maxRetries request.method date (sendWithRetry request maxRetries >>= f) := by
  refine (send_transparent settles).bind fun outcome => ?_
  obtain ⟨value, hvalue⟩ := hf outcome
  rw [hvalue]
  exact .done value

variable (maxRetries) (date)

theorem findUser_transparent (value : String) (query : ListUsersQuery) :
    Transparent maxRetries .GET date (findUser maxRetries value query) := by
  unfold findUser
  split
  · exact .done _
  · refine request_transparent (listUsers_settles query) fun outcome => ?_
    cases outcome with
    | error error => exact ⟨_, rfl⟩
    | ok response =>
      dsimp only
      split
      · exact ⟨_, rfl⟩
      · split <;> exact ⟨_, rfl⟩

/-- The pages of a walk, one request for each. -/
theorem listGroupPages_transparent (username : String) (walk : CursorWalk) (groups : List Group) :
    Transparent maxRetries .GET date (listGroupPages maxRetries username walk groups) := by
  generalize hleft : walk.maxPages - walk.pages = left
  induction left using Nat.strong_induction_on generalizing walk groups with
  | h left ih =>
    rw [listGroupPages]
    refine (send_transparent (listUserGroups_settles username _)).bind fun outcome => ?_
    cases outcome with
    | error error => exact .done _
    | ok response =>
      dsimp only
      split
      · exact .done _
      · split
        · exact .done _
        · exact .done _
        · rename_i next hnext
          have more := CursorWalk.advance_more hnext
          exact ih _ (by omega) next _ rfl

theorem getUser_transparent (username : String) :
    Transparent maxRetries .GET date (getUser maxRetries username) := by
  unfold getUser
  split
  · exact .done _
  · refine request_transparent (getUser_settles _) fun outcome => ?_
    cases outcome with
    | error error => exact ⟨_, rfl⟩
    | ok response =>
      dsimp only
      split <;> exact ⟨_, rfl⟩

theorem updateFriendlyName_transparent (username name : String) :
    Transparent maxRetries .PUT date (updateFriendlyName maxRetries username name) := by
  unfold updateFriendlyName
  split
  · exact .done _
  · refine request_transparent (updateFriendlyName_settles _ name) fun outcome => ?_
    cases outcome <;> exact ⟨_, rfl⟩

theorem addGroupMembership_transparent (groupId username : String) :
    Transparent maxRetries .PUT date (addGroupMembership maxRetries groupId username) := by
  unfold addGroupMembership
  split
  · exact .done _
  · exact .done _
  · refine request_transparent (addMembership_settles _ _) fun outcome => ?_
    cases outcome <;> exact ⟨_, rfl⟩

end Calls

/-! The delete. -/

section Delete
variable {date : Timestamp} {maxRetries : Nat} (username : String)

/-- An attempt that failed had reached the server. -/
def reached (script : List Fault) : Bool :=
  (script.takeWhile (repeats .DELETE)).any Fault.committed

theorem deleteUser_present {s : Inner} (present : s.users.contains username = true) :
    served date (.deleteUser username) s = (.ok (), (s.deleteUser username).2) := by
  change ((s.deleteUser username).1.mapError StoreError.toApiError, (s.deleteUser username).2) = _
  rw [Inner.deleteUser, if_pos present]
  rfl

theorem deleteUser_missing {s : Inner} (missing : s.users.contains username = false) :
    served date (.deleteUser username) s = (.error (ApiError.notFound "user" username), s) := by
  change ((s.deleteUser username).1.mapError StoreError.toApiError, (s.deleteUser username).2) = _
  rw [Inner.deleteUser, missing]
  rfl

theorem deleteUser_gone (s : Inner) :
    (served date (.deleteUser username) s).2.users.contains username = false := by
  cases present : s.users.contains username with
  | true =>
    rw [deleteUser_present username present, Inner.deleteUser, if_pos present, not_contains_iff]
    exact (get_erase s.users username username).trans (if_pos rfl)
  | false =>
    rw [deleteUser_missing username present]
    exact present

theorem deleteUser_quiet (s : Inner) : isServerError
    (respond (.deleteUser username) (served date (.deleteUser username) s).1).status = false := by
  cases present : s.users.contains username with
  | true =>
    rw [deleteUser_present username present]
    rfl
  | false =>
    rw [deleteUser_missing username present]
    rfl

/-- Once the row is gone, the attempts that fail change nothing. -/
theorem failing_missing {s : Inner} (missing : s.users.contains username = false)
    (script : List Fault) : (failing date (.deleteUser username) script s).1 = s := by
  induction script with
  | nil => rfl
  | cons fault script ih =>
    unfold failing
    split
    · rw [deleteUser_missing username missing, ite_self]
      exact ih
    · rfl

theorem failing_deleteUser (script : List Fault) (s : Inner) :
    (failing date (.deleteUser username) script s).1 =
      if reached script then (served date (.deleteUser username) s).2 else s := by
  induction script generalizing s with
  | nil => rfl
  | cons fault script ih =>
    unfold failing
    cases h : repeats .DELETE fault with
    | false =>
      have unreached : reached (fault :: script) = false := by simp [reached, h]
      rw [if_neg (by simp [Request.method, h]), unreached]
      rfl
    | true =>
      have hreached : reached (fault :: script) = (fault.committed || reached script) := by
        simp [reached, h]
      rw [if_pos (by exact h), hreached]
      cases hcommitted : fault.committed with
      | true => exact failing_missing username (deleteUser_gone username s) script
      | false => exact ih s

/-- What the client makes of the outcome of a delete. -/
def removed : Except ClientError (Response Unit) → Except ClientError Unit
  | .error error => .error error
  | .ok response => (expectStatus response 204).map fun _ => ()

theorem deleteUser_eq {username : String} (valid : segment username = .ok username) :
    deleteUser maxRetries username =
      sendWithRetry (.deleteUser username) maxRetries >>= fun outcome => .done (removed outcome) := by
  unfold deleteUser
  rw [valid]
  refine bind_congr fun outcome => ?_
  cases outcome <;> rfl

/-- A delete that had reached the server when its answer was lost finds no user any more. -/
theorem deleteUser_run (s : Inner) {script : List Fault}
    (tolerable : Tolerable maxRetries .DELETE script) :
    ∃ rest, (deleteUser maxRetries username).run (following date) (s, script) =
      (if reached script ∧
          ((deleteUser maxRetries username).run (answering memStore date) s).1 = .ok ()
        then .error .NotFound
        else ((deleteUser maxRetries username).run (answering memStore date) s).1,
        ((deleteUser maxRetries username).run (answering memStore date) s).2, rest) := by
  cases hsegment : segment username with
  | error error =>
    unfold deleteUser
    rw [hsegment]
    exact ⟨script, by simp⟩
  | ok path =>
    obtain rfl : path = username := segment_ok hsegment
    have answered := send_run_answered (answering memStore date) (.deleteUser path) s rfl rfl
      (deleteUser_quiet path s) maxRetries
    have sent := @send_run date (.deleteUser path) maxRetries script s tolerable
      (deleteUser_quiet path)
    change _ = (Except.ok (respond (.deleteUser path) (served date (.deleteUser path) s).1),
      (served date (.deleteUser path) s).2) at answered
    rw [failing_deleteUser] at sent
    refine ⟨(failing date (.deleteUser path) script s).2, ?_⟩
    rw [deleteUser_eq hsegment, run_bind, run_bind, sent, answered]
    cases present : s.users.contains path with
    | true =>
      have gone : served date (.deleteUser path) (served date (.deleteUser path) s).2 = _ :=
        deleteUser_missing path (deleteUser_gone path s)
      rw [deleteUser_present path present] at gone ⊢
      cases hreached : reached script with
      | true =>
        rw [if_pos rfl, gone]
        rfl
      | false =>
        rw [if_neg (by simp), deleteUser_present path present]
        rfl
    | false =>
      rw [deleteUser_missing path present, ite_self, deleteUser_missing path present]
      cases reached script <;> rfl

end Delete

/-! Attempts. -/

section Attempts
variable {log : List (Entry Call.Reply)} {s : Inner}

def tried : Entry Call.Reply → Option Fault
  | ⟨.attempt _, fault⟩ => some fault
  | ⟨.store _, _⟩ | ⟨.now, _⟩ => none

/-- What happened to each attempt of a run. -/
def attempts (log : List (Entry Call.Reply)) : List Fault := log.filterMap tried

theorem attempts_attempt (request : Request) (fault : Fault) :
    attempts (log ++ [⟨.attempt request, fault⟩]) = attempts log ++ [fault] := by
  simp [attempts, tried]

theorem attempts_server {op : Call} (reply : op.Reply) (ofServer : OfServer op) :
    attempts (log ++ [⟨op, reply⟩]) = attempts log := by
  cases op with
  | attempt request => exact ofServer.elim
  | store op => simp [attempts, tried]
  | now => simp [attempts, tried]

/-- One attempt, and no create is repeated that reached the server. -/
theorem attempt_counted (request : Request) :
    Meets (Call.Exec memStore) (fun _ _ _ => True) (fun log' _ outcome => ∃ fault : Fault,
      attempts log' = attempts log ++ [fault] ∧ (request.method = .POST →
        retryable request.method outcome = true → fault.committed = false))
      (attempt request) log s := by
  refine attempt_meets trivial ?_ ?_
  · intro fault s' _ committed
    refine handle_meets ?_
    have kept : Meets (Call.Exec memStore) (fun _ _ _ => True)
        (fun log' _ _ => attempts log' = attempts log ++ [fault]) (answer request)
        (log ++ [⟨.attempt request, fault⟩]) s' :=
      (answer_only request).keeps
        (fun _ _ reply ofServer h => (attempts_server reply ofServer).trans h)
        (attempts_attempt request fault)
    refine kept.mono fun log' _ result h => ⟨fault, h, fun post again => ?_⟩
    rw [post, post_not_retried _ committed] at again
    cases again
  · intro fault s' _ dropped
    exact ⟨fault, attempts_attempt request fault, fun _ _ => dropped⟩

/-- The attempts of a call that has some retries left. -/
structure Counted (request : Request) (retries : Nat) (more : List Fault) : Prop where
  attempts : more.length ≤ retries + 1
  applied : request.method = .POST → more.countP Fault.committed ≤ 1

theorem send_counted (request : Request) (retries : Nat) :
    Meets (Call.Exec memStore) (fun _ _ _ => True) (fun log' _ _ => ∃ more,
      attempts log' = attempts log ++ more ∧ Counted request retries more)
      (sendWithRetry request retries) log s := by
  have once (fault : Fault) (retries : Nat) : Counted request retries [fault] := by
    refine ⟨by simp, fun _ => ?_⟩
    exact List.countP_le_length
  induction retries generalizing log s with
  | zero =>
    refine (attempt_counted request).bind fun log' s' outcome h => ?_
    obtain ⟨fault, hlog, _⟩ := h
    exact ⟨[fault], hlog, once fault 0⟩
  | succ retries ih =>
    refine (attempt_counted request).bind fun log' s' outcome h => ?_
    obtain ⟨fault, hlog, hpost⟩ := h
    split
    · rename_i again
      refine ih.mono fun log'' _ _ h => ?_
      obtain ⟨more, hmore, counted⟩ := h
      refine ⟨fault :: more, by rw [hmore, hlog, List.append_assoc]; rfl, ?_, fun post => ?_⟩
      · rw [List.length_cons]
        exact Nat.succ_le_succ counted.attempts
      · rw [List.countP_cons_of_neg (by simp [hpost post again])]
        exact counted.applied post
    · exact ⟨[fault], hlog, once fault _⟩

end Attempts

/-! The operations of the client that only read, or may be sent again. -/

inductive Operation where
  | healthcheck
  | version
  | getUser (username : String)
  | findUserByExternalId (externalId : String)
  | findUserByEmail (email : String)
  | listUserGroups (username : String)
  | updateFriendlyName (username friendlyName : String)
  | addGroupMembership (groupId username : String)
  | deleteUser (username : String)

namespace Operation

def method : Operation → Method
  | updateFriendlyName _ _ | addGroupMembership _ _ => .PUT
  | deleteUser _ => .DELETE
  | healthcheck | version | getUser _ | findUserByExternalId _ | findUserByEmail _
  | listUserGroups _ => .GET

abbrev Result : Operation → Type
  | version => VersionConfig
  | getUser _ | findUserByExternalId _ | findUserByEmail _ => Option User
  | listUserGroups _ => List Group
  | healthcheck | updateFriendlyName _ _ | addGroupMembership _ _ | deleteUser _ => Unit

def perform (maxRetries : Nat) :
    (operation : Operation) → Action (Except ClientError operation.Result)
  | healthcheck => AuthzClient.healthcheck maxRetries
  | version => AuthzClient.version maxRetries
  | getUser username => AuthzClient.getUser maxRetries username
  | findUserByExternalId externalId => AuthzClient.findUserByExternalId maxRetries externalId
  | findUserByEmail email => AuthzClient.findUserByEmail maxRetries email
  | listUserGroups username => AuthzClient.listUserGroups maxRetries username
  | updateFriendlyName username name => AuthzClient.updateFriendlyName maxRetries username name
  | addGroupMembership groupId username =>
      AuthzClient.addGroupMembership maxRetries groupId username
  | deleteUser username => AuthzClient.deleteUser maxRetries username

variable (operation : Operation) (maxRetries : Nat) (date : Timestamp) (s : Inner)

/-- The result and the store it leaves, when no attempt fails. -/
def undisturbed : Except ClientError operation.Result × Inner :=
  (operation.perform maxRetries).run (answering memStore date) s

/-- The result and the store it leaves, when the network follows a script. -/
def disturbed (script : List Fault) : Except ClientError operation.Result × Inner :=
  let done := (operation.perform maxRetries).run (following date) (s, script)
  (done.1, done.2.1)

theorem perform_transparent (repeatable : operation.method ≠ .DELETE) :
    Transparent maxRetries operation.method date (operation.perform maxRetries) := by
  cases operation with
  | healthcheck =>
    refine request_transparent healthcheck_settles fun outcome => ?_
    cases outcome <;> exact ⟨_, rfl⟩
  | version =>
    refine request_transparent version_settles fun outcome => ?_
    cases outcome <;> exact ⟨_, rfl⟩
  | getUser username => exact getUser_transparent maxRetries date username
  | findUserByExternalId externalId => exact findUser_transparent maxRetries date externalId _
  | findUserByEmail email => exact findUser_transparent maxRetries date email _
  | listUserGroups username =>
    change Transparent maxRetries .GET date (AuthzClient.listUserGroups maxRetries username)
    unfold AuthzClient.listUserGroups
    split
    · exact .done _
    · exact listGroupPages_transparent maxRetries date _ _ _
  | updateFriendlyName username name =>
    exact updateFriendlyName_transparent maxRetries date username name
  | addGroupMembership groupId username =>
    exact addGroupMembership_transparent maxRetries date groupId username
  | deleteUser username => exact absurd rfl repeatable

end Operation

/-- However the network behaves, a request is tried at most once more than there are retries, and
a create reaches the server at most once. When at most as many attempts fail as there are retries,
an operation that is no delete ends as if none had failed. A delete leaves the same store, and
answers alike unless an attempt that failed had deleted the user: then it answers "not found". -/
theorem retries_transparent (maxRetries : Nat) :
    (∀ (request : Request) (s s' : Inner) (log : List (Entry Call.Reply))
      (result : Except ClientError (Response request.Success)),
      Ran (Call.Exec memStore) (sendWithRetry request maxRetries) s log (.done result) s' →
      (attempts log).length ≤ maxRetries + 1 ∧
        (request.method = .POST → (attempts log).countP Fault.committed ≤ 1)) ∧
    (∀ (operation : Operation) (date : Timestamp) (s : Inner) (script : List Fault),
      operation.method ≠ .DELETE → Tolerable maxRetries operation.method script →
      operation.disturbed maxRetries date s script = operation.undisturbed maxRetries date s) ∧
    ∀ (username : String) (date : Timestamp) (s : Inner) (script : List Fault),
      Tolerable maxRetries .DELETE script →
      (Operation.deleteUser username).disturbed maxRetries date s script =
        (if reached script ∧
            ((Operation.deleteUser username).undisturbed maxRetries date s).1 = .ok ()
          then .error .NotFound
          else ((Operation.deleteUser username).undisturbed maxRetries date s).1,
          ((Operation.deleteUser username).undisturbed maxRetries date s).2) := by
  refine ⟨?_, ?_, ?_⟩
  · intro request s s' log result ran
    obtain ⟨more, hlog, counted⟩ := ran.meets (send_counted request maxRetries)
    obtain rfl : attempts log = more := hlog
    exact ⟨counted.attempts, counted.applied⟩
  · intro operation date s script repeatable tolerable
    obtain ⟨rest, _, hrun⟩ := operation.perform_transparent maxRetries date repeatable s script
      tolerable
    unfold Operation.disturbed
    rw [hrun]
    rfl
  · intro username date s script tolerable
    obtain ⟨rest, hrun⟩ := deleteUser_run username s tolerable
    change (((deleteUser maxRetries username).run (following date) (s, script)).1,
      ((deleteUser maxRetries username).run (following date) (s, script)).2.1) = _
    rw [hrun]
    rfl

/-- A store with one user and one group. -/
def small : Inner :=
  Inner.new.after [.createUser (NewUser.named "ada"), .createGroup ⟨"developers", none, ⟨0⟩⟩]

/-- The join is committed twice before its answer arrives. -/
theorem retries_transparent_join :
    (Operation.addGroupMembership "developers" "ada").disturbed 2 ⟨0⟩ small
        [.lost true .timeout, .failed true .unavailable] =
      (Operation.addGroupMembership "developers" "ada").undisturbed 2 ⟨0⟩ small := by
  refine (retries_transparent 2).2.1 _ _ _ _ (by decide) ⟨?_, by decide⟩
  simp [Operation.method, repeats, idempotent, isServerError, FailureStatus.unavailable]

/-- A delete that times out after the server committed it is repeated, and finds no user. -/
theorem repeated_delete_answers_not_found :
    Tolerable 2 .DELETE [.lost true .timeout] ∧
    ((Operation.deleteUser "ada").undisturbed 2 ⟨0⟩ small).1 = .ok () ∧
    ((Operation.deleteUser "ada").disturbed 2 ⟨0⟩ small [.lost true .timeout]).1 =
      .error .NotFound :=
  ⟨⟨by simp [repeats, idempotent], by decide⟩, by rfl, by rfl⟩

end LakeFsAuth.AuthzClient.Retries
