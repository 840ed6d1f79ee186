import LakeFsAuth.AuthzClient.Rollback

/-! A create that has the store to itself, whatever the network does to its attempts.
Its row is stranded exactly when the answer to the attempt that inserted it is lost. -/
namespace LakeFsAuth.AuthzClient
open Core.Error Core.Model Core.Text Core.Validate Authz Authz.Store Authz.Api Authz.Handlers
open Library Library.Program Library.OrderedMap Mem

/-- The rows the calls of a log inserted. -/
abbrev inserts (log : List (Entry Call.Reply)) : List UserRecord := log.filterMap insertedRow

def faultOf : Entry Call.Reply → Option Fault
  | ⟨.attempt _, fault⟩ => some fault
  | _ => none

/-- How the last attempt went. -/
def lastFault (log : List (Entry Call.Reply)) : Option Fault := (log.filterMap faultOf).getLast?

def deleteFault : Entry Call.Reply → Option Fault
  | ⟨.attempt (.deleteUser _), fault⟩ => some fault
  | _ => none

abbrev deleteFaults (log : List (Entry Call.Reply)) : List Fault := log.filterMap deleteFault

/-- A row was inserted by an attempt that was not answered. -/
def LostInsert (log : List (Entry Call.Reply)) : Prop :=
  ∃ earlier insert later, log = earlier ++ insert :: later ∧ (insertedRow insert).isSome ∧
    lastFault earlier ≠ some .answered

section Log
variable {log : List (Entry Call.Reply)} {entry : Entry Call.Reply}

theorem lostInsert_snoc : LostInsert (log ++ [entry]) ↔
    LostInsert log ∨ ((insertedRow entry).isSome ∧ lastFault log ≠ some .answered) := by
  constructor
  · rintro ⟨earlier, insert, later, h, hinsert, hfault⟩
    rcases EventLog.snoc_split h with ⟨rfl, rfl, rfl⟩ | ⟨later', rfl, rfl⟩
    · exact .inr ⟨hinsert, hfault⟩
    · exact .inl ⟨earlier, insert, later', rfl, hinsert, hfault⟩
  · rintro (⟨earlier, insert, later, rfl, hinsert, hfault⟩ | ⟨hinsert, hfault⟩)
    · exact ⟨earlier, insert, later ++ [entry], by simp, hinsert, hfault⟩
    · exact ⟨log, entry, [], rfl, hinsert, hfault⟩

theorem lostInsert_inserts (h : LostInsert log) : inserts log ≠ [] := by
  obtain ⟨earlier, insert, later, rfl, hinsert, _⟩ := h
  obtain ⟨row, hrow⟩ := Option.isSome_iff_exists.mp hinsert
  exact List.ne_nil_of_mem (List.mem_filterMap.mpr ⟨insert, by simp, hrow⟩)

theorem inserts_snoc_none (h : insertedRow entry = none) :
    inserts (log ++ [entry]) = inserts log := by
  simp [h]

theorem inserts_snoc_some {row : UserRecord} (h : insertedRow entry = some row) :
    inserts (log ++ [entry]) = inserts log ++ [row] := by
  simp [h]

theorem lostInsert_snoc_none (h : insertedRow entry = none) :
    LostInsert (log ++ [entry]) ↔ LostInsert log := by
  simp [lostInsert_snoc, h]

theorem deleteFaults_snoc_none (h : deleteFault entry = none) :
    deleteFaults (log ++ [entry]) = deleteFaults log := by
  simp [h]

end Log

/-- Nothing inserted, nothing deleted. -/
structure Clean (log : List (Entry Call.Reply)) (s : Inner) : Prop where
  ok : WellFormed s
  inserted : inserts log = []
  quiet : deleteFaults log = []

/-- The user of the spec is there, and it is the only row the log can have inserted. -/
structure Held (spec : EnsureUserSpec) (row : UserRecord) (log : List (Entry Call.Reply))
    (s : Inner) : Prop where
  ok : WellFormed s
  valid : validateEntityId "user" spec.username = .ok ()
  stored : s.users[spec.username]? = some row
  externalId : ∀ e, nonBlank spec.externalId = some e → row.externalId = some e
  inserted : ∀ r ∈ inserts log, r = row

section Steps
variable {spec : EnsureUserSpec} {row : UserRecord} {log : List (Entry Call.Reply)}
  {s s' : Inner}

theorem Clean.step (clean : Clean log s) (entry : Entry Call.Reply) (ok : WellFormed s')
    (h : insertedRow entry = none) (h' : deleteFault entry = none) :
    Clean (log ++ [entry]) s' where
  ok := ok
  inserted := by rw [inserts_snoc_none h, clean.inserted]
  quiet := by rw [deleteFaults_snoc_none h', clean.quiet]

theorem Clean.not_lost (clean : Clean log s) : ¬ LostInsert log :=
  fun h => lostInsert_inserts h clean.inserted

theorem Held.step (held : Held spec row log s) (entry : Entry Call.Reply) (ok : WellFormed s')
    (stored : s'.users[spec.username]? = some row) (h : insertedRow entry = none) :
    Held spec row (log ++ [entry]) s' where
  ok := ok
  valid := held.valid
  stored := stored
  externalId := held.externalId
  inserted := by
    rw [inserts_snoc_none h]
    exact held.inserted

theorem Held.name (held : Held spec row log s) : row.username = spec.username :=
  held.ok.users.key _ _ held.stored

end Steps

/-- The judgement of a program that has the store to itself. -/
abbrev Goes (p : Action α) (Post : List (Entry Call.Reply) → Inner → α → Prop)
    (log : List (Entry Call.Reply)) (s : Inner) : Prop :=
  Meets (Call.Exec memStore) (fun _ _ _ => True) Post p log s

/-- What the server made of a create: it stored the row, or had it already, or
refused. -/
def Served (spec : EnsureUserSpec) (fault : Fault) (log : List (Entry Call.Reply)) (s : Inner)
    (result : Except ApiError User) : Prop :=
  (∃ row, result = .ok (Service.userToWire row) ∧ Held spec row log s ∧
    deleteFaults log = [] ∧
    (inserts log = [] ∨ (row ∈ inserts log ∧ (LostInsert log ↔ fault ≠ .answered)))) ∨
  (∃ error, result = .error error ∧ Clean log s)

section Server
variable {spec : EnsureUserSpec} {log : List (Entry Call.Reply)} {s : Inner}

theorem createOrExisting_serves (fault : Fault) {email : Option String} {date : Timestamp}
    {requested : NewUser} {error : StoreError}
    (hbody : Service.requestedUser (spec.creation email) date = .ok requested)
    (clean : Clean log s) :
    Goes (Service.createOrExisting (.error error) (store (.getUser requested.username))
        (Service.sameUser requested))
      (fun log s result => Served spec fault log s (result.map Service.userToWire)) log s := by
  obtain ⟨hvalid, rfl⟩ := requestedUser_ok hbody
  unfold Service.createOrExisting
  dsimp only
  split
  · refine Meets.perform_bind trivial fun reply s' exec => ?_
    obtain ⟨hreply, rfl⟩ := exec_eq exec
    have clean' : Clean (log ++ [⟨.store (.getUser _), reply⟩]) s := clean.step _ clean.ok rfl rfl
    cases reply with
    | ok existing =>
      dsimp only
      split
      · rename_i hsame
        have hstored := userTable.got hreply
        refine .inl ⟨existing, rfl, ⟨clean.ok, hvalid, hstored, ?_, ?_⟩, clean'.quiet,
          .inl clean'.inserted⟩
        · intro e he
          simp only [Service.sameUser, Bool.and_eq_true] at hsame
          have hgiven : optionalText (some spec.externalId) = some e := he
          have hext := hsame.1.2
          change Service.sameIfGiven (optionalText (some spec.externalId)) _ = true at hext
          rw [hgiven] at hext
          exact sameIfGiven_some hext
        · intro r hr
          rw [clean'.inserted] at hr
          cases hr
      · exact .inr ⟨_, rfl, clean'⟩
    | error error => cases error <;> exact .inr ⟨_, rfl, clean'⟩
  · exact .inr ⟨_, rfl, clean⟩

/-- The call that inserts this user. -/
def insertion (s : Inner) (requested : NewUser) : Entry Call.Reply :=
  ⟨.store (.createUser requested), .ok (Inner.newRecord requested (s.nextUserId + 1))⟩

theorem insertion_serves {fault : Fault} {email : Option String} {date : Timestamp}
    {requested : NewUser}
    (hbody : Service.requestedUser (spec.creation email) date = .ok requested)
    (clean : Clean log s) (hfault : lastFault log = some fault) (free : s.UserFree requested) :
    Served spec fault (log ++ [insertion s requested]) (s.withUser requested)
      (.ok (Service.userToWire (Inner.newRecord requested (s.nextUserId + 1)))) := by
  obtain ⟨hvalid, hrequested⟩ := requestedUser_ok hbody
  have hname : requested.username = spec.username := by rw [hrequested]; rfl
  have hext : requested.externalId = nonBlank spec.externalId := by rw [hrequested]; rfl
  have all : inserts (log ++ [insertion s requested]) =
      [Inner.newRecord requested (s.nextUserId + 1)] := by
    rw [inserts_snoc_some rfl, clean.inserted]
    rfl
  refine .inl ⟨_, rfl, ⟨?_, hvalid, ?_, ?_, ?_⟩, ?_, .inr ⟨?_, ?_⟩⟩
  · exact Changes.wellFormed (.single (.newUser s requested free)) clean.ok
  · rw [← hname]
    exact (get_insert _ _ _ _).trans (if_pos rfl)
  · intro e he
    exact hext.trans he
  · intro r hr
    rw [all] at hr
    exact List.mem_singleton.mp hr
  · rw [deleteFaults_snoc_none rfl, clean.quiet]
  · rw [all]
    exact List.mem_singleton_self _
  · rw [lostInsert_snoc, hfault]
    simp [clean.not_lost, insertion, insertedRow]

theorem service_createUser_serves (email : Option String) (fault : Fault) (clean : Clean log s) :
    Goes (Service.createUser (spec.creation email)) (Served spec fault)
      (log ++ [⟨.attempt (.createUser (spec.creation email)), fault⟩]) s := by
  have clean₁ : Clean (log ++ [⟨.attempt (.createUser (spec.creation email)), fault⟩]) s :=
    clean.step _ clean.ok rfl rfl
  unfold Service.createUser
  split
  · exact .inr ⟨_, rfl, clean₁⟩
  · refine Meets.perform_bind trivial fun date s' exec => ?_
    obtain rfl : s' = s := exec
    have clean₂ := clean₁.step ⟨.now, date⟩ clean.ok rfl rfl
    cases hbody : Service.requestedUser (spec.creation email) date with
    | error error => exact .inr ⟨_, rfl, clean₂⟩
    | ok requested =>
      refine Meets.perform_bind trivial fun created s'' exec => ?_
      obtain ⟨hreply, hnext⟩ := exec_eq exec
      change (s'.insertUser requested).1 = created at hreply
      change (s'.insertUser requested).2 = s'' at hnext
      rcases s'.insertUser_cases requested with ⟨free, hok⟩ | ⟨_, entity, id, hrefused⟩
      · rw [hok] at hreply hnext
        subst hreply hnext
        exact insertion_serves hbody clean₂ (by simp [lastFault, faultOf, List.filterMap_cons]) free
      · rw [hrefused] at hreply hnext
        subst hreply hnext
        refine Meets.bind (createOrExisting_serves fault hbody ?_) ?_
        · exact clean₂.step _ clean.ok rfl rfl
        · intro log s result h
          exact h

end Server

/-- A create left its row behind: it was inserted, it is there, and the answer is lost. -/
structure Stranded (log : List (Entry Call.Reply)) (s : Inner) : Prop where
  lost : LostInsert log
  left : ∃ row ∈ inserts log, ∃ k : String, s.users[k]? = some row

/-- What the client makes of a create. -/
def CreateOutcome (spec : EnsureUserSpec) (log : List (Entry Call.Reply)) (s : Inner) :
    Except ClientError User → Prop
  | .ok user => ∃ row, user = Service.userToWire row ∧ Held spec row log s ∧
      ¬ LostInsert log ∧ deleteFaults log = []
  | .error error => Clean log s ∨ (Stranded log s ∧ error ≠ .AlreadyExists)

/-- What it reads from the outcome of its request. -/
def createdUser (outcome : Except ClientError (Response User)) : Except ClientError User :=
  outcome >>= fun response => expectStatus response 201 >>= decodeJson

section Client
variable {spec : EnsureUserSpec} {log : List (Entry Call.Reply)} {s : Inner} {fault : Fault}

/-- A failure status is no status the client knows. -/
theorem expectStatus_failed (status : FailureStatus) {expected : Nat} (body : Body α)
    (h : expected < 400) : expectStatus ⟨status.code, body⟩ expected =
      .error (.Status status.code (errorMessage body)) := by
  have hfailure := status.failure
  unfold expectStatus
  rw [if_neg (by dsimp only; omega)]
  dsimp only
  split <;> first | rfl | omega

/-- A body that cannot be read is an error, and no conflict unless the status says so. -/
theorem createdUser_unread (response : Response User)
    (h : ∀ value, response.body ≠ .json value) :
    ∃ error, createdUser (.ok response) = .error error ∧
      (response.status = 201 → error ≠ .AlreadyExists) := by
  cases hread : createdUser (.ok response) with
  | ok user => exact absurd (decoded hread).2 (h user)
  | error error =>
    refine ⟨error, rfl, fun hstatus hconflict => ?_⟩
    subst hconflict
    change (expectStatus response 201 >>= decodeJson) = _ at hread
    rw [expectStatus, if_pos hstatus] at hread
    change decodeJson response = _ at hread
    unfold decodeJson at hread
    split at hread <;> cases hread

/-- An answer that is lost is an error, and never a conflict where there was none. -/
theorem createdUser_lost (response : Response User) (lost : fault ≠ .answered) :
    ∃ error, createdUser ((fault.deliver response).mapError .Transport) = .error error ∧
      (response.status = 201 → error ≠ .AlreadyExists) := by
  cases fault with
  | answered => exact absurd rfl lost
  | unreachable | lost committed loss => exact ⟨_, rfl, fun _ => by simp⟩
  | failed committed status =>
    refine ⟨.Status status.code "", ?_, fun _ => by simp⟩
    change (expectStatus ⟨status.code, .broken⟩ 201 >>= decodeJson) = _
    rw [expectStatus_failed status _ (by decide)]
    rfl
  | garbled => exact createdUser_unread ⟨response.status, .broken⟩ (by simp)

theorem createdUser_refusal (fault : Fault) :
    ∃ error, createdUser ((fault.refusal).mapError .Transport) = .error error := by
  cases fault with
  | answered | unreachable | garbled | lost committed loss => exact ⟨_, rfl⟩
  | failed committed status =>
    refine ⟨.Status status.code "", ?_⟩
    change (expectStatus ⟨status.code, .broken⟩ 201 >>= decodeJson) = _
    rw [expectStatus_failed status _ (by decide)]
    rfl

theorem served_outcome {body : UserCreation} {result : Except ApiError User}
    (served : Served spec fault log s result) :
    CreateOutcome spec log s (createdUser
      ((fault.deliver (respond (.createUser body) result)).mapError .Transport)) := by
  rcases served with ⟨row, rfl, held, quiet, hinserted⟩ | ⟨error, rfl, clean⟩
  · by_cases hfault : fault = .answered
    · subst hfault
      refine ⟨row, rfl, held, ?_, quiet⟩
      intro hlost
      rcases hinserted with hnone | ⟨_, hiff⟩
      · exact lostInsert_inserts hlost hnone
      · exact hiff.mp hlost rfl
    · obtain ⟨error, herror, hconflict⟩ :=
        createdUser_lost (respond (.createUser body) (.ok (Service.userToWire row))) hfault
      rw [herror]
      rcases hinserted with hnone | ⟨hmem, hiff⟩
      · exact .inl ⟨held.ok, hnone, quiet⟩
      · exact .inr ⟨⟨hiff.mpr hfault, row, hmem, _, held.stored⟩, hconflict rfl⟩
  · obtain ⟨error', herror⟩ : ∃ error', createdUser
        ((fault.deliver (respond (.createUser body) (.error error))).mapError .Transport) =
          .error error' := by
      by_cases hfault : fault = .answered
      · subst hfault
        obtain ⟨error', herror, _⟩ := createdUser_unread
          (respond (.createUser body) (.error error)) (by simp [respond])
        exact ⟨error', herror⟩
      · obtain ⟨error', herror, _⟩ := createdUser_lost
          (respond (.createUser body) (.error error)) hfault
        exact ⟨error', herror⟩
    rw [herror]
    exact .inl clean

theorem createUser_goes (maxRetries : Nat) (email : Option String) (clean : Clean log s) :
    Goes (createUser maxRetries (spec.creation email)) (CreateOutcome spec) log s := by
  unfold createUser
  have send : Goes (sendWithRetry (.createUser (spec.creation email)) maxRetries)
      (fun log s outcome => CreateOutcome spec log s (createdUser outcome)) log s := by
    refine sendWithRetry_meets Clean ?_ maxRetries clean
    intro log s clean
    refine attempt_meets trivial ?_ ?_
    · rintro fault s' rfl committed
      refine handle_meets ((service_createUser_serves email fault clean).mono ?_)
      intro log s result served
      refine ⟨fun hretry => ?_, served_outcome served⟩
      rw [Request.method, post_not_retried _ committed] at hretry
      cases hretry
    · rintro fault s' rfl _
      have clean' := clean.step ⟨.attempt (.createUser (spec.creation email)), fault⟩ clean.ok
        rfl rfl
      refine ⟨fun _ => clean', ?_⟩
      obtain ⟨error, herror⟩ := createdUser_refusal fault
      rw [herror]
      exact .inl clean'
  refine send.bind fun log s outcome h => ?_
  cases outcome <;> exact h

end Client

end LakeFsAuth.AuthzClient
