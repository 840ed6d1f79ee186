import LakeFsAuth.AuthzClient.Shared

/-! When a rolled back create deletes only what its own run created. The delete
goes by name, and a 201 does not say whether the row was inserted or was there
before, so this takes conditions on the runs around it. -/
namespace LakeFsAuth.AuthzClient
open Authz Authz.Store Authz.Api Library Library.Program

variable {σ ι : Type} [DecidableEq ι]

variable {impl : StoreImpl σ}

/-- A call of run `i` that removes the row `row` under `name`. -/
structure Removes (table : UserTable impl) (i : ι) (name : String) (row : UserRecord)
    (record : Record Call.Reply σ ι) : Prop where
  who : record.who = some i
  call : record.entry.1 = .store (.deleteUser name)
  row : table.row record.before name = some row

/-- The calls since a create of this name that run `i` made itself. -/
def SinceInsert (i : ι) (name : String) (inserted : UserRecord)
    (earlier since : List (Record Call.Reply σ ι)) : Prop :=
  ∃ front record requested, earlier = front ++ record :: since ∧ record.who = some i ∧
    record.entry = ⟨.store (.createUser requested), .ok inserted⟩ ∧ inserted.username = name

/-- What keeps a rollback of run `i` safe: its creates were not answered from a
re-read of an existing row, and since its insert nobody deleted the name and no
other run was answered with the row. -/
structure Undisturbed (i : ι) (name : String) (earlier : List (Record Call.Reply σ ι)) :
    Prop where
  notReread : ∀ requested row, ¬ Matched (callsOf i earlier) requested row
  notDeleted : ∀ inserted since, SinceInsert i name inserted earlier since →
    ∀ record ∈ since, ¬ Deletes name record.entry
  notShared : ∀ inserted since, SinceInsert i name inserted earlier since →
    ∀ record ∈ since, ∀ j row, record.who = some j → j ≠ i → shown record.entry = some row →
      row.userId ≠ inserted.userId

section
variable (table : UserTable impl) {Others : Call → Prop}
  {maxRetries : ι → Nat} {spec : ι → EnsureUserSpec} {s₀ s : σ}
  {log : List (Record Call.Reply σ ι)}
  {now : ι → Action (Except ClientError EnsuredUser)}

/-- The runs: each one creates a user with its groups. -/
abbrev Creates (impl : StoreImpl σ) (Others : Call → Prop) (maxRetries : ι → Nat)
    (spec : ι → EnsureUserSpec) (s₀ : σ) (log : List (Record Call.Reply σ ι))
    (now : ι → Action (Except ClientError EnsuredUser)) (s : σ) : Prop :=
  Pool (Call.Exec impl) Others (fun i => createUserWithGroups (maxRetries i) (spec i)) s₀ log
    now s

/-- A run that creates keeps its word: it deletes a name only after a create of it
that was answered. -/
theorem creates_allows (pool : Creates impl Others maxRetries spec s₀ log now s)
    (init : table.Inv s₀) {i : ι} {earlier later : List (Record Call.Reply σ ι)}
    {record : Record Call.Reply σ ι} (hlog : log = earlier ++ record :: later)
    (hwho : record.who = some i) : MayCall (callsOf i earlier) () record.entry.1 :=
  pool.allows (lawful table) init
    (fun i => createUserWithGroups_conveys (maxRetries i) (spec i)) hlog hwho

/-- The answer of a run that has returned comes from a row it was shown. -/
theorem creates_told (pool : Creates impl Others maxRetries spec s₀ log now s)
    (init : table.Inv s₀) {j : ι} {ensured : EnsuredUser}
    (finished : now j = .done (.ok ensured)) :
    ∃ row, ensured.user = Service.userToWire row ∧ Told (callsOf j log) row := by
  obtain ⟨row, huser, htold, _⟩ := pool.answers (lawful table) init
    (fun i => createUserWithGroups_conveys (maxRetries i) (spec i)) finished ensured rfl
  exact ⟨row, huser, htold⟩

/-- What an undisturbed rollback removes is the row its own run inserted. -/
theorem removes_inserted (pool : Creates impl Others maxRetries spec s₀ log now s)
    (init : table.Inv s₀) {i : ι} {name : String} {row : UserRecord}
    {earlier later : List (Record Call.Reply σ ι)} {record : Record Call.Reply σ ι}
    (hlog : log = earlier ++ record :: later) (removes : Removes table i name row record)
    (undisturbed : Undisturbed i name earlier) :
    ∃ inserted since, SinceInsert i name inserted earlier since ∧
      inserted.userId = row.userId := by
  obtain ⟨body, inserted, ⟨requested, date, _, hanswer⟩, hname⟩ :=
    creates_allows table pool init hlog removes.who name removes.call
  rcases hanswer with hinsert | hmatched
  · obtain ⟨insert, hmem, hwho, hentry⟩ := (mem_callsOf i earlier).mp hinsert.entry
    obtain ⟨front, since, hearlier⟩ := List.append_of_mem hmem
    have hsince : SinceInsert i name inserted earlier since :=
      ⟨front, insert, requested, hearlier, hwho, hentry, hname⟩
    refine ⟨inserted, since, hsince, ?_⟩
    have hchain := (pool.at hlog).1
    rw [hearlier] at hchain
    obtain ⟨mid, hfront, hrest⟩ := hchain.append
    obtain ⟨rfl, hexec, hafter⟩ := hrest.head
    have inv := hfront.lawful (lawful table) init
    have hsame := (created_exec table inv hexec hentry).2
    rw [hname] at hsame
    obtain ⟨stored, hstored, hid, _⟩ := hsame.along table hafter
      ((lawful table).keeps inv hexec) (undisturbed.notDeleted inserted since hsince)
    rw [removes.row] at hstored
    cases hstored
    exact hid.symm
  · exact absurd hmatched (undisturbed.notReread requested inserted)

end

section
variable (table : UserTable impl)

/-- The row a create inserted. -/
def insertedRow : Entry Call.Reply → Option UserRecord
  | ⟨.store (.createUser _), .ok row⟩ => some row
  | _ => none

/-- What a rollback of run `i` owes the others: it removes a row its own run
inserted, and no run that has returned Ok took its answer from that row. -/
structure Safe (impl : StoreImpl σ) (Others : Call → Prop)
    (start : ι → Action (Except ClientError EnsuredUser)) (s₀ : σ) (i : ι) (row : UserRecord)
    (earlier : List (Record Call.Reply σ ι)) : Prop where
  own : ∃ inserted ∈ (callsOf i earlier).filterMap insertedRow, inserted.userId = row.userId
  others : ∀ j, j ≠ i → ∀ now s ensured,
    Pool (Call.Exec impl) Others start s₀ earlier now s → now j = .done (.ok ensured) →
      (∃ shown, ensured.user = Service.userToWire shown ∧ Told (callsOf j earlier) shown) ∧
      ∀ shown, Told (callsOf j earlier) shown → shown.userId ≠ row.userId

/-- Every removal of a row by a run satisfies `P` where it happens. -/
def EveryRemoval (log : List (Record Call.Reply σ ι))
    (P : ι → String → UserRecord → List (Record Call.Reply σ ι) → Prop) : Prop :=
  ∀ earlier record later, log = earlier ++ record :: later →
    ∀ i name row, Removes table i name row record → P i name row earlier

variable {Others : Call → Prop} {maxRetries : ι → Nat} {spec : ι → EnsureUserSpec} {s₀ s : σ}
  {log : List (Record Call.Reply σ ι)}
  {now : ι → Action (Except ClientError EnsuredUser)}

theorem undisturbed_safe (pool : Creates impl Others maxRetries spec s₀ log now s)
    (init : table.Inv s₀) {i : ι} {name : String} {row : UserRecord}
    {earlier later : List (Record Call.Reply σ ι)} {record : Record Call.Reply σ ι}
    (hlog : log = earlier ++ record :: later) (removes : Removes table i name row record)
    (undisturbed : Undisturbed i name earlier) :
    Safe impl Others (fun i => createUserWithGroups (maxRetries i) (spec i)) s₀ i row earlier := by
  obtain ⟨inserted, since, hsince, hid⟩ :=
    removes_inserted table pool init hlog removes undisturbed
  have hshared := undisturbed.notShared inserted since hsince
  obtain ⟨front, insert, requested, hearlier, hwho, hentry, hname⟩ := hsince
  refine ⟨⟨inserted, ?_, hid⟩, ?_⟩
  · refine List.mem_filterMap.mpr ⟨⟨.store (.createUser requested), .ok inserted⟩, ?_, rfl⟩
    exact (mem_callsOf i earlier).mpr ⟨insert, by simp [hearlier], hwho, hentry⟩
  · intro j hne now' s' ensured pool' finished
    refine ⟨creates_told table pool' init finished, ?_⟩
    rintro shownRow ⟨entry, hmem, hshown⟩
    obtain ⟨other, hother, hwho', rfl⟩ := (mem_callsOf j earlier).mp hmem
    rw [hearlier] at hother
    rw [← hid]
    rcases List.mem_append.mp hother with hfront | hrest
    · have hchain := (pool.at hlog).1
      rw [hearlier] at hchain
      exact (shown_before_insert table hchain init hentry hfront hshown).ne
    · rcases List.mem_cons.mp hrest with rfl | hafter
      · rw [hwho] at hwho'
        exact absurd (Option.some.inj hwho').symm hne
      · exact hshared other hafter j shownRow hwho' hne hshown

end

section Memory
open Mem Moment

/-- In every run of any number of creates, among any other operations, whose
rollbacks are undisturbed, every rollback is safe. -/
theorem rollbacks_safe_when_undisturbed (ops : List StoreOp) (maxRetries : ι → Nat)
    (spec : ι → EnsureUserSpec) (log : List (Record Call.Reply Inner ι))
    (now : ι → Action (Except ClientError EnsuredUser)) (s : Inner)
    (pool : Creates memStore (fun _ => True) maxRetries spec (Inner.new.after ops) log now s)
    (undisturbed : EveryRemoval userTable log fun i name _ earlier =>
      Undisturbed i name earlier) :
    EveryRemoval userTable log fun i _ row earlier =>
      Safe memStore (fun _ => True) (fun i => createUserWithGroups (maxRetries i) (spec i))
        (Inner.new.after ops) i row earlier := by
  intro earlier record later hlog i name row removes
  exact undisturbed_safe userTable pool (Inner.after_wellFormed ops) hlog removes
    (undisturbed earlier record later hlog i name row removes)

/-- A login of this identity that joins the group `developers`. -/
def developer (username externalId : String) : EnsureUserSpec :=
  ⟨externalId, username, none, none, "oidc", ["developers"]⟩

/-- Two creates, `false` and then `true`: the second meets a 503 when it joins its
group, and is about to roll back. -/
def failedJoin (spec : Bool → EnsureUserSpec) (requests : Nat) :
    Moment Call Call.Reply (Except ClientError EnsuredUser) Inner Bool :=
  (Moment.initial (fun i => createUserWithGroups 0 (spec i)) Inner.new).play
    (Call.picks memStore ⟨0⟩ (List.replicate 5 (false, .answered) ++
      List.replicate requests (true, .answered) ++
      [(true, .failed false .unavailable), (true, .answered)]))

/-- The rollback that comes next. -/
def rollback (moment : Moment Call Call.Reply (Except ClientError EnsuredUser) Inner Bool)
    (name : String) : Record Call.Reply Inner Bool :=
  ⟨some true, ⟨.store (.deleteUser name), (moment.state.deleteUser name).1⟩, moment.state,
    (moment.state.deleteUser name).2⟩

theorem failedJoin_pool (spec : Bool → EnsureUserSpec) (requests : Nat) {name : String}
    {next : StoreResult Unit → Action (Except ClientError EnsuredUser)}
    (turn : (failedJoin spec requests).now true = .call (.store (.deleteUser name)) next) :
    ∃ now s, Creates memStore (fun _ => True) (fun _ => 0) spec (Inner.new.after [])
      ((failedJoin spec requests).log ++ [rollback (failedJoin spec requests) name]) now s ∧
      now false = (failedJoin spec requests).now false := by
  have before : Reached (Call.Exec memStore) (fun _ => True) _ _ (failedJoin spec requests) :=
    Reached.initial.play (Call.picks_exec memStore ⟨0⟩ _)
  exact ⟨_, _, .own before turn rfl, Function.update_of_ne (by decide) _ _⟩

/-- The user of a login that comes first, and of one that comes second. -/
def ada : UserRecord := ⟨"ada", 1, ⟨0⟩, none, none, some "oidc", some "sub-1", none⟩
def bob : UserRecord := ⟨"bob", 2, ⟨0⟩, none, none, some "oidc", some "sub-2", none⟩

def twoLogins (i : Bool) : EnsureUserSpec :=
  if i then developer "bob" "sub-2" else developer "ada" "sub-1"

def deletesOrRereads : Call → Bool
  | .store (.deleteUser _) | .store (.getUser _) => true
  | _ => false

/-- What a record of the two logins looks like: no delete, no re-read, and the row
with id 2 shown to the second one only. -/
def Apart (record : Record Call.Reply Inner Bool) : Prop :=
  deletesOrRereads record.entry.1 = false ∧
    ∀ row ∈ shown record.entry, record.who = some (decide (row.userId = 2))

instance (record : Record Call.Reply Inner Bool) : Decidable (Apart record) :=
  inferInstanceAs (Decidable (_ ∧ _))

theorem Apart.keeps {record : Record Call.Reply Inner Bool} (apart : Apart record)
    (name : String) : record.entry.1 ≠ .store (.deleteUser name) := by
  intro heq
  have h := apart.1
  rw [heq] at h
  cases h

theorem apart_undisturbed {earlier : List (Record Call.Reply Inner Bool)}
    (apart : ∀ record ∈ earlier, Apart record) (name : String) :
    Undisturbed true name earlier where
  notReread := by
    rintro requested row matched
    obtain ⟨record, hrecord, _, hentry⟩ := (mem_callsOf _ _).mp matched.read
    have h := (apart record hrecord).1
    rw [hentry] at h
    cases h
  notDeleted := by
    rintro inserted since ⟨front, insert, requested, rfl, _⟩ record hrecord hdeletes
    exact (apart record (by simp [hrecord])).keeps name (congrArg Sigma.fst hdeletes)
  notShared := by
    rintro inserted since ⟨front, insert, requested, rfl, hwho, hentry, _⟩ record hrecord j row
      hj hne hshown heq
    have hinsert := (apart insert (by simp)).2 inserted (by rw [hentry]; rfl)
    have hother := (apart record (by simp [hrecord])).2 row hshown
    rw [hwho] at hinsert
    rw [hj, heq, ← hinsert] at hother
    exact hne (Option.some.inj hother)

/-- The second of two logins rolls back the row it inserted itself. -/
theorem rollbacks_safe_when_undisturbed_two_logins :
    Removes userTable true "bob" bob (rollback (failedJoin twoLogins 3) "bob") ∧
    Safe memStore (fun _ => True) (fun i => createUserWithGroups 0 (twoLogins i))
      (Inner.new.after []) true bob (failedJoin twoLogins 3).log := by
  obtain ⟨next, turn⟩ : ∃ next, (failedJoin twoLogins 3).now true =
      .call (.store (.deleteUser "bob")) next := ⟨_, by rfl⟩
  obtain ⟨now, s, pool, _⟩ := failedJoin_pool twoLogins 3 turn
  have removes : Removes userTable true "bob" bob (rollback (failedJoin twoLogins 3) "bob") :=
    ⟨rfl, rfl, by decide⟩
  refine ⟨removes, rollbacks_safe_when_undisturbed [] _ _ _ _ _ pool ?_ _ _ [] rfl true "bob" _
    removes⟩
  have apart : ∀ record ∈ (failedJoin twoLogins 3).log, Apart record := by decide
  intro earlier record later hlog i name row removed
  rcases EventLog.snoc_split hlog with ⟨rfl, rfl, rfl⟩ | ⟨later', rfl, hlog'⟩
  · obtain rfl : true = i := Option.some.inj removed.who
    exact apart_undisturbed apart name
  · exact absurd removed.call ((apart record (by simp [hlog'])).keeps name)

/-- Two logins of one identity. The second one is answered with the row the first
one inserted and has returned, and its rollback deletes that row. -/
theorem rollback_removes_row_of_returned_login :
    ∃ now s, Creates memStore (fun _ => True) (fun _ => 0) (fun _ => developer "ada" "sub-1")
      (Inner.new.after []) ((failedJoin (fun _ => developer "ada" "sub-1") 4).log ++
        [rollback (failedJoin (fun _ => developer "ada" "sub-1") 4) "ada"]) now s ∧
    now false = .done (.ok ⟨Service.userToWire ada, true⟩) ∧
    Removes userTable true "ada" ada
      (rollback (failedJoin (fun _ => developer "ada" "sub-1") 4) "ada") ∧
    ¬ Safe memStore (fun _ => True)
      (fun _ => createUserWithGroups 0 (developer "ada" "sub-1")) (Inner.new.after []) true ada
      (failedJoin (fun _ => developer "ada" "sub-1") 4).log := by
  obtain ⟨next, turn⟩ : ∃ next, (failedJoin (fun _ => developer "ada" "sub-1") 4).now true =
      .call (.store (.deleteUser "ada")) next := ⟨_, by rfl⟩
  obtain ⟨now, s, pool, hnow⟩ := failedJoin_pool (fun _ => developer "ada" "sub-1") 4 turn
  refine ⟨now, s, pool, hnow.trans (by rfl), ⟨rfl, rfl, by decide⟩, ?_⟩
  intro safe
  obtain ⟨inserted, hinserted, _⟩ := safe.own
  have none_inserted : (callsOf true (failedJoin (fun _ => developer "ada" "sub-1") 4).log).filterMap
      insertedRow = [] := by decide
  rw [none_inserted] at hinserted
  exact List.not_mem_nil hinserted

end Memory

end LakeFsAuth.AuthzClient
