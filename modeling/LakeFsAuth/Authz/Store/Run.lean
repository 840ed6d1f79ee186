import LakeFsAuth.Authz.Store.Invariant

/-! Runs of the in-memory store from the empty one, and the user ids they issue.
A run that deletes a user does not give the id back. -/
namespace LakeFsAuth.Authz.Store.Mem
open Std Relation Library.OrderedMap

namespace Inner

/-- The store after a sequence of operations. -/
def after (self : Inner) (ops : List StoreOp) : Inner :=
  ops.foldl (fun self op => (exec op self).2) self

/-- The ids of the rows that are in `next` and were not in `self`. -/
def issuedBy (self next : Inner) : List Int :=
  ((values next.users).filter fun row =>
    !self.users[row.username]?.any fun old => old.userId == row.userId).map (·.userId)

/-- Every id a run issues, in the order of its operations. -/
def issuedAlong (self : Inner) : List StoreOp → List Int
  | [] => []
  | op :: ops => self.issuedBy (exec op self).2 ++ issuedAlong (exec op self).2 ops

@[simp] theorem after_nil (self : Inner) : self.after [] = self := rfl

@[simp] theorem after_cons (self : Inner) (op : StoreOp) (ops : List StoreOp) :
    self.after (op :: ops) = (exec op self).2.after ops := rfl

theorem after_append (self : Inner) (ops more : List StoreOp) :
    self.after (ops ++ more) = (self.after ops).after more :=
  List.foldl_append

theorem exec_changes (self : Inner) (op : StoreOp) : Changes self (exec op self).2 :=
  (self.exec_sound op).changes

theorem after_changes (self : Inner) (ops : List StoreOp) : Changes self (self.after ops) := by
  induction ops generalizing self with
  | nil => exact .refl
  | cons op ops ih => exact (self.exec_changes op).trans (ih _)

/-- Every state a run from the empty store reaches is well formed. -/
theorem after_wellFormed (ops : List StoreOp) : WellFormed (new.after ops) :=
  (new.after_changes ops).wellFormed wellFormed_new

end Inner

/-- A row of a later store is an earlier one, or its id is new. -/
structure Fresh (s s' : Inner) : Prop where
  counter : s.nextUserId ≤ s'.nextUserId
  old : ∀ (k : String) (row : UserRecord), s'.users[k]? = some row →
    row.userId ≤ s.nextUserId → ∃ old, s.users[k]? = some old ∧ old.userId = row.userId

theorem Fresh.of_sub {s s' : Inner} (counter : s'.nextUserId = s.nextUserId)
    (sub : ∀ (k : String) (row : UserRecord), s'.users[k]? = some row →
      ∃ old, s.users[k]? = some old ∧ old.userId = row.userId) : Fresh s s' :=
  ⟨counter.ge, fun k row hrow _ => sub k row hrow⟩

theorem Change.fresh {s s' : Inner} (change : Change s s') : Fresh s s' := by
  cases change with
  | newUser user free =>
    refine ⟨by simp only [Inner.withUser]; omega, ?_⟩
    intro k row hrow hle
    simp only [Inner.withUser, get_insert] at hrow
    split at hrow
    · cases hrow
      simp only [Inner.newRecord] at hle
      omega
    · exact ⟨row, hrow, rfl⟩
  | dropUser username => exact .of_sub rfl fun k row hrow => ⟨row, (get_of_erase hrow).2, rfl⟩
  | rename username user name stored =>
    refine .of_sub rfl ?_
    intro k row hrow
    simp only [get_insert] at hrow
    split at hrow
    · rename_i hk
      cases hrow
      exact ⟨user, hk ▸ stored, rfl⟩
    · exact ⟨row, hrow, rfl⟩
  | newGroup | newPolicy | newCredential | newPrincipal | dropGroup | dropPolicy | rewrite
  | joined | left | attachedUser | detachedUser | attachedGroup | detachedGroup
  | dropCredential | dropPrincipal | tokens =>
    exact .of_sub rfl fun k row hrow => ⟨row, hrow, rfl⟩

theorem Changes.fresh {s s' : Inner} (changes : Changes s s') : Fresh s s' := by
  induction changes with
  | refl => exact .of_sub rfl fun k row hrow => ⟨row, hrow, rfl⟩
  | tail _ change ih =>
    have last := change.fresh
    refine ⟨ih.counter.trans last.counter, ?_⟩
    intro k row hrow hle
    obtain ⟨mid, hmid, hid⟩ := last.old k row hrow (hle.trans ih.counter)
    obtain ⟨old, hold, hid'⟩ := ih.old k mid hmid (hid ▸ hle)
    exact ⟨old, hold, hid'.trans hid⟩

namespace Inner

theorem issuedBy_bounds {s s' : Inner} (changes : Changes s s') (ok : WellFormed s') :
    ∀ id ∈ s.issuedBy s', s.nextUserId < id ∧ id ≤ s'.nextUserId := by
  intro id hid
  simp only [issuedBy, List.mem_map, List.mem_filter, Bool.not_eq_true'] at hid
  obtain ⟨row, ⟨hmem, hnew⟩, rfl⟩ := hid
  obtain ⟨k, hrow⟩ := (mem_values _ _).mp hmem
  refine ⟨?_, ok.users.idIssued k row hrow⟩
  by_contra hle
  obtain ⟨old, hold, heq⟩ := changes.fresh.old k row hrow (by omega)
  rw [← ok.users.key k row hrow] at hold
  simp [hold, heq] at hnew

theorem issuedBy_nodup (s : Inner) {s' : Inner} (ok : WellFormed s') :
    (s.issuedBy s').Nodup :=
  (values_nodup s'.users (·.userId) fun k k' row row' => ok.users.id k k' row row').sublist
    (List.filter_sublist.map _)

theorem issuedAlong_bounds (s : Inner) (ok : WellFormed s) (ops : List StoreOp) :
    ∀ id ∈ s.issuedAlong ops, s.nextUserId < id ∧ id ≤ (s.after ops).nextUserId := by
  induction ops generalizing s with
  | nil => simp [issuedAlong]
  | cons op ops ih =>
    intro id hid
    have changes := s.exec_changes op
    have ok' := changes.wellFormed ok
    rcases List.mem_append.mp hid with hid | hid
    · have hhead := issuedBy_bounds changes ok' id hid
      have hgrow := ((exec op s).2.after_changes ops).fresh.counter
      exact ⟨hhead.1, hhead.2.trans hgrow⟩
    · have hrest := ih _ ok' id hid
      exact ⟨changes.fresh.counter.trans_lt hrest.1, hrest.2⟩

/-- No id is issued twice along a run, whatever it deletes. -/
theorem issuedAlong_nodup (s : Inner) (ok : WellFormed s) (ops : List StoreOp) :
    (s.issuedAlong ops).Nodup := by
  induction ops generalizing s with
  | nil => exact List.nodup_nil
  | cons op ops ih =>
    have changes := s.exec_changes op
    have ok' := changes.wellFormed ok
    refine List.nodup_append.mpr ⟨issuedBy_nodup s ok', ih _ ok', ?_⟩
    intro id hid later hlater heq
    have hhead := (issuedBy_bounds changes ok' id hid).2
    have hrest := (issuedAlong_bounds _ ok' ops later hlater).1
    omega

/-- A user of the last store was there at the start, or its id was issued along
the run. -/
theorem issued_or_old (s : Inner) (ops : List StoreOp) (ok : WellFormed s) (k : String)
    (row : UserRecord) (hrow : (s.after ops).users[k]? = some row) :
    (∃ old, s.users[k]? = some old ∧ old.userId = row.userId) ∨
      row.userId ∈ s.issuedAlong ops := by
  induction ops generalizing s with
  | nil => exact .inl ⟨row, hrow, rfl⟩
  | cons op ops ih =>
    have ok' := (s.exec_changes op).wellFormed ok
    rcases ih _ ok' hrow with ⟨mid, hmid, hid⟩ | hlater
    · by_cases hold : ∃ old, s.users[k]? = some old ∧ old.userId = mid.userId
      · obtain ⟨old, hold, heq⟩ := hold
        exact .inl ⟨old, hold, heq.trans hid⟩
      · refine .inr (List.mem_append_left _ ?_)
        simp only [issuedBy, List.mem_map, List.mem_filter, Bool.not_eq_true']
        refine ⟨mid, ⟨(mem_values _ _).mpr ⟨k, hmid⟩, ?_⟩, hid⟩
        rw [ok'.users.key k mid hmid]
        cases hs : s.users[k]? with
        | none => rfl
        | some old =>
          simp only [Option.any_some, beq_eq_false_iff_ne]
          exact fun heq => hold ⟨old, hs, heq⟩
    · exact .inr (List.mem_append_right _ hlater)

/-- What a run from the empty store leaves behind, and what its next failure
does to it. -/
theorem run_wellFormed_and_failures_keep_state (ops : List StoreOp) :
    WellFormed (new.after ops) ∧
    ((values (new.after ops).users).map (·.username)).Nodup ∧
    (∀ (k : String) (row : UserRecord), (new.after ops).users[k]? = some row →
      row.userId ∈ new.issuedAlong ops) ∧
    (new.issuedAlong ops).Nodup ∧
    (∀ id ∈ new.issuedAlong ops, 1 ≤ id ∧ id ≤ (new.after ops).nextUserId) ∧
    (∀ op error, (exec op (new.after ops)).1 = .error error →
      (exec op (new.after ops)).2 = new.after ops) := by
  have ok := after_wellFormed ops
  refine ⟨ok, ?_, ?_, issuedAlong_nodup _ wellFormed_new ops, ?_, ?_⟩
  · apply values_nodup
    intro k k' row row' hrow hrow' heq
    rw [← ok.users.key k row hrow, ← ok.users.key k' row' hrow', heq]
  · intro k row hrow
    rcases issued_or_old new ops wellFormed_new k row hrow with ⟨old, hold, _⟩ | hissued
    · simp [new] at hold
    · exact hissued
  · intro id hid
    have hbounds := issuedAlong_bounds new wellFormed_new ops id hid
    exact ⟨hbounds.1, hbounds.2⟩
  · intro op error herror
    exact ((new.after ops).exec_sound op).failed error herror

end Inner

end LakeFsAuth.Authz.Store.Mem
