import LakeFsAuth.AuthzClient.Conversation

/-! Runs over one shared store: what the rows they were shown have to do with the
rows that are there. -/
namespace LakeFsAuth.AuthzClient
open Authz.Store Authz.Api Library Library.Program

variable {σ ι : Type} {impl : StoreImpl σ} (table : UserTable impl)

theorem exec_eq {op : StoreOp} {s s' : σ} {reply : op.Reply}
    (h : Call.Exec impl (.store op) s reply s') :
    (impl.exec op s).1 = reply ∧ (impl.exec op s).2 = s' := by
  change impl.exec op s = (reply, s') at h
  rw [h]
  exact ⟨rfl, rfl⟩

theorem lawful : Lawful (Call.Exec impl) table.Inv Law where
  keeps := by
    intro call s reply s' inv exec
    cases call with
    | store op =>
      rw [← (exec_eq exec).2]
      exact table.keeps op inv
    | now | attempt request =>
      obtain rfl : s' = s := exec
      exact inv
  law := by
    intro call s reply s' inv exec
    cases call with
    | now | attempt request => trivial
    | store op =>
      have hreply := (exec_eq exec).1
      cases op with
      | createUser user =>
        cases reply with
        | error error => trivial
        | ok row =>
          have hcreated := table.created inv hreply
          exact ⟨hcreated.1, hcreated.2.1⟩
      | getUser username =>
        cases reply with
        | error error => trivial
        | ok row => exact table.key inv (table.got hreply)
      | findUserByExternalId externalId =>
        cases reply with
        | error error => trivial
        | ok found =>
          cases found with
          | none => trivial
          | some row => exact (table.foundByExternalId inv hreply).2
      | _ => trivial

/-- A shown row was there when it was read, or is there once it is created. -/
theorem shown_row {call : Call} {s s' : σ} {reply : call.Reply} {row : UserRecord}
    (inv : table.Inv s) (exec : Call.Exec impl call s reply s')
    (h : shown ⟨call, reply⟩ = some row) :
    (∀ username, call ≠ .store (.deleteUser username)) ∧
      (table.row s row.username = some row ∨ table.row s' row.username = some row) := by
  cases call with
  | now | attempt request => cases h
  | store op =>
    obtain ⟨hreply, hnext⟩ := exec_eq exec
    cases op with
    | createUser user =>
      cases reply with
      | error error => cases h
      | ok row' =>
        cases h
        obtain ⟨hname, _, _, hrow⟩ := table.created inv hreply
        refine ⟨by simp, .inr ?_⟩
        rw [← hnext, hname]
        exact hrow
    | getUser username =>
      cases reply with
      | error error => cases h
      | ok row' =>
        cases h
        have hrow := table.got hreply
        exact ⟨by simp, .inl ((table.key inv hrow).symm ▸ hrow)⟩
    | findUserByExternalId externalId =>
      cases reply with
      | error error => cases h
      | ok found =>
        obtain rfl : found = some row := h
        exact ⟨by simp, .inl (table.foundByExternalId inv hreply).1⟩
    | _ => cases h

/-- The user of this name is the one with this id and this external id. -/
def Same (s : σ) (name : String) (row : UserRecord) : Prop :=
  ∃ stored, table.row s name = some stored ∧ stored.userId = row.userId ∧
    stored.externalId = row.externalId

/-- A successful delete of the name. -/
def Deletes (name : String) (entry : Entry Call.Reply) : Prop :=
  entry = ⟨.store (.deleteUser name), .ok ()⟩

theorem Same.step {call : Call} {s s' : σ} {reply : call.Reply} {name : String}
    {row : UserRecord} (inv : table.Inv s) (exec : Call.Exec impl call s reply s')
    (kept : ¬ Deletes name ⟨call, reply⟩) (same : Same table s name row) :
    Same table s' name row := by
  cases call with
  | now | attempt request =>
    obtain rfl : s' = s := exec
    exact same
  | store op =>
    obtain ⟨stored, hstored, hid, hexternal⟩ := same
    obtain ⟨hreply, hnext⟩ := exec_eq exec
    have hne : op ≠ .deleteUser name := by
      rintro rfl
      refine kept ?_
      unfold Deletes
      rw [← hreply, (table.deleted hstored).1]
    obtain ⟨stored', hstored', hid', hexternal'⟩ := table.kept inv hne hstored
    rw [hnext] at hstored'
    exact ⟨stored', hstored', hid'.trans hid, hexternal'.trans hexternal⟩

/-- A user stays the same one along a stretch that does not delete it. -/
theorem Same.along {s s' : σ} {log : List (Record Call.Reply σ ι)} {name : String}
    {row : UserRecord} (chain : Chain (Call.Exec impl) s log s') (inv : table.Inv s)
    (kept : ∀ record ∈ log, ¬ Deletes name record.entry) (same : Same table s name row) :
    Same table s' name row := by
  have h : table.Inv s' ∧ Same table s' name row := by
    refine chain.keeps (P := fun s => table.Inv s ∧ Same table s name row) ?_ ⟨inv, same⟩
    intro record hrecord exec ⟨inv, same⟩
    exact ⟨(lawful table).keeps inv exec, same.step table inv exec (kept record hrecord)⟩
  exact h.2

/-- Whoever is shown a row, the row is there right after. -/
theorem shown_same {call : Call} {s s' : σ} {reply : call.Reply} {row : UserRecord}
    (inv : table.Inv s) (exec : Call.Exec impl call s reply s')
    (h : shown ⟨call, reply⟩ = some row) : Same table s' row.username row := by
  obtain ⟨hdelete, hrow | hrow⟩ := shown_row table inv exec h
  · refine Same.step table inv exec ?_ ⟨row, hrow, rfl, rfl⟩
    intro hdeletes
    exact hdelete row.username (congrArg Sigma.fst hdeletes)
  · exact ⟨row, hrow, rfl, rfl⟩

/-- Two answers under one name with different external ids: the user was deleted in
between. -/
theorem deleted_between {s₀ s : σ} {earlier between later : List (Record Call.Reply σ ι)}
    {a b : Record Call.Reply σ ι} {row row' : UserRecord}
    (chain : Chain (Call.Exec impl) s₀ (earlier ++ a :: (between ++ b :: later)) s)
    (init : table.Inv s₀) (ha : shown a.entry = some row) (hb : shown b.entry = some row')
    (name : row.username = row'.username) (differ : row.externalId ≠ row'.externalId) :
    ∃ record ∈ between, Deletes row.username record.entry := by
  by_contra hkept
  have kept : ∀ record ∈ between, ¬ Deletes row.username record.entry :=
    fun record hrecord hdeletes => hkept ⟨record, hrecord, hdeletes⟩
  obtain ⟨_, hfirst, hrest⟩ := chain.append
  obtain ⟨hbefore, hexec, hlater⟩ := hrest.head
  subst hbefore
  have inv := hfirst.lawful (lawful table) init
  have inv' := (lawful table).keeps inv hexec
  obtain ⟨_, hbetween, hrest'⟩ := hlater.append
  obtain ⟨hbefore', hexec', _⟩ := hrest'.head
  subst hbefore'
  have inv'' := hbetween.lawful (lawful table) inv'
  have same := (shown_same table inv hexec ha).along table hbetween inv' kept
  have hb_kept : ¬ Deletes row.username b.entry := by
    intro hdeletes
    rw [hdeletes] at hb
    cases hb
  obtain ⟨stored, hstored, _, hexternal⟩ := same.step table inv'' hexec' hb_kept
  obtain ⟨stored', hstored', _, hexternal'⟩ := shown_same table inv'' hexec' hb
  rw [← name, hstored] at hstored'
  cases hstored'
  exact differ (hexternal.symm.trans hexternal')

theorem counter_step {call : Call} {s s' : σ} {reply : call.Reply} (inv : table.Inv s)
    (exec : Call.Exec impl call s reply s') : table.counter s ≤ table.counter s' := by
  cases call with
  | now | attempt request =>
    obtain rfl : s' = s := exec
    exact le_refl _
  | store op =>
    rw [← (exec_eq exec).2]
    exact table.counts op inv

theorem counter_along {s s' : σ} {log : List (Record Call.Reply σ ι)}
    (chain : Chain (Call.Exec impl) s log s') (inv : table.Inv s) :
    table.counter s ≤ table.counter s' := by
  have h : table.Inv s' ∧ table.counter s ≤ table.counter s' := by
    refine chain.keeps (P := fun s' => table.Inv s' ∧ table.counter s ≤ table.counter s') ?_
      ⟨inv, le_refl _⟩
    intro record _ exec ⟨inv, hle⟩
    exact ⟨(lawful table).keeps inv exec, hle.trans (counter_step table inv exec)⟩
  exact h.2

/-- An insert gives its row a new id and leaves it under its name. -/
theorem created_exec {entry : Entry Call.Reply} {s s' : σ} {requested : NewUser}
    {row : UserRecord} (inv : table.Inv s) (exec : Call.Exec impl entry.1 s entry.2 s')
    (h : entry = ⟨.store (.createUser requested), .ok row⟩) :
    table.counter s < row.userId ∧ Same table s' row.username row := by
  subst h
  obtain ⟨hreply, hnext⟩ := exec_eq exec
  obtain ⟨hname, _, hfresh, hrow⟩ := table.created inv hreply
  refine ⟨hfresh, row, ?_, rfl, rfl⟩
  rw [← hnext, hname]
  exact hrow

/-- A row another run was shown before an insert has an older id. -/
theorem shown_before_insert {s₀ s : σ} {front since : List (Record Call.Reply σ ι)}
    {insert : Record Call.Reply σ ι} {requested : NewUser} {inserted : UserRecord}
    (chain : Chain (Call.Exec impl) s₀ (front ++ insert :: since) s) (init : table.Inv s₀)
    (hinsert : insert.entry = ⟨.store (.createUser requested), .ok inserted⟩)
    {record : Record Call.Reply σ ι} (hrecord : record ∈ front) {row : UserRecord}
    (hshown : shown record.entry = some row) : row.userId < inserted.userId := by
  obtain ⟨before, after, rfl⟩ := List.append_of_mem hrecord
  rw [List.append_assoc, List.cons_append] at chain
  obtain ⟨_, hfirst, hrest⟩ := chain.append
  obtain ⟨hbefore, hexec, hlater⟩ := hrest.head
  subst hbefore
  have inv := hfirst.lawful (lawful table) init
  have inv' := (lawful table).keeps inv hexec
  obtain ⟨_, hbetween, hrest'⟩ := hlater.append
  obtain ⟨hbefore', hexec', _⟩ := hrest'.head
  subst hbefore'
  obtain ⟨stored, hstored, hid, _⟩ := shown_same table inv hexec hshown
  have hissued := table.issued inv' hstored
  have hcounter := counter_along table hbetween inv'
  have hcreated := created_exec table (hbetween.lawful (lawful table) inv') hexec' hinsert
  omega

end LakeFsAuth.AuthzClient
