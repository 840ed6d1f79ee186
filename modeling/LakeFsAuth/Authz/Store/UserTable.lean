import LakeFsAuth.Authz.Store.BootstrapOps
import LakeFsAuth.Authz.Store.BootstrapRun
import LakeFsAuth.Authz.Store.Frame

/-! What the callers of a store rely on about its users, whichever store it is:
rows sit under their names, ids are never reused, and a row keeps its identity
until a delete of its name. -/
namespace LakeFsAuth.Authz.Store

structure UserTable (impl : StoreImpl σ) where
  Inv : σ → Prop
  row : σ → String → Option UserRecord
  counter : σ → Int
  keeps : ∀ {s} op, Inv s → Inv (impl.exec op s).2
  key : ∀ {s k r}, Inv s → row s k = some r → r.username = k
  issued : ∀ {s k r}, Inv s → row s k = some r → r.userId ≤ counter s
  counts : ∀ {s} op, Inv s → counter s ≤ counter (impl.exec op s).2
  kept : ∀ {s op k r}, Inv s → op ≠ .deleteUser k → row s k = some r →
    ∃ r', row (impl.exec op s).2 k = some r' ∧ r'.userId = r.userId ∧
      r'.externalId = r.externalId
  created : ∀ {s u r}, Inv s → (impl.exec (.createUser u) s).1 = .ok r →
    r.username = u.username ∧ r.externalId = u.externalId ∧ counter s < r.userId ∧
      row (impl.exec (.createUser u) s).2 u.username = some r
  deleted : ∀ {s k r}, row s k = some r →
    (impl.exec (.deleteUser k) s).1 = .ok () ∧ row (impl.exec (.deleteUser k) s).2 k = none
  got : ∀ {s n r}, (impl.exec (.getUser n) s).1 = .ok r → row s n = some r
  foundByExternalId : ∀ {s e r}, Inv s →
    (impl.exec (.findUserByExternalId e) s).1 = .ok (some r) →
    row s r.username = some r ∧ r.externalId = some e

namespace Mem
open Std Library.OrderedMap

/-- The operations that write users. -/
def WritesUsers : StoreOp → Prop
  | .createUser _ | .deleteUser _ | .setFriendlyName _ _ | .applyBootstrap _ => True
  | _ => False

namespace Inner
variable (self : Inner)

/-- The other operations leave the users alone. -/
theorem exec_users {op : StoreOp} (h : ¬ WritesUsers op) :
    (exec op self).2.users = self.users := by
  have hwrites : Table.users ∉ writes op := by
    cases op <;> simp [WritesUsers, writes] at h ⊢
  exact (self.exec_same hwrites).1

theorem applyBootstrap_grows (plan : BootstrapPlan) : Grows self (self.applyBootstrap plan).2 := by
  obtain ⟨run, hrun, stage⟩ := applyPlan_stage plan
  unfold applyBootstrap
  rw [hrun]
  split
  · rename_i report inner h
    exact (stage.first h).1
  · exact .refl self

/-- A row stays, up to its friendly name, until a delete of its name. -/
theorem exec_keeps_user {op : StoreOp} {k : String} {row : UserRecord}
    (h : op ≠ .deleteUser k) (stored : self.users[k]? = some row) :
    ∃ name, (exec op self).2.users[k]? = some { row with friendlyName := name } := by
  by_cases hwrites : WritesUsers op
  · cases op with
    | createUser user =>
      refine ⟨row.friendlyName, ?_⟩
      change (self.insertUser user).2.users[k]? = some row
      rcases self.insertUser_cases user with ⟨free, hok⟩ | ⟨_, entity, id, hrefused⟩
      · rw [hok]
        exact Kept.insert _ free.username k row stored
      · rw [hrefused]
        exact stored
    | deleteUser username =>
      refine ⟨row.friendlyName, ?_⟩
      have hne : username ≠ k := fun heq => h (heq ▸ rfl)
      change (self.deleteUser username).2.users[k]? = some row
      unfold deleteUser
      split
      · change (self.users.erase username)[k]? = some row
        rw [get_erase, if_neg hne]
        exact stored
      · exact stored
    | setFriendlyName username name =>
      change ∃ name', (self.setFriendlyName username name).2.users[k]? = _
      unfold setFriendlyName
      split
      · exact ⟨row.friendlyName, stored⟩
      · rename_i user huser
        by_cases heq : username = k
        · subst heq
          rw [stored] at huser
          cases huser
          exact ⟨some name, by simp only [get_insert, if_pos]⟩
        · exact ⟨row.friendlyName, by simp only [get_insert, if_neg heq]; exact stored⟩
    | applyBootstrap plan =>
      exact ⟨row.friendlyName, (self.applyBootstrap_grows plan).users k row stored⟩
    | _ => exact hwrites.elim
  · refine ⟨row.friendlyName, ?_⟩
    rw [exec_users self hwrites]
    exact stored

end Inner

/-! What every row of the table satisfies. -/

def EveryUser (P : UserRecord → Prop) (s : Inner) : Prop :=
  ∀ (username : String) (row : UserRecord), s.users[username]? = some row → P row

/-- Every row an operation may write satisfies a predicate. -/
structure WritesOnly (P : UserRecord → Prop) (op : StoreOp) : Prop where
  created : ∀ user, op = .createUser user → ∀ id, P (Inner.newRecord user id)
  planned : ∀ plan, op = .applyBootstrap plan →
    ∀ user ∈ plan.users, ∀ id, P (Inner.newRecord user id)
  renamed : ∀ username name, op = .setFriendlyName username name →
    ∀ row, P row → P { row with friendlyName := some name }

namespace Inner
variable {P : UserRecord → Prop} {s : Inner}

theorem insertUser_everyUser {user : NewUser} (created : ∀ id, P (newRecord user id))
    (h : EveryUser P s) : EveryUser P (s.insertUser user).2 := by
  rcases s.insertUser_cases user with ⟨_, hstored⟩ | ⟨_, entity, id, hrefused⟩
  · rw [hstored]
    intro username row hrow
    simp only [withUser, get_insert] at hrow
    split at hrow
    · cases hrow
      exact created _
    · exact h username row hrow
  · rw [hrefused]
    exact h

theorem setFriendlyName_everyUser {username name : String}
    (renamed : ∀ row, P row → P { row with friendlyName := some name }) (h : EveryUser P s) :
    EveryUser P (s.setFriendlyName username name).2 := by
  unfold setFriendlyName
  split
  · exact h
  · rename_i user huser
    intro other row hrow
    simp only [get_insert] at hrow
    split at hrow
    · cases hrow
      exact renamed user (h username user huser)
    · exact h other row hrow

theorem deleteUser_everyUser {username : String} (h : EveryUser P s) :
    EveryUser P (s.deleteUser username).2 := by
  unfold deleteUser
  split
  · intro other row hrow
    exact h other row (get_of_erase hrow).2
  · exact h

theorem exec_everyUser_of_not (op : StoreOp) (h : ¬ WritesUsers op) (every : EveryUser P s) :
    EveryUser P (exec op s).2 := by
  intro username row hrow
  rw [s.exec_users h] at hrow
  exact every username row hrow

/-- An operation that writes only rows of a kind keeps all rows of that kind. -/
theorem exec_everyUser {op : StoreOp} (writes : WritesOnly P op) (h : EveryUser P s) :
    EveryUser P (exec op s).2 := by
  by_cases husers : WritesUsers op
  · cases op with
    | createUser user => exact insertUser_everyUser (writes.created user rfl) h
    | deleteUser username => exact deleteUser_everyUser h
    | setFriendlyName username name =>
      exact setFriendlyName_everyUser (writes.renamed username name rfl) h
    | applyBootstrap plan =>
      apply (s.applyBootstrap_along plan).keeps _ h
      intro op s hop h
      simp only [BootstrapPlan.ops, List.mem_append, List.mem_map, or_assoc] at hop
      rcases hop with ⟨_, _, rfl⟩ | ⟨_, _, rfl⟩ | ⟨user, huser, rfl⟩ | ⟨_, _, rfl⟩ | ⟨_, _, rfl⟩ |
        ⟨_, _, rfl⟩ | ⟨_, _, rfl⟩
      · exact exec_everyUser_of_not _ id h
      · exact exec_everyUser_of_not _ id h
      · exact insertUser_everyUser (writes.planned plan rfl user huser) h
      · exact exec_everyUser_of_not _ id h
      · exact exec_everyUser_of_not _ id h
      · exact exec_everyUser_of_not _ id h
      · exact exec_everyUser_of_not _ id h
    | _ => exact husers.elim
  · exact exec_everyUser_of_not op husers h

end Inner

def userTable : UserTable memStore where
  Inv := WellFormed
  row s k := s.users[k]?
  counter s := s.nextUserId
  keeps op ok := (Inner.exec_changes _ op).wellFormed ok
  key ok h := ok.users.key _ _ h
  issued ok h := ok.users.idIssued _ _ h
  counts op _ := (Inner.exec_changes _ op).fresh.counter
  kept _ hne h := by
    obtain ⟨name, hrow⟩ := Inner.exec_keeps_user _ hne h
    exact ⟨_, hrow, rfl, rfl⟩
  created := by
    intro s u r ok h
    change (s.insertUser u).1 = .ok r at h
    change _ ∧ _ ∧ _ ∧ (s.insertUser u).2.users[u.username]? = _
    rcases s.insertUser_cases u with ⟨free, hok⟩ | ⟨_, entity, id, hrefused⟩
    · rw [hok] at h
      cases h
      refine ⟨rfl, rfl, Int.lt_succ _, ?_⟩
      rw [hok, Inner.withUser, get_insert, if_pos rfl]
    · rw [hrefused] at h
      cases h
  deleted := by
    intro s k r h
    have hdelete : s.deleteUser k = _ := if_pos ((contains_iff _ _).mpr ⟨r, h⟩)
    change (s.deleteUser k).1 = _ ∧ (s.deleteUser k).2.users[k]? = none
    rw [hdelete]
    refine ⟨rfl, ?_⟩
    change (s.users.erase k)[k]? = none
    rw [get_erase, if_pos rfl]
  got := by
    intro s n r h
    change found s.users[n]? "user" n = .ok r at h
    cases hrow : s.users[n]? with
    | none =>
      rw [hrow] at h
      cases h
    | some row =>
      rw [hrow] at h
      cases h
      rfl
  foundByExternalId := by
    intro s e r ok h
    have hfind : s.findUserByExternalId e = some r := Except.ok.inj h
    obtain ⟨⟨k, hk⟩, hmatch⟩ := find_values_some _ _ _ hfind
    exact ⟨(ok.users.key k r hk).symm ▸ hk, beq_iff_eq.mp hmatch⟩

end Mem

end LakeFsAuth.Authz.Store
