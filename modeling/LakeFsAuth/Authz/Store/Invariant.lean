import LakeFsAuth.Authz.Store.Change

/-! Well-formedness of the in-memory store: keys are the keys of their records,
users are told apart by every unique column, and no row points at a row that is
gone. The cascades are what keeps the last part. -/
namespace LakeFsAuth.Authz.Store.Mem
open Std Relation Library.OrderedMap

/-- The users table: the primary key, the identity column, and the two unique
indexes. -/
structure UsersOk (users : BTreeMap UserRecord) (nextUserId : Int) : Prop where
  key : ∀ (k : String) (row : UserRecord), users[k]? = some row → row.username = k
  idPos : ∀ (k : String) (row : UserRecord), users[k]? = some row → 1 ≤ row.userId
  idIssued : ∀ (k : String) (row : UserRecord), users[k]? = some row → row.userId ≤ nextUserId
  id : ∀ (k k' : String) (row row' : UserRecord), users[k]? = some row →
    users[k']? = some row' → row.userId = row'.userId → k = k'
  email : ∀ (k k' : String) (row row' : UserRecord) (email : String),
    users[k]? = some row → users[k']? = some row' →
    row.email = some email → row'.email = some email → k = k'
  externalId : ∀ (k k' : String) (row row' : UserRecord) (externalId : String),
    users[k]? = some row → users[k']? = some row' →
    row.externalId = some externalId → row'.externalId = some externalId → k = k'
  counter : 0 ≤ nextUserId

structure WellFormed (s : Inner) : Prop where
  users : UsersOk s.users s.nextUserId
  groupKey : ∀ (k : String) (row : GroupRecord), s.groups[k]? = some row → row.id = k
  policyKey : ∀ (k : String) (row : PolicyRecord), s.policies[k]? = some row → row.name = k
  credentialKey : ∀ (k : String) (row : CredentialRecord),
    s.credentials[k]? = some row → row.accessKeyId = k
  principalKey : ∀ (k : String) (row : ExternalPrincipalRecord),
    s.externalPrincipals[k]? = some row → row.id = k
  credentialOwner : ∀ (k : String) (row : CredentialRecord), s.credentials[k]? = some row →
    ∃ user, s.users[row.username]? = some user ∧ user.userId = row.userId
  principalOwner : ∀ (k : String) (row : ExternalPrincipalRecord),
    s.externalPrincipals[k]? = some row → ∃ user, s.users[row.username]? = some user
  memberGroup : ∀ groupId username, (groupId, username) ∈ s.groupMembers →
    ∃ group, s.groups[groupId]? = some group
  memberUser : ∀ groupId username, (groupId, username) ∈ s.groupMembers →
    ∃ user, s.users[username]? = some user
  userPolicyUser : ∀ username policy, (username, policy) ∈ s.userPolicies →
    ∃ user, s.users[username]? = some user
  userPolicyPolicy : ∀ username policy, (username, policy) ∈ s.userPolicies →
    ∃ record, s.policies[policy]? = some record
  groupPolicyGroup : ∀ groupId policy, (groupId, policy) ∈ s.groupPolicies →
    ∃ group, s.groups[groupId]? = some group
  groupPolicyPolicy : ∀ groupId policy, (groupId, policy) ∈ s.groupPolicies →
    ∃ record, s.policies[policy]? = some record

theorem wellFormed_new : WellFormed Inner.new := by
  constructor <;> try simp [Inner.new]
  constructor <;> simp

namespace UsersOk
variable {users : BTreeMap UserRecord} {next : Int}

theorem insert (ok : UsersOk users next) (s : Inner) (hs : s.users = users)
    (hn : s.nextUserId = next) (user : NewUser) (free : s.UserFree user) :
    UsersOk (users.insert user.username (Inner.newRecord user (next + 1))) (next + 1) := by
  subst hs hn
  have fresh : ∀ (k : String) (row : UserRecord), s.users[k]? = some row →
      row.userId ≠ s.nextUserId + 1 := by
    intro k row hrow heq
    have := ok.idIssued k row hrow
    omega
  have hcounter := ok.counter
  constructor
  · exact rows_insert ok.key rfl
  · exact rows_insert ok.idPos (by simp only [Inner.newRecord]; omega)
  · refine rows_insert (fun k row hrow => ?_) le_rfl
    have := ok.idIssued k row hrow
    omega
  · intro k k' row row' hrow hrow' heq
    rw [get_insert] at hrow hrow'
    split at hrow <;> split at hrow'
    · simp_all
    · cases hrow
      exact absurd heq.symm (fresh k' row' hrow')
    · cases hrow'
      exact absurd heq (fresh k row hrow)
    · exact ok.id k k' row row' hrow hrow' heq
  · intro k k' row row' email hrow hrow' he he'
    rw [get_insert] at hrow hrow'
    split at hrow <;> split at hrow'
    · simp_all
    · cases hrow
      exact absurd he' (free.email email he k' row' hrow')
    · cases hrow'
      exact absurd he (free.email email he' k row hrow)
    · exact ok.email k k' row row' email hrow hrow' he he'
  · intro k k' row row' externalId hrow hrow' he he'
    rw [get_insert] at hrow hrow'
    split at hrow <;> split at hrow'
    · simp_all
    · cases hrow
      exact absurd he' (free.externalId externalId he k' row' hrow')
    · cases hrow'
      exact absurd he (free.externalId externalId he' k row hrow)
    · exact ok.externalId k k' row row' externalId hrow hrow' he he'
  · omega

/-- A table whose every row stands, up to the friendly name, in a good one. -/
theorem of_sub (ok : UsersOk users next) {users' : BTreeMap UserRecord}
    (sub : ∀ (k : String) (row : UserRecord), users'[k]? = some row →
      ∃ old, users[k]? = some old ∧ row.username = old.username ∧ row.userId = old.userId ∧
        row.email = old.email ∧ row.externalId = old.externalId) :
    UsersOk users' next := by
  constructor
  · intro k row hrow
    obtain ⟨old, hold, hname, _⟩ := sub k row hrow
    rw [hname, ok.key k old hold]
  · intro k row hrow
    obtain ⟨old, hold, _, hid, _⟩ := sub k row hrow
    exact hid ▸ ok.idPos k old hold
  · intro k row hrow
    obtain ⟨old, hold, _, hid, _⟩ := sub k row hrow
    exact hid ▸ ok.idIssued k old hold
  · intro k k' row row' hrow hrow' heq
    obtain ⟨old, hold, _, hid, _⟩ := sub k row hrow
    obtain ⟨old', hold', _, hid', _⟩ := sub k' row' hrow'
    exact ok.id k k' old old' hold hold' (by rw [← hid, ← hid', heq])
  · intro k k' row row' email hrow hrow' he he'
    obtain ⟨old, hold, _, _, hemail, _⟩ := sub k row hrow
    obtain ⟨old', hold', _, _, hemail', _⟩ := sub k' row' hrow'
    exact ok.email k k' old old' email hold hold' (hemail ▸ he) (hemail' ▸ he')
  · intro k k' row row' externalId hrow hrow' he he'
    obtain ⟨old, hold, _, _, _, hext⟩ := sub k row hrow
    obtain ⟨old', hold', _, _, _, hext'⟩ := sub k' row' hrow'
    exact ok.externalId k k' old old' externalId hold hold' (hext ▸ he) (hext' ▸ he')
  · exact ok.counter

end UsersOk

private theorem ne_of_kept {a b : String} (h : (a != b) = true) : b ≠ a :=
  fun heq => bne_iff_ne.mp h heq.symm

/-- Rows that only gained a friendly name are still there, under the same id. -/
private theorem owner_rename {users : BTreeMap UserRecord} {username : String}
    {user : UserRecord} (name : String) (stored : users[username]? = some user)
    {k : String} {userId : Int}
    (h : ∃ owner, users[k]? = some owner ∧ owner.userId = userId) :
    ∃ owner, (users.insert username { user with friendlyName := some name })[k]? = some owner ∧
      owner.userId = userId := by
  obtain ⟨owner, howner, hid⟩ := h
  rw [get_insert]
  split
  · rename_i heq
    subst heq
    rw [stored] at howner
    cases howner
    exact ⟨_, rfl, hid⟩
  · exact ⟨owner, howner, hid⟩

private theorem owner_insert {users : BTreeMap UserRecord} {username k : String}
    {userId : Int} (row : UserRecord) (free : users[username]? = none)
    (h : ∃ owner, users[k]? = some owner ∧ owner.userId = userId) :
    ∃ owner, (users.insert username row)[k]? = some owner ∧ owner.userId = userId := by
  obtain ⟨owner, howner, hid⟩ := h
  rw [get_insert, if_neg]
  · exact ⟨owner, howner, hid⟩
  · rintro rfl
    rw [free] at howner
    cases howner

/-! Links, and a row for each of their ends. -/

section Links
variable {links : PairSet} {P : String → String → Prop}
  (h : ∀ a b, (a, b) ∈ links → P a b)
include h

private theorem links_insert {first second : String} (own : P first second) (a b : String)
    (hmem : (a, b) ∈ links.insert (first, second)) : P a b := by
  rcases (mem_insert _ _ _).mp hmem with heq | hold
  · cases heq
    exact own
  · exact h a b hold

private theorem links_erase {pair : String × String} (a b : String)
    (hmem : (a, b) ∈ links.erase pair) : P a b :=
  h a b ((mem_erase _ _ _).mp hmem).2

private theorem links_retain {keep : String × String → Bool} (a b : String)
    (hmem : (a, b) ∈ links.filter keep) : P a b :=
  h a b ((mem_retain _ _ _).mp hmem).1

end Links

/-- The links of a row that is gone are gone. -/
private theorem ends_retain {Row : Type} {links : PairSet} {table : BTreeMap Row}
    {side : String → String → String} {keep : String × String → Bool} {gone : String}
    (h : ∀ a b, (a, b) ∈ links → ∃ row, table[side a b]? = some row)
    (kept : ∀ a b, keep (a, b) = true → (side a b != gone) = true) (a b : String)
    (hmem : (a, b) ∈ links.filter keep) : ∃ row, (table.erase gone)[side a b]? = some row := by
  obtain ⟨hold, hkeep⟩ := (mem_retain _ _ _).mp hmem
  exact has_erase (ne_of_kept (kept a b hkeep)) (h a b hold)

theorem Change.wellFormed {s s' : Inner} (change : Change s s') (ok : WellFormed s) :
    WellFormed s' := by
  cases change with
  | newUser user free =>
    exact { ok with
      users := ok.users.insert s rfl rfl user free
      credentialOwner := fun k row hrow =>
        owner_insert _ free.username (ok.credentialOwner k row hrow)
      principalOwner := fun k row hrow => has_insert _ _ (ok.principalOwner k row hrow)
      memberUser := fun g u hmem => has_insert _ _ (ok.memberUser g u hmem)
      userPolicyUser := fun u p hmem => has_insert _ _ (ok.userPolicyUser u p hmem) }
  | newGroup group free =>
    exact { ok with
      groupKey := rows_insert ok.groupKey rfl
      memberGroup := fun g u hmem => has_insert _ _ (ok.memberGroup g u hmem)
      groupPolicyGroup := fun g p hmem => has_insert _ _ (ok.groupPolicyGroup g p hmem) }
  | newPolicy policy free =>
    exact { ok with
      policyKey := rows_insert ok.policyKey rfl
      userPolicyPolicy := fun u p hmem => has_insert _ _ (ok.userPolicyPolicy u p hmem)
      groupPolicyPolicy := fun g p hmem => has_insert _ _ (ok.groupPolicyPolicy g p hmem) }
  | newCredential credential user owner current free =>
    exact { ok with
      credentialKey := rows_insert ok.credentialKey rfl
      credentialOwner := rows_insert ok.credentialOwner ⟨user, owner, current.symm⟩ }
  | newPrincipal principal user owner free =>
    exact { ok with
      principalKey := rows_insert ok.principalKey rfl
      principalOwner := rows_insert ok.principalOwner ⟨user, owner⟩ }
  | dropUser username =>
    exact { ok with
      users := ok.users.of_sub fun k row hrow =>
        ⟨row, (get_of_erase hrow).2, rfl, rfl, rfl, rfl⟩
      credentialKey := fun k row hrow => ok.credentialKey k row (get_of_retain hrow).1
      principalKey := fun k row hrow => ok.principalKey k row (get_of_retain hrow).1
      credentialOwner := by
        intro k row hrow
        obtain ⟨hold, hkeep⟩ := get_of_retain hrow
        obtain ⟨user, huser, hid⟩ := ok.credentialOwner k row hold
        refine ⟨user, ?_, hid⟩
        simp only [Inner.cascadeDeleteUser]
        rw [get_erase, if_neg (ne_of_kept hkeep)]
        exact huser
      principalOwner := by
        intro k row hrow
        obtain ⟨hold, hkeep⟩ := get_of_retain hrow
        exact has_erase (ne_of_kept hkeep) (ok.principalOwner k row hold)
      memberGroup := links_retain ok.memberGroup
      memberUser := ends_retain ok.memberUser fun _ _ hkeep => hkeep
      userPolicyUser := ends_retain ok.userPolicyUser fun _ _ hkeep => hkeep
      userPolicyPolicy := links_retain ok.userPolicyPolicy }
  | dropGroup groupId =>
    exact { ok with
      groupKey := fun k row hrow => ok.groupKey k row (get_of_erase hrow).2
      memberGroup := ends_retain ok.memberGroup fun _ _ hkeep => hkeep
      memberUser := links_retain ok.memberUser
      groupPolicyGroup := ends_retain ok.groupPolicyGroup fun _ _ hkeep => hkeep
      groupPolicyPolicy := links_retain ok.groupPolicyPolicy }
  | dropPolicy name =>
    exact { ok with
      policyKey := fun k row hrow => ok.policyKey k row (get_of_erase hrow).2
      userPolicyUser := links_retain ok.userPolicyUser
      userPolicyPolicy := ends_retain ok.userPolicyPolicy fun _ _ hkeep => hkeep
      groupPolicyGroup := links_retain ok.groupPolicyGroup
      groupPolicyPolicy := ends_retain ok.groupPolicyPolicy fun _ _ hkeep => hkeep }
  | rename username user name stored =>
    exact { ok with
      users := ok.users.of_sub (rows_insert (fun k row hrow => ⟨row, hrow, rfl, rfl, rfl, rfl⟩)
        ⟨user, stored, rfl, rfl, rfl, rfl⟩)
      credentialOwner := fun k row hrow =>
        owner_rename name stored (ok.credentialOwner k row hrow)
      principalOwner := fun k row hrow => has_insert _ _ (ok.principalOwner k row hrow)
      memberUser := fun g u hmem => has_insert _ _ (ok.memberUser g u hmem)
      userPolicyUser := fun u p hmem => has_insert _ _ (ok.userPolicyUser u p hmem) }
  | rewrite slot policy stored =>
    exact { ok with
      policyKey := rows_insert ok.policyKey (ok.policyKey policy.name slot stored)
      userPolicyPolicy := fun u p hmem => has_insert _ _ (ok.userPolicyPolicy u p hmem)
      groupPolicyPolicy := fun g p hmem => has_insert _ _ (ok.groupPolicyPolicy g p hmem) }
  | joined groupId username group user hasGroup hasUser =>
    exact { ok with
      memberGroup := links_insert ok.memberGroup ⟨group, hasGroup⟩
      memberUser := links_insert ok.memberUser ⟨user, hasUser⟩ }
  | left pair =>
    exact { ok with
      memberGroup := links_erase ok.memberGroup
      memberUser := links_erase ok.memberUser }
  | attachedUser username policy user record hasUser hasPolicy =>
    exact { ok with
      userPolicyUser := links_insert ok.userPolicyUser ⟨user, hasUser⟩
      userPolicyPolicy := links_insert ok.userPolicyPolicy ⟨record, hasPolicy⟩ }
  | detachedUser pair =>
    exact { ok with
      userPolicyUser := links_erase ok.userPolicyUser
      userPolicyPolicy := links_erase ok.userPolicyPolicy }
  | attachedGroup groupId policy group record hasGroup hasPolicy =>
    exact { ok with
      groupPolicyGroup := links_insert ok.groupPolicyGroup ⟨group, hasGroup⟩
      groupPolicyPolicy := links_insert ok.groupPolicyPolicy ⟨record, hasPolicy⟩ }
  | detachedGroup pair =>
    exact { ok with
      groupPolicyGroup := links_erase ok.groupPolicyGroup
      groupPolicyPolicy := links_erase ok.groupPolicyPolicy }
  | dropCredential accessKeyId =>
    exact { ok with
      credentialKey := fun k row hrow => ok.credentialKey k row (get_of_erase hrow).2
      credentialOwner := fun k row hrow => ok.credentialOwner k row (get_of_erase hrow).2 }
  | dropPrincipal principalId =>
    exact { ok with
      principalKey := fun k row hrow => ok.principalKey k row (get_of_erase hrow).2
      principalOwner := fun k row hrow => ok.principalOwner k row (get_of_erase hrow).2 }
  | tokens claimed => exact { ok with }

theorem Changes.wellFormed {s s' : Inner} (changes : Changes s s') (ok : WellFormed s) :
    WellFormed s' := by
  induction changes with
  | refl => exact ok
  | tail _ change ih => exact change.wellFormed ih

end LakeFsAuth.Authz.Store.Mem
