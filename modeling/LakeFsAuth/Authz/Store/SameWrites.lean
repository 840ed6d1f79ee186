import LakeFsAuth.Authz.Store.Correspond

/-! The operations that write, run against both stores. Each of them answers the same
and leaves states that still correspond. -/
namespace LakeFsAuth.Authz.Store.Mem
open Std Core.Pagination Library Library.OrderedMap Library.Relational Pg

section Outcome
variable [JiffSqlx]

/-- The same answer, and states that correspond. -/
structure Alike (ρ : Int → Int) (same : α → β → Prop) (outcome : StoreResult α × Inner)
    (other : StoreResult β × Database) : Prop where
  answer : SameAnswer same outcome.1 other.1
  state : Sim ρ outcome.2 other.2

variable {ρ : Int → Int} {s : Inner} {db : Database}

theorem Sim.read (sim : Sim ρ s db) {same : α → β → Prop} {answer : StoreResult α}
    {other : StoreResult β} (h : SameAnswer same answer other) :
    Alike ρ same (answer, s) (other, db) := ⟨h, sim⟩

theorem Sim.refused (sim : Sim ρ s db) {same : α → β → Prop} {error other : StoreError}
    (h : error.outcomeClass = other.outcomeClass) :
    Alike ρ same ((.error error, s) : StoreResult α × Inner)
      ((.error other, db) : StoreResult β × Database) := ⟨h, sim⟩

end Outcome

/-! What the outcome of a statement is called. -/

theorem userConflict_class (user : NewUser) (constraint : String) :
    (userConflict user constraint).outcomeClass = .AlreadyExists := by
  unfold userConflict
  split
  · rfl
  · split <;> rfl

@[simp] theorem executeOne_nil (entity id : String) :
    executeOne ([] : List α) entity id = .error (.notFound entity id) := rfl

@[simp] theorem executeOne_singleton (row : α) (entity id : String) :
    executeOne [row] entity id = .ok () := rfl

@[simp] theorem fetchOne_nil (entity id : String) :
    fetchOne ([] : List α) entity id = .error (.notFound entity id) := rfl

@[simp] theorem fetchOne_singleton (row : α) (entity id : String) :
    fetchOne [row] entity id = .ok row := rfl

/-- The insert of a link row, by whether its two ends are there. -/
theorem insertLink {table : List (String × String)} {set : PairSet}
    (lists : Lists table (· ∈ set)) (name : String) (first second : Reference (String × String))
    {pair : String × String} {hasFirst hasSecond : Bool} (hfirst : first.present pair = hasFirst)
    (hsecond : second.present pair = hasSecond)
    (held : pair ∈ set → hasFirst = true ∧ hasSecond = true) :
    (hasFirst = true ∧ hasSecond = true ∧ ∃ done,
      Relational.insert (linkUniques name) [first, second] onConflictDoNothing pair table =
        .ok done ∧
      Done.added done = !set.contains pair ∧ Lists done.table (· ∈ set.insert pair)) ∨
    ((hasFirst = false ∨ hasSecond = false) ∧ ∃ constraint,
      Relational.insert (linkUniques name) [first, second] onConflictDoNothing pair table =
        .error (.foreignKey constraint)) := by
  have hinsert := lists.insert name [first, second] pair
    (by simpa [hfirst, hsecond] using held)
  rcases hinsert with ⟨hall, done, hrun, hadded, hlists⟩ | ⟨ref, href, hmiss, hrun⟩
  · have hboth : hasFirst = true ∧ hasSecond = true := by simpa [hfirst, hsecond] using hall
    exact .inl ⟨hboth.1, hboth.2, done, hrun, hadded, hlists⟩
  · refine .inr ⟨?_, ref.name, hrun⟩
    simp only [List.mem_cons, List.not_mem_nil, or_false] at href
    rcases href with rfl | rfl
    · exact .inl (hfirst.symm.trans hmiss)
    · exact .inr (hsecond.symm.trans hmiss)

theorem beq_pair (row : String × String) (first second : String) :
    (row.1 == first && row.2 == second) = true ↔ row = (first, second) := by
  simp [Prod.ext_iff]

section Sim
variable [JiffSqlx] {ρ : Int → Int} {s : Inner} {db : Database}

namespace Sim

/-! Primary key lookups. -/

theorem usersNamed (sim : Sim ρ s db) (username : String) :
    db.usersNamed username = (s.users[username]?.map (userImage ρ)).toList :=
  sim.users.rows_of_key username

theorem groupsNamed (sim : Sim ρ s db) (groupId : String) :
    db.groupsNamed groupId = (s.groups[groupId]?.map groupImage).toList :=
  sim.groups.rows_of_key groupId

theorem policiesNamed (sim : Sim ρ s db) (name : String) :
    db.policiesNamed name = (s.policies[name]?.map policyImage).toList :=
  sim.policies.rows_of_key name

theorem hasUser (sim : Sim ρ s db) (username : String) :
    db.hasUser username = s.users.contains username := sim.users.any_key username

theorem hasGroup (sim : Sim ρ s db) (groupId : String) :
    db.hasGroup groupId = s.groups.contains groupId := sim.groups.any_key groupId

theorem hasPolicy (sim : Sim ρ s db) (name : String) :
    db.hasPolicy name = s.policies.contains name := sim.policies.any_key name

/-! Deletes, with their cascades. -/

/-- The row is there in both stores, or in neither, and the cascades of its delete see that row. -/
theorem drop (sim : Sim ρ s db) {table : List β} {column : β → String} {image : α → β}
    {map : BTreeMap α} (keeps : Keeps table column (fun _ => image) map) (key entity : String)
    {after : Inner}
    (ok : WellFormed (if map.contains key then (.ok (), after)
      else (.error (.notFound entity key), s) : StoreResult Unit × Inner).2)
    (left : Done β → Database) (hleft : left ⟨[], table⟩ = db)
    (dropped : ∀ row table, column row = key → WellFormed after →
      Keeps table column (fun _ => image) (map.erase key) → Sim ρ after (left ⟨[row], table⟩)) :
    Alike ρ Eq (if map.contains key then (.ok (), after) else (.error (.notFound entity key), s))
      (executeOne (delete (fun row => column row == key) table).rows entity key,
        left (delete (fun row => column row == key) table)) := by
  have hdelete := keeps.delete (k := key) (p := fun row => column row == key) (q := fun _ => true)
    fun k row hrow => by simp [keeps.key k row hrow]
  rcases hdelete with ⟨hnone, hdone⟩ | ⟨row, hrow, _, hrows, hkeeps⟩
  · rw [if_neg (by rw [Bool.not_eq_true]; simpa using hnone), hdone, hleft]
    exact sim.refused rfl
  · rw [if_pos ((contains_iff _ _).mpr ⟨row, hrow⟩)] at ok ⊢
    have hdone : delete (fun row => column row == key) table =
        ⟨[image row], (delete (fun row => column row == key) table).table⟩ := by rw [← hrows]
    rw [hdone]
    exact ⟨rfl, dropped _ _ (keeps.key key row hrow) ok hkeeps⟩

theorem deleteUser (sim : Sim ρ s db) (username : String) :
    Alike ρ Eq (s.deleteUser username) (db.deleteUser username) := by
  apply sim.drop sim.users username "user"
    ((s.deleteUser_sound username).changes.wellFormed sim.ok) fun done => { db with
      users := done.table
      groupMembers := cascade done.rows (fun row user => row.2 == user.username) db.groupMembers
      userPolicies := cascade done.rows (fun row user => row.1 == user.username) db.userPolicies
      credentials := cascade done.rows (fun row user => row.username == user.username)
        db.credentials
      externalPrincipals := cascade done.rows (fun row user => row.username == user.username)
        db.externalPrincipals }
  · simp only [cascade_nil]
  · intro row table hname ok hkeeps
    simp only [cascade, List.any_cons, List.any_nil, Bool.or_false, hname]
    exact
      { sim with
        ok := ok
        users := hkeeps
        groupMembers := sim.groupMembers.retain fun _ => rfl
        userPolicies := sim.userPolicies.retain fun _ => rfl
        credentials := sim.credentials.retain fun _ _ _ => rfl
        externalPrincipals := sim.externalPrincipals.retain fun _ _ _ => rfl }

theorem deleteGroup (sim : Sim ρ s db) (groupId : String) :
    Alike ρ Eq (s.deleteGroup groupId) (db.deleteGroup groupId) := by
  apply sim.drop sim.groups groupId "group"
    ((s.deleteGroup_sound groupId).changes.wellFormed sim.ok) fun done => { db with
      groups := done.table
      groupMembers := cascade done.rows (fun row group => row.1 == group.id) db.groupMembers
      groupPolicies := cascade done.rows (fun row group => row.1 == group.id) db.groupPolicies }
  · simp only [cascade_nil]
  · intro row table hid ok hkeeps
    simp only [cascade, List.any_cons, List.any_nil, Bool.or_false, hid]
    exact
      { sim with
        ok := ok
        groups := hkeeps
        groupMembers := sim.groupMembers.retain fun _ => rfl
        groupPolicies := sim.groupPolicies.retain fun _ => rfl }

theorem deletePolicy (sim : Sim ρ s db) (name : String) :
    Alike ρ Eq (s.deletePolicy name) (db.deletePolicy name) := by
  apply sim.drop sim.policies name "policy"
    ((s.deletePolicy_sound name).changes.wellFormed sim.ok) fun done => { db with
      policies := done.table
      userPolicies := cascade done.rows (fun row policy => row.2 == policy.name) db.userPolicies
      groupPolicies := cascade done.rows (fun row policy => row.2 == policy.name)
        db.groupPolicies }
  · simp only [cascade_nil]
  · intro row table hname ok hkeeps
    simp only [cascade, List.any_cons, List.any_nil, Bool.or_false, hname]
    exact
      { sim with
        ok := ok
        policies := hkeeps
        userPolicies := sim.userPolicies.retain fun _ => rfl
        groupPolicies := sim.groupPolicies.retain fun _ => rfl }

/-- The row is there in both stores and belongs to the user, or neither store deletes one. -/
theorem dropOwned (sim : Sim ρ s db) {table : List β} {column : β → String} {image : α → β}
    {map : BTreeMap α} (keeps : Keeps table column (fun _ => image) map) (key entity : String)
    (belongs : β → Bool) (owned : α → Bool)
    (hbelongs : ∀ (k : String) (row : α), map[k]? = some row →
      column (image row) = k ∧ belongs (image row) = owned row)
    {after : Inner}
    (ok : WellFormed (if map[key]?.any owned then (.ok (), after)
      else (.error (.notFound entity key), s) : StoreResult Unit × Inner).2)
    (set : List β → Database) (hset : set table = db)
    (dropped : ∀ table, WellFormed after → Keeps table column (fun _ => image) (map.erase key) →
      Sim ρ after (set table)) :
    Alike ρ Eq (if map[key]?.any owned then (.ok (), after)
        else (.error (.notFound entity key), s))
      (executeOne (delete (fun row => column row == key && belongs row) table).rows entity key,
        set (delete (fun row => column row == key && belongs row) table).table) := by
  have hdelete := keeps.delete (k := key) (p := fun row => column row == key && belongs row)
    (q := owned) fun k row hrow => by
      rw [(hbelongs k row hrow).1, (hbelongs k row hrow).2]
  rcases hdelete with ⟨hnone, hdone⟩ | ⟨row, hrow, howned, hrows, hkeeps⟩
  · rw [if_neg (by rw [hnone]; simp), hdone, hset]
    exact sim.refused rfl
  · rw [if_pos (by rw [hrow, Option.any_some, howned])] at ok ⊢
    exact ⟨by rw [hrows]; rfl, dropped _ ok hkeeps⟩

theorem deleteCredential (sim : Sim ρ s db) (username accessKeyId : String) :
    Alike ρ Eq (s.deleteCredential username accessKeyId)
      (db.deleteCredential username accessKeyId) :=
  sim.dropOwned sim.credentials accessKeyId "credentials" (fun row => row.username == username)
    (fun row => row.username == username)
    (fun k row hrow => ⟨sim.ok.credentialKey k row hrow, rfl⟩)
    ((s.deleteCredential_sound username accessKeyId).changes.wellFormed sim.ok)
    (fun table => { db with credentials := table }) rfl
    fun _ ok hkeeps => { sim with ok := ok, credentials := hkeeps }

theorem deleteExternalPrincipal (sim : Sim ρ s db) (username principalId : String) :
    Alike ρ Eq (s.deleteExternalPrincipal username principalId)
      (db.deleteExternalPrincipal username principalId) :=
  sim.dropOwned sim.externalPrincipals principalId "external principal"
    (fun row => row.username == username) (fun row => row.username == username)
    (fun k row hrow => ⟨sim.ok.principalKey k row hrow, rfl⟩)
    ((s.deleteExternalPrincipal_sound username principalId).changes.wellFormed sim.ok)
    (fun table => { db with externalPrincipals := table }) rfl
    fun _ ok hkeeps => { sim with ok := ok, externalPrincipals := hkeeps }

/-- The link is there in both stores, or in neither. -/
theorem unlink (sim : Sim ρ s db) {table : List (String × String)} {links : PairSet}
    (lists : Lists table (· ∈ links)) (first second entity id : String) {after : Inner}
    (ok : WellFormed (if links.contains (first, second) then (.ok (), after)
      else (.error (.notFound entity id), s) : StoreResult Unit × Inner).2)
    (set : List (String × String) → Database) (hset : set table = db)
    (erased : ∀ table, WellFormed after → Lists table (· ∈ links.erase (first, second)) →
      Sim ρ after (set table)) :
    Alike ρ Eq (if links.contains (first, second) then (.ok (), after)
        else (.error (.notFound entity id), s))
      (executeOne (delete (fun row => row.1 == first && row.2 == second) table).rows entity id,
        set (delete (fun row => row.1 == first && row.2 == second) table).table) := by
  rcases lists.delete (first, second) fun row => beq_pair row _ _ with
    ⟨hnone, hdone⟩ | ⟨hmem, hrows, hlists⟩
  · rw [if_neg (by simpa using hnone), hdone, hset]
    exact sim.refused rfl
  · rw [if_pos (by simpa using hmem)] at ok ⊢
    refine ⟨by simp only [executeOne, if_neg hrows]; rfl, ?_⟩
    exact erased _ ok hlists

theorem removeMembership (sim : Sim ρ s db) (groupId username : String) :
    Alike ρ Eq (s.removeMembership groupId username) (db.removeMembership groupId username) :=
  sim.unlink sim.groupMembers groupId username _ _
    ((s.removeMembership_sound groupId username).changes.wellFormed sim.ok)
    (fun table => { db with groupMembers := table }) rfl
    fun _ ok lists => { sim with ok := ok, groupMembers := lists }

theorem detachPolicyFromUser (sim : Sim ρ s db) (username policy : String) :
    Alike ρ Eq (s.detachPolicyFromUser username policy)
      (db.detachPolicyFromUser username policy) :=
  sim.unlink sim.userPolicies username policy _ _
    ((s.detachPolicyFromUser_sound username policy).changes.wellFormed sim.ok)
    (fun table => { db with userPolicies := table }) rfl
    fun _ ok lists => { sim with ok := ok, userPolicies := lists }

theorem detachPolicyFromGroup (sim : Sim ρ s db) (groupId policy : String) :
    Alike ρ Eq (s.detachPolicyFromGroup groupId policy)
      (db.detachPolicyFromGroup groupId policy) :=
  sim.unlink sim.groupPolicies groupId policy _ _
    ((s.detachPolicyFromGroup_sound groupId policy).changes.wellFormed sim.ok)
    (fun table => { db with groupPolicies := table }) rfl
    fun _ ok lists => { sim with ok := ok, groupPolicies := lists }

/-! Updates of one row. -/

theorem setFriendlyName (sim : Sim ρ s db) (username name : String) :
    Alike ρ Eq (s.setFriendlyName username name) (db.setFriendlyName username name) := by
  have hupdate := sim.users.update (k := username)
    (f := fun user => { user with friendlyName := some name })
    (g := fun user => { user with friendlyName := some name }) (fun _ _ => rfl)
    fun row hrow => sim.ok.users.key username row hrow
  have ok := (s.setFriendlyName_sound username name).changes.wellFormed sim.ok
  unfold Inner.setFriendlyName at ok ⊢
  unfold Database.setFriendlyName
  dsimp only
  rcases hupdate with ⟨hnone, hdone⟩ | ⟨row, hrow, hrows, hkeeps⟩
  · rw [hdone, hnone]
    exact sim.refused rfl
  · rw [hrow] at ok ⊢
    refine ⟨by rw [hrows]; rfl, ?_⟩
    exact { sim with ok := ok, users := hkeeps }

end Sim
end Sim

/-! The answers carry the dates of the rows, so they agree as far as a column keeps a
date. -/

/-- What the driver documents of a date: less than a second is lost. -/
def ColumnKeepsDates [JiffSqlx] : Prop := ∀ time, Near time (JiffSqlx.toSqlx time)

section Answers
variable [JiffSqlx] {ρ : Int → Int} {s : Inner} {db : Database}

theorem same_userImage (near : ColumnKeepsDates) (row : UserRecord) :
    SameUser ρ row (userImage ρ row) := ⟨near _, rfl⟩

theorem same_groupImage (near : ColumnKeepsDates) (row : GroupRecord) :
    SameGroup row (groupImage row) := ⟨near _, rfl⟩

theorem same_policyImage (near : ColumnKeepsDates) (row : PolicyRecord) :
    SamePolicy row (policyImage row) := ⟨near _, rfl⟩

theorem same_credentialView (near : ColumnKeepsDates) (row : CredentialRecord) :
    SameCredential ρ row (credentialView ρ row) := ⟨near _, rfl⟩

namespace Sim

theorem updatePolicy (sim : Sim ρ s db) (near : ColumnKeepsDates) (policy : NewPolicy) :
    Alike ρ SamePolicy (s.updatePolicy policy) (db.updatePolicy policy) := by
  have hupdate := sim.policies.update (k := policy.name)
    (f := fun row => { Database.policyRow policy with name := row.name })
    (g := fun slot => Inner.rewritten slot policy) (fun _ _ => rfl)
    fun row hrow => sim.ok.policyKey policy.name row hrow
  have ok := (s.updatePolicy_sound policy).changes.wellFormed sim.ok
  unfold Inner.updatePolicy at ok ⊢
  unfold Database.updatePolicy
  dsimp only
  rcases hupdate with ⟨hnone, hdone⟩ | ⟨row, hrow, hrows, hkeeps⟩
  · rw [hdone, hnone]
    exact sim.refused rfl
  · rw [hrow] at ok ⊢
    refine ⟨?_, ?_⟩
    · rw [hrows]
      exact same_policyImage near _
    · exact { sim with ok := ok, policies := hkeeps }

/-! Creates. The insert of a bootstrap run differs in the index it skips. -/

theorem insertGroup_cases (sim : Sim ρ s db) (skips : UniqueIndex GroupRecord → Bool)
    (group : NewGroup) :
    (s.groups.contains group.id = true ∧ db.insertGroup skips group =
      if skips (.on "groups_pkey" (·.id)) then .ok ⟨[], db.groups⟩
      else .error (.unique "groups_pkey")) ∨
    (s.groups.contains group.id = false ∧ ∃ table,
      db.insertGroup skips group = .ok ⟨[Database.groupRow group], table⟩ ∧
      Sim ρ (s.insertGroup group).2 { db with groups := table }) := by
  have hinsert := sim.groups.insert_unreferenced "groups_pkey" skips (k := group.id)
    (a := ⟨group.id, group.description, group.creationDate⟩) rfl
  have ok := (s.insertGroup_sound group).changes.wellFormed sim.ok
  rcases hinsert with ⟨hin, heq⟩ | ⟨hout, heq, hkeeps⟩
  · exact .inl ⟨hin, heq⟩
  · rw [s.insertGroup_free hout] at ok ⊢
    exact .inr ⟨hout, _, heq, { sim with ok := ok, groups := hkeeps }⟩

theorem createGroup (sim : Sim ρ s db) (near : ColumnKeepsDates) (group : NewGroup) :
    Alike ρ SameGroup (s.insertGroup group) (db.createGroup group) := by
  unfold Database.createGroup
  rcases sim.insertGroup_cases onConflictError group with ⟨hin, heq⟩ | ⟨hout, table, heq, hsim⟩
  · rw [heq]
    unfold Inner.insertGroup
    rw [if_pos hin]
    exact sim.refused rfl
  · rw [heq]
    refine ⟨?_, hsim⟩
    rw [s.insertGroup_free hout]
    exact same_groupImage near _

theorem insertPolicy_cases (sim : Sim ρ s db) (skips : UniqueIndex PolicyRecord → Bool)
    (policy : NewPolicy) :
    (s.policies.contains policy.name = true ∧ db.insertPolicy skips policy =
      if skips (.on "policies_pkey" (·.name)) then .ok ⟨[], db.policies⟩
      else .error (.unique "policies_pkey")) ∨
    (s.policies.contains policy.name = false ∧ ∃ table,
      db.insertPolicy skips policy = .ok ⟨[Database.policyRow policy], table⟩ ∧
      Sim ρ (s.insertPolicy policy).2 { db with policies := table }) := by
  have hinsert := sim.policies.insert_unreferenced "policies_pkey" skips (k := policy.name)
    (a := ⟨policy.name, policy.creationDate, policy.statement, policy.acl⟩) rfl
  have ok := (s.insertPolicy_sound policy).changes.wellFormed sim.ok
  rcases hinsert with ⟨hin, heq⟩ | ⟨hout, heq, hkeeps⟩
  · exact .inl ⟨hin, heq⟩
  · rw [s.insertPolicy_free hout] at ok ⊢
    exact .inr ⟨hout, _, heq, { sim with ok := ok, policies := hkeeps }⟩

theorem createPolicy (sim : Sim ρ s db) (near : ColumnKeepsDates) (policy : NewPolicy) :
    Alike ρ SamePolicy (s.insertPolicy policy) (db.createPolicy policy) := by
  unfold Database.createPolicy
  rcases sim.insertPolicy_cases onConflictError policy with ⟨hin, heq⟩ | ⟨hout, table, heq, hsim⟩
  · rw [heq]
    unfold Inner.insertPolicy
    rw [if_pos hin]
    exact sim.refused rfl
  · rw [heq]
    refine ⟨?_, hsim⟩
    rw [s.insertPolicy_free hout]
    exact same_policyImage near _

/-- A row of `credentials` joined with its user is the credential. -/
theorem joined_row (sim : Sim ρ s db) (credential : CredentialRecord) {user : UserRecord}
    (owner : s.users[credential.username]? = some user) (current : user.userId = credential.userId) :
    db.joinedCredentials [credentialImage credential] = [credentialView ρ credential] := by
  unfold Database.joinedCredentials
  rw [List.flatMap_singleton, sim.usersNamed]
  simp only [credentialImage, owner, Option.map_some, Option.toList_some, List.map_cons,
    List.map_nil, userImage, current]
  rfl

theorem joined_key (sim : Sim ρ s db) (accessKeyId : String) :
    db.joinedCredentials (db.credentials.filter fun row => row.accessKeyId == accessKeyId) =
      (s.credentials[accessKeyId]?.map (credentialView ρ)).toList := by
  rw [sim.credentials.rows_of_key]
  cases hrow : s.credentials[accessKeyId]? with
  | none => rfl
  | some credential =>
    obtain ⟨user, owner, current⟩ := sim.ok.credentialOwner accessKeyId credential hrow
    exact sim.joined_row credential owner current

/-- The foreign key of `credentials` is checked after its primary key. -/
theorem insertCredential_cases (sim : Sim ρ s db) (skips : UniqueIndex CredentialRow → Bool)
    (credential : NewCredential) :
    (s.credentials.contains credential.accessKeyId = true ∧
      db.insertCredential skips credential =
        if skips (.on "credentials_pkey" (·.accessKeyId)) then .ok ⟨[], db.credentials⟩
        else .error (.alreadyExists "credentials" credential.accessKeyId)) ∨
    (s.credentials.contains credential.accessKeyId = false ∧
      s.users[credential.username]? = none ∧
      ∃ error, error.outcomeClass = .NotFound ∧
        db.insertCredential skips credential = .error error) ∨
    (s.credentials.contains credential.accessKeyId = false ∧ ∃ user table,
      s.users[credential.username]? = some user ∧
      db.insertCredential skips credential =
        .ok ⟨[Database.credentialRow credential], table⟩ ∧
      Sim ρ (s.insertCredential credential).2 { db with credentials := table }) := by
  have hinsert := sim.credentials.insert "credentials_pkey"
    db.credentialsReferences skips (k := credential.accessKeyId)
    (a := ⟨credential.accessKeyId, credential.username,
      (s.users[credential.username]?.map (·.userId)).getD 0, credential.secretCiphertext,
      credential.creationDate⟩) rfl
  have heq (done : Except Violation (Done CredentialRow)) (h : Relational.insert _ _ _ _ _ = done) :
      db.insertCredential skips credential = done.mapError (credentialError credential) :=
    congrArg (·.mapError (credentialError credential)) h
  have hpresent : (∀ reference ∈ db.credentialsReferences,
      reference.present (Database.credentialRow credential) = true) ↔
      s.users.contains credential.username = true := by
    simp [Database.credentialsReferences, sim.hasUser, Database.credentialRow]
  rcases hinsert with ⟨hin, hrun⟩ | ⟨hout, hall, hrun, hkeeps⟩ | ⟨hout, ref, href, hmiss, hrun⟩
  · refine .inl ⟨hin, ?_⟩
    rw [heq _ hrun]
    split <;> rfl
  · obtain ⟨user, huser⟩ := (contains_iff _ _).mp (hpresent.mp hall)
    have ok := (s.insertCredential_sound credential).changes.wellFormed sim.ok
    refine .inr (.inr ⟨hout, user, _, huser, heq _ hrun, ?_⟩)
    rw [huser] at hkeeps
    rw [s.insertCredential_free huser hout] at ok ⊢
    exact { sim with ok := ok, credentials := hkeeps }
  · refine .inr (.inl ⟨hout, ?_, _, ?_, heq _ hrun⟩)
    · rw [← not_contains_iff, ← Bool.not_eq_true, ← hpresent]
      intro hall
      exact Bool.false_ne_true (hmiss.symm.trans (hall ref href))
    · rfl

/-- Both stores refuse a taken key and a missing user. They differ when both hold. -/
theorem createCredential (sim : Sim ρ s db) (near : ColumnKeepsDates)
    (credential : NewCredential)
    (h : s.users[credential.username]? = none →
      s.credentials.contains credential.accessKeyId = false) :
    Alike ρ (SameCredential ρ) (s.insertCredential credential)
      (db.createCredential credential) := by
  unfold Database.createCredential
  rcases sim.insertCredential_cases onConflictError credential with
    ⟨hin, heq⟩ | ⟨hout, hnone, error, hclass, heq⟩ | ⟨hout, user, table, huser, heq, hsim⟩
  · rw [heq]
    cases huser : s.users[credential.username]? with
    | none =>
      rw [h huser] at hin
      cases hin
    | some user =>
      unfold Inner.insertCredential
      rw [huser]
      simp only [hin, if_true]
      exact sim.refused rfl
  · rw [heq]
    unfold Inner.insertCredential
    rw [hnone]
    exact sim.refused hclass.symm
  · rw [heq]
    refine ⟨?_, hsim⟩
    rw [s.insertCredential_free huser hout]
    have hjoined : db.joinedCredentials [Database.credentialRow credential] =
        [credentialView ρ ⟨credential.accessKeyId, credential.username, user.userId,
          credential.secretCiphertext, credential.creationDate⟩] :=
      sim.joined_row ⟨credential.accessKeyId, credential.username, user.userId,
        credential.secretCiphertext, credential.creationDate⟩ huser rfl
    simp only [hjoined]
    exact same_credentialView near _

theorem createExternalPrincipal (sim : Sim ρ s db) (username principalId : String)
    (h : s.users[username]? = none → s.externalPrincipals.contains principalId = false) :
    Alike ρ Eq (s.createExternalPrincipal username principalId)
      (db.createExternalPrincipal username principalId) := by
  have hinsert := sim.externalPrincipals.insert "external_principals_pkey"
    db.principalsReferences onConflictError (k := principalId)
    (a := ⟨principalId, username⟩) rfl
  have hpresent : (∀ reference ∈ db.principalsReferences,
      reference.present ⟨principalId, username⟩ = true) ↔ s.users.contains username = true := by
    simp [Database.principalsReferences, sim.hasUser]
  have ok := (s.createExternalPrincipal_sound username principalId).changes.wellFormed sim.ok
  unfold Inner.createExternalPrincipal Inner.requireUser Mem.require at ok ⊢
  unfold Database.createExternalPrincipal principalsUniques
  rcases hinsert with ⟨hin, hrun⟩ | ⟨hout, hall, hrun, hkeeps⟩ | ⟨hout, ref, href, hmiss, hrun⟩
  · rw [hrun]
    cases huser : s.users.contains username with
    | false =>
      rw [h ((not_contains_iff _ _).mp huser)] at hin
      cases hin
    | true =>
      simp only [hin, if_true]
      exact sim.refused rfl
  · rw [hrun]
    simp only [hpresent.mp hall, hout, if_true] at ok ⊢
    exact ⟨rfl, { sim with ok := ok, externalPrincipals := hkeeps }⟩
  · have huser : s.users.contains username = false := by
      rw [← Bool.not_eq_true, ← hpresent]
      intro hall
      exact Bool.false_ne_true (hmiss.symm.trans (hall ref href))
    rw [hrun]
    simp only [huser]
    exact sim.refused rfl

theorem claimTokenId (sim : Sim ρ s db) (tokenId : String) (expiresAt : Timestamp) :
    Alike ρ Eq (s.claimTokenId tokenId expiresAt) (db.claimTokenId tokenId expiresAt) := by
  have hinsert := sim.claimedTokenIds.insert_unreferenced "claimed_token_ids_pkey" onConflictError
    (k := tokenId) (a := expiresAt) rfl
  have ok := (s.claimTokenId_sound tokenId expiresAt).changes.wellFormed sim.ok
  unfold Inner.claimTokenId at ok ⊢
  unfold Database.claimTokenId tokenIdsUniques
  rcases hinsert with ⟨hin, hrun⟩ | ⟨hout, hrun, hkeeps⟩
  · rw [hrun]
    simp only [hin, if_true]
    exact sim.refused rfl
  · rw [hrun]
    simp only [hout] at ok ⊢
    exact ⟨rfl, { sim with ok := ok, claimedTokenIds := hkeeps }⟩

/-- The count and the rows that stay agree when no expiry falls on the other side of
`now` in its column. -/
theorem deleteExpiredTokenIds (sim : Sim ρ s db) (now : Timestamp)
    (h : ∀ (tokenId : String) (expiresAt : Timestamp),
      s.claimedTokenIds[tokenId]? = some expiresAt →
      ((JiffSqlx.toSqlx expiresAt).nanos ≤ (JiffSqlx.toSqlx now).nanos ↔
        expiresAt.nanos ≤ now.nanos)) :
    (s.deleteExpiredTokenIds now).1 = (db.deleteExpiredTokenIds now).1 ∧
      Sim ρ (s.deleteExpiredTokenIds now).2 (db.deleteExpiredTokenIds now).2 := by
  have hkept := sim.claimedTokenIds.retain
    (p := fun row => !decide (row.2.nanos ≤ (JiffSqlx.toSqlx now).nanos))
    (q := fun _ expires => decide (now.nanos < expires.nanos)) fun k a ha => by
      rw [Bool.eq_iff_iff]
      simp [h k a ha]
  have ok : WellFormed (s.deleteExpiredTokenIds now).2 :=
    (Change.tokens s _).wellFormed sim.ok
  refine ⟨?_, { sim with ok := ok, claimedTokenIds := hkept }⟩
  have hsplit := List.length_eq_length_filter_add (l := db.claimedTokenIds)
    (fun row => decide (row.2.nanos ≤ (JiffSqlx.toSqlx now).nanos))
  simp only [Inner.deleteExpiredTokenIds, Database.deleteExpiredTokenIds, delete]
  rw [← sim.claimedTokenIds.length, ← hkept.length]
  omega

/-! Link rows. The store looks for both ends first, the database for the row. -/

end Sim

/-- A link row that both stores write, or both refuse. -/
inductive LinkedAlike (ρ : Int → Int) (s : Inner) (added : Bool)
    (set : List (String × String) → Database) :
    StoreResult Unit × Inner → StoreResult (Done (String × String)) → Prop where
  | written {after : Inner} {done : Done (String × String)} (isAdded : Done.added done = added)
      (sim : Sim ρ after (set done.table)) : LinkedAlike ρ s added set (.ok (), after) (.ok done)
  | refused {error other : StoreError} (sameClass : error.outcomeClass = other.outcomeClass) :
      LinkedAlike ρ s added set (.error error, s) (.error other)

/-- What an attach makes of its statement. -/
def linkedTo (set : List (String × String) → Database) (db : Database) :
    StoreResult (Done (String × String)) → StoreResult Unit × Database
  | .ok done => (.ok (), set done.table)
  | .error error => (.error error, db)

theorem LinkedAlike.alike {added : Bool} {set : List (String × String) → Database}
    {outcome : StoreResult Unit × Inner} {statement : StoreResult (Done (String × String))}
    (linked : LinkedAlike ρ s added set outcome statement) (sim : Sim ρ s db) :
    Alike ρ Eq outcome (linkedTo set db statement) := by
  cases linked with
  | written _ after => exact ⟨rfl, after⟩
  | refused sameClass => exact sim.refused sameClass

theorem LinkedAlike.adds {added : Bool} {set : List (String × String) → Database}
    {outcome : StoreResult Unit × Inner} {statement : StoreResult (Done (String × String))}
    (linked : LinkedAlike ρ s added set outcome statement) (sim : Sim ρ s db) :
    Alike ρ Eq (andReturn outcome added) (addedTo statement set db) := by
  cases linked with
  | written isAdded after => exact ⟨isAdded.symm, after⟩
  | refused sameClass => exact sim.refused sameClass

/-- A store that looks for both ends of a link, and the statement that inserts it. -/
theorem linkedAlike {table : List (String × String)} {links : PairSet}
    (lists : Lists table (· ∈ links)) (name : String) (first second : Reference (String × String))
    {pair : String × String} {hasFirst hasSecond : Bool} (hfirst : first.present pair = hasFirst)
    (hsecond : second.present pair = hasSecond)
    (held : pair ∈ links → hasFirst = true ∧ hasSecond = true) {outcome : StoreResult Unit × Inner}
    {after : Inner} (ok : WellFormed outcome.2)
    (present : hasFirst = true → hasSecond = true → outcome = (.ok (), after))
    (missing : hasFirst = false ∨ hasSecond = false →
      ∃ entity id, outcome = (.error (.notFound entity id), s))
    {set : List (String × String) → Database}
    (sim : ∀ table, WellFormed after → Lists table (· ∈ links.insert pair) → Sim ρ after (set table))
    (taken : String → StoreError) (end₁ : String × String) (ends : List (String × String)) :
    LinkedAlike ρ s (!links.contains pair) set outcome
      ((Relational.insert (linkUniques name) [first, second] onConflictDoNothing pair table).mapError
        (mapError taken (missingFromConstraint end₁ ends))) := by
  rcases insertLink lists name first second hfirst hsecond held with
    ⟨hasFirst, hasSecond, done, hrun, hadded, hlists⟩ | ⟨hmiss, constraint, hrun⟩
  · rw [present hasFirst hasSecond] at ok ⊢
    rw [hrun]
    exact .written hadded (sim done.table ok hlists)
  · obtain ⟨entity, id, hrefused⟩ := missing hmiss
    rw [hrefused, hrun]
    exact .refused rfl

namespace Sim

theorem insertMembership_alike (sim : Sim ρ s db) (groupId username : String) :
    LinkedAlike ρ s (!s.groupMembers.contains (groupId, username))
      (fun table => { db with groupMembers := table }) (s.addMembership groupId username)
      (db.insertMembership groupId username) := by
  obtain ⟨present, missing⟩ := s.addMembership_cases groupId username
  apply linkedAlike sim.groupMembers _ _ _ (sim.hasGroup groupId) (sim.hasUser username) _
    ((s.addMembership_sound groupId username).changes.wellFormed sim.ok) present missing
  · exact fun table ok lists => { sim with ok := ok, groupMembers := lists }
  · exact fun held => ⟨(contains_iff _ _).mpr (sim.ok.memberGroup _ _ held),
      (contains_iff _ _).mpr (sim.ok.memberUser _ _ held)⟩

theorem addMembership (sim : Sim ρ s db) (groupId username : String) :
    Alike ρ Eq (s.addMembership groupId username) (db.addMembership groupId username) :=
  (sim.insertMembership_alike groupId username).alike sim

theorem insertUserPolicy_alike (sim : Sim ρ s db) (username policy : String) :
    LinkedAlike ρ s (!s.userPolicies.contains (username, policy))
      (fun table => { db with userPolicies := table }) (s.attachPolicyToUser username policy)
      (db.insertUserPolicy username policy) := by
  obtain ⟨present, missing⟩ := s.attachPolicyToUser_cases username policy
  apply linkedAlike sim.userPolicies _ _ _ (sim.hasUser username) (sim.hasPolicy policy) _
    ((s.attachPolicyToUser_sound username policy).changes.wellFormed sim.ok) present missing
  · exact fun table ok lists => { sim with ok := ok, userPolicies := lists }
  · exact fun held => ⟨(contains_iff _ _).mpr (sim.ok.userPolicyUser _ _ held),
      (contains_iff _ _).mpr (sim.ok.userPolicyPolicy _ _ held)⟩

theorem attachPolicyToUser (sim : Sim ρ s db) (username policy : String) :
    Alike ρ Eq (s.attachPolicyToUser username policy) (db.attachPolicyToUser username policy) :=
  (sim.insertUserPolicy_alike username policy).alike sim

theorem insertGroupPolicy_alike (sim : Sim ρ s db) (groupId policy : String) :
    LinkedAlike ρ s (!s.groupPolicies.contains (groupId, policy))
      (fun table => { db with groupPolicies := table }) (s.attachPolicyToGroup groupId policy)
      (db.insertGroupPolicy groupId policy) := by
  obtain ⟨present, missing⟩ := s.attachPolicyToGroup_cases groupId policy
  apply linkedAlike sim.groupPolicies _ _ _ (sim.hasGroup groupId) (sim.hasPolicy policy) _
    ((s.attachPolicyToGroup_sound groupId policy).changes.wellFormed sim.ok) present missing
  · exact fun table ok lists => { sim with ok := ok, groupPolicies := lists }
  · exact fun held => ⟨(contains_iff _ _).mpr (sim.ok.groupPolicyGroup _ _ held),
      (contains_iff _ _).mpr (sim.ok.groupPolicyPolicy _ _ held)⟩

theorem attachPolicyToGroup (sim : Sim ρ s db) (groupId policy : String) :
    Alike ρ Eq (s.attachPolicyToGroup groupId policy) (db.attachPolicyToGroup groupId policy) :=
  (sim.insertGroupPolicy_alike groupId policy).alike sim

end Sim
end Answers

end LakeFsAuth.Authz.Store.Mem
