import LakeFsAuth.Authz.Bootstrap
import LakeFsAuth.Authz.Store.BootstrapRun
import LakeFsAuth.Authz.Store.Pg

/-! Whom a bootstrap run gives memberships, policies and keys to. The loop is the same for
every store, so the argument is made once, over what the inserts of a writer guarantee. -/
namespace LakeFsAuth.Authz.Identities
open LakeFsAuth.Core Core.Error Core.Text Store Bootstrap Library Library.Fallible BootstrapWriter

/-- Where a writer keeps the rows of its users. Rows stay while the store grows. -/
structure Rows (W : Type) where
  user : W → String → Option UserRecord
  member : W → String → String → Prop
  attached : W → String → String → Prop
  owns : W → String → String → Prop
  Grows : W → W → Prop
  refl : Std.Refl Grows
  trans : IsTrans W Grows
  userStays : ∀ {w w' name row}, Grows w w' → user w name = some row → user w' name = some row
  memberStays : ∀ {w w' group name}, Grows w w' → member w group name → member w' group name
  attachedStays : ∀ {w w' name policy}, Grows w w' → attached w name policy →
    attached w' name policy
  ownsStays : ∀ {w w' name key}, Grows w w' → owns w name key → owns w' name key

/-- An insert that succeeds: the store grows, and the entry is in place. -/
structure Inserts {W α : Type} (rows : Rows W) (insert : α → StoreM W Bool)
    (Placed : α → W → Prop) : Prop where
  places : ∀ {a w done w'}, exec (insert a) w = (.ok done, w') → rows.Grows w w' ∧ Placed a w'

/-- What the inserts of a writer guarantee. -/
structure Places (W : Type) [BootstrapWriter W] (rows : Rows W) : Prop where
  policy : Inserts rows (α := NewPolicy) insertPolicyIfMissing fun _ _ => True
  group : Inserts rows (α := NewGroup) insertGroupIfMissing fun _ _ => True
  user : Inserts rows applyUser fun user w =>
    ∃ row, rows.user w user.username = some row ∧ row.externalId = user.externalId
  membership : Inserts rows (fun (group, name) => insertMembershipIfMissing group name)
    fun entry w => rows.member w entry.1 entry.2
  userPolicy : Inserts rows (fun (name, policy) => insertUserPolicyIfMissing name policy)
    fun entry w => rows.attached w entry.1 entry.2
  groupPolicy : Inserts rows (fun (group, policy) => insertGroupPolicyIfMissing group policy)
    fun _ _ => True
  credential : Inserts rows applyCredential fun credential w =>
    rows.owns w credential.username credential.accessKeyId

/-- What a user of the file asks for is with a row of its own identity. -/
structure Decorated {W : Type} (rows : Rows W) (entry : UserSpec) (w : W) : Prop where
  user : ∃ row, rows.user w entry.username = some row ∧
    row.externalId = optionalText entry.externalId
  groups : ∀ group ∈ entry.groups, rows.member w group entry.username
  policies : ∀ policy ∈ entry.policies, rows.attached w entry.username policy
  keys : ∀ spec ∈ entry.credentials, ∃ key, nonBlank spec.accessKeyId = some key ∧
    rows.owns w entry.username key

section Writer
variable {W : Type} {rows : Rows W}

/-- One loop of the plan. -/
theorem Inserts.each {α : Type} {insert : α → StoreM W Bool} {Placed : α → W → Prop}
    (inserts : Inserts rows insert Placed)
    (stays : ∀ {a w w'}, rows.Grows w w' → Placed a w → Placed a w') {category : Category}
    {entries : List α} {report report' : BootstrapReport} {w w' : W}
    (h : exec (applyEach category insert entries report) w = (.ok report', w')) :
    rows.Grows w w' ∧ ∀ a ∈ entries, ∀ later, rows.Grows w' later → Placed a later := by
  have := rows.refl
  have := rows.trans
  refine foldlM_settles (fun report a w report' w' h => ?_) h
  obtain ⟨done, mid, hinsert, hrest⟩ := exec_bind_ok h
  cases hrest
  obtain ⟨grows, placed⟩ := inserts.places hinsert
  exact ⟨grows, fun later hlater => stays hlater placed⟩

theorem applyPlan_decorates [BootstrapWriter W] [SecretBox.Aes256Gcm] (places : Places W rows) {plan : BootstrapPlan}
    {file : BootstrapFile} {now : Timestamp} (planOf : PlanOf file now plan)
    {report : BootstrapReport} {w w' : W} (h : exec (applyPlan plan) w = (.ok report, w')) :
    ∀ entry ∈ file.users, Decorated rows entry w' := by
  have := rows.refl
  have := rows.trans
  obtain ⟨_, _, _, hrest⟩ := exec_bind_ok h
  obtain ⟨_, _, _, hrest⟩ := exec_bind_ok hrest
  obtain ⟨_, _, husers, hrest⟩ := exec_bind_ok hrest
  obtain ⟨_, _, hmemberships, hrest⟩ := exec_bind_ok hrest
  obtain ⟨_, _, huserPolicies, hrest⟩ := exec_bind_ok hrest
  obtain ⟨_, _, hgroupPolicies, hcredentials⟩ := exec_bind_ok hrest
  have husers := places.user.each (fun grows ⟨row, hrow, hsame⟩ =>
    ⟨row, rows.userStays grows hrow, hsame⟩) husers
  have hmemberships := places.membership.each rows.memberStays hmemberships
  have huserPolicies := places.userPolicy.each rows.attachedStays huserPolicies
  have hgroupPolicies := places.groupPolicy.each (fun _ _ => trivial) hgroupPolicies
  have hcredentials := places.credential.each rows.ownsStays hcredentials
  have afterPolicies := rows.trans.trans _ _ _ hgroupPolicies.1 hcredentials.1
  have afterMemberships := rows.trans.trans _ _ _ huserPolicies.1 afterPolicies
  have afterUsers := rows.trans.trans _ _ _ hmemberships.1 afterMemberships
  intro entry hentry
  obtain ⟨⟨user, huser, hname, hexternal⟩, groups, policies, credentials⟩ :=
    planOf.planned entry hentry
  constructor
  · obtain ⟨row, hrow, hsame⟩ := husers.2 user huser w' afterUsers
    exact ⟨row, hname ▸ hrow, hsame.trans hexternal⟩
  · exact fun group hgroup => hmemberships.2 _ (groups group hgroup) w' afterMemberships
  · exact fun policy hpolicy => huserPolicies.2 _ (policies policy hpolicy) w' afterPolicies
  · intro spec hspec
    obtain ⟨credential, hmem, hkey, howner⟩ := credentials spec hspec
    have howns := hcredentials.2 credential hmem w' (Std.Refl.refl w')
    exact ⟨_, hkey, howner ▸ howns⟩

end Writer

/-! The in-memory store. -/

section Memory
open Mem

def memRows : Rows Inner where
  user s name := s.users[name]?
  member s group name := (group, name) ∈ s.groupMembers
  attached s name policy := (name, policy) ∈ s.userPolicies
  owns s name key := ∃ credential, s.credentials[key]? = some credential ∧ credential.username = name
  Grows := Grows
  refl := inferInstance
  trans := inferInstance
  userStays grows := grows.users _ _
  memberStays grows := grows.groupMembers _
  attachedStays grows := grows.userPolicies _
  ownsStays := by
    intro s s' name key grows ⟨credential, hstored, howner⟩
    exact ⟨credential, grows.credentials _ _ hstored, howner⟩

/-- An insert that leaves its entry in place for good places it. -/
theorem inserts_of_settled {α : Type} {insert : α → StoreM Inner Bool}
    {Settled : α → Inner → Prop} {Placed : α → Inner → Prop} (h : Mem.Insert insert Settled)
    (placed : ∀ {a s}, Settled a s → Placed a s) : Inserts memRows insert Placed where
  places hexec := by
    obtain ⟨grows, settled⟩ := h.first hexec
    exact ⟨grows, placed (settled _ (.refl _))⟩

theorem memPlaces : Places Inner memRows where
  policy := inserts_of_settled insertPolicy_insert fun _ => trivial
  group := inserts_of_settled insertGroup_insert fun _ => trivial
  user := inserts_of_settled applyUser_insert fun ⟨row, hrow, hsame⟩ =>
    ⟨row, hrow, (beq_iff_eq.mp hsame).symm⟩
  membership := inserts_of_settled insertMembership_insert fun settled => settled.1
  userPolicy := inserts_of_settled insertUserPolicy_insert fun settled => settled.1
  groupPolicy := inserts_of_settled insertGroupPolicy_insert fun _ => trivial
  credential := inserts_of_settled applyCredential_insert id

end Memory

/-! The PostgreSQL store. -/

section Postgres
open Relational Pg

/-- Tables an insert only adds to, at their end. -/
structure Appended (db db' : Database) : Prop where
  users : db.users <+: db'.users
  groupMembers : db.groupMembers <+: db'.groupMembers
  userPolicies : db.userPolicies <+: db'.userPolicies
  credentials : db.credentials <+: db'.credentials

theorem Appended.refl (db : Database) : Appended db db :=
  ⟨List.prefix_rfl, List.prefix_rfl, List.prefix_rfl, List.prefix_rfl⟩

theorem Appended.trans {db mid db' : Database} (h : Appended db mid) (h' : Appended mid db') :
    Appended db db' where
  users := h.users.trans h'.users
  groupMembers := h.groupMembers.trans h'.groupMembers
  userPolicies := h.userPolicies.trans h'.userPolicies
  credentials := h.credentials.trans h'.credentials

/-- The first row that matches stays the first. -/
theorem head_of_prefix {table table' : List α} {p : α → Bool} {row : α} (h : table <+: table')
    (hrow : (table.filter p).head? = some row) : (table'.filter p).head? = some row := by
  obtain ⟨added, rfl⟩ := h
  rw [List.filter_append, List.head?_append, hrow]
  rfl

def pgRows : Rows Database where
  user db name := (db.usersNamed name).head?
  member db group name := (group, name) ∈ db.groupMembers
  attached db name policy := (name, policy) ∈ db.userPolicies
  owns db name key := ∃ row ∈ db.credentials, row.accessKeyId = key ∧ row.username = name
  Grows := Appended
  refl := ⟨Appended.refl⟩
  trans := ⟨fun _ _ _ => Appended.trans⟩
  userStays grows := head_of_prefix grows.users
  memberStays grows h := grows.groupMembers.subset h
  attachedStays grows h := grows.userPolicies.subset h
  ownsStays := by
    intro db db' name key grows ⟨row, hmem, howner⟩
    exact ⟨row, grows.credentials.subset hmem, howner⟩

/-- An insert of a table leaves a longer table with its row, or one that agrees with it. -/
theorem insert_appends {uniques : List (UniqueIndex α)} {references : List (Reference α)}
    {skips : UniqueIndex α → Bool} {row : α} {table : List α} {done : Done α}
    (h : insert uniques references skips row table = .ok done) : table <+: done.table := by
  rcases insert_ok h with ⟨rfl, _⟩ | ⟨rfl, _⟩
  · exact List.prefix_append _ _
  · exact List.prefix_rfl

theorem insert_link {name : String} {references : List (Reference (String × String))}
    {row : String × String} {table : List (String × String)} {done : Done (String × String)}
    (h : insert (linkUniques name) references onConflictDoNothing row table = .ok done) :
    row ∈ done.table := by
  rcases insert_ok h with ⟨rfl, _⟩ | ⟨rfl, index, hindex, _, htaken⟩
  · simp
  · simpa [List.mem_singleton.mp hindex, UniqueIndex.on] using htaken

/-- A table's part of an insert that adds a row when there is none. -/
theorem addedTo_ok {outcome : StoreResult (Done α)} {set : List α → Database} {db db' : Database}
    {added : Bool} (h : addedTo outcome set db = (.ok added, db')) :
    ∃ done, outcome = .ok done ∧ db' = set done.table := by
  cases outcome with
  | error error => cases h
  | ok done =>
    cases h
    exact ⟨done, rfl, rfl⟩

variable [JiffSqlx]

theorem pgPlaces_user : Inserts pgRows (applyUser : NewUser → StoreM Database Bool)
    fun user db => ∃ row, pgRows.user db user.username = some row ∧
      row.externalId = user.externalId where
  places := by
    intro user db done db' h
    obtain ⟨existing, mid, hinsert, hrest⟩ := exec_bind_ok h
    rw [insertUserIfMissing_eq] at hinsert
    unfold Database.insertUser at hinsert
    dsimp only at hinsert
    cases htable : insert usersUniques [] (onConflictOf "users_pkey")
        (Database.userRow user (db.userIdSeq + 1)) db.users with
    | error violation =>
      rw [htable] at hinsert
      cases hinsert
    | ok inserted =>
      rw [htable] at hinsert
      dsimp only at hinsert
      have hgrows : Appended db { db with
          userIdSeq := db.userIdSeq + 1, users := inserted.table } :=
        { Appended.refl db with users := insert_appends htable }
      rcases insert_ok htable with ⟨rfl, hfree⟩ | ⟨rfl, _⟩
      · rw [if_pos (by rfl)] at hinsert
        cases hinsert
        cases hrest
        refine ⟨hgrows, Database.userRow user (db.userIdSeq + 1), ?_, rfl⟩
        have hnone : db.users.filter (·.username == user.username) = [] := by
          have hkey := hfree (.on "users_pkey" (·.username)) (by simp [usersUniques])
          rw [List.filter_eq_nil_iff]
          intro row hrow hname
          have := List.any_eq_false.mp hkey row hrow
          simp only [UniqueIndex.on, Database.userRow, beq_iff_eq] at this
          exact this (beq_iff_eq.mp hname).symm
        change ((db.users ++ [Database.userRow user (db.userIdSeq + 1)]).filter
          (·.username == user.username)).head? = _
        rw [List.filter_append, hnone, List.nil_append]
        simp [Database.userRow]
      · rw [if_neg (by simp [Done.added])] at hinsert
        unfold Database.getUser fetchOne at hinsert
        split at hinsert
        · rename_i row rows hnamed
          cases hinsert
          dsimp only at hrest
          split at hrest
          · rename_i hsame
            cases hrest
            exact ⟨hgrows, row, congrArg List.head? hnamed, (beq_iff_eq.mp hsame).symm⟩
          · cases hrest
        · cases hinsert

theorem pgPlaces_credential : Inserts pgRows (applyCredential : NewCredential → StoreM Database Bool)
    fun credential db => pgRows.owns db credential.username credential.accessKeyId where
  places := by
    intro credential db done db' h
    obtain ⟨existing, mid, hinsert, hrest⟩ := exec_bind_ok h
    rw [insertCredentialIfMissing_eq] at hinsert
    cases htable : db.insertCredential (onConflictOf "credentials_pkey") credential with
    | error error =>
      rw [htable] at hinsert
      cases hinsert
    | ok inserted =>
      rw [htable] at hinsert
      dsimp only at hinsert
      have htable := mapError_ok htable
      have hgrows : Appended db { db with credentials := inserted.table } :=
        { Appended.refl db with credentials := insert_appends htable }
      rcases insert_ok htable with ⟨rfl, _⟩ | ⟨rfl, _⟩
      · rw [if_pos (by rfl)] at hinsert
        cases hinsert
        cases hrest
        exact ⟨hgrows, Database.credentialRow credential, by simp, rfl, rfl⟩
      · rw [if_neg (by simp [Done.added])] at hinsert
        unfold Database.getCredential fetchOne at hinsert
        split at hinsert
        · rename_i record records hjoined
          cases hinsert
          dsimp only at hrest
          split at hrest
          · rename_i howner
            cases hrest
            refine ⟨hgrows, ?_⟩
            have hmem : record ∈ db.joinedCredentials
                (db.credentials.filter (·.accessKeyId == credential.accessKeyId)) := by
              rw [show db.joinedCredentials _ = record :: records from hjoined]
              exact List.mem_cons_self
            obtain ⟨row, hrow, hjoin⟩ := List.mem_flatMap.mp hmem
            obtain ⟨user, _, rfl⟩ := List.mem_map.mp hjoin
            obtain ⟨hstored, hkey⟩ := List.mem_filter.mp hrow
            exact ⟨row, hstored, beq_iff_eq.mp hkey, howner⟩
          · cases hrest
        · cases hinsert

theorem pgPlaces_policy : Inserts pgRows (insertPolicyIfMissing : NewPolicy → StoreM Database Bool)
    fun _ _ => True where
  places := by
    intro policy db done db' h
    change addedTo ((db.insertPolicy (onConflictOf "policies_pkey") policy).mapError backend)
      (fun table => { db with policies := table }) db = _ at h
    obtain ⟨_, _, rfl⟩ := addedTo_ok h
    exact ⟨{ Appended.refl db with }, trivial⟩

theorem pgPlaces_group : Inserts pgRows (insertGroupIfMissing : NewGroup → StoreM Database Bool)
    fun _ _ => True where
  places := by
    intro group db done db' h
    change addedTo ((db.insertGroup (onConflictOf "groups_pkey") group).mapError backend)
      (fun table => { db with groups := table }) db = _ at h
    obtain ⟨_, _, rfl⟩ := addedTo_ok h
    exact ⟨{ Appended.refl db with }, trivial⟩

theorem pgPlaces_membership : Inserts pgRows
    (fun (group, name) => (insertMembershipIfMissing group name : StoreM Database Bool))
    fun entry db => pgRows.member db entry.1 entry.2 where
  places := by
    rintro ⟨group, name⟩ db done db' h
    change addedTo (db.insertMembership group name)
      (fun table => { db with groupMembers := table }) db = _ at h
    obtain ⟨inserted, hinsert, rfl⟩ := addedTo_ok h
    have hinsert := mapError_ok hinsert
    exact ⟨{ Appended.refl db with groupMembers := insert_appends hinsert }, insert_link hinsert⟩

theorem pgPlaces_userPolicy : Inserts pgRows
    (fun (name, policy) => (insertUserPolicyIfMissing name policy : StoreM Database Bool))
    fun entry db => pgRows.attached db entry.1 entry.2 where
  places := by
    rintro ⟨name, policy⟩ db done db' h
    change addedTo (db.insertUserPolicy name policy)
      (fun table => { db with userPolicies := table }) db = _ at h
    obtain ⟨inserted, hinsert, rfl⟩ := addedTo_ok h
    have hinsert := mapError_ok hinsert
    exact ⟨{ Appended.refl db with userPolicies := insert_appends hinsert }, insert_link hinsert⟩

theorem pgPlaces_groupPolicy : Inserts pgRows
    (fun (group, policy) => (insertGroupPolicyIfMissing group policy : StoreM Database Bool))
    fun _ _ => True where
  places := by
    rintro ⟨group, policy⟩ db done db' h
    change addedTo (db.insertGroupPolicy group policy)
      (fun table => { db with groupPolicies := table }) db = _ at h
    obtain ⟨_, _, rfl⟩ := addedTo_ok h
    exact ⟨{ Appended.refl db with }, trivial⟩

theorem pgPlaces : Places Database pgRows where
  policy := pgPlaces_policy
  group := pgPlaces_group
  user := pgPlaces_user
  membership := pgPlaces_membership
  userPolicy := pgPlaces_userPolicy
  groupPolicy := pgPlaces_groupPolicy
  credential := pgPlaces_credential

end Postgres

/-! Both stores. -/

section Both
variable [SecretBox.Aes256Gcm] [SerdeSaphyr] [Core.Validate.SerdeJson]

/-- Applying the plan of a file gives each of its users what the file asks for on a row of
that user's own identity, or changes nothing. A rolled back transaction leaves no more than
a drawn value of the identity sequence. -/
theorem bootstrap_keeps_identities [Pg.JiffSqlx] {env : String → Option String}
    {nonces : Nat → SecretBox.Nonce} {now : Timestamp} {yaml : String} {plan : BootstrapPlan}
    (parsed : parsePlanWithEnv env nonces now yaml = .ok plan) :
    ∃ file, readFile yaml = .ok file ∧
    (∀ s : Mem.Inner,
      (∀ report s', s.applyBootstrap plan = (.ok report, s') →
        ∀ entry ∈ file.users, Decorated memRows entry s') ∧
      ∀ error s', s.applyBootstrap plan = (.error error, s') → s' = s) ∧
    ∀ db : Pg.Database,
      (∀ report db', db.applyBootstrap plan = (.ok report, db') →
        ∀ entry ∈ file.users, Decorated pgRows entry db') ∧
      ∀ error db', db.applyBootstrap plan = (.error error, db') →
        db' = { db with userIdSeq := db'.userIdSeq } := by
  obtain ⟨file, hfile, planOf⟩ := parsePlanWithEnv_planOf parsed
  refine ⟨file, hfile, fun s => ⟨?_, ?_⟩, fun db => ⟨?_, ?_⟩⟩
  · intro report s' h
    unfold Mem.Inner.applyBootstrap at h
    split at h
    · rename_i hexec
      cases h
      exact applyPlan_decorates memPlaces planOf hexec
    · cases h
  · intro error s' h
    have hfailed := (s.applyBootstrap_sound plan).failed error (congrArg Prod.fst h)
    rw [h] at hfailed
    exact hfailed
  · intro report db' h
    unfold Pg.Database.applyBootstrap at h
    split at h
    · rename_i hexec
      cases h
      exact applyPlan_decorates pgPlaces planOf hexec
    · cases h
  · intro error db' h
    unfold Pg.Database.applyBootstrap at h
    split at h
    · cases h
    · cases h
      rfl

end Both

/-- A file with one user, who joins a group and has a key. -/
def oneUser : BootstrapFile :=
  ⟨some 1, [], [⟨"readers", none, []⟩],
    [⟨"ada", none, none, none, some " sub-1 ", ["readers"], [], [⟨" AK ", some "secret", none⟩]⟩]⟩

@[reducible] def readsOneUser : SerdeSaphyr := ⟨fun _ => .ok oneUser⟩

def zeroNonce : SecretBox.Nonce := .zero

@[reducible] def wholeDates : Pg.JiffSqlx := ⟨fun time => time⟩

def onePlan : BootstrapPlan where
  policies := []
  groups := [⟨"readers", none, ⟨0⟩⟩]
  users := [⟨"ada", ⟨0⟩, none, none, none, some "sub-1", none⟩]
  memberships := [("readers", "ada")]
  userPolicies := []
  groupPolicies := []
  credentials := [⟨"AK", "ada",
    1 :: (List.replicate 12 0 ++ (SecretBox.asBytes "secret" ++ List.replicate 16 0)), ⟨0⟩⟩]

theorem onePlan_parsed :
    @parsePlanWithEnv SecretBox.plainCipher (fun _ => none) (fun _ => zeroNonce) ⟨0⟩ readsOneUser
      Validate.noLists "users:" = .ok onePlan := by
  rfl

theorem bootstrap_keeps_identities_oneUser :
    ∃ report s', Mem.Inner.new.applyBootstrap onePlan = (.ok report, s') ∧
      ∀ entry ∈ oneUser.users, Decorated memRows entry s' := by
  obtain ⟨file, hfile, hmem, _⟩ := @bootstrap_keeps_identities SecretBox.plainCipher readsOneUser
    Validate.noLists wholeDates _ _ _ _ _ onePlan_parsed
  have hone : file = oneUser := by
    cases hfile
    rfl
  exact ⟨_, _, rfl, hone ▸ (hmem Mem.Inner.new).1 _ _ rfl⟩

end LakeFsAuth.Authz.Identities
