import LakeFsAuth.Authz.Store.SameReads

/-! The two stores agree: users and their ids, bootstrap, the reads, and whole runs. -/
namespace LakeFsAuth.Authz.Store.Mem
open Std Core.Pagination Library Library.OrderedMap Library.Relational Pg

theorem Inner.userFree_iff (self : Inner) (user : NewUser) :
    self.UserFree user ↔ self.users.contains user.username = false ∧
      self.emailTaken user.email = false ∧ self.externalIdTaken user.externalId = false := by
  rw [← Bool.not_eq_true (self.emailTaken _), ← Bool.not_eq_true (self.externalIdTaken _),
    self.emailTaken_iff, self.externalIdTaken_iff, not_contains_iff]
  constructor
  · intro free
    refine ⟨free.username, ?_, ?_⟩
    · rintro ⟨email, heq, k, row, hrow, hmatch⟩
      exact free.email email heq k row hrow hmatch
    · rintro ⟨externalId, heq, k, row, hrow, hmatch⟩
      exact free.externalId externalId heq k row hrow hmatch
  · rintro ⟨hname, hemail, hext⟩
    exact ⟨hname, fun email heq k row hrow hmatch => hemail ⟨email, heq, k, row, hrow, hmatch⟩,
      fun externalId heq k row hrow hmatch => hext ⟨externalId, heq, k, row, hrow, hmatch⟩⟩

section Users
variable [JiffSqlx] {ρ : Int → Int} {s : Inner} {db : Database}

/-- The database after the sequence moved on. -/
def drawn (db : Database) : Database :=
  { db with userIdSeq := db.userIdSeq + 1 }

namespace Sim

theorem draw (sim : Sim ρ s db) : Sim ρ s (drawn db) :=
  { sim with
    issued := fun userId hpos hle => by
      have := sim.issued userId hpos hle
      simp only [Mem.drawn]
      omega
    seqNonneg := by
      have := sim.seqNonneg
      simp only [Mem.drawn]
      omega }

/-- What the row of a new user collides with. -/
theorem users_taken (sim : Sim ρ s db) (user : NewUser) :
    let row := Database.userRow user (db.userIdSeq + 1)
    db.users.any ((UniqueIndex.on "users_pkey" (·.username)).agree row) =
        s.users.contains user.username ∧
      db.users.any ((UniqueIndex.on "users_user_id_key" (·.userId)).agree row) = false ∧
      db.users.any ((UniqueIndex.onNullable "users_email_key" (·.email)).agree row) =
        s.emailTaken user.email ∧
      db.users.any ((UniqueIndex.onNullable "users_external_id_key" (·.externalId)).agree row) =
        s.externalIdTaken user.externalId := by
  refine ⟨sim.users.taken _ _, ?_, ?_, ?_⟩
  · rw [← Bool.not_eq_true, sim.users.lists.any]
    rintro ⟨_, ⟨k, row, hrow, rfl⟩, hagree⟩
    have hissued := sim.issued row.userId (sim.ok.users.idPos k row hrow)
      (sim.ok.users.idIssued k row hrow)
    have heq : db.userIdSeq + 1 = ρ row.userId := beq_iff_eq.mp hagree
    omega
  · rw [Bool.eq_iff_iff, sim.users.lists.any, s.emailTaken_iff]
    simp only [UniqueIndex.onNullable, Database.userRow, Bool.and_eq_true, beq_iff_eq,
      Option.isSome_iff_exists]
    constructor
    · rintro ⟨_, ⟨k, row, hrow, rfl⟩, ⟨email, hemail⟩, heq⟩
      exact ⟨email, hemail, k, row, hrow, heq.symm.trans hemail⟩
    · rintro ⟨email, hemail, k, row, hrow, heq⟩
      exact ⟨_, ⟨k, row, hrow, rfl⟩, ⟨email, hemail⟩, hemail.trans heq.symm⟩
  · rw [Bool.eq_iff_iff, sim.users.lists.any, s.externalIdTaken_iff]
    simp only [UniqueIndex.onNullable, Database.userRow, Bool.and_eq_true, beq_iff_eq,
      Option.isSome_iff_exists]
    constructor
    · rintro ⟨_, ⟨k, row, hrow, rfl⟩, ⟨externalId, hext⟩, heq⟩
      exact ⟨externalId, hext, k, row, hrow, heq.symm.trans hext⟩
    · rintro ⟨externalId, hext, k, row, hrow, heq⟩
      exact ⟨_, ⟨k, row, hrow, rfl⟩, ⟨externalId, hext⟩, hext.trans heq.symm⟩

/-- A user nothing collides with. The renaming learns the id it was given. -/
theorem insertUser_free (sim : Sim ρ s db) (skips : UniqueIndex UserRecord → Bool)
    {user : NewUser} (free : s.UserFree user) :
    ∃ ρ' table, AgreeUpTo s.nextUserId ρ ρ' ∧
      db.insertUser skips user =
        (.ok ⟨[Database.userRow user (db.userIdSeq + 1)], table⟩,
          { drawn db with users := table }) ∧
      Database.userRow user (db.userIdSeq + 1) ∈ table ∧
      Sim ρ' (s.withUser user) { drawn db with users := table } := by
  obtain ⟨hname, hemail, hext⟩ := (s.userFree_iff user).mp free
  obtain ⟨hpkey, hid, hmail, hexternal⟩ := sim.users_taken user
  have hfree : ∀ index ∈ usersUniques,
      db.users.any (index.agree (Database.userRow user (db.userIdSeq + 1))) = false := by
    simp only [usersUniques, List.forall_mem_cons]
    exact ⟨hpkey.trans hname, hid, hmail.trans hemail, hexternal.trans hext, by simp⟩
  have hrun := insert_free [] skips hfree
  let ρ' := Function.update ρ (s.nextUserId + 1) (db.userIdSeq + 1)
  have agree : AgreeUpTo s.nextUserId ρ ρ' := fun userId _ hle =>
    Function.update_of_ne (by omega) _ _
  have hnew : ρ' (s.nextUserId + 1) = db.userIdSeq + 1 := Function.update_self _ _ _
  have hrow : Database.userRow user (db.userIdSeq + 1) =
      userImage ρ' (Inner.newRecord user (s.nextUserId + 1)) := by
    simp only [userImage, Inner.newRecord, hnew]
    rfl
  have ok : WellFormed (s.withUser user) := (Change.newUser s user free).wellFormed sim.ok
  refine ⟨ρ', db.users ++ [Database.userRow user (db.userIdSeq + 1)], agree, ?_, by simp, ?_⟩
  · unfold Database.insertUser
    simp only [hrun]
    rfl
  · have sim' := (sim.of_agree agree).draw
    refine { sim' with ok := ok, users := ?_, issued := ?_, distinct := ?_ }
    · rw [hrow]
      exact sim'.users.snoc free.username rfl
    · intro userId hpos hle
      by_cases hlast : userId = s.nextUserId + 1
      · have := sim.seqNonneg
        rw [hlast, hnew]
        simp only [Mem.drawn]
        omega
      · have hle' : userId ≤ s.nextUserId := by
          simp only [Inner.withUser] at hle
          omega
        exact sim'.issued userId hpos hle'
    · intro userId other hpos hle hpos' hle' heq
      simp only [Inner.withUser] at hle hle'
      by_cases hlast : userId = s.nextUserId + 1 <;> by_cases hlast' : other = s.nextUserId + 1
      · omega
      · have hold := sim.issued other hpos' (by omega)
        rw [hlast, hnew, agree other hpos' (by omega)] at heq
        omega
      · have hold := sim.issued userId hpos (by omega)
        rw [hlast', hnew, agree userId hpos (by omega)] at heq
        omega
      · exact sim'.distinct userId other hpos (by omega) hpos' (by omega) heq

/-- A user that collides, where the statement does not skip the collision. -/
theorem insertUser_clash (sim : Sim ρ s db) (skips : UniqueIndex UserRecord → Bool)
    {user : NewUser} (clash : ¬ s.UserFree user)
    (hskips : skips (.on "users_pkey" (·.username)) = true →
      s.users.contains user.username = false)
    (hkept : skips (.onNullable "users_email_key" (·.email)) = false ∧
      skips (.onNullable "users_external_id_key" (·.externalId)) = false) :
    ∃ constraint, db.insertUser skips user = (.error (.unique constraint), drawn db) := by
  obtain ⟨hpkey, hid, hmail, hexternal⟩ := sim.users_taken user
  have htaken : ∃ index ∈ usersUniques,
      db.users.any (index.agree (Database.userRow user (db.userIdSeq + 1))) = true := by
    rw [s.userFree_iff] at clash
    simp only [usersUniques, List.exists_mem_cons_iff, hpkey, hid, hmail, hexternal]
    by_contra hnone
    simp only [not_or, Bool.not_eq_true] at hnone
    exact clash ⟨hnone.1, hnone.2.2.1, hnone.2.2.2.1⟩
  obtain ⟨index, hindex, htaken⟩ := htaken
  have hnot : ∀ other ∈ usersUniques, skips other = true →
      db.users.any (other.agree (Database.userRow user (db.userIdSeq + 1))) = false := by
    simp only [usersUniques, List.forall_mem_cons]
    refine ⟨fun h => hpkey.trans (hskips h), fun _ => hid, ?_, ?_, by simp⟩
    · intro h
      exact absurd h (by rw [hkept.1]; simp)
    · intro h
      exact absurd h (by rw [hkept.2]; simp)
  obtain ⟨other, _, hrun⟩ := insert_taken [] skips hindex htaken hnot
  refine ⟨other.name, ?_⟩
  unfold Database.insertUser
  simp only [hrun]
  rfl

/-- A name that is taken, where the statement skips it. -/
theorem insertUser_skipped (sim : Sim ρ s db) {user : NewUser}
    (taken : s.users.contains user.username = true) :
    db.insertUser (onConflictOf "users_pkey") user = (.ok ⟨[], db.users⟩, drawn db) := by
  have hskip : Relational.insert usersUniques [] (onConflictOf "users_pkey")
      (Database.userRow user (db.userIdSeq + 1)) db.users = .ok ⟨[], db.users⟩ :=
    insert_skipped [] (onConflictOf "users_pkey") List.mem_cons_self rfl
      ((sim.users_taken user).1.trans taken)
  unfold Database.insertUser
  simp only [hskip]
  rfl

theorem createUser_state (sim : Sim ρ s db) (user : NewUser) :
    ∃ ρ', AgreeUpTo s.nextUserId ρ ρ' ∧
      Sim ρ' (s.insertUser user).2 (db.createUser user).2 := by
  unfold Database.createUser
  rcases s.insertUser_cases user with ⟨free, heq⟩ | ⟨clash, entity, id, heq⟩
  · obtain ⟨ρ', table, agree, hrun, _, hsim⟩ := sim.insertUser_free onConflictError free
    rw [heq, hrun]
    exact ⟨ρ', agree, hsim⟩
  · obtain ⟨constraint, hrun⟩ := sim.insertUser_clash onConflictError clash (by simp [onConflictError])
      ⟨rfl, rfl⟩
    rw [heq, hrun]
    exact ⟨ρ, .refl _ _, sim.draw⟩

/-- The row the database returns is the row it holds under the name. -/
theorem createUser_answer (sim : Sim ρ s db) (near : ColumnKeepsDates) {user : NewUser}
    (after : Sim ρ (s.insertUser user).2 (db.createUser user).2) :
    SameAnswer (SameUser ρ) (s.insertUser user).1 (db.createUser user).1 := by
  unfold Database.createUser at after ⊢
  rcases s.insertUser_cases user with ⟨free, heq⟩ | ⟨clash, entity, id, heq⟩
  · obtain ⟨ρ', table, _, hrun, hmem, _⟩ := sim.insertUser_free onConflictError free
    rw [heq, hrun] at after ⊢
    have hrows := after.users.rows_of_key user.username
    simp only [Inner.withUser, get_insert, if_true] at hrows
    have hrow : Database.userRow user (db.userIdSeq + 1) ∈
        table.filter fun row => row.username == user.username :=
      List.mem_filter.mpr ⟨hmem, beq_self_eq_true _⟩
    rw [hrows] at hrow
    have himage : Database.userRow user (db.userIdSeq + 1) =
        userImage ρ (Inner.newRecord user (s.nextUserId + 1)) := by simpa using hrow
    change SameUser ρ _ (Database.userRow user (db.userIdSeq + 1))
    rw [himage]
    exact same_userImage near _
  · obtain ⟨constraint, hrun⟩ := sim.insertUser_clash onConflictError clash (by simp [onConflictError])
      ⟨rfl, rfl⟩
    rw [heq, hrun]
    exact (userConflict_class user constraint).symm

end Sim
end Users

/-! Bootstrap: every insert keeps the two runs in step, so the plan does. -/

section Bootstrap
open Fallible BootstrapWriter
variable [JiffSqlx] {ρ₀ : Int → Int} {s₀ : Inner} {db₀ : Database}

/-- The two stores correspond, and nothing that was issued before moved. -/
def Onward (ρ₀ : Int → Int) (s₀ : Inner) (db₀ : Database) (s : Inner) (db : Database) : Prop :=
  ∃ ρ, AgreeUpTo s₀.nextUserId ρ₀ ρ ∧ s₀.nextUserId ≤ s.nextUserId ∧
    db₀.userIdSeq ≤ db.userIdSeq ∧ Sim ρ s db

theorem Onward.step {s s' : Inner} {db db' : Database} (onward : Onward ρ₀ s₀ db₀ s db)
    (hseq : db.userIdSeq ≤ db'.userIdSeq) (changes : Changes s s')
    (h : ∀ ρ, Sim ρ s db → ∃ ρ', AgreeUpTo s.nextUserId ρ ρ' ∧ Sim ρ' s' db') :
    Onward ρ₀ s₀ db₀ s' db' := by
  obtain ⟨ρ, agree, hcount, hold, sim⟩ := onward
  obtain ⟨ρ', agree', sim'⟩ := h ρ sim
  exact ⟨ρ', agree.trans agree' hcount, hcount.trans changes.fresh.counter, hold.trans hseq, sim'⟩

abbrev SameClass (error other : StoreError) : Prop := error.outcomeClass = other.outcomeClass

/-- An insert that draws no id is in step with its statement when the two are alike for every
renaming of the ids. -/
theorem inStep_of_alike {insert : StoreM Inner Bool} {insert' : StoreM Database Bool}
    (changes : Guarantees Changes insert) (statement : Database → StoreResult (Done α))
    (set : Database → List α → Database)
    (run : ∀ db, exec insert' db = addedTo (statement db) (set db) db)
    (seq : ∀ db table, (set db table).userIdSeq = db.userIdSeq)
    (alike : ∀ {ρ s db}, Sim ρ s db →
      Alike ρ Eq (exec insert s) (addedTo (statement db) (set db) db)) :
    InStep (Onward ρ₀ s₀ db₀) SameClass Eq insert insert' := by
  intro s db onward
  obtain ⟨_, _, _, _, sim⟩ := id onward
  have hseq : db.userIdSeq ≤ (addedTo (statement db) (set db) db).2.userIdSeq := by
    cases statement db with
    | ok done => exact (seq db done.table).ge
    | error error => exact Int.le_refl _
  rw [run]
  refine ⟨(alike sim).answer, ?_⟩
  exact onward.step hseq (changes s) fun ρ sim => ⟨ρ, .refl _ _, (alike sim).state⟩

theorem insertPolicyIfMissing_inStep (policy : NewPolicy) :
    InStep (Onward ρ₀ s₀ db₀) SameClass Eq (insertPolicyIfMissing policy : StoreM Inner Bool)
      (insertPolicyIfMissing policy : StoreM Database Bool) := by
  apply inStep_of_alike (insertPolicyIfMissing_changes policy)
    (fun db => (db.insertPolicy (onConflictOf "policies_pkey") policy).mapError backend)
    (fun db table => { db with policies := table }) (fun _ => rfl) (fun _ _ => rfl)
  intro ρ s db sim
  change Alike ρ Eq (if s.policies.contains policy.name then (.ok false, s)
    else andReturn (s.insertPolicy policy) true) _
  rcases sim.insertPolicy_cases (onConflictOf "policies_pkey") policy with
    ⟨hin, heq⟩ | ⟨hout, table, heq, after⟩
  · rw [if_pos hin, heq]
    exact sim.read rfl
  · rw [if_neg (by simp [hout]), heq]
    refine ⟨?_, after⟩
    rw [s.insertPolicy_free hout]
    rfl

theorem insertGroupIfMissing_inStep (group : NewGroup) :
    InStep (Onward ρ₀ s₀ db₀) SameClass Eq (insertGroupIfMissing group : StoreM Inner Bool)
      (insertGroupIfMissing group : StoreM Database Bool) := by
  apply inStep_of_alike (insertGroupIfMissing_changes group)
    (fun db => (db.insertGroup (onConflictOf "groups_pkey") group).mapError backend)
    (fun db table => { db with groups := table }) (fun _ => rfl) (fun _ _ => rfl)
  intro ρ s db sim
  change Alike ρ Eq (if s.groups.contains group.id then (.ok false, s)
    else andReturn (s.insertGroup group) true) _
  rcases sim.insertGroup_cases (onConflictOf "groups_pkey") group with
    ⟨hin, heq⟩ | ⟨hout, table, heq, after⟩
  · rw [if_pos hin, heq]
    exact sim.read rfl
  · rw [if_neg (by simp [hout]), heq]
    refine ⟨?_, after⟩
    rw [s.insertGroup_free hout]
    rfl

theorem insertMembershipIfMissing_inStep (groupId username : String) :
    InStep (Onward ρ₀ s₀ db₀) SameClass Eq
      (insertMembershipIfMissing groupId username : StoreM Inner Bool)
      (insertMembershipIfMissing groupId username : StoreM Database Bool) := by
  apply inStep_of_alike (insertMembershipIfMissing_changes groupId username)
    (fun db => db.insertMembership groupId username)
    (fun db table => { db with groupMembers := table }) (fun _ => rfl) (fun _ _ => rfl)
  exact fun sim => (sim.insertMembership_alike groupId username).adds sim

theorem insertUserPolicyIfMissing_inStep (username policy : String) :
    InStep (Onward ρ₀ s₀ db₀) SameClass Eq
      (insertUserPolicyIfMissing username policy : StoreM Inner Bool)
      (insertUserPolicyIfMissing username policy : StoreM Database Bool) := by
  apply inStep_of_alike (insertUserPolicyIfMissing_changes username policy)
    (fun db => db.insertUserPolicy username policy)
    (fun db table => { db with userPolicies := table }) (fun _ => rfl) (fun _ _ => rfl)
  exact fun sim => (sim.insertUserPolicy_alike username policy).adds sim

theorem insertGroupPolicyIfMissing_inStep (groupId policy : String) :
    InStep (Onward ρ₀ s₀ db₀) SameClass Eq
      (insertGroupPolicyIfMissing groupId policy : StoreM Inner Bool)
      (insertGroupPolicyIfMissing groupId policy : StoreM Database Bool) := by
  apply inStep_of_alike (insertGroupPolicyIfMissing_changes groupId policy)
    (fun db => db.insertGroupPolicy groupId policy)
    (fun db table => { db with groupPolicies := table }) (fun _ => rfl) (fun _ _ => rfl)
  exact fun sim => (sim.insertGroupPolicy_alike groupId policy).adds sim

/-- The stored row that decides who a user is. -/
abbrev SameIdentity (existing other : UserRecord) : Prop := existing.externalId = other.externalId

theorem insertUserIfMissing_inStep (user : NewUser) :
    InStep (Onward ρ₀ s₀ db₀) SameClass (Option.Rel SameIdentity)
      (insertUserIfMissing user : StoreM Inner (Option UserRecord))
      (insertUserIfMissing user : StoreM Database (Option UserRecord)) := by
  intro s db onward
  have changes := insertUserIfMissing_changes user s
  obtain ⟨ρ, _, _, _, sim⟩ := id onward
  have hmem := insertUserIfMissing_eq user s
  have hrun := Pg.insertUserIfMissing_eq user db
  have hgrow : db.userIdSeq ≤ (drawn db).userIdSeq := by
    simp only [drawn]
    omega
  cases hname : s.users[user.username]? with
  | some existing =>
    have hinsert := sim.insertUser_skipped ((contains_iff _ _).mpr ⟨existing, hname⟩)
    have hget : (drawn db).getUser user.username = .ok (userImage ρ existing) := by
      unfold Database.getUser
      rw [sim.draw.usersNamed, hname]
      rfl
    rw [hname] at hmem
    rw [hinsert] at hrun
    rw [hmem, hrun]
    refine ⟨?_, onward.step hgrow .refl fun ρ sim => ⟨ρ, .refl _ _, sim.draw⟩⟩
    change Matches _ _ _ (((drawn db).getUser user.username).map some)
    rw [hget]
    exact .some rfl
  | none =>
    rw [hname] at hmem
    rw [hmem] at changes ⊢
    rcases s.insertUser_cases user with ⟨free, heq⟩ | ⟨clash, entity, id, heq⟩
    · obtain ⟨_, table, _, hinsert, _, _⟩ := sim.insertUser_free (onConflictOf "users_pkey") free
      rw [hinsert] at hrun
      rw [heq] at changes ⊢
      rw [hrun]
      refine ⟨.none, onward.step hgrow changes fun ρ sim => ?_⟩
      obtain ⟨ρ', table', agree, hinsert', _, sim'⟩ :=
        sim.insertUser_free (onConflictOf "users_pkey") free
      rw [hinsert] at hinsert'
      cases hinsert'
      exact ⟨ρ', agree, sim'⟩
    · obtain ⟨constraint, hinsert⟩ := sim.insertUser_clash (onConflictOf "users_pkey") clash
        (fun _ => (not_contains_iff _ _).mpr hname) ⟨rfl, rfl⟩
      rw [hinsert] at hrun
      rw [heq, hrun]
      refine ⟨(userConflict_class user constraint).symm, ?_⟩
      exact onward.step hgrow .refl fun ρ sim => ⟨ρ, .refl _ _, sim.draw⟩

abbrev SameOwner (existing other : CredentialRecord) : Prop := existing.username = other.username

theorem insertCredentialIfMissing_inStep (credential : NewCredential) :
    InStep (Onward ρ₀ s₀ db₀) SameClass (Option.Rel SameOwner)
      (insertCredentialIfMissing credential : StoreM Inner (Option CredentialRecord))
      (insertCredentialIfMissing credential : StoreM Database (Option CredentialRecord)) := by
  intro s db onward
  have changes := insertCredentialIfMissing_changes credential s
  obtain ⟨ρ, _, _, _, sim⟩ := id onward
  have hmem := insertCredentialIfMissing_eq credential s
  have hrun := Pg.insertCredentialIfMissing_eq credential db
  rcases sim.insertCredential_cases (onConflictOf "credentials_pkey") credential with
    ⟨hin, heq⟩ | ⟨hout, hnone, error, hclass, heq⟩ | ⟨hout, user, table, huser, heq, _⟩
  · obtain ⟨existing, hstored⟩ := (contains_iff _ _).mp hin
    rw [hstored] at hmem
    rw [heq] at hrun
    have hget : db.getCredential credential.accessKeyId = .ok (credentialView ρ existing) := by
      unfold Database.getCredential
      rw [sim.joined_key, hstored]
      rfl
    rw [hmem, hrun]
    refine ⟨?_, onward⟩
    change Matches _ _ _ ((db.getCredential credential.accessKeyId).map some)
    rw [hget]
    exact .some rfl
  · rw [(not_contains_iff _ _).mp hout] at hmem
    have hrefused : s.insertCredential credential =
        (.error (.notFound "user" credential.username), s) := by
      unfold Inner.insertCredential
      rw [hnone]
    rw [hrefused] at hmem
    rw [heq] at hrun
    rw [hmem, hrun]
    exact ⟨hclass.symm, onward⟩
  · rw [(not_contains_iff _ _).mp hout] at hmem
    rw [heq] at hrun
    rw [hmem] at changes ⊢
    rw [hrun]
    refine ⟨?_, onward.step (Int.le_refl _) changes fun ρ sim => ⟨ρ, .refl _ _, ?_⟩⟩
    · rw [s.insertCredential_free huser hout]
      exact .none
    · rcases sim.insertCredential_cases (onConflictOf "credentials_pkey") credential with
        ⟨hin, _⟩ | ⟨_, hnone, _⟩ | ⟨_, _, table', _, heq', sim'⟩
      · rw [hout] at hin
        cases hin
      · rw [huser] at hnone
        cases hnone
      · rw [heq] at heq'
        cases heq'
        exact sim'

theorem applyUser_inStep (user : NewUser) :
    InStep (Onward ρ₀ s₀ db₀) SameClass Eq (applyUser user : StoreM Inner Bool)
      (applyUser user : StoreM Database Bool) := by
  unfold applyUser
  apply (insertUserIfMissing_inStep user).bind
  rintro existing other h
  cases h with
  | none => exact .pure rfl
  | @some existing other hsame =>
    have hcheck : user.sameIdentityAs existing = user.sameIdentityAs other := by
      simp only [NewUser.sameIdentityAs, hsame]
    dsimp only
    rw [hcheck]
    split
    · exact .pure rfl
    · exact .throw rfl

theorem applyCredential_inStep (credential : NewCredential) :
    InStep (Onward ρ₀ s₀ db₀) SameClass Eq (applyCredential credential : StoreM Inner Bool)
      (applyCredential credential : StoreM Database Bool) := by
  unfold applyCredential
  apply (insertCredentialIfMissing_inStep credential).bind
  rintro existing other h
  cases h with
  | none => exact .pure rfl
  | some hsame =>
    simp only [hsame]
    split
    · exact .pure rfl
    · exact .throw rfl

theorem applyEach_inStep {α : Type} {category : Category} {insert : α → StoreM Inner Bool}
    {insert' : α → StoreM Database Bool}
    (h : ∀ entry, InStep (Onward ρ₀ s₀ db₀) SameClass Eq (insert entry) (insert' entry))
    (entries : List α) (report : BootstrapReport) :
    InStep (Onward ρ₀ s₀ db₀) SameClass Eq (applyEach category insert entries report)
      (applyEach category insert' entries report) := by
  apply InStep.foldlM _ entries rfl
  rintro report _ entry rfl
  apply (h entry).bind
  rintro done _ rfl
  exact .pure rfl

theorem applyPlan_inStep (plan : BootstrapPlan) :
    InStep (Onward ρ₀ s₀ db₀) SameClass Eq (applyPlan plan : StoreM Inner BootstrapReport)
      (applyPlan plan : StoreM Database BootstrapReport) := by
  unfold applyPlan
  refine .bind (applyEach_inStep insertPolicyIfMissing_inStep _ _) ?_
  rintro report _ rfl
  refine .bind (applyEach_inStep insertGroupIfMissing_inStep _ _) ?_
  rintro report _ rfl
  refine .bind (applyEach_inStep applyUser_inStep _ _) ?_
  rintro report _ rfl
  refine .bind (applyEach_inStep (fun pair => insertMembershipIfMissing_inStep _ _) _ _) ?_
  rintro report _ rfl
  refine .bind (applyEach_inStep (fun pair => insertUserPolicyIfMissing_inStep _ _) _ _) ?_
  rintro report _ rfl
  refine .bind (applyEach_inStep (fun pair => insertGroupPolicyIfMissing_inStep _ _) _ _) ?_
  rintro report _ rfl
  exact applyEach_inStep applyCredential_inStep _ _

end Bootstrap

section Bootstrap
variable [JiffSqlx] {ρ : Int → Int} {s : Inner} {db : Database}

/-- A rollback keeps the values of the sequence, and only those. -/
theorem Sim.applyBootstrap (sim : Sim ρ s db) (plan : BootstrapPlan) :
    SameAnswer Eq (s.applyBootstrap plan).1 (db.applyBootstrap plan).1 ∧
    ∃ ρ', AgreeUpTo s.nextUserId ρ ρ' ∧
      Sim ρ' (s.applyBootstrap plan).2 (db.applyBootstrap plan).2 := by
  have start : Onward ρ s db s db := ⟨ρ, .refl _ _, Int.le_refl _, Int.le_refl _, sim⟩
  obtain ⟨hsame, ρ', agree, hcount, hseq, sim'⟩ := applyPlan_inStep plan s db start
  unfold Inner.applyBootstrap Database.applyBootstrap
  rcases hmem : Fallible.exec (applyPlan plan : StoreM Inner BootstrapReport) s with ⟨_ | _, _⟩ <;>
    rcases hdb : Fallible.exec (applyPlan plan : StoreM Database BootstrapReport) db with
      ⟨_ | _, aborted⟩ <;> rw [hmem, hdb] at hsame sim' <;> rw [hdb] at hseq
  · refine ⟨hsame, ρ, .refl _ _, ?_⟩
    exact
      { sim with
        issued := fun userId hpos hle => by
          have hold := sim.issued userId hpos hle
          have hnew : db.userIdSeq ≤ aborted.userIdSeq := hseq
          simp only
          omega
        seqNonneg := by
          have hold := sim.seqNonneg
          have hnew : db.userIdSeq ≤ aborted.userIdSeq := hseq
          simp only
          omega }
  · exact hsame.elim
  · exact hsame.elim
  · exact ⟨hsame, ρ', agree, sim'⟩

end Bootstrap

/-! Whole runs. -/

section Runs
variable [JiffSqlx]

/-- The step breaks at most one of the two rules the stores check in different orders,
and no expiry is on the other side of `now` in its column. -/
def Comparable (s : Inner) : StoreOp → Prop
  | .createCredential credential => s.users[credential.username]? = none →
      s.credentials.contains credential.accessKeyId = false
  | .createExternalPrincipal username principalId => s.users[username]? = none →
      s.externalPrincipals.contains principalId = false
  | .deleteExpiredTokenIds now => ∀ (tokenId : String) (expiresAt : Timestamp),
      s.claimedTokenIds[tokenId]? = some expiresAt →
      ((JiffSqlx.toSqlx expiresAt).nanos ≤ (JiffSqlx.toSqlx now).nanos ↔
        expiresAt.nanos ≤ now.nanos)
  | _ => True

/-- Every step of a run is comparable. -/
def ComparableAlong : Inner → List StoreOp → Prop
  | _, [] => True
  | s, op :: ops => Comparable s op ∧ ComparableAlong (memStore.exec op s).2 ops

/-- Every operation of a run is answered the same by both stores. -/
def RunsAlike (ρ : Int → Int) : List StoreOp → Inner → Database → Prop
  | [], _, _ => True
  | op :: ops, s, db =>
      SameReply ρ op (memStore.exec op s).1 (pgStore.execRenamed ρ op db).1 ∧
        RunsAlike ρ ops (memStore.exec op s).2 (pgStore.execRenamed ρ op db).2

variable {ρ : Int → Int} {s : Inner} {db : Database}

theorem execRenamed_state (ρ : Int → Int) (op : StoreOp) (db : Database) :
    (pgStore.execRenamed ρ op db).2 = (Database.exec op db).2 := by
  cases op <;> rfl

namespace Sim

/-- A step keeps the stores in correspondence. -/
theorem exec_state (sim : Sim ρ s db) (near : ColumnKeepsDates) (op : StoreOp)
    (comparable : Comparable s op) :
    ∃ ρ', AgreeUpTo s.nextUserId ρ ρ' ∧ Sim ρ' (Inner.exec op s).2 (Database.exec op db).2 := by
  cases op with
  | createUser user => exact sim.createUser_state user
  | applyBootstrap plan => exact (sim.applyBootstrap plan).2
  | deleteUser username => exact ⟨ρ, .refl _ _, (sim.deleteUser username).state⟩
  | setFriendlyName username name =>
    exact ⟨ρ, .refl _ _, (sim.setFriendlyName username name).state⟩
  | createGroup group => exact ⟨ρ, .refl _ _, (sim.createGroup near group).state⟩
  | deleteGroup groupId => exact ⟨ρ, .refl _ _, (sim.deleteGroup groupId).state⟩
  | createPolicy policy => exact ⟨ρ, .refl _ _, (sim.createPolicy near policy).state⟩
  | updatePolicy policy => exact ⟨ρ, .refl _ _, (sim.updatePolicy near policy).state⟩
  | deletePolicy name => exact ⟨ρ, .refl _ _, (sim.deletePolicy name).state⟩
  | addMembership groupId username =>
    exact ⟨ρ, .refl _ _, (sim.addMembership groupId username).state⟩
  | removeMembership groupId username =>
    exact ⟨ρ, .refl _ _, (sim.removeMembership groupId username).state⟩
  | attachPolicyToUser username policy =>
    exact ⟨ρ, .refl _ _, (sim.attachPolicyToUser username policy).state⟩
  | detachPolicyFromUser username policy =>
    exact ⟨ρ, .refl _ _, (sim.detachPolicyFromUser username policy).state⟩
  | attachPolicyToGroup groupId policy =>
    exact ⟨ρ, .refl _ _, (sim.attachPolicyToGroup groupId policy).state⟩
  | detachPolicyFromGroup groupId policy =>
    exact ⟨ρ, .refl _ _, (sim.detachPolicyFromGroup groupId policy).state⟩
  | createCredential credential =>
    exact ⟨ρ, .refl _ _, (sim.createCredential near credential comparable).state⟩
  | deleteCredential username accessKeyId =>
    exact ⟨ρ, .refl _ _, (sim.deleteCredential username accessKeyId).state⟩
  | createExternalPrincipal username principalId =>
    exact ⟨ρ, .refl _ _, (sim.createExternalPrincipal username principalId comparable).state⟩
  | deleteExternalPrincipal username principalId =>
    exact ⟨ρ, .refl _ _, (sim.deleteExternalPrincipal username principalId).state⟩
  | claimTokenId tokenId expiresAt =>
    exact ⟨ρ, .refl _ _, (sim.claimTokenId tokenId expiresAt).state⟩
  | deleteExpiredTokenIds now =>
    exact ⟨ρ, .refl _ _, (sim.deleteExpiredTokenIds now comparable).2⟩
  | getUser _ | findUserById _ | findUserByEmail _ | findUserByExternalId _ | listUsers _
  | getGroup _ | listGroups _ | getPolicy _ | listPolicies _ | listGroupMembers _ _
  | listUserGroups _ _ | listUserPolicies _ _ | listEffectiveUserPolicies _ _
  | listGroupPolicies _ _ | getCredential _ | getUserCredential _ _ | listUserCredentials _ _
  | getExternalPrincipal _ | listUserExternalPrincipals _ _ | ping =>
    exact ⟨ρ, .refl _ _, sim⟩

/-- A step is answered the same, under any renaming that fits before and after it. -/
theorem exec_reply (sim : Sim ρ s db) (near : ColumnKeepsDates) (injective : ρ.Injective)
    (op : StoreOp) (comparable : Comparable s op)
    (after : Sim ρ (Inner.exec op s).2 (Database.exec op db).2) :
    SameReply ρ op (memStore.exec op s).1 (pgStore.execRenamed ρ op db).1 := by
  cases op with
  | createUser user => exact sim.createUser_answer near after
  | getUser username => exact sim.getUser near username
  | findUserById userId => exact sim.findUserById near injective userId
  | findUserByEmail email => exact sim.findUserByEmail near email
  | findUserByExternalId externalId => exact sim.findUserByExternalId near externalId
  | deleteUser username => exact (sim.deleteUser username).answer
  | listUsers query => exact sim.listUsers near query
  | setFriendlyName username name => exact (sim.setFriendlyName username name).answer
  | createGroup group => exact (sim.createGroup near group).answer
  | getGroup groupId => exact sim.getGroup near groupId
  | deleteGroup groupId => exact (sim.deleteGroup groupId).answer
  | listGroups query => exact sim.listGroups near query
  | createPolicy policy => exact (sim.createPolicy near policy).answer
  | getPolicy name => exact sim.getPolicy near name
  | updatePolicy policy => exact (sim.updatePolicy near policy).answer
  | deletePolicy name => exact (sim.deletePolicy name).answer
  | listPolicies query => exact sim.listPolicies near query
  | addMembership groupId username => exact (sim.addMembership groupId username).answer
  | removeMembership groupId username => exact (sim.removeMembership groupId username).answer
  | listGroupMembers groupId query => exact sim.listGroupMembers near groupId query
  | listUserGroups username query => exact sim.listUserGroups near username query
  | attachPolicyToUser username policy => exact (sim.attachPolicyToUser username policy).answer
  | detachPolicyFromUser username policy =>
    exact (sim.detachPolicyFromUser username policy).answer
  | listUserPolicies username query => exact sim.listUserPolicies near username query
  | listEffectiveUserPolicies username query =>
    exact sim.listEffectiveUserPolicies near username query
  | attachPolicyToGroup groupId policy => exact (sim.attachPolicyToGroup groupId policy).answer
  | detachPolicyFromGroup groupId policy =>
    exact (sim.detachPolicyFromGroup groupId policy).answer
  | listGroupPolicies groupId query => exact sim.listGroupPolicies near groupId query
  | createCredential credential =>
    exact (sim.createCredential near credential comparable).answer
  | getCredential accessKeyId => exact sim.getCredential near accessKeyId
  | getUserCredential username accessKeyId =>
    exact sim.getUserCredential near username accessKeyId
  | deleteCredential username accessKeyId =>
    exact (sim.deleteCredential username accessKeyId).answer
  | listUserCredentials username query => exact sim.listUserCredentials near username query
  | createExternalPrincipal username principalId =>
    exact (sim.createExternalPrincipal username principalId comparable).answer
  | deleteExternalPrincipal username principalId =>
    exact (sim.deleteExternalPrincipal username principalId).answer
  | getExternalPrincipal principalId => exact sim.getExternalPrincipal principalId
  | listUserExternalPrincipals username query =>
    exact sim.listUserExternalPrincipals username query
  | claimTokenId tokenId expiresAt => exact (sim.claimTokenId tokenId expiresAt).answer
  | deleteExpiredTokenIds now => exact (sim.deleteExpiredTokenIds now comparable).1
  | ping => exact rfl
  | applyBootstrap plan => exact (sim.applyBootstrap plan).1

/-- A renaming of the ids issued so far is one of all ids. -/
theorem extend (sim : Sim ρ s db) :
    ∃ ρ', AgreeUpTo s.nextUserId ρ ρ' ∧ ρ'.Injective := by
  have hseq := sim.seqNonneg
  have hcount := sim.ok.users.counter
  let ρ' (userId : Int) : Int :=
    if 1 ≤ userId ∧ userId ≤ s.nextUserId then ρ userId
    else if userId ≤ 0 then userId else userId + db.userIdSeq
  refine ⟨ρ', fun userId hpos hle => if_pos ⟨hpos, hle⟩, ?_⟩
  intro userId other heq
  by_cases h : 1 ≤ userId ∧ userId ≤ s.nextUserId <;>
    by_cases h' : 1 ≤ other ∧ other ≤ s.nextUserId
  · simp only [ρ', if_pos h, if_pos h'] at heq
    exact sim.distinct userId other h.1 h.2 h'.1 h'.2 heq
  · have hold := sim.issued userId h.1 h.2
    simp only [ρ', if_pos h, if_neg h'] at heq
    split at heq <;> omega
  · have hold := sim.issued other h'.1 h'.2
    simp only [ρ', if_neg h, if_pos h'] at heq
    split at heq <;> omega
  · simp only [ρ', if_neg h, if_neg h'] at heq
    split at heq <;> split at heq <;> omega

/-- The run fixes one renaming for all of its steps. -/
theorem runsAlike (sim : Sim ρ s db) (near : ColumnKeepsDates) (ops : List StoreOp)
    (comparable : ComparableAlong s ops) :
    ∃ ρ', AgreeUpTo s.nextUserId ρ ρ' ∧ ρ'.Injective ∧ RunsAlike ρ' ops s db := by
  induction ops generalizing ρ s db with
  | nil =>
    obtain ⟨ρ', agree, injective⟩ := sim.extend
    exact ⟨ρ', agree, injective, trivial⟩
  | cons op ops ih =>
    obtain ⟨ρ₁, agree, next⟩ := sim.exec_state near op comparable.1
    obtain ⟨ρ₂, agree', injective, alike⟩ := ih next comparable.2
    have hgrow := (s.exec_changes op).fresh.counter
    have hall := agree.trans agree' hgrow
    refine ⟨ρ₂, hall, injective, ?_, ?_⟩
    · exact (sim.of_agree hall).exec_reply near injective op comparable.1 (next.of_agree agree')
    · rw [execRenamed_state]
      exact alike

end Sim

/-- The two stores answer a run from empty tables the same, step by step, as long as its
steps are comparable. -/
theorem stores_agree (near : ColumnKeepsDates) (ops : List StoreOp)
    (comparable : ComparableAlong Inner.new ops) :
    ∃ ρ : Int → Int, ρ.Injective ∧ RunsAlike ρ ops Inner.new Database.new := by
  have start : Sim id Inner.new Database.new := sim_new
  obtain ⟨ρ, _, injective, alike⟩ := start.runsAlike near ops comparable
  exact ⟨ρ, injective, alike⟩

end Runs

/-- A column of microseconds since 2000-01-01. -/
@[reducible] def columnMicros : JiffSqlx where
  toSqlx time := ⟨946684800000000000 + (time.nanos - 946684800000000000).tdiv 1000 * 1000⟩

theorem columnMicros_near : @ColumnKeepsDates columnMicros := by
  intro time
  have hrest := Int.mul_tdiv_add_tmod (time.nanos - 946684800000000000) 1000
  have hlt := Int.tmod_lt_of_pos (time.nanos - 946684800000000000) (by decide : (0 : Int) < 1000)
  have hgt := Int.lt_tmod_of_pos (time.nanos - 946684800000000000) (by decide : (0 : Int) < 1000)
  constructor
  · change -1000000000 < time.nanos -
      (946684800000000000 + (time.nanos - 946684800000000000).tdiv 1000 * 1000)
    omega
  · change time.nanos -
      (946684800000000000 + (time.nanos - 946684800000000000).tdiv 1000 * 1000) < 1000000000
    omega

/-- Credentials for a user, read back, and refused for one that is missing. -/
def credentialRun : List StoreOp :=
  [.createUser (.named "ann"), .createCredential ⟨"key", "ann", [1], ⟨1⟩⟩, .getCredential "key",
    .createCredential ⟨"other", "bob", [2], ⟨2⟩⟩, .deleteUser "ann", .getCredential "key"]

theorem stores_agree_credentialRun : ∃ ρ : Int → Int, ρ.Injective ∧
    @RunsAlike columnMicros ρ credentialRun Inner.new Database.new :=
  @stores_agree columnMicros columnMicros_near credentialRun
    ⟨trivial, fun _ => by decide, trivial, fun _ => by decide, trivial, trivial,
      trivial⟩

/-- An access key that is taken, for a user that is missing. -/
theorem taken_key_of_missing_user_differs :
    ¬ ∀ (ops : List StoreOp), ∃ ρ : Int → Int, ρ.Injective ∧
      @RunsAlike columnMicros ρ ops Inner.new Database.new := by
  intro h
  obtain ⟨ρ, _, _, _, hthird, _⟩ := h [.createUser (.named "ann"),
    .createCredential ⟨"key", "ann", [1], ⟨1⟩⟩, .createCredential ⟨"key", "bob", [2], ⟨2⟩⟩]
  have hclass : OutcomeClass.NotFound = OutcomeClass.AlreadyExists := hthird
  cases hclass

end LakeFsAuth.Authz.Store.Mem
