import LakeFsAuth.Authz.Store.BootstrapOps

/-! What a bootstrap run does to the in-memory store: it only adds rows, those of
its plan, it leaves every entry of its plan behind, it counts each entry once,
and a second run finds nothing to do. -/
namespace LakeFsAuth.Authz.Store.Mem
open Std Relation Library Library.Fallible Library.OrderedMap BootstrapWriter

/-- Every row of one table is a row of the other, unchanged. -/
def Kept (table table' : BTreeMap α) : Prop :=
  ∀ (k : String) (row : α), table[k]? = some row → table'[k]? = some row

theorem Kept.refl (table : BTreeMap α) : Kept table table := fun _ _ h => h

theorem Kept.insert {table : BTreeMap α} {k : String} (row : α) (free : table[k]? = none) :
    Kept table (table.insert k row) := by
  intro a old hold
  rw [get_insert, if_neg]
  · exact hold
  · rintro rfl
    rw [free] at hold
    cases hold

/-- No row is changed or removed. -/
structure Grows (s s' : Inner) : Prop where
  users : Kept s.users s'.users
  groups : Kept s.groups s'.groups
  policies : Kept s.policies s'.policies
  credentials : Kept s.credentials s'.credentials
  externalPrincipals : Kept s.externalPrincipals s'.externalPrincipals
  claimedTokenIds : Kept s.claimedTokenIds s'.claimedTokenIds
  groupMembers : ∀ pair, pair ∈ s.groupMembers → pair ∈ s'.groupMembers
  userPolicies : ∀ pair, pair ∈ s.userPolicies → pair ∈ s'.userPolicies
  groupPolicies : ∀ pair, pair ∈ s.groupPolicies → pair ∈ s'.groupPolicies

theorem Grows.refl (s : Inner) : Grows s s :=
  ⟨.refl _, .refl _, .refl _, .refl _, .refl _, .refl _, fun _ h => h, fun _ h => h,
    fun _ h => h⟩

theorem Grows.trans {s mid s' : Inner} (h : Grows s mid) (h' : Grows mid s') : Grows s s' where
  users k row hrow := h'.users k row (h.users k row hrow)
  groups k row hrow := h'.groups k row (h.groups k row hrow)
  policies k row hrow := h'.policies k row (h.policies k row hrow)
  credentials k row hrow := h'.credentials k row (h.credentials k row hrow)
  externalPrincipals k row hrow := h'.externalPrincipals k row (h.externalPrincipals k row hrow)
  claimedTokenIds k row hrow := h'.claimedTokenIds k row (h.claimedTokenIds k row hrow)
  groupMembers pair hmem := h'.groupMembers pair (h.groupMembers pair hmem)
  userPolicies pair hmem := h'.userPolicies pair (h.userPolicies pair hmem)
  groupPolicies pair hmem := h'.groupPolicies pair (h.groupPolicies pair hmem)

instance : Std.Refl Grows := ⟨Grows.refl⟩
instance : IsTrans Inner Grows := ⟨fun _ _ _ => Grows.trans⟩

/-! What it means for an entry to be in place. -/

namespace Settled

def policy (policy : NewPolicy) (s : Inner) : Prop :=
  ∃ row, s.policies[policy.name]? = some row

def group (group : NewGroup) (s : Inner) : Prop :=
  ∃ row, s.groups[group.id]? = some row

def user (user : NewUser) (s : Inner) : Prop :=
  ∃ row, s.users[user.username]? = some row ∧ user.sameIdentityAs row = true

def membership (entry : String × String) (s : Inner) : Prop :=
  entry ∈ s.groupMembers ∧ (∃ group, s.groups[entry.1]? = some group) ∧
    ∃ user, s.users[entry.2]? = some user

def userPolicy (entry : String × String) (s : Inner) : Prop :=
  entry ∈ s.userPolicies ∧ (∃ user, s.users[entry.1]? = some user) ∧
    ∃ policy, s.policies[entry.2]? = some policy

def groupPolicy (entry : String × String) (s : Inner) : Prop :=
  entry ∈ s.groupPolicies ∧ (∃ group, s.groups[entry.1]? = some group) ∧
    ∃ policy, s.policies[entry.2]? = some policy

def credential (credential : NewCredential) (s : Inner) : Prop :=
  ∃ row, s.credentials[credential.accessKeyId]? = some row ∧ row.username = credential.username

end Settled

/-- One kind of insert: a success leaves its entry in place for good, and an
entry in place makes it a skip. -/
structure Insert {α : Type} (insert : α → StoreM Inner Bool) (Settled : α → Inner → Prop) :
    Prop where
  first : ∀ {a s done s'}, exec (insert a) s = (.ok done, s') →
    Grows s s' ∧ ∀ later, Grows s' later → Settled a later
  again : ∀ {a s}, Settled a s → exec (insert a) s = (.ok false, s)

/-- A row that is inserted unless its key is there. -/
theorem row_insert {New Row : Type} {insert : New → StoreM Inner Bool} {table : Inner → BTreeMap Row}
    {key : New → String} (row : New → Row) (stored : Inner → New → Inner)
    (run : ∀ new s, exec (insert new) s =
      if (table s).contains (key new) then (.ok false, s) else (.ok true, stored s new))
    (kept : ∀ {s later}, Grows s later → Kept (table s) (table later))
    (grows : ∀ s new, (table s)[key new]? = none → Grows s (stored s new))
    (holds : ∀ s new, (table (stored s new))[key new]? = some (row new)) :
    Insert insert fun new s => ∃ row, (table s)[key new]? = some row := by
  constructor
  · intro new s done s' h
    rw [run] at h
    split at h
    · rename_i hstored
      cases h
      obtain ⟨row, hrow⟩ := (contains_iff _ _).mp hstored
      exact ⟨.refl s, fun later after => ⟨row, kept after _ row hrow⟩⟩
    · rename_i hfree
      cases h
      have free := (not_contains_iff _ _).mp (Bool.not_eq_true _ ▸ hfree)
      exact ⟨grows s new free, fun later after => ⟨row new, kept after _ _ (holds s new)⟩⟩
  · rintro new s ⟨row, hrow⟩
    rw [run, if_pos ((contains_iff _ _).mpr ⟨row, hrow⟩)]

theorem insertPolicy_insert : Insert insertPolicyIfMissing Settled.policy := by
  let row (policy : NewPolicy) : PolicyRecord :=
    ⟨policy.name, policy.creationDate, policy.statement, policy.acl⟩
  apply row_insert row
    (fun s policy => { s with policies := s.policies.insert policy.name (row policy) }) _
    (fun grows => grows.policies)
  · exact fun s policy free => { Grows.refl s with policies := .insert _ free }
  · intro s policy
    rw [get_insert, if_pos rfl]
  · intro policy s
    change (if s.policies.contains policy.name then (.ok false, s)
      else andReturn (s.insertPolicy policy) true : StoreResult Bool × Inner) = _
    split
    · rfl
    · rename_i hfree
      rw [Inner.insertPolicy, if_neg hfree]
      rfl

theorem insertGroup_insert : Insert insertGroupIfMissing Settled.group := by
  let row (group : NewGroup) : GroupRecord := ⟨group.id, group.description, group.creationDate⟩
  apply row_insert row (fun s group => { s with groups := s.groups.insert group.id (row group) }) _
    (fun grows => grows.groups)
  · exact fun s group free => { Grows.refl s with groups := .insert _ free }
  · intro s group
    rw [get_insert, if_pos rfl]
  · intro group s
    change (if s.groups.contains group.id then (.ok false, s)
      else andReturn (s.insertGroup group) true : StoreResult Bool × Inner) = _
    split
    · rfl
    · rename_i hfree
      rw [Inner.insertGroup, if_neg hfree]
      rfl

theorem applyUser_insert : Insert applyUser Settled.user := by
  constructor
  · intro user s done s' h
    obtain ⟨existing, mid, hinsert, hrest⟩ := exec_bind_ok h
    rw [insertUserIfMissing_eq] at hinsert
    split at hinsert
    · rename_i row hrow
      cases hinsert
      dsimp only at hrest
      split at hrest
      · rename_i hsame
        cases hrest
        exact ⟨.refl s, fun later grows => ⟨row, grows.users _ row hrow, hsame⟩⟩
      · cases hrest
    · rename_i free
      rcases s.insertUser_cases user with ⟨_, hstored⟩ | ⟨_, entity, id, hrefused⟩
      · rw [hstored] at hinsert
        cases hinsert
        cases hrest
        refine ⟨{ Grows.refl s with users := .insert _ free }, fun later grows => ?_⟩
        refine ⟨_, grows.users _ _ (by rw [Inner.withUser, get_insert, if_pos rfl]), ?_⟩
        exact beq_self_eq_true user.externalId
      · rw [hrefused] at hinsert
        cases hinsert
  · rintro user s ⟨row, hrow, hsame⟩
    have hinsert : exec (insertUserIfMissing user) s = (.ok (some row), s) := by
      rw [insertUserIfMissing_eq, hrow]
    unfold applyUser
    rw [exec_bind, hinsert]
    dsimp only
    rw [if_pos hsame]
    rfl

theorem applyCredential_insert : Insert applyCredential Settled.credential := by
  constructor
  · intro credential s done s' h
    obtain ⟨existing, mid, hinsert, hrest⟩ := exec_bind_ok h
    rw [insertCredentialIfMissing_eq] at hinsert
    split at hinsert
    · rename_i row hrow
      cases hinsert
      dsimp only at hrest
      split at hrest
      · rename_i hsame
        cases hrest
        exact ⟨.refl s, fun later grows => ⟨row, grows.credentials _ row hrow, hsame⟩⟩
      · cases hrest
    · rename_i free
      unfold Inner.insertCredential at hinsert
      split at hinsert
      · cases hinsert
      · rw [if_neg (by rw [(not_contains_iff _ _).mpr free]; exact Bool.false_ne_true)] at hinsert
        cases hinsert
        cases hrest
        refine ⟨{ Grows.refl s with credentials := .insert _ free }, fun later grows => ?_⟩
        exact ⟨_, grows.credentials _ _ (by rw [get_insert, if_pos rfl]), rfl⟩
  · rintro credential s ⟨row, hrow, hsame⟩
    have hinsert : exec (insertCredentialIfMissing credential) s = (.ok (some row), s) := by
      rw [insertCredentialIfMissing_eq, hrow]
    unfold applyCredential
    rw [exec_bind, hinsert]
    dsimp only
    rw [if_pos hsame]
    rfl

/-- A link that is inserted where both its ends are. -/
theorem link_insert {Left Right : Type} {left : Inner → BTreeMap Left} {right : Inner → BTreeMap Right}
    {links : Inner → PairSet} {attach : Inner → String → String → StoreResult Unit × Inner}
    (linked : Inner → String × String → Inner)
    (present : ∀ s first second, (left s).contains first = true → (right s).contains second = true →
      attach s first second = (.ok (), linked s (first, second)))
    (missing : ∀ s first second, (left s).contains first = false ∨ (right s).contains second = false →
      ∃ entity id, attach s first second = (.error (.notFound entity id), s))
    (keptLeft : ∀ {s later}, Grows s later → Kept (left s) (left later))
    (keptRight : ∀ {s later}, Grows s later → Kept (right s) (right later))
    (keptLinks : ∀ {s later}, Grows s later → ∀ pair, pair ∈ links s → pair ∈ links later)
    (grows : ∀ s pair, Grows s (linked s pair)) (holds : ∀ s pair, pair ∈ links (linked s pair))
    (again : ∀ s pair, pair ∈ links s → linked s pair = s) :
    Insert (fun (pair : String × String) s =>
        andReturn (attach s pair.1 pair.2) (!(links s).contains pair))
      fun pair s => pair ∈ links s ∧ (∃ row, (left s)[pair.1]? = some row) ∧
        ∃ row, (right s)[pair.2]? = some row := by
  constructor
  · intro pair s done s' h
    change andReturn (attach s pair.1 pair.2) _ = _ at h
    by_cases ends : (left s).contains pair.1 = true ∧ (right s).contains pair.2 = true
    · obtain ⟨hfirst, hsecond⟩ := ends
      rw [present s _ _ hfirst hsecond] at h
      cases h
      obtain ⟨first, hleft⟩ := (contains_iff _ _).mp hfirst
      obtain ⟨second, hright⟩ := (contains_iff _ _).mp hsecond
      have grown := grows s pair
      refine ⟨grown, fun later after => ⟨keptLinks after _ (holds s pair), ?_, ?_⟩⟩
      · exact ⟨first, keptLeft (grown.trans after) _ _ hleft⟩
      · exact ⟨second, keptRight (grown.trans after) _ _ hright⟩
    · obtain ⟨entity, id, hrefused⟩ := missing s pair.1 pair.2 (by
        rwa [← Bool.not_eq_true, ← Bool.not_eq_true, ← not_and_or])
      rw [hrefused] at h
      cases h
  · rintro pair s ⟨hmem, hleft, hright⟩
    change andReturn (attach s pair.1 pair.2) _ = _
    rw [present s _ _ ((contains_iff _ _).mpr hleft) ((contains_iff _ _).mpr hright), again s _ hmem,
      ExtTreeSet.contains_iff_mem.mpr hmem]
    rfl

theorem insertMembership_insert :
    Insert (fun (groupId, username) => insertMembershipIfMissing groupId username)
      Settled.membership := by
  apply link_insert
    (fun s pair => { s with groupMembers := s.groupMembers.insert pair })
    (fun s groupId username => (s.addMembership_cases groupId username).1)
    (fun s groupId username => (s.addMembership_cases groupId username).2)
    (fun grows => grows.groups) (fun grows => grows.users) (fun grows => grows.groupMembers)
  · exact fun s pair =>
      { Grows.refl s with groupMembers := fun _ hmem => (mem_insert _ _ _).mpr (.inr hmem) }
  · exact fun s pair => (mem_insert _ _ _).mpr (.inl rfl)
  · intro s pair hmem
    rw [insert_of_mem _ _ hmem]

theorem insertUserPolicy_insert :
    Insert (fun (username, policy) => insertUserPolicyIfMissing username policy)
      Settled.userPolicy := by
  apply link_insert
    (fun s pair => { s with userPolicies := s.userPolicies.insert pair })
    (fun s username policy => (s.attachPolicyToUser_cases username policy).1)
    (fun s username policy => (s.attachPolicyToUser_cases username policy).2)
    (fun grows => grows.users) (fun grows => grows.policies) (fun grows => grows.userPolicies)
  · exact fun s pair =>
      { Grows.refl s with userPolicies := fun _ hmem => (mem_insert _ _ _).mpr (.inr hmem) }
  · exact fun s pair => (mem_insert _ _ _).mpr (.inl rfl)
  · intro s pair hmem
    rw [insert_of_mem _ _ hmem]

theorem insertGroupPolicy_insert :
    Insert (fun (groupId, policy) => insertGroupPolicyIfMissing groupId policy)
      Settled.groupPolicy := by
  apply link_insert
    (fun s pair => { s with groupPolicies := s.groupPolicies.insert pair })
    (fun s groupId policy => (s.attachPolicyToGroup_cases groupId policy).1)
    (fun s groupId policy => (s.attachPolicyToGroup_cases groupId policy).2)
    (fun grows => grows.groups) (fun grows => grows.policies) (fun grows => grows.groupPolicies)
  · exact fun s pair =>
      { Grows.refl s with groupPolicies := fun _ hmem => (mem_insert _ _ _).mpr (.inr hmem) }
  · exact fun s pair => (mem_insert _ _ _).mpr (.inl rfl)
  · intro s pair hmem
    rw [insert_of_mem _ _ hmem]

/-! Counting. -/

/-- Entries of one category a report accounts for. -/
def total (report : BootstrapReport) (category : Category) : Nat :=
  (report.created.get category).toNat + (report.skipped.get category).toNat

theorem total_zero (category : Category) : total .zero category = 0 := by
  simp [total, BootstrapReport.zero]

private theorem toNat_succ (n : UInt32) (h : n.toNat + 1 < 2 ^ 32) :
    (n + 1).toNat = n.toNat + 1 := by
  rw [UInt32.toNat_add, Nat.mod_eq_of_lt (by simpa using h)]
  rfl

/-- Counting an entry adds one to its category, whichever counter it goes to. -/
theorem total_count (report : BootstrapReport) (category other : Category) (done : Bool)
    (fits : total report category + 1 < 2 ^ 32) :
    total (report.count category done) other =
      total report other + if other = category then 1 else 0 := by
  unfold total at fits ⊢
  by_cases hsame : other = category
  · subst hsame
    cases done with
    | true =>
      have hsucc := toNat_succ (report.created.get other) (by omega)
      simp [BootstrapReport.count, tally, hsucc]
      omega
    | false =>
      have hsucc := toNat_succ (report.skipped.get other) (by omega)
      simp [BootstrapReport.count, tally, hsucc]
      omega
  · simp [BootstrapReport.count, hsame]

/-- A skip leaves the created counters alone. -/
theorem created_count_skip (report : BootstrapReport) (category : Category) :
    (report.count category false).created = report.created := by
  simp [BootstrapReport.count, tally]

/-- A stretch of a bootstrap run: what its entries leave behind, that a second
pass over them only skips, and how many it counts in each category. -/
structure Stage (run : BootstrapReport → StoreM Inner BootstrapReport) (Settled : Inner → Prop)
    (entries : Category → Nat) : Prop where
  first : ∀ {report s report' s'}, exec (run report) s = (.ok report', s') →
    Grows s s' ∧ ∀ later, Grows s' later → Settled later
  again : ∀ {s}, Settled s → ∀ report,
    ∃ report', exec (run report) s = (.ok report', s) ∧ report'.created = report.created
  counts : ∀ {report s report' s'}, exec (run report) s = (.ok report', s') →
    (∀ category, total report category + entries category < 2 ^ 32) →
    ∀ category, total report' category = total report category + entries category

theorem Stage.bind {run rest : BootstrapReport → StoreM Inner BootstrapReport}
    {Settled Settled' : Inner → Prop} {entries entries' : Category → Nat}
    (hrun : Stage run Settled entries) (hrest : Stage rest Settled' entries') :
    Stage (fun report => run report >>= rest) (fun s => Settled s ∧ Settled' s)
      (fun category => entries category + entries' category) := by
  constructor
  · intro report s report' s' h
    obtain ⟨mid, between, hfirst, hsecond⟩ := exec_bind_ok h
    have hhead := hrun.first hfirst
    have htail := hrest.first hsecond
    exact ⟨hhead.1.trans htail.1, fun later grows =>
      ⟨hhead.2 later (htail.1.trans grows), htail.2 later grows⟩⟩
  · rintro s ⟨hsettled, hsettled'⟩ report
    obtain ⟨mid, hfirst, hmid⟩ := hrun.again hsettled report
    obtain ⟨report', hsecond, hreport'⟩ := hrest.again hsettled' mid
    refine ⟨report', ?_, hreport'.trans hmid⟩
    rw [exec_bind, hfirst]
    exact hsecond
  · intro report s report' s' h fits category
    obtain ⟨mid, between, hfirst, hsecond⟩ := exec_bind_ok h
    have hmid := hrun.counts hfirst fun category => by
      have := fits category
      omega
    have hlast := hrest.counts hsecond (fun category => by
      have := fits category
      rw [hmid category]
      omega) category
    rw [hlast, hmid category]
    omega

theorem Insert.stage {α : Type} {insert : α → StoreM Inner Bool} {Settled : α → Inner → Prop}
    (spec : Insert insert Settled) (category : Category) (entries : List α) :
    Stage (applyEach category insert entries) (fun s => ∀ entry ∈ entries, Settled entry s)
      (fun other => if other = category then entries.length else 0) := by
  constructor
  · intro report s report' s' h
    obtain ⟨grows, settled⟩ := foldlM_settles (R := Grows) (S := Settled) (by
      intro acc entry s acc' s' hround
      obtain ⟨done, mid, hinsert, hcount⟩ := exec_bind_ok hround
      cases hcount
      exact spec.first hinsert) h
    exact ⟨grows, fun later hlater entry hentry => settled entry hentry later hlater⟩
  · intro s settled report
    refine ⟨_, foldlM_stays (g := fun report _ => report.count category false) report ?_, ?_⟩
    · intro entry hentry acc
      rw [exec_bind, spec.again (settled entry hentry)]
      rfl
    · induction entries generalizing report with
      | nil => rfl
      | cons entry rest ih =>
        rw [List.foldl_cons, ih (fun e he => settled e (List.mem_cons_of_mem _ he)),
          created_count_skip]
  · intro report s report' s' h fits other
    unfold applyEach at h
    induction entries generalizing report s with
    | nil =>
      cases h
      simp
    | cons entry rest ih =>
      rw [List.foldlM_cons] at h
      obtain ⟨mid, between, hround, hrest⟩ := exec_bind_ok h
      obtain ⟨done, inserted, hinsert, hcount⟩ := exec_bind_ok hround
      cases hcount
      have hfits := fits category
      rw [if_pos rfl, List.length_cons] at hfits
      have hone := fun other => total_count report category other done (by omega)
      rw [ih hrest, hone other]
      · split
        · rw [List.length_cons]
          omega
        · rfl
      · intro other'
        have := fits other'
        rw [hone other']
        split
        · rename_i heq
          rw [if_pos heq, List.length_cons] at this
          omega
        · rename_i hne
          rwa [if_neg hne] at this

/-! The whole plan. -/

/-- Every entry of the plan is in place. -/
structure Applied (plan : BootstrapPlan) (s : Inner) : Prop where
  policies : ∀ policy ∈ plan.policies, Settled.policy policy s
  groups : ∀ group ∈ plan.groups, Settled.group group s
  users : ∀ user ∈ plan.users, Settled.user user s
  memberships : ∀ entry ∈ plan.memberships, Settled.membership entry s
  userPolicies : ∀ entry ∈ plan.userPolicies, Settled.userPolicy entry s
  groupPolicies : ∀ entry ∈ plan.groupPolicies, Settled.groupPolicy entry s
  credentials : ∀ credential ∈ plan.credentials, Settled.credential credential s

theorem Stage.congr {run : BootstrapReport → StoreM Inner BootstrapReport}
    {Settled Settled' : Inner → Prop} {entries entries' : Category → Nat}
    (h : Stage run Settled entries) (hsettled : ∀ s, Settled s ↔ Settled' s)
    (hentries : ∀ category, entries category = entries' category) :
    Stage run Settled' entries' := by
  obtain rfl : entries = entries' := funext hentries
  obtain rfl : Settled = Settled' := funext fun s => propext (hsettled s)
  exact h

theorem applyPlan_stage (plan : BootstrapPlan) :
    ∃ run : BootstrapReport → StoreM Inner BootstrapReport,
      applyPlan plan = run .zero ∧ Stage run (Applied plan) plan.entries := by
  refine ⟨_, rfl, Stage.congr
    (.bind (insertPolicy_insert.stage .policies plan.policies)
    (.bind (insertGroup_insert.stage .groups plan.groups)
    (.bind (applyUser_insert.stage .users plan.users)
    (.bind (insertMembership_insert.stage .memberships plan.memberships)
    (.bind (insertUserPolicy_insert.stage .attachments plan.userPolicies)
    (.bind (insertGroupPolicy_insert.stage .attachments plan.groupPolicies)
    (applyCredential_insert.stage .credentials plan.credentials))))))) ?_ ?_⟩
  · intro s
    constructor
    · rintro ⟨policies, groups, users, memberships, userPolicies, groupPolicies, credentials⟩
      exact ⟨policies, groups, users, memberships, userPolicies, groupPolicies, credentials⟩
    · rintro ⟨policies, groups, users, memberships, userPolicies, groupPolicies, credentials⟩
      exact ⟨policies, groups, users, memberships, userPolicies, groupPolicies, credentials⟩
  · intro category
    cases category <;> simp [BootstrapPlan.entries]

/-! Where rows come from. -/

/-- A row of the later table is one of the earlier, or made for its key. -/
def Made {Row : Type} (made : String → Row → Prop) (table table' : BTreeMap Row) : Prop :=
  ∀ (k : String) (row : Row), table'[k]? = some row → table[k]? = some row ∨ made k row

/-- What is in the later store and was not in the earlier is as the plan has it. -/
structure AsPlanned (plan : BootstrapPlan) (s s' : Inner) : Prop where
  policies : Made (fun name row => ∃ policy ∈ plan.policies, policy.name = name ∧
    row = ⟨policy.name, policy.creationDate, policy.statement, policy.acl⟩) s.policies s'.policies
  groups : Made (fun id row => ∃ group ∈ plan.groups, group.id = id ∧
    row = ⟨group.id, group.description, group.creationDate⟩) s.groups s'.groups
  users : Made (fun username row => ∃ user ∈ plan.users, user.username = username ∧
    row = Inner.newRecord user row.userId) s.users s'.users
  credentials : Made (fun key row => ∃ credential ∈ plan.credentials, credential.accessKeyId = key ∧
    row = ⟨credential.accessKeyId, credential.username, row.userId, credential.secretCiphertext,
      credential.creationDate⟩) s.credentials s'.credentials
  externalPrincipals : s'.externalPrincipals = s.externalPrincipals
  claimedTokenIds : s'.claimedTokenIds = s.claimedTokenIds
  groupMembers : ∀ pair ∈ s'.groupMembers, pair ∈ s.groupMembers ∨ pair ∈ plan.memberships
  userPolicies : ∀ pair ∈ s'.userPolicies, pair ∈ s.userPolicies ∨ pair ∈ plan.userPolicies
  groupPolicies : ∀ pair ∈ s'.groupPolicies, pair ∈ s.groupPolicies ∨ pair ∈ plan.groupPolicies

theorem AsPlanned.refl (plan : BootstrapPlan) (s : Inner) : AsPlanned plan s s :=
  ⟨fun _ _ => .inl, fun _ _ => .inl, fun _ _ => .inl, fun _ _ => .inl, rfl, rfl, fun _ => .inl,
    fun _ => .inl, fun _ => .inl⟩

theorem mem_insert_planned {links links₀ : PairSet} {planned : List (String × String)}
    {pair : String × String} (h : ∀ pair ∈ links, pair ∈ links₀ ∨ pair ∈ planned)
    (own : pair ∈ planned) : ∀ other ∈ links.insert pair, other ∈ links₀ ∨ other ∈ planned := by
  intro other hother
  rcases (mem_insert _ _ _).mp hother with rfl | hold
  · exact .inr own
  · exact h other hold

theorem AsPlanned.step {plan : BootstrapPlan} {s₀ s : Inner} {op : StoreOp} (planned : op ∈ plan.ops)
    (h : AsPlanned plan s₀ s) : AsPlanned plan s₀ (Inner.exec op s).2 := by
  simp only [BootstrapPlan.ops, List.mem_append, List.mem_map] at planned
  rcases planned with (((((⟨policy, hmem, rfl⟩ | ⟨group, hmem, rfl⟩) | ⟨user, hmem, rfl⟩) |
    ⟨⟨groupId, username⟩, hmem, rfl⟩) | ⟨⟨username, policy⟩, hmem, rfl⟩) |
    ⟨⟨groupId, policy⟩, hmem, rfl⟩) | ⟨credential, hmem, rfl⟩
  · change AsPlanned plan s₀ (s.insertPolicy policy).2
    unfold Inner.insertPolicy
    split
    · exact h
    · exact { h with policies := rows_insert h.policies (.inr ⟨policy, hmem, rfl, rfl⟩) }
  · change AsPlanned plan s₀ (s.insertGroup group).2
    unfold Inner.insertGroup
    split
    · exact h
    · exact { h with groups := rows_insert h.groups (.inr ⟨group, hmem, rfl, rfl⟩) }
  · change AsPlanned plan s₀ (s.insertUser user).2
    rcases s.insertUser_cases user with ⟨_, hstored⟩ | ⟨_, entity, id, hrefused⟩
    · rw [hstored]
      exact { h with users := rows_insert h.users (.inr ⟨user, hmem, rfl, rfl⟩) }
    · rwa [hrefused]
  · change AsPlanned plan s₀ (s.addMembership groupId username).2
    unfold Inner.addMembership
    split
    · exact h
    · exact h
    · exact { h with groupMembers := mem_insert_planned h.groupMembers hmem }
  · change AsPlanned plan s₀ (s.attachPolicyToUser username policy).2
    unfold Inner.attachPolicyToUser
    split
    · exact h
    · exact h
    · exact { h with userPolicies := mem_insert_planned h.userPolicies hmem }
  · change AsPlanned plan s₀ (s.attachPolicyToGroup groupId policy).2
    unfold Inner.attachPolicyToGroup
    split
    · exact h
    · exact h
    · exact { h with groupPolicies := mem_insert_planned h.groupPolicies hmem }
  · change AsPlanned plan s₀ (s.insertCredential credential).2
    unfold Inner.insertCredential
    split
    · exact h
    · split
      · exact h
      · exact { h with credentials := rows_insert h.credentials (.inr ⟨credential, hmem, rfl, rfl⟩) }

theorem Inner.applyBootstrap_asPlanned (self : Inner) (plan : BootstrapPlan) :
    AsPlanned plan self (self.applyBootstrap plan).2 :=
  (self.applyBootstrap_along plan).keeps (fun _ _ planned h => h.step planned) (.refl plan self)

/-- A bootstrap run is atomic, adds only what its plan has, accounts for every entry of its plan,
and finds nothing to do the second time. -/
theorem applyBootstrap_adds_and_settles (self : Inner) (plan : BootstrapPlan)
    (small : plan.size < 2 ^ 32) :
    (∀ error, (self.applyBootstrap plan).1 = .error error →
      (self.applyBootstrap plan).2 = self) ∧
    ∀ report next, self.applyBootstrap plan = (.ok report, next) →
      Grows self next ∧ Applied plan next ∧ AsPlanned plan self next ∧
      (∀ category, (report.created.get category).toNat + (report.skipped.get category).toNat =
        plan.entries category) ∧
      ∃ report', next.applyBootstrap plan = (.ok report', next) ∧
        ∀ category, report'.created.get category = 0 ∧
          (report'.skipped.get category).toNat = plan.entries category := by
  refine ⟨(self.applyBootstrap_sound plan).failed, ?_⟩
  intro report next h
  obtain ⟨run, hrun, stage⟩ := applyPlan_stage plan
  have fits : ∀ category, total .zero category + plan.entries category < 2 ^ 32 := by
    intro category
    have := plan.entries_le_size category
    rw [total_zero]
    omega
  have hfirst : exec (run .zero) self = (.ok report, next) := by
    rw [← hrun]
    unfold Inner.applyBootstrap at h
    split at h
    · rename_i report' inner hexec
      rw [hexec, h]
    · cases h
  obtain ⟨grows, settled⟩ := stage.first hfirst
  have applied := settled next (.refl next)
  have hcounts := stage.counts hfirst fits
  obtain ⟨report', hagain, hcreated⟩ := stage.again applied .zero
  have hcounts' := stage.counts hagain fits
  have planned := self.applyBootstrap_asPlanned plan
  rw [h] at planned
  refine ⟨grows, applied, planned, ?_, report', ?_, ?_⟩
  · intro category
    have := hcounts category
    rwa [total_zero, Nat.zero_add] at this
  · unfold Inner.applyBootstrap
    rw [hrun, hagain]
  · intro category
    have hzero : report'.created.get category = 0 := by
      rw [hcreated]
      exact BootstrapCounts.get_zero category
    have := hcounts' category
    rw [total_zero, Nat.zero_add] at this
    refine ⟨hzero, ?_⟩
    rw [← this, total, hzero]
    simp

/-- A plan that names one user and one group, twice over. -/
theorem applyBootstrap_adds_and_settles_repeated :
    ∃ report next, Inner.new.applyBootstrap
        ⟨[], [⟨"g", none, ⟨0⟩⟩, ⟨"g", none, ⟨0⟩⟩], [.named "u", .named "u"],
          [("g", "u"), ("g", "u")], [], [], []⟩ = (.ok report, next) ∧
      (report.created.get .users).toNat + (report.skipped.get .users).toNat = 2 :=
  ⟨_, _, rfl, ((applyBootstrap_adds_and_settles Inner.new
    ⟨[], [⟨"g", none, ⟨0⟩⟩, ⟨"g", none, ⟨0⟩⟩], [.named "u", .named "u"],
      [("g", "u"), ("g", "u")], [], [], []⟩ (by decide)).2 _ _ rfl).2.2.2.1 .users⟩

end LakeFsAuth.Authz.Store.Mem
