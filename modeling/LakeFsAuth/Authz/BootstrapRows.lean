import LakeFsAuth.Authz.Bootstrap
import LakeFsAuth.Authz.Handlers
import Mathlib.Data.List.Forall2

/-! A bootstrap file next to the API: what each row of a plan comes from, and what the API
would store for the same inputs. -/
namespace LakeFsAuth.Authz.Bootstrap
open LakeFsAuth.Core Core.Error Core.Model Core.Text Core.Validate Store Api Library.Fallible

/-- The store operation an action comes to first, when the clock reads `date`. -/
def asks {α : Type} (date : Timestamp) : Action α → Option StoreOp
  | .done _ => none
  | .call (.store op) _ => some op
  | .call .now next => asks date (next date)
  | .call (.attempt _) _ => none

@[simp] theorem asks_now {α : Type} (date : Timestamp) (next : Timestamp → Action α) :
    asks date (now >>= next) = asks date (next date) := rfl

@[simp] theorem asks_store {α : Type} (date : Timestamp) (op : StoreOp)
    (next : op.Reply → Action α) : asks date (store op >>= next) = some op := rfl

inductive Kind where
  | policy
  | group
  | user
  | membership
  | userPolicy
  | groupPolicy
  | credential
  deriving DecidableEq

/-- One row a file asks for. -/
inductive Entry where
  | policy (spec : PolicySpec)
  | group (spec : GroupSpec)
  | user (spec : UserSpec)
  | membership (groupId username : String)
  | userPolicy (username policy : String)
  | groupPolicy (groupId policy : String)
  | credential (username : String) (spec : CredentialSpec)

def Entry.kind : Entry → Kind
  | policy _ => .policy
  | group _ => .group
  | user _ => .user
  | membership _ _ => .membership
  | userPolicy _ _ => .userPolicy
  | groupPolicy _ _ => .groupPolicy
  | credential _ _ => .credential

/-- The rows of a group, in the order of the code. -/
def GroupSpec.entries (group : GroupSpec) : List Entry :=
  group.policies.map (.groupPolicy group.id) ++ [.group group]

def UserSpec.entries (user : UserSpec) : List Entry :=
  user.groups.map (.membership · user.username) ++ user.policies.map (.userPolicy user.username) ++
    user.credentials.map (.credential user.username) ++ [.user user]

def BootstrapFile.entries (file : BootstrapFile) : List Entry :=
  file.policies.map .policy ++ file.groups.flatMap GroupSpec.entries ++
    file.users.flatMap UserSpec.entries

/-- The rows of a plan of one kind, as the calls that store them. -/
def rowsOf (plan : BootstrapPlan) : Kind → List StoreOp
  | .policy => plan.policies.map .createPolicy
  | .group => plan.groups.map .createGroup
  | .user => plan.users.map .createUser
  | .membership => plan.memberships.map fun (groupId, username) => .addMembership groupId username
  | .userPolicy => plan.userPolicies.map fun (username, policy) => .attachPolicyToUser username policy
  | .groupPolicy => plan.groupPolicies.map fun (groupId, policy) => .attachPolicyToGroup groupId policy
  | .credential => plan.credentials.map .createCredential

section Stored
variable [SecretBox.Aes256Gcm] [SerdeJson] (env : String → Option String) (now : Timestamp)

/-- The body of `POST /auth/policies` with the inputs of an entry. -/
def PolicySpec.body (policy : PolicySpec) : Policy :=
  ⟨policy.name, none, policy.statement, policy.acl⟩

def GroupSpec.body (group : GroupSpec) : GroupCreation := ⟨group.id, group.description⟩

def UserSpec.body (user : UserSpec) : UserCreation where
  username := user.username
  email := user.email
  friendlyName := user.friendlyName
  source := user.source
  encryptedPassword := none
  externalId := user.externalId
  invite := none

/-- The API call with the inputs of an entry stores this row, under names that are valid. What
the generators draw for a key does not matter, the nonce of its secret apart. -/
def Entry.Stored (entry : Entry) (row : StoreOp) : Prop :=
  match entry with
  | .policy spec => ValidId spec.name ∧ asks now (Service.createPolicy spec.body) = some row
  | .group spec => ValidId spec.id ∧ asks now (Service.createGroup spec.body) = some row
  | .user spec => ValidId spec.username ∧ asks now (Service.createUser spec.body) = some row
  | .membership groupId username => ValidId groupId ∧ ValidId username ∧
      asks now (Handlers.addMembership groupId username) = some row
  | .userPolicy username name => ValidId username ∧ ValidId name ∧
      asks now (Handlers.attachPolicyToUser username name) = some row
  | .groupPolicy groupId name => ValidId groupId ∧ ValidId name ∧
      asks now (Handlers.attachPolicyToGroup groupId name) = some row
  | .credential username spec => ValidId username ∧ ∃ secret nonce,
      spec.resolveSecret env = .ok secret ∧ ∀ draw : Service.Draw, draw.nonce = nonce →
        asks now (Service.createCredentials draw username (some spec.accessKeyId) (some secret)) =
          some row

/-- What the plan has for an entry. -/
def Entry.Planned (entry : Entry) (row : StoreOp) : Prop :=
  match entry with
  | .credential username spec => ValidId username ∧ ∃ accessKeyId secret nonce record,
      nonBlank spec.accessKeyId = some accessKeyId ∧ spec.resolveSecret env = .ok secret ∧
      NewCredential.sealed username accessKeyId secret nonce now = .ok record ∧
      row = .createCredential record
  | entry => entry.Stored env now row

/-- The secret of a credential, a literal or a variable, is one that `non_blank` keeps as it is. -/
structure TidySecret (spec : CredentialSpec) : Prop where
  literal : ∀ secret, spec.secretAccessKey = some secret → nonBlank secret = some secret
  fromEnv : ∀ name secret, spec.secretAccessKeyEnv = some name → env name = some secret →
    nonBlank secret = some secret

def Entry.Tidy : Entry → Prop
  | .credential _ spec => TidySecret env spec
  | _ => True

end Stored

section Plan
variable [SecretBox.Aes256Gcm] [SerdeJson] {env : String → Option String}
  {nonces : Nat → SecretBox.Nonce} {now : Timestamp}

/-- The rows of a plan next to the entries they come from, kind by kind. -/
def Covers (env : String → Option String) (now : Timestamp) (entries : List Entry)
    (plan : BootstrapPlan) : Prop :=
  ∀ kind, List.Forall₂ (Entry.Planned env now) (entries.filter (·.kind = kind)) (rowsOf plan kind)

theorem Covers.snoc {entries : List Entry} {plan plan' : BootstrapPlan} {entry : Entry}
    {row : StoreOp} (covers : Covers env now entries plan) (planned : entry.Planned env now row)
    (grown : ∀ kind, rowsOf plan' kind = rowsOf plan kind ++ if entry.kind = kind then [row] else []) :
    Covers env now (entries ++ [entry]) plan' := by
  intro kind
  rw [grown, List.filter_append]
  apply List.rel_append (covers kind)
  by_cases h : entry.kind = kind
  · simpa [h] using planned
  · simp [h]

theorem policy_planned {policy : PolicySpec} {row : NewPolicy}
    (h : NewPolicy.validated policy.name policy.statement policy.acl now = .ok row) :
    Entry.Planned env now (.policy policy) (.createPolicy row) := by
  obtain ⟨_, hvalid, _⟩ := bind_ok h
  obtain ⟨_, hname, _⟩ := bind_ok hvalid
  refine ⟨(validateEntityId_ok_iff _ _).mp hname, ?_⟩
  have hbody : Service.validatedPolicy policy.body.name policy.body now none = .ok row := by
    have hacl : (policy.acl <|> none) = policy.acl := by simp
    change NewPolicy.validated policy.name policy.statement (policy.acl <|> none) now = .ok row
    rwa [hacl]
  simp only [Service.createPolicy, asks_now, hbody]
  rfl

theorem group_planned {group : GroupSpec} {row : NewGroup}
    (h : NewGroup.validated group.id group.description now = .ok row) :
    Entry.Planned env now (.group group) (.createGroup row) := by
  obtain ⟨_, hname, _⟩ := bind_ok h
  refine ⟨(validateEntityId_ok_iff _ _).mp hname, ?_⟩
  have hbody : NewGroup.validated group.body.id group.body.description now = .ok row := h
  simp only [Service.createGroup, asks_now, hbody]
  rfl

theorem user_planned {user : UserSpec} {row : NewUser}
    (h : NewUser.validated user.username user.fields now = .ok row) :
    Entry.Planned env now (.user user) (.createUser row) := by
  obtain ⟨_, hname, _⟩ := bind_ok h
  refine ⟨(validateEntityId_ok_iff _ _).mp hname, ?_⟩
  have hbody : Service.requestedUser user.body now = .ok row := h
  have hinvite : ¬ user.body.invite = some true := by simp [UserSpec.body]
  simp only [Service.createUser, hinvite, if_false, asks_now, hbody]
  rfl

theorem addPolicy_covers {entries : List Entry} {plan plan' : BootstrapPlan} {policy : PolicySpec}
    (h : addPolicy now plan policy = .ok plan') (covers : Covers env now entries plan) :
    Covers env now (entries ++ [.policy policy]) plan' := by
  obtain ⟨row, hrow, hrest⟩ := bind_ok h
  cases hrest
  apply covers.snoc (policy_planned (mapError_ok hrow))
  intro kind
  cases kind <;> simp [rowsOf, Entry.kind]

theorem addGroupPolicy_covers {entries : List Entry} {plan plan' : BootstrapPlan}
    {groupId policy : String} (valid : ValidId groupId)
    (h : addGroupPolicy groupId plan policy = .ok plan') (covers : Covers env now entries plan) :
    Covers env now (entries ++ [.groupPolicy groupId policy]) plan' := by
  obtain ⟨_, hname, hrest⟩ := bind_ok h
  cases hrest
  have hpolicy := (validateEntityId_ok_iff _ _).mp (mapError_ok hname)
  have planned : Entry.Planned env now (.groupPolicy groupId policy)
      (.attachPolicyToGroup groupId policy) := ⟨valid, hpolicy, rfl⟩
  apply covers.snoc planned
  intro kind
  cases kind <;> simp [rowsOf, Entry.kind]

theorem addMembership_covers {entries : List Entry} {plan plan' : BootstrapPlan}
    {username group : String} (valid : ValidId username)
    (h : addMembership username plan group = .ok plan') (covers : Covers env now entries plan) :
    Covers env now (entries ++ [.membership group username]) plan' := by
  obtain ⟨_, hname, hrest⟩ := bind_ok h
  cases hrest
  have hgroup := (validateEntityId_ok_iff _ _).mp (mapError_ok hname)
  have planned : Entry.Planned env now (.membership group username)
      (.addMembership group username) := ⟨hgroup, valid, rfl⟩
  apply covers.snoc planned
  intro kind
  cases kind <;> simp [rowsOf, Entry.kind]

theorem addUserPolicy_covers {entries : List Entry} {plan plan' : BootstrapPlan}
    {username policy : String} (valid : ValidId username)
    (h : addUserPolicy username plan policy = .ok plan') (covers : Covers env now entries plan) :
    Covers env now (entries ++ [.userPolicy username policy]) plan' := by
  obtain ⟨_, hname, hrest⟩ := bind_ok h
  cases hrest
  have hpolicy := (validateEntityId_ok_iff _ _).mp (mapError_ok hname)
  have planned : Entry.Planned env now (.userPolicy username policy)
      (.attachPolicyToUser username policy) := ⟨valid, hpolicy, rfl⟩
  apply covers.snoc planned
  intro kind
  cases kind <;> simp [rowsOf, Entry.kind]

theorem addCredential_covers {entries : List Entry} {plan plan' : BootstrapPlan}
    {username : String} {spec : CredentialSpec} (valid : ValidId username)
    (h : addCredential env nonces now username plan spec = .ok plan')
    (covers : Covers env now entries plan) :
    Covers env now (entries ++ [.credential username spec]) plan' := by
  unfold addCredential at h
  split at h
  · cases h
  · rename_i accessKeyId hkey
    obtain ⟨secret, hsecret, hrest⟩ := bind_ok h
    obtain ⟨row, hrow, hrest⟩ := bind_ok hrest
    cases hrest
    have planned : Entry.Planned env now (.credential username spec) (.createCredential row) :=
      ⟨valid, accessKeyId, secret, _, row, hkey, hsecret, mapError_ok hrow, rfl⟩
    apply covers.snoc planned
    intro kind
    cases kind <;> simp [rowsOf, Entry.kind]

/-- A group's own row comes after the rows of its policies. -/
theorem addGroup_covers {entries : List Entry} {plan plan' : BootstrapPlan} {group : GroupSpec}
    (h : addGroup now plan group = .ok plan') (covers : Covers env now entries plan) :
    Covers env now (entries ++ group.entries) plan' := by
  obtain ⟨mid, hpolicies, hrest⟩ := bind_ok h
  obtain ⟨row, hrow, hrest⟩ := bind_ok hrest
  cases hrest
  have planned : Entry.Planned env now (.group group) (.createGroup row) :=
    group_planned (mapError_ok hrow)
  have hmid := foldlM_ok_notes (Covers env now) (fun policy => [.groupPolicy group.id policy])
    (fun _ _ _ _ h covers => addGroupPolicy_covers planned.1 h covers) hpolicies covers
  rw [← List.map_eq_flatMap] at hmid
  unfold GroupSpec.entries
  rw [← List.append_assoc]
  apply hmid.snoc planned
  intro kind
  cases kind <;> simp [rowsOf, Entry.kind]

/-- A user's own row comes last, and its name is checked with it. -/
theorem addUser_covers {entries : List Entry} {plan plan' : BootstrapPlan} {user : UserSpec}
    (h : addUser env nonces now plan user = .ok plan') (covers : Covers env now entries plan) :
    Covers env now (entries ++ user.entries) plan' := by
  obtain ⟨joined, hgroups, hrest⟩ := bind_ok h
  obtain ⟨attached, hpolicies, hrest⟩ := bind_ok hrest
  obtain ⟨keyed, hcredentials, hrest⟩ := bind_ok hrest
  obtain ⟨row, hrow, hrest⟩ := bind_ok hrest
  cases hrest
  have planned : Entry.Planned env now (.user user) (.createUser row) :=
    user_planned (mapError_ok hrow)
  have hjoined := foldlM_ok_notes (Covers env now) (fun group => [.membership group user.username])
    (fun _ _ _ _ h covers => addMembership_covers planned.1 h covers) hgroups covers
  have hattached := foldlM_ok_notes (Covers env now) (fun policy => [.userPolicy user.username policy])
    (fun _ _ _ _ h covers => addUserPolicy_covers planned.1 h covers) hpolicies hjoined
  have hkeyed := foldlM_ok_notes (Covers env now) (fun spec => [.credential user.username spec])
    (fun _ _ _ _ h covers => addCredential_covers planned.1 h covers) hcredentials hattached
  rw [← List.map_eq_flatMap, ← List.map_eq_flatMap, ← List.map_eq_flatMap, List.append_assoc,
    List.append_assoc, ← List.append_assoc (user.groups.map _)] at hkeyed
  unfold UserSpec.entries
  rw [← List.append_assoc]
  apply hkeyed.snoc planned
  intro kind
  cases kind <;> simp [rowsOf, Entry.kind]

theorem parsePlanWithEnv_covers [SerdeSaphyr] {yaml : String} {file : BootstrapFile}
    {plan : BootstrapPlan} (read : readFile yaml = .ok file)
    (h : parsePlanWithEnv env nonces now yaml = .ok plan) : Covers env now file.entries plan := by
  obtain ⟨file', hread, hrest⟩ := bind_ok h
  cases read.symm.trans hread
  obtain ⟨_, _, hrest⟩ := bind_ok hrest
  obtain ⟨withPolicies, hpolicies, hrest⟩ := bind_ok hrest
  obtain ⟨withGroups, hgroups, husers⟩ := bind_ok hrest
  have empty : Covers env now [] emptyPlan := by
    intro kind
    cases kind <;> exact .nil
  have hpolicies := foldlM_ok_notes (Covers env now) (fun policy => [.policy policy])
    (fun _ _ _ _ h covers => addPolicy_covers h covers) hpolicies empty
  have hgroups := foldlM_ok_notes (Covers env now) GroupSpec.entries
    (fun _ _ _ _ h covers => addGroup_covers h covers) hgroups hpolicies
  have husers := foldlM_ok_notes (Covers env now) UserSpec.entries
    (fun _ _ _ _ h covers => addUser_covers h covers) husers hgroups
  rwa [← List.map_eq_flatMap] at husers

omit [SecretBox.Aes256Gcm] [SerdeJson] in
theorem tidy_iff {spec : CredentialSpec} {secret : String}
    (h : spec.resolveSecret env = .ok secret) : TidySecret env spec ↔ nonBlank secret = some secret := by
  obtain ⟨accessKeyId, literal, name⟩ := spec
  unfold CredentialSpec.resolveSecret at h
  constructor
  · intro tidy
    split at h
    · cases h
    · rename_i hliteral _
      cases h
      exact tidy.literal _ hliteral
    · rename_i name _ hname
      split at h
      · rename_i hvalue
        cases h
        exact tidy.fromEnv _ _ hname hvalue
      · cases h
    · cases h
  · intro hkept
    cases literal with
    | some text =>
      cases name with
      | some name => cases h
      | none =>
        cases h
        exact ⟨fun _ hsome => Option.some.inj hsome ▸ hkept, fun _ _ hnone _ => nomatch hnone⟩
    | none =>
      cases name with
      | none => cases h
      | some name =>
        refine ⟨fun _ hnone => (nomatch hnone), fun other value hname hvalue => ?_⟩
        cases hname
        simp only [hvalue] at h
        cases h
        exact hkept

/-- Two draws with one nonce, for two different keys. -/
def draws (nonce : SecretBox.Nonce) : Service.Draw × Service.Draw :=
  (⟨"A", "secret", nonce⟩, ⟨"B", "secret", nonce⟩)

omit [SerdeJson] in
theorem asks_createCredentials {draw : Service.Draw} {username : String}
    {accessKey secretKey : Option String} {row : NewCredential}
    (h : asks now (Service.createCredentials draw username accessKey secretKey) =
      some (.createCredential row)) :
    NewCredential.sealed username (Service.keyPair draw accessKey secretKey).1
      (Service.keyPair draw accessKey secretKey).2 draw.nonce now = .ok row := by
  unfold Service.createCredentials at h
  dsimp only at h
  rw [asks_now] at h
  split at h
  · cases h
  · rename_i record hrecord
    cases h
    exact hrecord

omit [SerdeJson] in
theorem sealed_ok [SecretBox.IdealCipher] {username accessKeyId secret : String}
    {nonce : SecretBox.Nonce} {row : NewCredential}
    (h : NewCredential.sealed username accessKeyId secret nonce now = .ok row) :
    row.accessKeyId = accessKeyId ∧ row.username = username ∧
      SecretBox.openStr row.secretCiphertext = .ok secret := by
  obtain ⟨ciphertext, hciphertext, hrow⟩ := bind_ok h
  cases hrow
  exact ⟨rfl, rfl, SecretBox.openStr_sealStr hciphertext⟩

/-- The API stores the row of an entry exactly when it would not change the secret. -/
theorem stored_iff_tidy [SecretBox.IdealCipher] {entry : Entry} {row : StoreOp}
    (planned : entry.Planned env now row) : entry.Stored env now row ↔ entry.Tidy env := by
  cases entry with
  | credential username spec =>
    obtain ⟨valid, accessKeyId, secret, nonce, record, hkey, hsecret, hrecord, rfl⟩ := planned
    refine Iff.trans ?_ (tidy_iff hsecret).symm
    constructor
    · rintro ⟨_, secret', nonce', hsecret', hstored⟩
      cases hsecret.symm.trans hsecret'
      have hfirst := asks_createCredentials (hstored (draws nonce').1 rfl)
      have hsecond := asks_createCredentials (hstored (draws nonce').2 rfl)
      simp only [Service.keyPair, Option.bind_some, hkey] at hfirst hsecond
      cases htrimmed : nonBlank secret with
      | none =>
        simp only [htrimmed] at hfirst hsecond
        have hsame := (sealed_ok hfirst).1.symm.trans (sealed_ok hsecond).1
        exact absurd hsame (by decide : ¬ "A" = "B")
      | some trimmed =>
        simp only [htrimmed] at hfirst
        have hopened := (sealed_ok hfirst).2.2.symm.trans (sealed_ok hrecord).2.2
        rw [Except.ok.inj hopened]
    · intro hkept
      refine ⟨valid, secret, nonce, hsecret, fun draw hdraw => ?_⟩
      have hpair : Service.keyPair draw (some spec.accessKeyId) (some secret) = (accessKeyId, secret) := by
        simp [Service.keyPair, hkey, hkept]
      simp only [Service.createCredentials, hpair, asks_now, hdraw, hrecord]
      rfl
  | _ => exact iff_of_true planned trivial

theorem forall_stored_iff [SecretBox.IdealCipher] {entries : List Entry} {rows : List StoreOp}
    (planned : List.Forall₂ (Entry.Planned env now) entries rows) :
    List.Forall₂ (Entry.Stored env now) entries rows ↔ ∀ entry ∈ entries, entry.Tidy env := by
  induction planned with
  | nil => simp
  | cons planned _ ih => simp [stored_iff_tidy planned, ih]

omit [SecretBox.Aes256Gcm] [SerdeJson] in
theorem tidy_entries_iff (file : BootstrapFile) : (∀ entry ∈ file.entries, entry.Tidy env) ↔
    ∀ user ∈ file.users, ∀ spec ∈ user.credentials, TidySecret env spec := by
  constructor
  · intro tidy user huser spec hspec
    apply tidy (.credential user.username spec)
    simp only [BootstrapFile.entries, UserSpec.entries, List.mem_append, List.mem_flatMap, List.mem_map]
    exact .inr ⟨user, huser, .inl (.inr ⟨spec, hspec, rfl⟩)⟩
  · intro tidy entry hentry
    cases entry with
    | credential username spec =>
      simp only [BootstrapFile.entries, GroupSpec.entries, UserSpec.entries, List.mem_append,
        List.mem_flatMap, List.mem_map, List.mem_singleton, reduceCtorEq, and_false, exists_false,
        or_false, false_or, Entry.credential.injEq] at hentry
      obtain ⟨user, huser, _, hspec, _, rfl⟩ := hentry
      exact tidy user huser _ hspec
    | _ => trivial

/-- The rows of a plan are those the API would store for the same inputs exactly when every
secret of its file is trimmed and not blank. -/
theorem plan_rows_stored_iff [SecretBox.IdealCipher] [SerdeSaphyr] {yaml : String}
    {file : BootstrapFile} {plan : BootstrapPlan} (read : readFile yaml = .ok file)
    (accepted : parsePlanWithEnv env nonces now yaml = .ok plan) :
    (∀ kind, List.Forall₂ (Entry.Stored env now) (file.entries.filter (·.kind = kind))
      (rowsOf plan kind)) ↔
    ∀ user ∈ file.users, ∀ spec ∈ user.credentials, TidySecret env spec := by
  have covers := parsePlanWithEnv_covers read accepted
  rw [← tidy_entries_iff]
  constructor
  · intro stored entry hentry
    apply (forall_stored_iff (covers entry.kind)).mp (stored entry.kind)
    simp [hentry]
  · intro tidy kind
    apply (forall_stored_iff (covers kind)).mpr
    intro entry hentry
    exact tidy entry (List.mem_of_mem_filter hentry)

end Plan

/-! A file with one user, who has a key. -/

def keyFile (secret : String) : BootstrapFile :=
  ⟨some 1, [], [], [⟨"ada", none, none, none, none, [], [], [⟨" AK ", some secret, none⟩]⟩]⟩

@[reducible] def readsKey (secret : String) : SerdeSaphyr := ⟨fun _ => .ok (keyFile secret)⟩

def anyNonce : SecretBox.Nonce := .zero

def keyPlan (secret : String) : BootstrapPlan where
  policies := []
  groups := []
  users := [⟨"ada", ⟨0⟩, none, none, none, none, none⟩]
  memberships := []
  userPolicies := []
  groupPolicies := []
  credentials := [⟨"AK", "ada",
    1 :: (List.replicate 12 0 ++ (SecretBox.asBytes secret ++ List.replicate 16 0)), ⟨0⟩⟩]

theorem plan_rows_stored_iff_keyFile :
    @parsePlanWithEnv SecretBox.plainCipher (fun _ => none) (fun _ => anyNonce) ⟨0⟩
      (readsKey "secret") Validate.noLists "users:" = .ok (keyPlan "secret") ∧
    ∀ kind, List.Forall₂ (@Entry.Stored SecretBox.plainCipher Validate.noLists (fun _ => none) ⟨0⟩)
      ((keyFile "secret").entries.filter (·.kind = kind)) (rowsOf (keyPlan "secret") kind) := by
  have read : @readFile (readsKey "secret") "users:" = .ok (keyFile "secret") := rfl
  have accepted : @parsePlanWithEnv SecretBox.plainCipher (fun _ => none) (fun _ => anyNonce) ⟨0⟩
      (readsKey "secret") Validate.noLists "users:" = .ok (keyPlan "secret") := by
    rfl
  have hiff := @plan_rows_stored_iff SecretBox.plainCipher Validate.noLists _ _ _
    SecretBox.plainCipher_ideal (readsKey "secret") _ _ _ read accepted
  refine ⟨accepted, hiff.mpr ?_⟩
  intro user huser spec hspec
  cases List.mem_singleton.mp huser
  cases List.mem_singleton.mp hspec
  exact (tidy_iff rfl).mpr (by decide : nonBlank "secret" = some "secret")

theorem padded_secret_stored_padded :
    @parsePlanWithEnv SecretBox.plainCipher (fun _ => none) (fun _ => anyNonce) ⟨0⟩
      (readsKey " secret ") Validate.noLists "users:" = .ok (keyPlan " secret ") ∧
    ¬ ∀ kind, List.Forall₂ (@Entry.Stored SecretBox.plainCipher Validate.noLists (fun _ => none) ⟨0⟩)
      ((keyFile " secret ").entries.filter (·.kind = kind)) (rowsOf (keyPlan " secret ") kind) := by
  have accepted : @parsePlanWithEnv SecretBox.plainCipher (fun _ => none) (fun _ => anyNonce) ⟨0⟩
      (readsKey " secret ") Validate.noLists "users:" = .ok (keyPlan " secret ") := by
    rfl
  refine ⟨accepted, fun stored => ?_⟩
  have covers := @parsePlanWithEnv_covers SecretBox.plainCipher Validate.noLists _ _ _
    (readsKey " secret ") _ (keyFile " secret ") _ rfl accepted
  have tidy := (@forall_stored_iff SecretBox.plainCipher Validate.noLists _ _
    SecretBox.plainCipher_ideal _ _ (covers .credential)).mp (stored .credential)
  have padded := tidy (.credential "ada" ⟨" AK ", some " secret ", none⟩) (by simp [keyFile,
    BootstrapFile.entries, UserSpec.entries, Entry.kind])
  exact absurd (padded.literal _ rfl) (by decide)

end LakeFsAuth.Authz.Bootstrap
