import LakeFsAuth.Authz.Store.Bootstrap

/-! The optional bootstrap file: what it may ask for, and the plan it becomes. The YAML
reader, the environment and the draws of the nonces are parameters. -/
namespace LakeFsAuth.Authz.Bootstrap
open LakeFsAuth.Core Core.Error Core.Model Core.Text Core.Validate Store Library.Fallible

/-- An error of the `anyhow` crate: its text, the error it came from, or a context. -/
inductive Anyhow where
  | message (text : String)
  | api (error : ApiError)
  | context (text : String) (cause : Anyhow)

/-- The current file format. -/
def bootstrapVersion : UInt32 := 1

structure PolicySpec where
  name : String
  statement : List Statement
  acl : Option String

structure GroupSpec where
  id : String
  description : Option String
  /-- Policies attached to the group. -/
  policies : List String

/-- The secret comes from a literal or from an environment variable. -/
structure CredentialSpec where
  accessKeyId : String
  secretAccessKey : Option String
  secretAccessKeyEnv : Option String

structure UserSpec where
  username : String
  email : Option String
  friendlyName : Option String
  source : Option String
  externalId : Option String
  groups : List String
  policies : List String
  credentials : List CredentialSpec

structure BootstrapFile where
  version : Option UInt32
  policies : List PolicySpec
  groups : List GroupSpec
  users : List UserSpec

def BootstrapFile.default : BootstrapFile := ⟨none, [], [], []⟩

/-- `serde_saphyr::from_str` at this type: the file, or the text of its error. -/
class SerdeSaphyr where
  fromStr : String → Except String BootstrapFile

/-- Exactly one of the two sources must be given. -/
def CredentialSpec.resolveSecret (credential : CredentialSpec) (env : String → Option String) :
    Except Anyhow String :=
  match credential.secretAccessKey, credential.secretAccessKeyEnv with
  | some _, some _ => .error (.message
      s!"credential {credential.accessKeyId}: set secret_access_key or secret_access_key_env, not both")
  | some literal, none => .ok literal
  | none, some name =>
      match env name with
      | some value => .ok value
      | none => .error (.message
          s!"credential {credential.accessKeyId}: environment variable {name} is not set")
  | none, none => .error (.message
      s!"credential {credential.accessKeyId}: set secret_access_key or secret_access_key_env; a generated secret could never be read back")

/-- One line of `str::lines`, read back to front, without its carriage return. -/
def stripCr : List Char → List Char
  | '\r' :: line => line
  | line => line

/-- `str::lines`, with the line read so far back to front. -/
def linesFrom (line : List Char) : List Char → List (List Char)
  | [] => if line = [] then [] else [line.reverse]
  | '\n' :: rest => (stripCr line).reverse :: linesFrom [] rest
  | ch :: rest => linesFrom (ch :: line) rest

/-- True for a file with no content: empty, or blank lines and comments only. -/
def isBlankDocument (yaml : String) : Bool :=
  (linesFrom [] yaml.toList).all fun line =>
    let line := trim (String.ofList line)
    line == "" || startsWith line "#"

section Plan
variable [SecretBox.Aes256Gcm] (env : String → Option String) (nonces : Nat → SecretBox.Nonce)
  (now : Timestamp)

def addPolicy [SerdeJson] (plan : BootstrapPlan) (policy : PolicySpec) :
    Except Anyhow BootstrapPlan := do
  let validated ←
    (NewPolicy.validated policy.name policy.statement policy.acl now).mapError Anyhow.api
  return { plan with policies := plan.policies ++ [validated] }

def addGroupPolicy (groupId : String) (plan : BootstrapPlan) (policy : String) :
    Except Anyhow BootstrapPlan := do
  (validateEntityId "policy" policy).mapError Anyhow.api
  return { plan with groupPolicies := plan.groupPolicies ++ [(groupId, policy)] }

def addGroup (plan : BootstrapPlan) (group : GroupSpec) : Except Anyhow BootstrapPlan := do
  let plan ← group.policies.foldlM (addGroupPolicy group.id) plan
  let validated ← (NewGroup.validated group.id group.description now).mapError Anyhow.api
  return { plan with groups := plan.groups ++ [validated] }

def addMembership (username : String) (plan : BootstrapPlan) (group : String) :
    Except Anyhow BootstrapPlan := do
  (validateEntityId "group" group).mapError Anyhow.api
  return { plan with memberships := plan.memberships ++ [(group, username)] }

def addUserPolicy (username : String) (plan : BootstrapPlan) (policy : String) :
    Except Anyhow BootstrapPlan := do
  (validateEntityId "policy" policy).mapError Anyhow.api
  return { plan with userPolicies := plan.userPolicies ++ [(username, policy)] }

/-- Each credential of the plan has taken one nonce. -/
def addCredential (username : String) (plan : BootstrapPlan) (credential : CredentialSpec) :
    Except Anyhow BootstrapPlan :=
  match nonBlank credential.accessKeyId with
  | none => .error (.message s!"user {username}: access_key_id must not be empty")
  | some accessKeyId => do
      let secret ← credential.resolveSecret env
      let sealed ←
        (NewCredential.sealed username accessKeyId secret (nonces plan.credentials.length) now).mapError
          fun error => Anyhow.message s!"encrypt bootstrap secret: {error}"
      return { plan with credentials := plan.credentials ++ [sealed] }

def UserSpec.fields (user : UserSpec) : UserFields where
  friendlyName := user.friendlyName
  email := user.email
  source := user.source
  externalId := user.externalId
  encryptedPassword := none

def addUser (plan : BootstrapPlan) (user : UserSpec) : Except Anyhow BootstrapPlan := do
  let plan ← user.groups.foldlM (addMembership user.username) plan
  let plan ← user.policies.foldlM (addUserPolicy user.username) plan
  let plan ← user.credentials.foldlM (addCredential env nonces now user.username) plan
  let validated ← (NewUser.validated user.username user.fields now).mapError Anyhow.api
  return { plan with users := plan.users ++ [validated] }

def emptyPlan : BootstrapPlan := ⟨[], [], [], [], [], [], []⟩

variable [SerdeSaphyr] [SerdeJson]

/-- Reads a bootstrap file. An empty document is an empty file. -/
def readFile (yaml : String) : Except Anyhow BootstrapFile :=
  if isBlankDocument yaml then .ok .default
  else (SerdeSaphyr.fromStr yaml).mapError fun detail => .context "parse YAML" (.message detail)

/-- A file may state the format, and must state the current one if it does. -/
def checkVersion (file : BootstrapFile) : Except Anyhow Unit :=
  match file.version with
  | none => .ok ()
  | some version =>
      if version = bootstrapVersion then .ok ()
      else .error (.message
        s!"unsupported bootstrap file version {version}, expected {bootstrapVersion}")

/-- Validates with the same rules as the API. -/
def parsePlanWithEnv (yaml : String) : Except Anyhow BootstrapPlan := do
  let file ← readFile yaml
  checkVersion file
  let plan ← file.policies.foldlM (addPolicy now) emptyPlan
  let plan ← file.groups.foldlM (addGroup now) plan
  file.users.foldlM (addUser env nonces now) plan

end Plan

/-! What a plan holds of the users of its file. -/

/-- A row of a plan that the API could have stored too. -/
structure UserRow (now : Timestamp) (user : NewUser) : Prop where
  valid : ValidId user.username
  creationDate : user.creationDate = now
  friendlyName : Normalised user.friendlyName
  email : Normalised user.email
  source : Normalised user.source
  externalId : Normalised user.externalId

theorem validated_userRow {username : String} {fields : UserFields} {now : Timestamp}
    {user : NewUser} (h : NewUser.validated username fields now = .ok user) :
    UserRow now user ∧ user.username = username ∧
      user.externalId = optionalText fields.externalId := by
  obtain ⟨_, hvalid, hrest⟩ := bind_ok h
  cases hrest
  exact ⟨⟨(validateEntityId_ok_iff _ _).mp hvalid, rfl, normalised_optionalText _,
    normalised_optionalText _, normalised_optionalText _, normalised_optionalText _⟩, rfl, rfl⟩

section Accepted
variable [SecretBox.Aes256Gcm]

/-- A secret of a plan is sealed under the key of the server. -/
def Sealed (credential : NewCredential) : Prop :=
  ∃ nonce secret, SecretBox.sealStr nonce secret = .ok credential.secretCiphertext

/-- A later plan has every entry of an earlier one, and what it adds is sound. -/
structure Extends (now : Timestamp) (plan plan' : BootstrapPlan) : Prop where
  users : ∀ user ∈ plan.users, user ∈ plan'.users
  memberships : ∀ entry ∈ plan.memberships, entry ∈ plan'.memberships
  userPolicies : ∀ entry ∈ plan.userPolicies, entry ∈ plan'.userPolicies
  credentials : ∀ credential ∈ plan.credentials, credential ∈ plan'.credentials
  newUsers : ∀ user ∈ plan'.users, user ∈ plan.users ∨ UserRow now user
  newCredentials : ∀ credential ∈ plan'.credentials, credential ∈ plan.credentials ∨ Sealed credential

variable {now : Timestamp}

theorem Extends.refl (now : Timestamp) (plan : BootstrapPlan) : Extends now plan plan :=
  ⟨fun _ h => h, fun _ h => h, fun _ h => h, fun _ h => h, fun _ h => .inl h, fun _ h => .inl h⟩

theorem Extends.trans {plan mid plan' : BootstrapPlan} (h : Extends now plan mid)
    (h' : Extends now mid plan') : Extends now plan plan' where
  users user hmem := h'.users user (h.users user hmem)
  memberships entry hmem := h'.memberships entry (h.memberships entry hmem)
  userPolicies entry hmem := h'.userPolicies entry (h.userPolicies entry hmem)
  credentials credential hmem := h'.credentials credential (h.credentials credential hmem)
  newUsers user hmem := (h'.newUsers user hmem).elim (h.newUsers user) .inr
  newCredentials credential hmem :=
    (h'.newCredentials credential hmem).elim (h.newCredentials credential) .inr

instance : Std.Refl (Extends now) := ⟨Extends.refl now⟩
instance : IsTrans BootstrapPlan (Extends now) := ⟨fun _ _ _ => Extends.trans⟩

theorem addPolicy_extends [SerdeJson] {plan plan' : BootstrapPlan} {policy : PolicySpec}
    (h : addPolicy now plan policy = .ok plan') : Extends now plan plan' := by
  obtain ⟨validated, _, hrest⟩ := bind_ok h
  cases hrest
  exact { Extends.refl now plan with }

theorem addGroup_extends {plan plan' : BootstrapPlan} {group : GroupSpec}
    (h : addGroup now plan group = .ok plan') : Extends now plan plan' := by
  obtain ⟨mid, hpolicies, hrest⟩ := bind_ok h
  obtain ⟨validated, _, hrest⟩ := bind_ok hrest
  cases hrest
  have hmid : Extends now plan mid :=
    (foldlM_ok_settles (S := fun _ _ => True) (fun acc policy acc' h => by
      obtain ⟨_, _, hrest⟩ := bind_ok h
      cases hrest
      exact ⟨{ Extends.refl now acc with }, fun _ _ => trivial⟩) hpolicies).1
  exact { hmid with }

theorem addMembership_settles (now : Timestamp) {username : String} {plan plan' : BootstrapPlan} {group : String}
    (h : addMembership username plan group = .ok plan') : Extends now plan plan' ∧
      ∀ later, Extends now plan' later → (group, username) ∈ later.memberships := by
  obtain ⟨_, _, hrest⟩ := bind_ok h
  cases hrest
  refine ⟨{ Extends.refl now plan with memberships := fun _ h => List.mem_append_left _ h }, ?_⟩
  intro later extended
  exact extended.memberships _ (List.mem_append_right _ (List.mem_singleton_self _))

theorem addUserPolicy_settles (now : Timestamp) {username : String} {plan plan' : BootstrapPlan} {policy : String}
    (h : addUserPolicy username plan policy = .ok plan') : Extends now plan plan' ∧
      ∀ later, Extends now plan' later → (username, policy) ∈ later.userPolicies := by
  obtain ⟨_, _, hrest⟩ := bind_ok h
  cases hrest
  refine ⟨{ Extends.refl now plan with userPolicies := fun _ h => List.mem_append_left _ h }, ?_⟩
  intro later extended
  exact extended.userPolicies _ (List.mem_append_right _ (List.mem_singleton_self _))

/-- The credential a plan has for an entry of a user. -/
def PlannedCredential (username : String) (spec : CredentialSpec) (plan : BootstrapPlan) : Prop :=
  ∃ credential ∈ plan.credentials, nonBlank spec.accessKeyId = some credential.accessKeyId ∧
    credential.username = username

theorem addCredential_settles {env : String → Option String} {nonces : Nat → SecretBox.Nonce}
    {username : String} {plan plan' : BootstrapPlan} {spec : CredentialSpec}
    (h : addCredential env nonces now username plan spec = .ok plan') : Extends now plan plan' ∧
      ∀ later, Extends now plan' later → PlannedCredential username spec later := by
  unfold addCredential at h
  split at h
  · cases h
  · rename_i accessKeyId hkey
    obtain ⟨secret, _, hrest⟩ := bind_ok h
    obtain ⟨credential, hsealed, hrest⟩ := bind_ok hrest
    cases hrest
    obtain ⟨ciphertext, hciphertext, hcredential⟩ := bind_ok (mapError_ok hsealed)
    cases hcredential
    refine ⟨{ Extends.refl now plan with
      credentials := fun _ h => List.mem_append_left _ h
      newCredentials := ?_ }, ?_⟩
    · intro credential hmem
      rcases List.mem_append.mp hmem with hold | hnew
      · exact .inl hold
      · rw [List.mem_singleton.mp hnew]
        exact .inr ⟨_, _, hciphertext⟩
    · intro later extended
      exact ⟨_, extended.credentials _ (List.mem_append_right _ (List.mem_singleton_self _)),
        hkey, rfl⟩

/-- Everything a user of the file asks for is in the plan, under its name. -/
structure Planned (entry : UserSpec) (plan : BootstrapPlan) : Prop where
  user : ∃ user ∈ plan.users, user.username = entry.username ∧
    user.externalId = optionalText entry.externalId
  groups : ∀ group ∈ entry.groups, (group, entry.username) ∈ plan.memberships
  policies : ∀ policy ∈ entry.policies, (entry.username, policy) ∈ plan.userPolicies
  credentials : ∀ spec ∈ entry.credentials, PlannedCredential entry.username spec plan

theorem addUser_settles {env : String → Option String} {nonces : Nat → SecretBox.Nonce}
    {plan plan' : BootstrapPlan} {entry : UserSpec}
    (h : addUser env nonces now plan entry = .ok plan') :
    Extends now plan plan' ∧ ∀ later, Extends now plan' later → Planned entry later := by
  obtain ⟨joined, hgroups, hrest⟩ := bind_ok h
  obtain ⟨attached, hpolicies, hrest⟩ := bind_ok hrest
  obtain ⟨keyed, hcredentials, hrest⟩ := bind_ok hrest
  obtain ⟨user, hvalidated, hrest⟩ := bind_ok hrest
  cases hrest
  obtain ⟨hrow, hname, hexternal⟩ := validated_userRow (mapError_ok hvalidated)
  have hjoined := foldlM_ok_settles (fun _ _ _ h => addMembership_settles now h) hgroups
  have hattached :=
    foldlM_ok_settles (fun _ _ _ h => addUserPolicy_settles now h) hpolicies
  have hkeyed := foldlM_ok_settles (fun _ _ _ h => addCredential_settles h) hcredentials
  have hlast : Extends now keyed { keyed with users := keyed.users ++ [user] } := by
    refine { Extends.refl now keyed with
      users := fun _ h => List.mem_append_left _ h
      newUsers := ?_ }
    intro other hmem
    rcases List.mem_append.mp hmem with hold | hnew
    · exact .inl hold
    · rw [List.mem_singleton.mp hnew]
      exact .inr hrow
  refine ⟨hjoined.1.trans (hattached.1.trans (hkeyed.1.trans hlast)), fun later extended => ?_⟩
  have hmem : user ∈ keyed.users ++ [user] := by simp
  exact {
    user := ⟨user, extended.users user hmem, hname, hexternal⟩
    groups := fun group hmem => hjoined.2 group hmem later
      (hattached.1.trans (hkeyed.1.trans (hlast.trans extended)))
    policies := fun policy hmem => hattached.2 policy hmem later
      (hkeyed.1.trans (hlast.trans extended))
    credentials := fun spec hmem => hkeyed.2 spec hmem later (hlast.trans extended) }

/-- What the plan of a file holds. -/
structure PlanOf (file : BootstrapFile) (now : Timestamp) (plan : BootstrapPlan) : Prop where
  planned : ∀ entry ∈ file.users, Planned entry plan
  users : ∀ user ∈ plan.users, UserRow now user
  credentials : ∀ credential ∈ plan.credentials, Sealed credential

theorem parsePlanWithEnv_planOf [SerdeSaphyr] [SerdeJson] {env : String → Option String}
    {nonces : Nat → SecretBox.Nonce} {yaml : String} {plan : BootstrapPlan}
    (h : parsePlanWithEnv env nonces now yaml = .ok plan) :
    ∃ file, readFile yaml = .ok file ∧ PlanOf file now plan := by
  obtain ⟨file, hfile, hrest⟩ := bind_ok h
  refine ⟨file, hfile, ?_⟩
  obtain ⟨_, _, hrest⟩ := bind_ok hrest
  obtain ⟨withPolicies, hpolicies, hrest⟩ := bind_ok hrest
  obtain ⟨withGroups, hgroups, husers⟩ := bind_ok hrest
  have hpolicies := (foldlM_ok_settles (R := Extends now)
    (S := fun _ _ => True) (fun _ _ _ h => ⟨addPolicy_extends h, fun _ _ => trivial⟩) hpolicies).1
  have hgroups := (foldlM_ok_settles (R := Extends now)
    (S := fun _ _ => True) (fun _ _ _ h => ⟨addGroup_extends h, fun _ _ => trivial⟩) hgroups).1
  have husers := foldlM_ok_settles (R := Extends now) (S := Planned)
    (fun _ _ _ h => addUser_settles h) husers
  have hall : Extends now emptyPlan plan := hpolicies.trans (hgroups.trans husers.1)
  refine ⟨fun entry hmem => husers.2 entry hmem plan (.refl now plan), ?_, ?_⟩
  · exact fun user hmem => (hall.newUsers user hmem).resolve_left List.not_mem_nil
  · exact fun credential hmem =>
      (hall.newCredentials credential hmem).resolve_left List.not_mem_nil

end Accepted

end LakeFsAuth.Authz.Bootstrap
