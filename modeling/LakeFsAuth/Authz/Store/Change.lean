import LakeFsAuth.Authz.Store.Mem
import Mathlib.Logic.Relation

/-! What a store operation can do to the state, said once. Every invariant of
the store is proved over these changes and never over the operations. -/
namespace LakeFsAuth.Authz.Store.Mem
open Std Relation Library Library.OrderedMap

namespace Inner

/-- The name, the email and the external id of a new user are all free. -/
structure UserFree (s : Inner) (user : NewUser) : Prop where
  username : s.users[user.username]? = none
  email : ∀ email, user.email = some email →
    ∀ (k : String) (row : UserRecord), s.users[k]? = some row → row.email ≠ some email
  externalId : ∀ externalId, user.externalId = some externalId →
    ∀ (k : String) (row : UserRecord), s.users[k]? = some row →
      row.externalId ≠ some externalId

/-- The store after a create of `user`. -/
def withUser (self : Inner) (user : NewUser) : Inner :=
  { self with
    nextUserId := self.nextUserId + 1
    users := self.users.insert user.username (newRecord user (self.nextUserId + 1)) }

end Inner

inductive Change : Inner → Inner → Prop where
  | newUser (s : Inner) (user : NewUser) (free : s.UserFree user) : Change s (s.withUser user)
  | newGroup (s : Inner) (group : GroupRecord) (free : s.groups[group.id]? = none) :
      Change s { s with groups := s.groups.insert group.id group }
  | newPolicy (s : Inner) (policy : PolicyRecord) (free : s.policies[policy.name]? = none) :
      Change s { s with policies := s.policies.insert policy.name policy }
  | newCredential (s : Inner) (credential : CredentialRecord) (user : UserRecord)
      (owner : s.users[credential.username]? = some user)
      (current : credential.userId = user.userId)
      (free : s.credentials[credential.accessKeyId]? = none) :
      Change s
        { s with credentials := s.credentials.insert credential.accessKeyId credential }
  | newPrincipal (s : Inner) (principal : ExternalPrincipalRecord) (user : UserRecord)
      (owner : s.users[principal.username]? = some user)
      (free : s.externalPrincipals[principal.id]? = none) :
      Change s
        { s with externalPrincipals := s.externalPrincipals.insert principal.id principal }
  | dropUser (s : Inner) (username : String) :
      Change s ({ s with users := s.users.erase username }.cascadeDeleteUser username)
  | dropGroup (s : Inner) (groupId : String) :
      Change s ({ s with groups := s.groups.erase groupId }.cascadeDeleteGroup groupId)
  | dropPolicy (s : Inner) (name : String) :
      Change s ({ s with policies := s.policies.erase name }.cascadeDeletePolicy name)
  | rename (s : Inner) (username : String) (user : UserRecord) (name : String)
      (stored : s.users[username]? = some user) :
      Change s
        { s with users := s.users.insert username { user with friendlyName := some name } }
  | rewrite (s : Inner) (slot : PolicyRecord) (policy : NewPolicy)
      (stored : s.policies[policy.name]? = some slot) :
      Change s
        { s with policies := s.policies.insert policy.name (Inner.rewritten slot policy) }
  | joined (s : Inner) (groupId username : String) (group : GroupRecord) (user : UserRecord)
      (hasGroup : s.groups[groupId]? = some group)
      (hasUser : s.users[username]? = some user) :
      Change s { s with groupMembers := s.groupMembers.insert (groupId, username) }
  | left (s : Inner) (pair : String × String) :
      Change s { s with groupMembers := s.groupMembers.erase pair }
  | attachedUser (s : Inner) (username policy : String) (user : UserRecord)
      (record : PolicyRecord) (hasUser : s.users[username]? = some user)
      (hasPolicy : s.policies[policy]? = some record) :
      Change s { s with userPolicies := s.userPolicies.insert (username, policy) }
  | detachedUser (s : Inner) (pair : String × String) :
      Change s { s with userPolicies := s.userPolicies.erase pair }
  | attachedGroup (s : Inner) (groupId policy : String) (group : GroupRecord)
      (record : PolicyRecord) (hasGroup : s.groups[groupId]? = some group)
      (hasPolicy : s.policies[policy]? = some record) :
      Change s { s with groupPolicies := s.groupPolicies.insert (groupId, policy) }
  | detachedGroup (s : Inner) (pair : String × String) :
      Change s { s with groupPolicies := s.groupPolicies.erase pair }
  | dropCredential (s : Inner) (accessKeyId : String) :
      Change s { s with credentials := s.credentials.erase accessKeyId }
  | dropPrincipal (s : Inner) (principalId : String) :
      Change s { s with externalPrincipals := s.externalPrincipals.erase principalId }
  | tokens (s : Inner) (claimed : BTreeMap Timestamp) :
      Change s { s with claimedTokenIds := claimed }

abbrev Changes : Inner → Inner → Prop := ReflTransGen Change

theorem require_ok_iff (row : Bool) (entity id : String) :
    require row entity id = .ok () ↔ row = true := by
  cases row <;> simp [require]

namespace Inner
variable (self : Inner)

/-! A create whose key is free, or taken. -/

theorem insertGroup_free {group : NewGroup} (free : self.groups.contains group.id = false) :
    self.insertGroup group = (.ok ⟨group.id, group.description, group.creationDate⟩,
      { self with
        groups := self.groups.insert group.id
          ⟨group.id, group.description, group.creationDate⟩ }) := by
  unfold insertGroup
  rw [free]
  rfl

theorem insertPolicy_free {policy : NewPolicy}
    (free : self.policies.contains policy.name = false) :
    self.insertPolicy policy =
      (.ok ⟨policy.name, policy.creationDate, policy.statement, policy.acl⟩,
        { self with
          policies := self.policies.insert policy.name
            ⟨policy.name, policy.creationDate, policy.statement, policy.acl⟩ }) := by
  unfold insertPolicy
  rw [free]
  rfl

theorem insertCredential_free {credential : NewCredential} {user : UserRecord}
    (owner : self.users[credential.username]? = some user)
    (free : self.credentials.contains credential.accessKeyId = false) :
    self.insertCredential credential =
      (.ok ⟨credential.accessKeyId, credential.username, user.userId,
          credential.secretCiphertext, credential.creationDate⟩,
        { self with
          credentials := self.credentials.insert credential.accessKeyId
            ⟨credential.accessKeyId, credential.username, user.userId,
              credential.secretCiphertext, credential.creationDate⟩ }) := by
  unfold insertCredential
  rw [owner, free]
  rfl

theorem insertGroup_taken {group : NewGroup} (taken : self.groups[group.id]? ≠ none) :
    self.insertGroup group = (.error (.alreadyExists "group" group.id), self) :=
  if_pos ((contains_iff _ _).mpr (Option.ne_none_iff_exists'.mp taken))

theorem insertPolicy_taken {policy : NewPolicy} (taken : self.policies[policy.name]? ≠ none) :
    self.insertPolicy policy = (.error (.alreadyExists "policy" policy.name), self) :=
  if_pos ((contains_iff _ _).mpr (Option.ne_none_iff_exists'.mp taken))

/-! A link is refused when one of its ends is missing. -/

theorem addMembership_cases (groupId username : String) :
    (self.groups.contains groupId = true → self.users.contains username = true →
      self.addMembership groupId username =
        (.ok (), { self with groupMembers := self.groupMembers.insert (groupId, username) })) ∧
    (self.groups.contains groupId = false ∨ self.users.contains username = false →
      ∃ entity id, self.addMembership groupId username = (.error (.notFound entity id), self)) := by
  unfold addMembership requireGroup requireUser Mem.require
  cases self.groups.contains groupId <;> cases self.users.contains username <;>
    simp

theorem attachPolicyToUser_cases (username policy : String) :
    (self.users.contains username = true → self.policies.contains policy = true →
      self.attachPolicyToUser username policy =
        (.ok (), { self with userPolicies := self.userPolicies.insert (username, policy) })) ∧
    (self.users.contains username = false ∨ self.policies.contains policy = false →
      ∃ entity id, self.attachPolicyToUser username policy = (.error (.notFound entity id), self)) := by
  unfold attachPolicyToUser requireUser requirePolicy Mem.require
  cases self.users.contains username <;> cases self.policies.contains policy <;>
    simp

theorem attachPolicyToGroup_cases (groupId policy : String) :
    (self.groups.contains groupId = true → self.policies.contains policy = true →
      self.attachPolicyToGroup groupId policy =
        (.ok (), { self with groupPolicies := self.groupPolicies.insert (groupId, policy) })) ∧
    (self.groups.contains groupId = false ∨ self.policies.contains policy = false →
      ∃ entity id, self.attachPolicyToGroup groupId policy = (.error (.notFound entity id), self)) := by
  unfold attachPolicyToGroup requireGroup requirePolicy Mem.require
  cases self.groups.contains groupId <;> cases self.policies.contains policy <;>
    simp

/-! One lemma per operation that can write. -/

theorem requireUser_ok {username : String} (h : self.requireUser username = .ok ()) :
    ∃ user, self.users[username]? = some user :=
  (contains_iff _ _).mp ((require_ok_iff _ _ _).mp h)

theorem requireGroup_ok {groupId : String} (h : self.requireGroup groupId = .ok ()) :
    ∃ group, self.groups[groupId]? = some group :=
  (contains_iff _ _).mp ((require_ok_iff _ _ _).mp h)

theorem requirePolicy_ok {name : String} (h : self.requirePolicy name = .ok ()) :
    ∃ policy, self.policies[name]? = some policy :=
  (contains_iff _ _).mp ((require_ok_iff _ _ _).mp h)

theorem emailTaken_iff (email : Option String) :
    self.emailTaken email = true ↔
      ∃ e, email = some e ∧ ∃ (k : String) (row : UserRecord),
        self.users[k]? = some row ∧ row.email = some e := by
  cases email with
  | none => simp [emailTaken]
  | some e => simp only [emailTaken, Option.any_some, any_values, beq_iff_eq, Option.some.injEq,
      exists_eq_left']

theorem externalIdTaken_iff (externalId : Option String) :
    self.externalIdTaken externalId = true ↔
      ∃ e, externalId = some e ∧ ∃ (k : String) (row : UserRecord),
        self.users[k]? = some row ∧ row.externalId = some e := by
  cases externalId with
  | none => simp [externalIdTaken]
  | some e => simp only [externalIdTaken, Option.any_some, any_values, beq_iff_eq,
      Option.some.injEq, exists_eq_left']

/-- A create of a user is refused, or stores a row nothing collides with. -/
theorem insertUser_cases (user : NewUser) :
    (self.UserFree user ∧
      self.insertUser user =
        (.ok (newRecord user (self.nextUserId + 1)), self.withUser user)) ∨
    (¬ self.UserFree user ∧
      ∃ entity id, self.insertUser user = (.error (.AlreadyExists entity id), self)) := by
  unfold insertUser
  split
  · rename_i hname
    refine .inr ⟨fun free => ?_, _, _, rfl⟩
    obtain ⟨row, hrow⟩ := (contains_iff _ _).mp hname
    rw [free.username] at hrow
    cases hrow
  · rename_i hname
    split
    · rename_i hemail
      refine .inr ⟨fun free => ?_, _, _, rfl⟩
      obtain ⟨e, he, k, row, hrow, hmatch⟩ := (self.emailTaken_iff _).mp hemail
      exact free.email e he k row hrow hmatch
    · rename_i hemail
      split
      · rename_i hext
        refine .inr ⟨fun free => ?_, _, _, rfl⟩
        obtain ⟨e, he, k, row, hrow, hmatch⟩ := (self.externalIdTaken_iff _).mp hext
        exact free.externalId e he k row hrow hmatch
      · rename_i hext
        refine .inl ⟨⟨?_, ?_, ?_⟩, rfl⟩
        · exact (not_contains_iff _ _).mp (Bool.not_eq_true _ ▸ hname)
        · intro e he k row hrow hmatch
          exact hemail ((self.emailTaken_iff _).mpr ⟨e, he, k, row, hrow, hmatch⟩)
        · intro e he k row hrow hmatch
          exact hext ((self.externalIdTaken_iff _).mpr ⟨e, he, k, row, hrow, hmatch⟩)

end Inner

/-- What the outcome of an operation owes its state: a failure keeps it, and a
success moves it by changes. -/
structure Sound (s : Inner) (outcome : StoreResult α × Inner) : Prop where
  changes : Changes s outcome.2
  failed : ∀ error, outcome.1 = .error error → outcome.2 = s

theorem Sound.refused (s : Inner) (error : StoreError) :
    Sound s ((.error error, s) : StoreResult α × Inner) :=
  ⟨.refl, fun _ _ => rfl⟩

theorem Sound.read (s : Inner) (answer : StoreResult α) : Sound s (answer, s) :=
  ⟨.refl, fun _ _ => rfl⟩

theorem Sound.done {s next : Inner} (value : α) (change : Change s next) :
    Sound s ((.ok value, next) : StoreResult α × Inner) :=
  ⟨.single change, fun _ h => by cases h⟩

namespace Inner
variable (self : Inner)

theorem insertUser_sound (user : NewUser) : Sound self (self.insertUser user) := by
  rcases self.insertUser_cases user with ⟨free, h⟩ | ⟨_, entity, id, h⟩
  · rw [h]
    exact .done _ (.newUser self user free)
  · rw [h]
    exact .refused self _

theorem insertGroup_sound (group : NewGroup) : Sound self (self.insertGroup group) := by
  unfold insertGroup
  split
  · exact .refused self _
  · rename_i free
    exact .done _ (.newGroup self ⟨group.id, group.description, group.creationDate⟩
      ((not_contains_iff _ _).mp (Bool.not_eq_true _ ▸ free)))

theorem insertPolicy_sound (policy : NewPolicy) : Sound self (self.insertPolicy policy) := by
  unfold insertPolicy
  split
  · exact .refused self _
  · rename_i free
    exact .done _ (.newPolicy self
      ⟨policy.name, policy.creationDate, policy.statement, policy.acl⟩
      ((not_contains_iff _ _).mp (Bool.not_eq_true _ ▸ free)))

theorem insertCredential_sound (credential : NewCredential) :
    Sound self (self.insertCredential credential) := by
  unfold insertCredential
  split
  · exact .refused self _
  · rename_i user howner
    split
    · exact .refused self _
    · rename_i free
      exact .done _ (.newCredential self
        ⟨credential.accessKeyId, credential.username, user.userId,
          credential.secretCiphertext, credential.creationDate⟩ user howner rfl
        ((not_contains_iff _ _).mp (Bool.not_eq_true _ ▸ free)))

theorem deleteUser_sound (username : String) : Sound self (self.deleteUser username) := by
  unfold deleteUser
  split
  · exact .done _ (.dropUser self username)
  · exact .refused self _

theorem setFriendlyName_sound (username name : String) :
    Sound self (self.setFriendlyName username name) := by
  unfold setFriendlyName
  split
  · exact .refused self _
  · rename_i user stored
    exact .done _ (.rename self username user name stored)

theorem deleteGroup_sound (groupId : String) : Sound self (self.deleteGroup groupId) := by
  unfold deleteGroup
  split
  · exact .done _ (.dropGroup self groupId)
  · exact .refused self _

theorem updatePolicy_sound (policy : NewPolicy) : Sound self (self.updatePolicy policy) := by
  unfold updatePolicy
  split
  · exact .refused self _
  · rename_i slot stored
    exact .done _ (.rewrite self slot policy stored)

theorem deletePolicy_sound (name : String) : Sound self (self.deletePolicy name) := by
  unfold deletePolicy
  split
  · exact .done _ (.dropPolicy self name)
  · exact .refused self _

theorem addMembership_sound (groupId username : String) :
    Sound self (self.addMembership groupId username) := by
  unfold addMembership
  split
  · exact .refused self _
  · exact .refused self _
  · rename_i hgroup huser
    obtain ⟨group, hasGroup⟩ := self.requireGroup_ok hgroup
    obtain ⟨user, hasUser⟩ := self.requireUser_ok huser
    exact .done _ (.joined self groupId username group user hasGroup hasUser)

theorem removeMembership_sound (groupId username : String) :
    Sound self (self.removeMembership groupId username) := by
  unfold removeMembership
  split
  · exact .done _ (.left self (groupId, username))
  · exact .refused self _

theorem attachPolicyToUser_sound (username policy : String) :
    Sound self (self.attachPolicyToUser username policy) := by
  unfold attachPolicyToUser
  split
  · exact .refused self _
  · exact .refused self _
  · rename_i huser hpolicy
    obtain ⟨user, hasUser⟩ := self.requireUser_ok huser
    obtain ⟨record, hasPolicy⟩ := self.requirePolicy_ok hpolicy
    exact .done _ (.attachedUser self username policy user record hasUser hasPolicy)

theorem detachPolicyFromUser_sound (username policy : String) :
    Sound self (self.detachPolicyFromUser username policy) := by
  unfold detachPolicyFromUser
  split
  · exact .done _ (.detachedUser self (username, policy))
  · exact .refused self _

theorem attachPolicyToGroup_sound (groupId policy : String) :
    Sound self (self.attachPolicyToGroup groupId policy) := by
  unfold attachPolicyToGroup
  split
  · exact .refused self _
  · exact .refused self _
  · rename_i hgroup hpolicy
    obtain ⟨group, hasGroup⟩ := self.requireGroup_ok hgroup
    obtain ⟨record, hasPolicy⟩ := self.requirePolicy_ok hpolicy
    exact .done _ (.attachedGroup self groupId policy group record hasGroup hasPolicy)

theorem detachPolicyFromGroup_sound (groupId policy : String) :
    Sound self (self.detachPolicyFromGroup groupId policy) := by
  unfold detachPolicyFromGroup
  split
  · exact .done _ (.detachedGroup self (groupId, policy))
  · exact .refused self _

theorem deleteCredential_sound (username accessKeyId : String) :
    Sound self (self.deleteCredential username accessKeyId) := by
  unfold deleteCredential
  split
  · exact .done _ (.dropCredential self accessKeyId)
  · exact .refused self _

theorem createExternalPrincipal_sound (username principalId : String) :
    Sound self (self.createExternalPrincipal username principalId) := by
  unfold createExternalPrincipal
  split
  · exact .refused self _
  · rename_i huser
    obtain ⟨user, owner⟩ := self.requireUser_ok huser
    split
    · exact .refused self _
    · rename_i free
      exact .done _ (.newPrincipal self ⟨principalId, username⟩ user owner
        ((not_contains_iff _ _).mp (Bool.not_eq_true _ ▸ free)))

theorem deleteExternalPrincipal_sound (username principalId : String) :
    Sound self (self.deleteExternalPrincipal username principalId) := by
  unfold deleteExternalPrincipal
  split
  · exact .done _ (.dropPrincipal self principalId)
  · exact .refused self _

theorem claimTokenId_sound (tokenId : String) (expiresAt : Timestamp) :
    Sound self (self.claimTokenId tokenId expiresAt) := by
  unfold claimTokenId
  split
  · exact .refused self _
  · exact .done _ (.tokens self _)

end Inner

/-! Bootstrap: every insert moves the copy by changes, so the whole plan does. -/

section Bootstrap
open Fallible BootstrapWriter

theorem insertPolicyIfMissing_changes (policy : NewPolicy) :
    Guarantees Changes (insertPolicyIfMissing policy : StoreM Inner Bool) := by
  intro s
  change Changes s (if s.policies.contains policy.name then (.ok false, s)
    else andReturn (s.insertPolicy policy) true : StoreResult Bool × Inner).2
  split
  · exact .refl
  · exact (s.insertPolicy_sound policy).changes

theorem insertGroupIfMissing_changes (group : NewGroup) :
    Guarantees Changes (insertGroupIfMissing group : StoreM Inner Bool) := by
  intro s
  change Changes s (if s.groups.contains group.id then (.ok false, s)
    else andReturn (s.insertGroup group) true : StoreResult Bool × Inner).2
  split
  · exact .refl
  · exact (s.insertGroup_sound group).changes

theorem insertUserIfMissing_changes (user : NewUser) :
    Guarantees Changes (insertUserIfMissing user : StoreM Inner (Option UserRecord)) := by
  intro s
  rw [insertUserIfMissing_eq]
  split
  · exact .refl
  · exact (s.insertUser_sound user).changes

theorem insertCredentialIfMissing_changes (credential : NewCredential) :
    Guarantees Changes
      (insertCredentialIfMissing credential : StoreM Inner (Option CredentialRecord)) := by
  intro s
  rw [insertCredentialIfMissing_eq]
  split
  · exact .refl
  · exact (s.insertCredential_sound credential).changes

theorem insertMembershipIfMissing_changes (groupId username : String) :
    Guarantees Changes (insertMembershipIfMissing groupId username : StoreM Inner Bool) :=
  fun s => (s.addMembership_sound groupId username).changes

theorem insertUserPolicyIfMissing_changes (username policy : String) :
    Guarantees Changes (insertUserPolicyIfMissing username policy : StoreM Inner Bool) :=
  fun s => (s.attachPolicyToUser_sound username policy).changes

theorem insertGroupPolicyIfMissing_changes (groupId policy : String) :
    Guarantees Changes (insertGroupPolicyIfMissing groupId policy : StoreM Inner Bool) :=
  fun s => (s.attachPolicyToGroup_sound groupId policy).changes

theorem applyUser_changes (user : NewUser) :
    Guarantees Changes (applyUser user : StoreM Inner Bool) := by
  refine (insertUserIfMissing_changes user).bind fun existing => ?_
  cases existing with
  | none => exact .pure true
  | some existing =>
    dsimp only
    split
    · exact .pure false
    · exact fun _ => .refl

theorem applyCredential_changes (credential : NewCredential) :
    Guarantees Changes (applyCredential credential : StoreM Inner Bool) := by
  refine (insertCredentialIfMissing_changes credential).bind fun existing => ?_
  cases existing with
  | none => exact .pure true
  | some existing =>
    dsimp only
    split
    · exact .pure false
    · exact fun _ => .refl

theorem applyEach_changes {α : Type} {category : Category} {insert : α → StoreM Inner Bool}
    (h : ∀ entry, Guarantees Changes (insert entry)) (entries : List α)
    (report : BootstrapReport) :
    Guarantees Changes (applyEach category insert entries report) :=
  .foldlM (fun _ entry _ => (h entry).bind fun _ => .pure _) report

theorem applyPlan_changes (plan : BootstrapPlan) :
    Guarantees Changes (applyPlan plan : StoreM Inner BootstrapReport) := by
  unfold applyPlan
  refine .bind (applyEach_changes insertPolicyIfMissing_changes _ _) fun _ => ?_
  refine .bind (applyEach_changes insertGroupIfMissing_changes _ _) fun _ => ?_
  refine .bind (applyEach_changes applyUser_changes _ _) fun _ => ?_
  refine .bind (applyEach_changes ?_ _ _) fun _ => ?_
  · exact fun (groupId, username) => insertMembershipIfMissing_changes groupId username
  refine .bind (applyEach_changes ?_ _ _) fun _ => ?_
  · exact fun (username, policy) => insertUserPolicyIfMissing_changes username policy
  refine .bind (applyEach_changes ?_ _ _) fun _ => ?_
  · exact fun (groupId, policy) => insertGroupPolicyIfMissing_changes groupId policy
  exact applyEach_changes applyCredential_changes _ _

end Bootstrap

theorem Inner.applyBootstrap_sound (self : Inner) (plan : BootstrapPlan) :
    Sound self (self.applyBootstrap plan) := by
  have changes := applyPlan_changes plan self
  unfold applyBootstrap
  split
  · rename_i report inner h
    rw [h] at changes
    exact ⟨changes, fun _ h => by cases h⟩
  · exact .refused self _

/-- Every operation of the store is sound. -/
theorem Inner.exec_sound (self : Inner) (op : StoreOp) : Sound self (exec op self) := by
  cases op with
  | createUser user => exact self.insertUser_sound user
  | deleteUser username => exact self.deleteUser_sound username
  | setFriendlyName username name => exact self.setFriendlyName_sound username name
  | createGroup group => exact self.insertGroup_sound group
  | deleteGroup groupId => exact self.deleteGroup_sound groupId
  | createPolicy policy => exact self.insertPolicy_sound policy
  | updatePolicy policy => exact self.updatePolicy_sound policy
  | deletePolicy name => exact self.deletePolicy_sound name
  | addMembership groupId username => exact self.addMembership_sound groupId username
  | removeMembership groupId username => exact self.removeMembership_sound groupId username
  | attachPolicyToUser username policy => exact self.attachPolicyToUser_sound username policy
  | detachPolicyFromUser username policy => exact self.detachPolicyFromUser_sound username policy
  | attachPolicyToGroup groupId policy => exact self.attachPolicyToGroup_sound groupId policy
  | detachPolicyFromGroup groupId policy =>
      exact self.detachPolicyFromGroup_sound groupId policy
  | createCredential credential => exact self.insertCredential_sound credential
  | deleteCredential username key => exact self.deleteCredential_sound username key
  | createExternalPrincipal username principalId =>
      exact self.createExternalPrincipal_sound username principalId
  | deleteExternalPrincipal username principalId =>
      exact self.deleteExternalPrincipal_sound username principalId
  | claimTokenId tokenId expiresAt => exact self.claimTokenId_sound tokenId expiresAt
  | deleteExpiredTokenIds now => exact .done _ (.tokens self _)
  | applyBootstrap plan => exact self.applyBootstrap_sound plan
  | getUser _ | findUserById _ | findUserByEmail _ | findUserByExternalId _ | listUsers _
  | getGroup _ | listGroups _ | getPolicy _ | listPolicies _ | listGroupMembers _ _
  | listUserGroups _ _ | listUserPolicies _ _ | listEffectiveUserPolicies _ _
  | listGroupPolicies _ _ | getCredential _ | getUserCredential _ _ | listUserCredentials _ _
  | getExternalPrincipal _ | listUserExternalPrincipals _ _ | ping =>
      exact .read self _

end LakeFsAuth.Authz.Store.Mem
