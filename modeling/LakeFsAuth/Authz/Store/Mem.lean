import LakeFsAuth.Authz.Store.Bootstrap
import LakeFsAuth.Authz.Store.Traits

/-! In-memory store. Keys mirror the PostgreSQL primary keys so that both
stores order and paginate identically, and the cascades are written out
explicitly. -/
namespace LakeFsAuth.Authz.Store.Mem
open Std Core.Pagination Library.OrderedMap

abbrev BTreeMap (α : Type) := ExtTreeMap String α
abbrev PairSet := ExtTreeSet (String × String) pairCompare

structure Inner where
  users : BTreeMap UserRecord
  nextUserId : Int
  groups : BTreeMap GroupRecord
  policies : BTreeMap PolicyRecord
  /-- `(group_id, username)`. -/
  groupMembers : PairSet
  /-- `(username, policy_name)`. -/
  userPolicies : PairSet
  /-- `(group_id, policy_name)`. -/
  groupPolicies : PairSet
  credentials : BTreeMap CredentialRecord
  externalPrincipals : BTreeMap ExternalPrincipalRecord
  claimedTokenIds : BTreeMap Timestamp
  deriving DecidableEq

/-- `MemStore::new`. -/
def Inner.new : Inner := ⟨∅, 0, ∅, ∅, ∅, ∅, ∅, ∅, ∅, ∅⟩

/-- The owner check of a reference: a missing row is a 404. -/
def require (found : Bool) (entity id : String) : StoreResult Unit :=
  if found then .ok () else .error (.notFound entity id)

/-- `Option::ok_or_else`. -/
def found (row : Option α) (entity id : String) : StoreResult α :=
  match row with
  | some row => .ok row
  | none => .error (.notFound entity id)

namespace Inner
variable (self : Inner)

def requireUser (username : String) : StoreResult Unit :=
  require (self.users.contains username) "user" username

def requireGroup (groupId : String) : StoreResult Unit :=
  require (self.groups.contains groupId) "group" groupId

def requirePolicy (name : String) : StoreResult Unit :=
  require (self.policies.contains name) "policy" name

def emailTaken (email : Option String) : Bool :=
  email.any fun email => (values self.users).any fun user => user.email == some email

def externalIdTaken (externalId : Option String) : Bool :=
  externalId.any fun externalId =>
    (values self.users).any fun user => user.externalId == some externalId

/-- The row a create stores under a fresh id. -/
def newRecord (user : NewUser) (userId : Int) : UserRecord where
  username := user.username
  userId := userId
  creationDate := user.creationDate
  friendlyName := user.friendlyName
  email := user.email
  source := user.source
  externalId := user.externalId
  encryptedPassword := user.encryptedPassword

/-- The identity column is an `i64`; a run that exhausts it is out of reach, so
the counter is unbounded here. -/
def insertUser (user : NewUser) : StoreResult UserRecord × Inner :=
  if self.users.contains user.username then
    (.error (.alreadyExists "user" user.username), self)
  else if self.emailTaken user.email then
    (.error (.alreadyExists "user with email" (user.email.getD "")), self)
  else if self.externalIdTaken user.externalId then
    (.error (.alreadyExists "user with external id" (user.externalId.getD "")), self)
  else
    let record := newRecord user (self.nextUserId + 1)
    (.ok record, { self with
      nextUserId := self.nextUserId + 1
      users := self.users.insert user.username record })

def insertGroup (group : NewGroup) : StoreResult GroupRecord × Inner :=
  if self.groups.contains group.id then
    (.error (.alreadyExists "group" group.id), self)
  else
    let record : GroupRecord := ⟨group.id, group.description, group.creationDate⟩
    (.ok record, { self with groups := self.groups.insert group.id record })

def insertPolicy (policy : NewPolicy) : StoreResult PolicyRecord × Inner :=
  if self.policies.contains policy.name then
    (.error (.alreadyExists "policy" policy.name), self)
  else
    let record : PolicyRecord :=
      ⟨policy.name, policy.creationDate, policy.statement, policy.acl⟩
    (.ok record, { self with policies := self.policies.insert policy.name record })

def insertCredential (credential : NewCredential) : StoreResult CredentialRecord × Inner :=
  match self.users[credential.username]? with
  | none => (.error (.notFound "user" credential.username), self)
  | some user =>
      if self.credentials.contains credential.accessKeyId then
        (.error (.alreadyExists "credentials" credential.accessKeyId), self)
      else
        let record : CredentialRecord :=
          ⟨credential.accessKeyId, credential.username, user.userId,
            credential.secretCiphertext, credential.creationDate⟩
        (.ok record, { self with
          credentials := self.credentials.insert credential.accessKeyId record })

/-- The `ON DELETE CASCADE` rules of the schema, written out. -/
def cascadeDeleteUser (username : String) : Inner :=
  { self with
    groupMembers := self.groupMembers.filter fun (_, member) => member != username
    userPolicies := self.userPolicies.filter fun (user, _) => user != username
    credentials := self.credentials.filter fun _ cred => cred.username != username
    externalPrincipals := self.externalPrincipals.filter fun _ p => p.username != username }

def cascadeDeleteGroup (groupId : String) : Inner :=
  { self with
    groupMembers := self.groupMembers.filter fun (group, _) => group != groupId
    groupPolicies := self.groupPolicies.filter fun (group, _) => group != groupId }

def cascadeDeletePolicy (name : String) : Inner :=
  { self with
    userPolicies := self.userPolicies.filter fun (_, policy) => policy != name
    groupPolicies := self.groupPolicies.filter fun (_, policy) => policy != name }

def policiesNamed (names : List String) : List (String × PolicyRecord) :=
  names.filterMap fun name => self.policies[name]?.map fun policy => (name, policy)

end Inner

/-- One page of a map whose keys are the sort keys. -/
def pageMap (map : BTreeMap α) (query : PageQuery) : PageOf α :=
  pageSorted map.toList query

namespace Inner
variable (self : Inner)

/-! Users. -/

def getUser (username : String) : StoreResult UserRecord :=
  found self.users[username]? "user" username

def findUserById (userId : Int) : Option UserRecord :=
  (values self.users).find? fun user => user.userId == userId

def findUserByEmail (email : String) : Option UserRecord :=
  (values self.users).find? fun user => user.email == some email

def findUserByExternalId (externalId : String) : Option UserRecord :=
  (values self.users).find? fun user => user.externalId == some externalId

def deleteUser (username : String) : StoreResult Unit × Inner :=
  if self.users.contains username then
    (.ok (), { self with users := self.users.erase username }.cascadeDeleteUser username)
  else (.error (.notFound "user" username), self)

def listUsers (query : PageQuery) : PageOf UserRecord :=
  pageMap self.users query

def setFriendlyName (username friendlyName : String) : StoreResult Unit × Inner :=
  match self.users[username]? with
  | none => (.error (.notFound "user" username), self)
  | some user =>
      (.ok (), { self with
        users := self.users.insert username { user with friendlyName := some friendlyName } })

/-! Groups. -/

def getGroup (groupId : String) : StoreResult GroupRecord :=
  found self.groups[groupId]? "group" groupId

def deleteGroup (groupId : String) : StoreResult Unit × Inner :=
  if self.groups.contains groupId then
    (.ok (), { self with groups := self.groups.erase groupId }.cascadeDeleteGroup groupId)
  else (.error (.notFound "group" groupId), self)

def listGroups (query : PageQuery) : PageOf GroupRecord :=
  pageMap self.groups query

/-! Policies. -/

def getPolicy (name : String) : StoreResult PolicyRecord :=
  found self.policies[name]? "policy" name

/-- The assignments of an update. The name of the slot stays. -/
def rewritten (slot : PolicyRecord) (policy : NewPolicy) : PolicyRecord :=
  { slot with
    creationDate := policy.creationDate
    statement := policy.statement
    acl := policy.acl }

def updatePolicy (policy : NewPolicy) : StoreResult PolicyRecord × Inner :=
  match self.policies[policy.name]? with
  | none => (.error (.notFound "policy" policy.name), self)
  | some slot =>
      let slot := rewritten slot policy
      (.ok slot, { self with policies := self.policies.insert policy.name slot })

def deletePolicy (name : String) : StoreResult Unit × Inner :=
  if self.policies.contains name then
    (.ok (), { self with policies := self.policies.erase name }.cascadeDeletePolicy name)
  else (.error (.notFound "policy" name), self)

def listPolicies (query : PageQuery) : PageOf PolicyRecord :=
  pageMap self.policies query

/-! Memberships. -/

def addMembership (groupId username : String) : StoreResult Unit × Inner :=
  match self.requireGroup groupId, self.requireUser username with
  | .error error, _ => (.error error, self)
  | .ok (), .error error => (.error error, self)
  | .ok (), .ok () =>
      (.ok (), { self with groupMembers := self.groupMembers.insert (groupId, username) })

def removeMembership (groupId username : String) : StoreResult Unit × Inner :=
  if self.groupMembers.contains (groupId, username) then
    (.ok (), { self with groupMembers := self.groupMembers.erase (groupId, username) })
  else (.error (.notFound "group membership" username), self)

def listGroupMembers (groupId : String) (query : PageQuery) :
    StoreResult (PageOf UserRecord) := do
  self.requireGroup groupId
  let rows := (self.groupMembers.toList.filter fun (group, _) => group == groupId).filterMap
    fun (_, username) => self.users[username]?.map fun user => (username, user)
  return pageSorted rows query

def listUserGroups (username : String) (query : PageQuery) :
    StoreResult (PageOf GroupRecord) := do
  self.requireUser username
  let rows := (self.groupMembers.toList.filter fun (_, member) => member == username).filterMap
    fun (group, _) => self.groups[group]?.map fun record => (group, record)
  return pageSorted rows query

/-! Attachments. -/

def attachPolicyToUser (username policy : String) : StoreResult Unit × Inner :=
  match self.requireUser username, self.requirePolicy policy with
  | .error error, _ => (.error error, self)
  | .ok (), .error error => (.error error, self)
  | .ok (), .ok () =>
      (.ok (), { self with userPolicies := self.userPolicies.insert (username, policy) })

def detachPolicyFromUser (username policy : String) : StoreResult Unit × Inner :=
  if self.userPolicies.contains (username, policy) then
    (.ok (), { self with userPolicies := self.userPolicies.erase (username, policy) })
  else (.error (.notFound "policy attachment" policy), self)

def userPolicyNames (username : String) : List String :=
  (self.userPolicies.toList.filter fun (user, _) => user == username).map Prod.snd

def listUserPolicies (username : String) (query : PageQuery) :
    StoreResult (PageOf PolicyRecord) := do
  self.requireUser username
  return pageSorted (self.policiesNamed (self.userPolicyNames username)) query

/-- The names of the effective list. A set removes the duplicates a user gets
through several groups. -/
def effectivePolicyNames (username : String) : ExtTreeSet String :=
  let groups : ExtTreeSet String := ExtTreeSet.ofList
    ((self.groupMembers.toList.filter fun (_, member) => member == username).map Prod.fst)
  let names : ExtTreeSet String := ExtTreeSet.ofList (self.userPolicyNames username)
  names.insertMany
    ((self.groupPolicies.toList.filter fun (group, _) => groups.contains group).map Prod.snd)

def listEffectiveUserPolicies (username : String) (query : PageQuery) :
    StoreResult (PageOf PolicyRecord) := do
  self.requireUser username
  return pageSorted (self.policiesNamed (self.effectivePolicyNames username).toList) query

def attachPolicyToGroup (groupId policy : String) : StoreResult Unit × Inner :=
  match self.requireGroup groupId, self.requirePolicy policy with
  | .error error, _ => (.error error, self)
  | .ok (), .error error => (.error error, self)
  | .ok (), .ok () =>
      (.ok (), { self with groupPolicies := self.groupPolicies.insert (groupId, policy) })

def detachPolicyFromGroup (groupId policy : String) : StoreResult Unit × Inner :=
  if self.groupPolicies.contains (groupId, policy) then
    (.ok (), { self with groupPolicies := self.groupPolicies.erase (groupId, policy) })
  else (.error (.notFound "policy attachment" policy), self)

def listGroupPolicies (groupId : String) (query : PageQuery) :
    StoreResult (PageOf PolicyRecord) := do
  self.requireGroup groupId
  let names := (self.groupPolicies.toList.filter fun (group, _) => group == groupId).map Prod.snd
  return pageSorted (self.policiesNamed names) query

/-! Credentials. -/

def getCredential (accessKeyId : String) : StoreResult CredentialRecord :=
  found self.credentials[accessKeyId]? "credentials" accessKeyId

def getUserCredential (username accessKeyId : String) : StoreResult CredentialRecord :=
  found (self.credentials[accessKeyId]?.filter fun cred => cred.username == username)
    "credentials" accessKeyId

def deleteCredential (username accessKeyId : String) : StoreResult Unit × Inner :=
  if self.credentials[accessKeyId]?.any fun cred => cred.username == username then
    (.ok (), { self with credentials := self.credentials.erase accessKeyId })
  else (.error (.notFound "credentials" accessKeyId), self)

def listUserCredentials (username : String) (query : PageQuery) :
    StoreResult (PageOf CredentialRecord) := do
  self.requireUser username
  let rows := self.credentials.toList.filter fun (_, credential) =>
    credential.username == username
  return pageSorted rows query

/-! External principals. -/

def createExternalPrincipal (username principalId : String) : StoreResult Unit × Inner :=
  match self.requireUser username with
  | .error error => (.error error, self)
  | .ok () =>
      if self.externalPrincipals.contains principalId then
        (.error (.alreadyExists "external principal" principalId), self)
      else
        (.ok (), { self with
          externalPrincipals :=
            self.externalPrincipals.insert principalId ⟨principalId, username⟩ })

def deleteExternalPrincipal (username principalId : String) : StoreResult Unit × Inner :=
  if self.externalPrincipals[principalId]?.any fun p => p.username == username then
    (.ok (), { self with externalPrincipals := self.externalPrincipals.erase principalId })
  else (.error (.notFound "external principal" principalId), self)

def getExternalPrincipal (principalId : String) : StoreResult ExternalPrincipalRecord :=
  found self.externalPrincipals[principalId]? "external principal" principalId

def listUserExternalPrincipals (username : String) (query : PageQuery) :
    StoreResult (PageOf ExternalPrincipalRecord) := do
  self.requireUser username
  let rows := self.externalPrincipals.toList.filter fun (_, principal) =>
    principal.username == username
  return pageSorted rows query

/-! Token ids. -/

def claimTokenId (tokenId : String) (expiresAt : Timestamp) : StoreResult Unit × Inner :=
  if self.claimedTokenIds.contains tokenId then
    (.error (.alreadyExists "token id" tokenId), self)
  else
    (.ok (), { self with claimedTokenIds := self.claimedTokenIds.insert tokenId expiresAt })

def deleteExpiredTokenIds (now : Timestamp) : Nat × Inner :=
  let kept := self.claimedTokenIds.filter fun _ expires => decide (now.nanos < expires.nanos)
  (self.claimedTokenIds.size - kept.size, { self with claimedTokenIds := kept })

end Inner

/-! Bootstrap. -/

/-- `outcome?; Ok(value)`. -/
def andReturn (outcome : StoreResult α × Inner) (value : β) : StoreResult β × Inner :=
  (outcome.1.map fun _ => value, outcome.2)

instance : BootstrapWriter Inner where
  insertPolicyIfMissing policy := fun self =>
    if self.policies.contains policy.name then (.ok false, self)
    else andReturn (self.insertPolicy policy) true
  insertGroupIfMissing group := fun self =>
    if self.groups.contains group.id then (.ok false, self)
    else andReturn (self.insertGroup group) true
  insertUserIfMissing user := fun self =>
    match self.users[user.username]? with
    | some existing => (.ok (some existing), self)
    | none => andReturn (self.insertUser user) none
  insertMembershipIfMissing groupId username := fun self =>
    andReturn (self.addMembership groupId username)
      (!self.groupMembers.contains (groupId, username))
  insertUserPolicyIfMissing username policy := fun self =>
    andReturn (self.attachPolicyToUser username policy)
      (!self.userPolicies.contains (username, policy))
  insertGroupPolicyIfMissing groupId policy := fun self =>
    andReturn (self.attachPolicyToGroup groupId policy)
      (!self.groupPolicies.contains (groupId, policy))
  insertCredentialIfMissing credential := fun self =>
    match self.credentials[credential.accessKeyId]? with
    | some existing => (.ok (some existing), self)
    | none => andReturn (self.insertCredential credential) none

theorem insertUserIfMissing_eq (user : NewUser) (self : Inner) :
    Library.Fallible.exec
        (BootstrapWriter.insertUserIfMissing user : StoreM Inner (Option UserRecord)) self =
      match self.users[user.username]? with
      | some existing => (.ok (some existing), self)
      | none => andReturn (self.insertUser user) none := rfl

theorem insertCredentialIfMissing_eq (credential : NewCredential) (self : Inner) :
    Library.Fallible.exec (BootstrapWriter.insertCredentialIfMissing credential :
        StoreM Inner (Option CredentialRecord)) self =
      match self.credentials[credential.accessKeyId]? with
      | some existing => (.ok (some existing), self)
      | none => andReturn (self.insertCredential credential) none := rfl

/-- The plan runs on a copy that is swapped in when it succeeds. -/
def Inner.applyBootstrap (self : Inner) (plan : BootstrapPlan) :
    StoreResult BootstrapReport × Inner :=
  match Library.Fallible.exec (applyPlan plan) self with
  | (.ok report, inner) => (.ok report, inner)
  | (.error error, _) => (.error error, self)

/-- The operations of the store. The test knob of `ping` is off. -/
def Inner.exec : (op : StoreOp) → Inner → op.Reply × Inner
  | .createUser user, self => self.insertUser user
  | .getUser username, self => (self.getUser username, self)
  | .findUserById userId, self => (.ok (self.findUserById userId), self)
  | .findUserByEmail email, self => (.ok (self.findUserByEmail email), self)
  | .findUserByExternalId externalId, self => (.ok (self.findUserByExternalId externalId), self)
  | .deleteUser username, self => self.deleteUser username
  | .listUsers query, self => (.ok (self.listUsers query), self)
  | .setFriendlyName username name, self => self.setFriendlyName username name
  | .createGroup group, self => self.insertGroup group
  | .getGroup groupId, self => (self.getGroup groupId, self)
  | .deleteGroup groupId, self => self.deleteGroup groupId
  | .listGroups query, self => (.ok (self.listGroups query), self)
  | .createPolicy policy, self => self.insertPolicy policy
  | .getPolicy name, self => (self.getPolicy name, self)
  | .updatePolicy policy, self => self.updatePolicy policy
  | .deletePolicy name, self => self.deletePolicy name
  | .listPolicies query, self => (.ok (self.listPolicies query), self)
  | .addMembership groupId username, self => self.addMembership groupId username
  | .removeMembership groupId username, self => self.removeMembership groupId username
  | .listGroupMembers groupId query, self => (self.listGroupMembers groupId query, self)
  | .listUserGroups username query, self => (self.listUserGroups username query, self)
  | .attachPolicyToUser username policy, self => self.attachPolicyToUser username policy
  | .detachPolicyFromUser username policy, self => self.detachPolicyFromUser username policy
  | .listUserPolicies username query, self => (self.listUserPolicies username query, self)
  | .listEffectiveUserPolicies username query, self =>
      (self.listEffectiveUserPolicies username query, self)
  | .attachPolicyToGroup groupId policy, self => self.attachPolicyToGroup groupId policy
  | .detachPolicyFromGroup groupId policy, self => self.detachPolicyFromGroup groupId policy
  | .listGroupPolicies groupId query, self => (self.listGroupPolicies groupId query, self)
  | .createCredential credential, self => self.insertCredential credential
  | .getCredential accessKeyId, self => (self.getCredential accessKeyId, self)
  | .getUserCredential username accessKeyId, self =>
      (self.getUserCredential username accessKeyId, self)
  | .deleteCredential username accessKeyId, self => self.deleteCredential username accessKeyId
  | .listUserCredentials username query, self => (self.listUserCredentials username query, self)
  | .createExternalPrincipal username principalId, self =>
      self.createExternalPrincipal username principalId
  | .deleteExternalPrincipal username principalId, self =>
      self.deleteExternalPrincipal username principalId
  | .getExternalPrincipal principalId, self => (self.getExternalPrincipal principalId, self)
  | .listUserExternalPrincipals username query, self =>
      (self.listUserExternalPrincipals username query, self)
  | .claimTokenId tokenId expiresAt, self => self.claimTokenId tokenId expiresAt
  | .deleteExpiredTokenIds now, self =>
      (.ok (self.deleteExpiredTokenIds now).1, (self.deleteExpiredTokenIds now).2)
  | .ping, self => (.ok (), self)
  | .applyBootstrap plan, self => self.applyBootstrap plan

/-- `MemStore` as a store. -/
def memStore : StoreImpl Inner := ⟨Inner.exec⟩

end LakeFsAuth.Authz.Store.Mem
