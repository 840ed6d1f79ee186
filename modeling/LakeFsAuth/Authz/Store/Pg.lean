import LakeFsAuth.Authz.Store.Bootstrap
import LakeFsAuth.Authz.Store.Traits
import LakeFsAuth.Library.Relational

/-! PostgreSQL store: the tables of the migration with their constraints, the
statements of `sql.rs` over them, and the mapping of violations to store errors. -/
namespace LakeFsAuth.Authz.Store.Pg
open Core.Model Core.Pagination Library Library.Relational

/-- How a timestamp comes back from a column, `jiff_sqlx` and the microseconds of
`TIMESTAMPTZ` in between. -/
class JiffSqlx where
  toSqlx : Timestamp → Timestamp

/-- A row of `credentials`. The user id is joined in when it is read. -/
structure CredentialRow where
  accessKeyId : String
  username : String
  secretCiphertext : Bytes
  creationDate : Timestamp
  deriving DecidableEq

structure Database where
  users : List UserRecord
  /-- The last value of the identity sequence. It moves with every insert that is
  tried, and a rollback does not take it back. -/
  userIdSeq : Int
  groups : List GroupRecord
  policies : List PolicyRecord
  /-- `(group_id, username)`. -/
  groupMembers : List (String × String)
  /-- `(username, policy_name)`. -/
  userPolicies : List (String × String)
  /-- `(group_id, policy_name)`. -/
  groupPolicies : List (String × String)
  credentials : List CredentialRow
  externalPrincipals : List ExternalPrincipalRecord
  /-- `(token_id, expires_at)`. -/
  claimedTokenIds : List (String × Timestamp)
  deriving DecidableEq

/-- The tables after the migration. -/
def Database.new : Database := ⟨[], 0, [], [], [], [], [], [], [], []⟩

/-! The constraints of the migration. -/

def usersUniques : List (UniqueIndex UserRecord) :=
  [.on "users_pkey" (·.username), .on "users_user_id_key" (·.userId),
    .onNullable "users_email_key" (·.email), .onNullable "users_external_id_key" (·.externalId)]

def groupsUniques : List (UniqueIndex GroupRecord) := [.on "groups_pkey" (·.id)]

def policiesUniques : List (UniqueIndex PolicyRecord) := [.on "policies_pkey" (·.name)]

/-- The primary key of a link table is the whole row. -/
def linkUniques (name : String) : List (UniqueIndex (String × String)) := [.on name id]

def credentialsUniques : List (UniqueIndex CredentialRow) := [.on "credentials_pkey" (·.accessKeyId)]

def principalsUniques : List (UniqueIndex ExternalPrincipalRecord) :=
  [.on "external_principals_pkey" (·.id)]

def tokenIdsUniques : List (UniqueIndex (String × Timestamp)) :=
  [.on "claimed_token_ids_pkey" Prod.fst]

namespace Database
variable (db : Database)

def hasUser (username : String) : Bool := db.users.any (·.username == username)

def hasGroup (groupId : String) : Bool := db.groups.any (·.id == groupId)

def hasPolicy (name : String) : Bool := db.policies.any (·.name == name)

def groupMembersReferences : List (Reference (String × String)) :=
  [⟨"group_members_group_fk", fun row => db.hasGroup row.1⟩,
    ⟨"group_members_user_fk", fun row => db.hasUser row.2⟩]

def userPoliciesReferences : List (Reference (String × String)) :=
  [⟨"user_policies_user_fk", fun row => db.hasUser row.1⟩,
    ⟨"user_policies_policy_fk", fun row => db.hasPolicy row.2⟩]

def groupPoliciesReferences : List (Reference (String × String)) :=
  [⟨"group_policies_group_fk", fun row => db.hasGroup row.1⟩,
    ⟨"group_policies_policy_fk", fun row => db.hasPolicy row.2⟩]

def credentialsReferences : List (Reference CredentialRow) :=
  [⟨"credentials_user_fk", fun row => db.hasUser row.username⟩]

def principalsReferences : List (Reference ExternalPrincipalRecord) :=
  [⟨"external_principals_user_fk", fun row => db.hasUser row.username⟩]

end Database

/-! The error mapping. -/

def endsWith (text suffix : String) : Bool := suffix.toList.isSuffixOf text.toList

/-- Turns a violation into a store error. -/
def mapError (unique foreignKey : String → StoreError) : Violation → StoreError
  | .unique constraint => unique constraint
  | .foreignKey constraint => foreignKey constraint

/-- For a table without a foreign key. -/
def mapUnique (unique : String → StoreError) : Violation → StoreError :=
  mapError unique fun constraint => .Backend s!"foreign key violation: {constraint}"

/-- Names the column of a unique violation on `users`. -/
def userConflict (user : NewUser) (constraint : String) : StoreError :=
  if endsWith constraint "_email_key" then
    .alreadyExists "user with email" (user.email.getD "")
  else if endsWith constraint "_external_id_key" then
    .alreadyExists "user with external id" (user.externalId.getD "")
  else .alreadyExists "user" user.username

/-- Maps a violation of a constraint named `*_{entity}_fk` onto the reference with
that entity. The first one is the answer for a constraint named otherwise. -/
def missingFromConstraint (first : String × String) (others : List (String × String))
    (constraint : String) : StoreError :=
  let (entity, id) := ((first :: others).find? fun (entity, _) =>
    endsWith constraint s!"_{entity}_fk").getD first
  .notFound entity id

def credentialError (credential : NewCredential) : Violation → StoreError :=
  mapError (fun _ => .alreadyExists "credentials" credential.accessKeyId)
    (missingFromConstraint ("user", credential.username) [])

/-! Running a statement. -/

/-- `RowNotFound`. -/
def rowNotFound : StoreError :=
  .Backend "no rows returned by a query that expected to return at least one row"

/-- The row an insert returns. -/
def returning (rows : List α) : StoreResult α :=
  match rows with
  | row :: _ => .ok row
  | [] => .error rowNotFound

/-- A missing row is `NotFound` for the entity. -/
def fetchOne (rows : List α) (entity id : String) : StoreResult α :=
  match rows with
  | row :: _ => .ok row
  | [] => .error (.notFound entity id)

def fetchOptional (rows : List α) : Option α := rows.head?

/-- A delete or update that addresses one row. -/
def executeOne (rows : List α) (entity id : String) : StoreResult Unit :=
  if rows.length = 0 then .error (.notFound entity id) else .ok ()

/-- `prefix%`, escaped. -/
def likePattern (query : PageQuery) : String := escapeLikePrefix query.pre ++ "%"

/-- The rows a list statement fetches: those whose key matches the pattern and comes
after the cursor, in the order of the key, one more than asked for. -/
def fetchRows (key : α → String) (query : PageQuery) (rows : List α) : List α :=
  (orderBy key (rows.filter fun row =>
    like '\\' (likePattern query).toList (key row).toList && decide (query.after < key row))).take
      query.fetchLimit.toNat

def fetchPage (key : α → String) (query : PageQuery) (rows : List α) : PageOf α :=
  .fromOverfetch (fetchRows key query rows) query.limit key

/-- A page with rows proves the owner exists, so the owner check only runs for an
empty page. -/
def fetchOwnedPage (key : α → String) (query : PageQuery) (rows : List α)
    (owner : StoreResult Unit) : StoreResult (PageOf α) :=
  let page := fetchPage key query rows
  if page.items = [] then owner.map fun _ => page else .ok page

namespace Database
variable (db : Database)

/-! Joins. -/

def usersNamed (username : String) : List UserRecord := db.users.filter (·.username == username)

def groupsNamed (groupId : String) : List GroupRecord := db.groups.filter (·.id == groupId)

def policiesNamed (name : String) : List PolicyRecord := db.policies.filter (·.name == name)

/-- `credentials c JOIN users u ON u.username = c.username`. -/
def joinedCredentials (rows : List CredentialRow) : List CredentialRecord :=
  rows.flatMap fun row => (db.usersNamed row.username).map fun user =>
    ⟨row.accessKeyId, row.username, user.userId, row.secretCiphertext, row.creationDate⟩

def userExists (username : String) : StoreResult Unit :=
  executeOne (db.usersNamed username) "user" username

def groupExists (groupId : String) : StoreResult Unit :=
  executeOne (db.groupsNamed groupId) "group" groupId

section Write
variable [JiffSqlx]

/-! Users. -/

/-- The row of an insert, under the next value of the sequence. -/
def userRow (user : NewUser) (userId : Int) : UserRecord where
  username := user.username
  userId := userId
  creationDate := JiffSqlx.toSqlx user.creationDate
  friendlyName := user.friendlyName
  email := user.email
  source := user.source
  externalId := user.externalId
  encryptedPassword := user.encryptedPassword

/-- `INSERT INTO users`. -/
def insertUser (skips : UniqueIndex UserRecord → Bool) (user : NewUser) :
    Except Violation (Done UserRecord) × Database :=
  let db := { db with userIdSeq := db.userIdSeq + 1 }
  match insert usersUniques [] skips (userRow user db.userIdSeq) db.users with
  | .ok done => (.ok done, { db with users := done.table })
  | .error violation => (.error violation, db)

def createUser (user : NewUser) : StoreResult UserRecord × Database :=
  match db.insertUser onConflictError user with
  | (.ok done, db) => (returning done.rows, db)
  | (.error violation, db) => (.error (mapUnique (userConflict user) violation), db)

end Write

def getUser (username : String) : StoreResult UserRecord :=
  fetchOne (db.usersNamed username) "user" username

def findUserById (userId : Int) : Option UserRecord :=
  fetchOptional (db.users.filter (·.userId == userId))

def findUserByEmail (email : String) : Option UserRecord :=
  fetchOptional (db.users.filter (·.email == some email))

def findUserByExternalId (externalId : String) : Option UserRecord :=
  fetchOptional (db.users.filter (·.externalId == some externalId))

/-- `DELETE FROM users`, with its cascades. -/
def deleteUser (username : String) : StoreResult Unit × Database :=
  let done := delete (·.username == username) db.users
  (executeOne done.rows "user" username,
    { db with
      users := done.table
      groupMembers := cascade done.rows (fun row user => row.2 == user.username) db.groupMembers
      userPolicies := cascade done.rows (fun row user => row.1 == user.username) db.userPolicies
      credentials := cascade done.rows (fun row user => row.username == user.username)
        db.credentials
      externalPrincipals := cascade done.rows (fun row user => row.username == user.username)
        db.externalPrincipals })

def listUsers (query : PageQuery) : PageOf UserRecord :=
  fetchPage (·.username) query db.users

/-- `UPDATE users SET friendly_name`. -/
def setFriendlyName (username friendlyName : String) : StoreResult Unit × Database :=
  let done := update (·.username == username)
    (fun user => { user with friendlyName := some friendlyName }) db.users
  (executeOne done.rows "user" username, { db with users := done.table })

/-! Groups. -/

section Write
variable [JiffSqlx]

def groupRow (group : NewGroup) : GroupRecord :=
  ⟨group.id, group.description, JiffSqlx.toSqlx group.creationDate⟩

/-- `INSERT INTO groups`. -/
def insertGroup (skips : UniqueIndex GroupRecord → Bool) (group : NewGroup) :
    Except Violation (Done GroupRecord) :=
  insert groupsUniques [] skips (groupRow group) db.groups

def createGroup (group : NewGroup) : StoreResult GroupRecord × Database :=
  match db.insertGroup onConflictError group with
  | .ok done => (returning done.rows, { db with groups := done.table })
  | .error violation =>
      (.error (mapUnique (fun _ => .alreadyExists "group" group.id) violation), db)

end Write

def getGroup (groupId : String) : StoreResult GroupRecord :=
  fetchOne (db.groupsNamed groupId) "group" groupId

/-- `DELETE FROM groups`, with its cascades. -/
def deleteGroup (groupId : String) : StoreResult Unit × Database :=
  let done := delete (·.id == groupId) db.groups
  (executeOne done.rows "group" groupId,
    { db with
      groups := done.table
      groupMembers := cascade done.rows (fun row group => row.1 == group.id) db.groupMembers
      groupPolicies := cascade done.rows (fun row group => row.1 == group.id) db.groupPolicies })

def listGroups (query : PageQuery) : PageOf GroupRecord :=
  fetchPage (·.id) query db.groups

/-! Policies. A `jsonb` column gives back the statements it was given. -/

section Write
variable [JiffSqlx]

def policyRow (policy : NewPolicy) : PolicyRecord :=
  ⟨policy.name, JiffSqlx.toSqlx policy.creationDate, policy.statement, policy.acl⟩

/-- `INSERT INTO policies`. -/
def insertPolicy (skips : UniqueIndex PolicyRecord → Bool) (policy : NewPolicy) :
    Except Violation (Done PolicyRecord) :=
  insert policiesUniques [] skips (policyRow policy) db.policies

def createPolicy (policy : NewPolicy) : StoreResult PolicyRecord × Database :=
  match db.insertPolicy onConflictError policy with
  | .ok done => (returning done.rows, { db with policies := done.table })
  | .error violation =>
      (.error (mapUnique (fun _ => .alreadyExists "policy" policy.name) violation), db)

/-- `UPDATE policies`. The name stays. -/
def updatePolicy (policy : NewPolicy) : StoreResult PolicyRecord × Database :=
  let done := update (·.name == policy.name)
    (fun row => { policyRow policy with name := row.name }) db.policies
  (fetchOne done.rows "policy" policy.name, { db with policies := done.table })

end Write

def getPolicy (name : String) : StoreResult PolicyRecord :=
  fetchOne (db.policiesNamed name) "policy" name

/-- `DELETE FROM policies`, with its cascades. -/
def deletePolicy (name : String) : StoreResult Unit × Database :=
  let done := delete (·.name == name) db.policies
  (executeOne done.rows "policy" name,
    { db with
      policies := done.table
      userPolicies := cascade done.rows (fun row policy => row.2 == policy.name) db.userPolicies
      groupPolicies := cascade done.rows (fun row policy => row.2 == policy.name)
        db.groupPolicies })

def listPolicies (query : PageQuery) : PageOf PolicyRecord :=
  fetchPage (·.name) query db.policies

/-! Memberships. -/

/-- One membership row. A row that is there already is no error. -/
def insertMembership (groupId username : String) : StoreResult (Done (String × String)) :=
  (insert (linkUniques "group_members_pkey") db.groupMembersReferences onConflictDoNothing
    (groupId, username) db.groupMembers).mapError
    (mapError (fun _ => .alreadyExists "group membership" username)
      (missingFromConstraint ("user", username) [("group", groupId)]))

def addMembership (groupId username : String) : StoreResult Unit × Database :=
  match db.insertMembership groupId username with
  | .ok done => (.ok (), { db with groupMembers := done.table })
  | .error error => (.error error, db)

def removeMembership (groupId username : String) : StoreResult Unit × Database :=
  let done := delete (fun row => row.1 == groupId && row.2 == username) db.groupMembers
  (executeOne done.rows "group membership" username, { db with groupMembers := done.table })

def listGroupMembers (groupId : String) (query : PageQuery) :
    StoreResult (PageOf UserRecord) :=
  let rows := (db.groupMembers.filter (·.1 == groupId)).flatMap fun row => db.usersNamed row.2
  fetchOwnedPage (·.username) query rows (db.groupExists groupId)

def listUserGroups (username : String) (query : PageQuery) :
    StoreResult (PageOf GroupRecord) :=
  let rows := (db.groupMembers.filter (·.2 == username)).flatMap fun row => db.groupsNamed row.1
  fetchOwnedPage (·.id) query rows (db.userExists username)

/-! Attachments. -/

/-- One user attachment row. -/
def insertUserPolicy (username policy : String) : StoreResult (Done (String × String)) :=
  (insert (linkUniques "user_policies_pkey") db.userPoliciesReferences onConflictDoNothing
    (username, policy) db.userPolicies).mapError
    (mapError (fun _ => .alreadyExists "policy attachment" policy)
      (missingFromConstraint ("user", username) [("policy", policy)]))

/-- One group attachment row. -/
def insertGroupPolicy (groupId policy : String) : StoreResult (Done (String × String)) :=
  (insert (linkUniques "group_policies_pkey") db.groupPoliciesReferences onConflictDoNothing
    (groupId, policy) db.groupPolicies).mapError
    (mapError (fun _ => .alreadyExists "policy attachment" policy)
      (missingFromConstraint ("group", groupId) [("policy", policy)]))

def attachPolicyToUser (username policy : String) : StoreResult Unit × Database :=
  match db.insertUserPolicy username policy with
  | .ok done => (.ok (), { db with userPolicies := done.table })
  | .error error => (.error error, db)

def detachPolicyFromUser (username policy : String) : StoreResult Unit × Database :=
  let done := delete (fun row => row.1 == username && row.2 == policy) db.userPolicies
  (executeOne done.rows "policy attachment" policy, { db with userPolicies := done.table })

def listUserPolicies (username : String) (query : PageQuery) :
    StoreResult (PageOf PolicyRecord) :=
  let rows := (db.userPolicies.filter (·.1 == username)).flatMap fun row =>
    db.policiesNamed row.2
  fetchOwnedPage (·.name) query rows (db.userExists username)

/-- The names of the effective list: direct attachments, and those of the groups the
user is in. -/
def effectivePolicyNames (username : String) : List String :=
  union ((db.userPolicies.filter (·.1 == username)).map Prod.snd)
    ((db.groupPolicies.filter fun attachment => (db.groupMembers.filter (·.2 == username)).any
      fun member => member.1 == attachment.1).map Prod.snd)

def listEffectiveUserPolicies (username : String) (query : PageQuery) :
    StoreResult (PageOf PolicyRecord) :=
  let names := db.effectivePolicyNames username
  let rows := db.policies.flatMap fun policy =>
    (names.filter (· == policy.name)).map fun _ => policy
  fetchOwnedPage (·.name) query rows (db.userExists username)

def attachPolicyToGroup (groupId policy : String) : StoreResult Unit × Database :=
  match db.insertGroupPolicy groupId policy with
  | .ok done => (.ok (), { db with groupPolicies := done.table })
  | .error error => (.error error, db)

def detachPolicyFromGroup (groupId policy : String) : StoreResult Unit × Database :=
  let done := delete (fun row => row.1 == groupId && row.2 == policy) db.groupPolicies
  (executeOne done.rows "policy attachment" policy, { db with groupPolicies := done.table })

def listGroupPolicies (groupId : String) (query : PageQuery) :
    StoreResult (PageOf PolicyRecord) :=
  let rows := (db.groupPolicies.filter (·.1 == groupId)).flatMap fun row =>
    db.policiesNamed row.2
  fetchOwnedPage (·.name) query rows (db.groupExists groupId)

/-! Credentials. -/

section Write
variable [JiffSqlx]

def credentialRow (credential : NewCredential) : CredentialRow :=
  ⟨credential.accessKeyId, credential.username, credential.secretCiphertext,
    JiffSqlx.toSqlx credential.creationDate⟩

/-- `INSERT INTO credentials`. -/
def insertCredential (skips : UniqueIndex CredentialRow → Bool) (credential : NewCredential) :
    StoreResult (Done CredentialRow) :=
  (insert credentialsUniques db.credentialsReferences skips (credentialRow credential)
    db.credentials).mapError (credentialError credential)

/-- The inserted row joined with its user. -/
def createCredential (credential : NewCredential) : StoreResult CredentialRecord × Database :=
  match db.insertCredential onConflictError credential with
  | .ok done => (returning (db.joinedCredentials done.rows), { db with credentials := done.table })
  | .error error => (.error error, db)

end Write

def getCredential (accessKeyId : String) : StoreResult CredentialRecord :=
  fetchOne (db.joinedCredentials (db.credentials.filter (·.accessKeyId == accessKeyId)))
    "credentials" accessKeyId

def getUserCredential (username accessKeyId : String) : StoreResult CredentialRecord :=
  fetchOne (db.joinedCredentials (db.credentials.filter fun row =>
    row.accessKeyId == accessKeyId && row.username == username)) "credentials" accessKeyId

def deleteCredential (username accessKeyId : String) : StoreResult Unit × Database :=
  let done := delete (fun row => row.accessKeyId == accessKeyId && row.username == username)
    db.credentials
  (executeOne done.rows "credentials" accessKeyId, { db with credentials := done.table })

def listUserCredentials (username : String) (query : PageQuery) :
    StoreResult (PageOf CredentialRecord) :=
  let rows := db.joinedCredentials (db.credentials.filter (·.username == username))
  fetchOwnedPage (·.accessKeyId) query rows (db.userExists username)

/-! External principals. -/

def createExternalPrincipal (username principalId : String) : StoreResult Unit × Database :=
  match insert principalsUniques db.principalsReferences onConflictError
      ⟨principalId, username⟩ db.externalPrincipals with
  | .ok done => (.ok (), { db with externalPrincipals := done.table })
  | .error violation =>
      (.error (mapError (fun _ => .alreadyExists "external principal" principalId)
        (missingFromConstraint ("user", username) []) violation), db)

def deleteExternalPrincipal (username principalId : String) : StoreResult Unit × Database :=
  let done := delete (fun row => row.id == principalId && row.username == username)
    db.externalPrincipals
  (executeOne done.rows "external principal" principalId,
    { db with externalPrincipals := done.table })

def getExternalPrincipal (principalId : String) : StoreResult ExternalPrincipalRecord :=
  fetchOne (db.externalPrincipals.filter (·.id == principalId)) "external principal" principalId

def listUserExternalPrincipals (username : String) (query : PageQuery) :
    StoreResult (PageOf ExternalPrincipalRecord) :=
  fetchOwnedPage (·.id) query (db.externalPrincipals.filter (·.username == username))
    (db.userExists username)

/-! Token ids. -/

section Tokens
variable [JiffSqlx]

def claimTokenId (tokenId : String) (expiresAt : Timestamp) : StoreResult Unit × Database :=
  match insert tokenIdsUniques [] onConflictError (tokenId, JiffSqlx.toSqlx expiresAt)
      db.claimedTokenIds with
  | .ok done => (.ok (), { db with claimedTokenIds := done.table })
  | .error violation =>
      (.error (mapUnique (fun _ => .alreadyExists "token id" tokenId) violation), db)

/-- `DELETE FROM claimed_token_ids WHERE expires_at <= $1`. -/
def deleteExpiredTokenIds (now : Timestamp) : Nat × Database :=
  let done := delete (fun row => decide (row.2.nanos ≤ (JiffSqlx.toSqlx now).nanos))
    db.claimedTokenIds
  (done.rows.length, { db with claimedTokenIds := done.table })

end Tokens

end Database

/-! Bootstrap. Every insert runs `ON CONFLICT DO NOTHING`, so no row affected means the
row was already there. -/

/-- Whether a row was added. -/
def Done.added (done : Done α) : Bool := done.rows.length > 0

/-- Keeps the table a statement leaves behind, and tells whether it added a row. -/
def addedTo (outcome : StoreResult (Done α)) (set : List α → Database) (db : Database) :
    StoreResult Bool × Database :=
  match outcome with
  | .ok done => (.ok (Done.added done), set done.table)
  | .error error => (.error error, db)

section Bootstrap
variable [JiffSqlx]

/-- A violation the mapping of the plain inserts does not expect. -/
def backend (violation : Violation) : StoreError :=
  mapError (fun constraint => .Backend s!"unique violation: {constraint}")
    (fun constraint => .Backend s!"foreign key violation: {constraint}") violation

instance : BootstrapWriter Database where
  insertPolicyIfMissing policy := fun db =>
    addedTo ((db.insertPolicy (onConflictOf "policies_pkey") policy).mapError backend)
      (fun table => { db with policies := table }) db
  insertGroupIfMissing group := fun db =>
    addedTo ((db.insertGroup (onConflictOf "groups_pkey") group).mapError backend)
      (fun table => { db with groups := table }) db
  insertUserIfMissing user := fun db =>
    match db.insertUser (onConflictOf "users_pkey") user with
    | (.error violation, db) => (.error (mapUnique (userConflict user) violation), db)
    | (.ok done, db) =>
        if Done.added done then (.ok none, db) else ((db.getUser user.username).map some, db)
  insertMembershipIfMissing groupId username := fun db =>
    addedTo (db.insertMembership groupId username)
      (fun table => { db with groupMembers := table }) db
  insertUserPolicyIfMissing username policy := fun db =>
    addedTo (db.insertUserPolicy username policy)
      (fun table => { db with userPolicies := table }) db
  insertGroupPolicyIfMissing groupId policy := fun db =>
    addedTo (db.insertGroupPolicy groupId policy)
      (fun table => { db with groupPolicies := table }) db
  insertCredentialIfMissing credential := fun db =>
    match db.insertCredential (onConflictOf "credentials_pkey") credential with
    | .error error => (.error error, db)
    | .ok done =>
        let db := { db with credentials := done.table }
        if Done.added done then (.ok none, db)
        else ((db.getCredential credential.accessKeyId).map some, db)

theorem insertUserIfMissing_eq (user : NewUser) (db : Database) :
    Library.Fallible.exec
        (BootstrapWriter.insertUserIfMissing user : StoreM Database (Option UserRecord)) db =
      match db.insertUser (onConflictOf "users_pkey") user with
      | (.error violation, db) => (.error (mapUnique (userConflict user) violation), db)
      | (.ok done, db) =>
          if Done.added done then (.ok none, db)
          else ((db.getUser user.username).map some, db) := rfl

theorem insertCredentialIfMissing_eq (credential : NewCredential) (db : Database) :
    Library.Fallible.exec (BootstrapWriter.insertCredentialIfMissing credential :
        StoreM Database (Option CredentialRecord)) db =
      match db.insertCredential (onConflictOf "credentials_pkey") credential with
      | .error error => (.error error, db)
      | .ok done =>
          let db := { db with credentials := done.table }
          if Done.added done then (.ok none, db)
          else ((db.getCredential credential.accessKeyId).map some, db) := rfl

/-- The plan runs in a transaction. A rollback takes back everything but the values
of the sequence. -/
def Database.applyBootstrap (db : Database) (plan : BootstrapPlan) :
    StoreResult BootstrapReport × Database :=
  match Library.Fallible.exec (applyPlan plan) db with
  | (.ok report, db) => (.ok report, db)
  | (.error error, aborted) => (.error error, { db with userIdSeq := aborted.userIdSeq })

/-- The operations of the store, each in one transaction. -/
def Database.exec : (op : StoreOp) → Database → op.Reply × Database
  | .createUser user, db => db.createUser user
  | .getUser username, db => (db.getUser username, db)
  | .findUserById userId, db => (.ok (db.findUserById userId), db)
  | .findUserByEmail email, db => (.ok (db.findUserByEmail email), db)
  | .findUserByExternalId externalId, db => (.ok (db.findUserByExternalId externalId), db)
  | .deleteUser username, db => db.deleteUser username
  | .listUsers query, db => (.ok (db.listUsers query), db)
  | .setFriendlyName username name, db => db.setFriendlyName username name
  | .createGroup group, db => db.createGroup group
  | .getGroup groupId, db => (db.getGroup groupId, db)
  | .deleteGroup groupId, db => db.deleteGroup groupId
  | .listGroups query, db => (.ok (db.listGroups query), db)
  | .createPolicy policy, db => db.createPolicy policy
  | .getPolicy name, db => (db.getPolicy name, db)
  | .updatePolicy policy, db => db.updatePolicy policy
  | .deletePolicy name, db => db.deletePolicy name
  | .listPolicies query, db => (.ok (db.listPolicies query), db)
  | .addMembership groupId username, db => db.addMembership groupId username
  | .removeMembership groupId username, db => db.removeMembership groupId username
  | .listGroupMembers groupId query, db => (db.listGroupMembers groupId query, db)
  | .listUserGroups username query, db => (db.listUserGroups username query, db)
  | .attachPolicyToUser username policy, db => db.attachPolicyToUser username policy
  | .detachPolicyFromUser username policy, db => db.detachPolicyFromUser username policy
  | .listUserPolicies username query, db => (db.listUserPolicies username query, db)
  | .listEffectiveUserPolicies username query, db =>
      (db.listEffectiveUserPolicies username query, db)
  | .attachPolicyToGroup groupId policy, db => db.attachPolicyToGroup groupId policy
  | .detachPolicyFromGroup groupId policy, db => db.detachPolicyFromGroup groupId policy
  | .listGroupPolicies groupId query, db => (db.listGroupPolicies groupId query, db)
  | .createCredential credential, db => db.createCredential credential
  | .getCredential accessKeyId, db => (db.getCredential accessKeyId, db)
  | .getUserCredential username accessKeyId, db => (db.getUserCredential username accessKeyId, db)
  | .deleteCredential username accessKeyId, db => db.deleteCredential username accessKeyId
  | .listUserCredentials username query, db => (db.listUserCredentials username query, db)
  | .createExternalPrincipal username principalId, db =>
      db.createExternalPrincipal username principalId
  | .deleteExternalPrincipal username principalId, db =>
      db.deleteExternalPrincipal username principalId
  | .getExternalPrincipal principalId, db => (db.getExternalPrincipal principalId, db)
  | .listUserExternalPrincipals username query, db =>
      (db.listUserExternalPrincipals username query, db)
  | .claimTokenId tokenId expiresAt, db => db.claimTokenId tokenId expiresAt
  | .deleteExpiredTokenIds now, db =>
      (.ok (db.deleteExpiredTokenIds now).1, (db.deleteExpiredTokenIds now).2)
  | .ping, db => (.ok (), db)
  | .applyBootstrap plan, db => db.applyBootstrap plan

/-- `PgStore` as a store. -/
def pgStore : StoreImpl Database := ⟨Database.exec⟩

end Bootstrap

end LakeFsAuth.Authz.Store.Pg
