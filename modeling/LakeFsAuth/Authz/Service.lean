import LakeFsAuth.Authz.Api

/-! Validation and the conversion between store records and the wire models.
The handlers stay thin on top of this. -/
namespace LakeFsAuth.Authz.Service
open Core.Error Core.Model Core.Validate Store Api

/-- First second of year 1. -/
def minUnixSeconds : Int := -62135596800

/-- `jiff::Timestamp::MAX`, the last second of the range jiff documents. -/
def maxUnixSeconds : Int := 253402207200

/-- A value before the year 1 or beyond the year 9999 is a 400 that names the field. -/
def fromUnix (field : String) (seconds : Int) : Except ApiError Timestamp :=
  let invalid := ApiError.invalid s!"{field} is not a valid unix timestamp: {seconds}"
  if seconds < minUnixSeconds then .error invalid
  else if maxUnixSeconds < seconds then .error invalid
  else .ok ⟨seconds * 1000000000⟩

/-- The outcome of a create. An insert that answered "already exists" is decided
from a re-read of the stored row. -/
def createOrExisting {α : Type} (created : StoreResult α) (reread : Action (StoreResult α))
    (matchesRow : α → Bool) : Action (Except ApiError α) :=
  match created with
  | .ok created => return .ok created
  | .error conflict =>
      if conflict.isAlreadyExists then do
        match ← reread with
        | .ok existing =>
            if matchesRow existing then return .ok existing
            else return .error conflict.toApiError
        | .error (.NotFound _ _) => return .error conflict.toApiError
        | .error error => return .error error.toApiError
      else return .error conflict.toApiError

def userToWire (record : UserRecord) : User where
  username := record.username
  creationDate := record.creationDate.asSecond
  friendlyName := record.friendlyName
  email := record.email
  source := record.source
  encryptedPassword := record.encryptedPassword
  externalId := record.externalId

def groupToWire (record : GroupRecord) : Group where
  id := some record.id
  name := record.id
  description := record.description
  creationDate := record.creationDate.asSecond

def policyToWire (record : PolicyRecord) : Policy where
  name := record.name
  creationDate := some record.creationDate.asSecond
  statement := record.statement
  acl := record.acl

def sameIfGiven (requested existing : Option String) : Bool :=
  requested.isNone || requested == existing

/-- True when every value the request specifies equals the stored one. -/
def sameUser (requested : NewUser) (existing : UserRecord) : Bool :=
  sameIfGiven requested.friendlyName existing.friendlyName &&
  sameIfGiven requested.email existing.email &&
  sameIfGiven requested.source existing.source &&
  sameIfGiven requested.externalId existing.externalId &&
  (requested.encryptedPassword.isNone ||
    existing.encryptedPassword == requested.encryptedPassword)

/-- The user a request body asks for. -/
def requestedUser (body : UserCreation) (creationDate : Timestamp) : Except ApiError NewUser :=
  NewUser.validated body.username
    { friendlyName := body.friendlyName
      email := body.email
      source := body.source
      externalId := body.externalId
      encryptedPassword := body.encryptedPassword } creationDate

/-- `POST /auth/users`. A create that repeats an existing user with the same
content answers with the stored row. -/
def createUser (body : UserCreation) : Action (Except ApiError User) := do
  if body.invite = some true then
    return .error (.invalid "invitations are not supported; create the user without invite")
  else
    let creationDate ← now
    match requestedUser body creationDate with
    | .error error => return .error error
    | .ok requested => do
        let created ← store (.createUser requested)
        let user ← createOrExisting created (store (.getUser requested.username))
          (sameUser requested)
        return user.map userToWire

/-- `POST /auth/groups`. A repeated create with the same description, or none,
answers with the stored row. -/
def createGroup (body : GroupCreation) : Action (Except ApiError Group) := do
  let creationDate ← now
  match NewGroup.validated body.id body.description creationDate with
  | .error error => return .error error
  | .ok requested => do
      let created ← store (.createGroup requested)
      let group ← createOrExisting created (store (.getGroup requested.id)) fun existing =>
        sameIfGiven requested.description existing.description
      return group.map groupToWire

/-- A statement with its actions in order. -/
def sortedActions (statement : Statement) : Statement :=
  { statement with action := statement.action.mergeSort (· ≤ ·) }

def canonicalStatements (statements : List Statement) : List String :=
  (statements.map fun statement =>
    String.ofList (sortedActions statement).toJson.compact).mergeSort (· ≤ ·)

/-- True when the statements match as a set, ignoring the order of statements
and of actions, and the ACL matches when the request gives one. -/
def samePolicy (requested : NewPolicy) (existing : PolicyRecord) : Bool :=
  canonicalStatements requested.statement == canonicalStatements existing.statement &&
  sameIfGiven requested.acl existing.acl

section Policies
variable [SerdeJson]

/-- The record a body describes. `creation_date` and `acl` fall back to the given
values when the body leaves them out. -/
def validatedPolicy (name : String) (body : Policy) (fallbackCreationDate : Timestamp)
    (fallbackAcl : Option String) : Except ApiError NewPolicy := do
  let creationDate ← match body.creationDate with
    | some seconds => fromUnix "creation_date" seconds
    | none => pure fallbackCreationDate
  NewPolicy.validated name body.statement (body.acl <|> fallbackAcl) creationDate

/-- `POST /auth/policies`. A repeated create with the same statements, in any
order, answers with the stored row. -/
def createPolicy (body : Policy) : Action (Except ApiError Policy) := do
  let creationDate ← now
  match validatedPolicy body.name body creationDate none with
  | .error error => return .error error
  | .ok requested => do
      let created ← store (.createPolicy requested)
      let policy ← createOrExisting created (store (.getPolicy body.name)) (samePolicy requested)
      return policy.map policyToWire

/-- `PUT /auth/policies/{policyId}`. What the body leaves out keeps its stored
value. -/
def updatePolicy (name : String) (body : Policy) : Action (Except ApiError Policy) := do
  match validateEntityId "policy" name with
  | .error error => return .error error
  | .ok () =>
      match ← store (.getPolicy name) with
      | .error error => return .error error.toApiError
      | .ok existing =>
          match validatedPolicy name body existing.creationDate existing.acl with
          | .error error => return .error error
          | .ok record =>
              match ← store (.updatePolicy record) with
              | .error error => return .error error.toApiError
              | .ok updated => return .ok (policyToWire updated)

end Policies

/-! Credentials. What the generators draw for a create is a parameter. -/

/-- The wire shape that carries the clear secret. -/
def withSecret (record : CredentialRecord) (secretAccessKey : String) : CredentialsWithSecret where
  accessKeyId := record.accessKeyId
  secretAccessKey := secretAccessKey
  creationDate := record.creationDate.asSecond
  userId := record.userId
  userName := some record.username

/-- The pair that was supplied, trimmed, or a fresh one when either part is missing. -/
def keyPair (draw : Draw) (accessKey secretKey : Option String) : String × String :=
  match accessKey.bind Core.Text.nonBlank, secretKey.bind Core.Text.nonBlank with
  | some access, some secret => (access, secret)
  | _, _ => (draw.accessKeyId, draw.secretAccessKey)

section Credentials
variable [Core.SecretBox.Aes256Gcm]

/-- `POST /auth/users/{userId}/credentials`. -/
def createCredentials (draw : Draw) (username : String) (accessKey secretKey : Option String) :
    Action (Except ApiError CredentialsWithSecret) := do
  let (accessKeyId, secretAccessKey) := keyPair draw accessKey secretKey
  let creationDate ← now
  match NewCredential.sealed username accessKeyId secretAccessKey draw.nonce creationDate with
  | .error error => return .error (.Internal s!"encrypt credentials secret: {error}")
  | .ok record =>
      match ← store (.createCredential record) with
      | .error error => return .error error.toApiError
      | .ok created => return .ok (withSecret created secretAccessKey)

/-- `GET /auth/credentials/{accessKeyId}`: the only place a secret is decrypted. -/
def credentialsWithSecret (accessKeyId : String) :
    Action (Except ApiError CredentialsWithSecret) := do
  match ← store (.getCredential accessKeyId) with
  | .error error => return .error error.toApiError
  | .ok record =>
      match Core.SecretBox.openStr record.secretCiphertext with
      | .error error =>
          return .error (.Internal s!"decrypt credentials secret for {accessKeyId}: {error}")
      | .ok secretAccessKey => return .ok (withSecret record secretAccessKey)

end Credentials

/-- `POST /auth/tokenid/claim`. A second claim of the same id is a 400. -/
def claimTokenId (body : ClaimTokenId) : Action (Except ApiError Unit) := do
  if body.tokenId = "" then return .error (.invalid "token_id must not be empty")
  else
    match fromUnix "expires_at" body.expiresAt with
    | .error error => return .error error
    | .ok expiresAt =>
        match ← store (.claimTokenId body.tokenId expiresAt) with
        | .ok () => return .ok ()
        | .error (.AlreadyExists _ _) => return .error (.invalid "token id was already claimed")
        | .error error => return .error error.toApiError

end LakeFsAuth.Authz.Service
