import LakeFsAuth.Core.SecretBox
import LakeFsAuth.Core.Validate

/-! Records the store reads and writes, the errors every store shares, and the
plans of a bootstrap file. -/
namespace LakeFsAuth.Authz.Store
open LakeFsAuth.Core Core.Error Core.Model Core.Text Core.Validate

inductive StoreError where
  | NotFound (entity id : String)
  | AlreadyExists (entity id : String)
  | WrongIdentity (entity id : String)
  | Backend (detail : String)
  deriving DecidableEq, Repr

abbrev StoreResult (α : Type) := Except StoreError α

namespace StoreError

def notFound (entity id : String) : StoreError := .NotFound entity id

def alreadyExists (entity id : String) : StoreError := .AlreadyExists entity id

def wrongIdentity (entity id : String) : StoreError := .WrongIdentity entity id

def isAlreadyExists : StoreError → Bool
  | AlreadyExists _ _ => true
  | _ => false

def toApiError : StoreError → ApiError
  | NotFound entity id => ApiError.notFound entity id
  | AlreadyExists entity id => ApiError.alreadyExists entity id
  | WrongIdentity entity id => .AlreadyExists
      s!"{entity} {id} exists with a different identity; bootstrap leaves it untouched"
  | Backend detail => .Internal detail

end StoreError

/-- An instant, in nanoseconds since the Unix epoch. -/
structure Timestamp where
  nanos : Int
  deriving DecidableEq, Repr

/-- Whole seconds, rounded toward zero. -/
def Timestamp.asSecond (time : Timestamp) : Int := time.nanos.tdiv 1000000000

/-- A stored user. `userId` is the identity column of the database. -/
structure UserRecord where
  username : String
  userId : Int
  creationDate : Timestamp
  friendlyName : Option String
  email : Option String
  source : Option String
  externalId : Option String
  encryptedPassword : Option Bytes
  deriving DecidableEq, Repr

structure NewUser where
  username : String
  creationDate : Timestamp
  friendlyName : Option String
  email : Option String
  source : Option String
  externalId : Option String
  encryptedPassword : Option Bytes
  deriving DecidableEq, Repr

/-- The optional fields of a user, as the API and the bootstrap file send them. -/
structure UserFields where
  friendlyName : Option String
  email : Option String
  source : Option String
  externalId : Option String
  encryptedPassword : Option Bytes

def NewUser.validated (username : String) (fields : UserFields) (creationDate : Timestamp) :
    Except ApiError NewUser := do
  validateEntityId "user" username
  return {
    username, creationDate
    friendlyName := optionalText fields.friendlyName
    email := optionalText fields.email
    source := optionalText fields.source
    externalId := optionalText fields.externalId
    encryptedPassword := fields.encryptedPassword }

/-- A user with a name and nothing else. -/
def NewUser.named (username : String) : NewUser :=
  ⟨username, ⟨0⟩, none, none, none, none, none⟩

/-- True when an existing row is the identity this entry describes. -/
def NewUser.sameIdentityAs (user : NewUser) (existing : UserRecord) : Bool :=
  user.externalId == existing.externalId

structure GroupRecord where
  id : String
  description : Option String
  creationDate : Timestamp
  deriving DecidableEq, Repr

structure NewGroup where
  id : String
  description : Option String
  creationDate : Timestamp
  deriving DecidableEq, Repr

def NewGroup.validated (id : String) (description : Option String)
    (creationDate : Timestamp) : Except ApiError NewGroup := do
  validateEntityId "group" id
  return { id, description, creationDate }

structure PolicyRecord where
  name : String
  creationDate : Timestamp
  statement : List Statement
  acl : Option String
  deriving DecidableEq

structure NewPolicy where
  name : String
  creationDate : Timestamp
  statement : List Statement
  acl : Option String
  deriving DecidableEq

def NewPolicy.validated [SerdeJson] (name : String) (statement : List Statement)
    (acl : Option String) (creationDate : Timestamp) : Except ApiError NewPolicy := do
  validatePolicy name statement
  return { name, creationDate, statement, acl }

/-- Stored credentials. The secret is only ever held encrypted. -/
structure CredentialRecord where
  accessKeyId : String
  username : String
  userId : Int
  secretCiphertext : Bytes
  creationDate : Timestamp
  deriving DecidableEq, Repr

structure NewCredential where
  accessKeyId : String
  username : String
  secretCiphertext : Bytes
  creationDate : Timestamp
  deriving DecidableEq, Repr

/-- Credentials with the secret sealed under the key of the server. lakeFS imports keys
of any shape, so one without the shape of lakeFS is only logged. -/
def NewCredential.sealed [SecretBox.Aes256Gcm] (username accessKeyId secretAccessKey : String)
    (nonce : SecretBox.Nonce) (creationDate : Timestamp) :
    Except SecretBox.CryptoError NewCredential := do
  let secretCiphertext ← SecretBox.sealStr nonce secretAccessKey
  return { accessKeyId, username, secretCiphertext, creationDate }

structure ExternalPrincipalRecord where
  id : String
  username : String
  deriving DecidableEq, Repr

/-- Everything a bootstrap file asks for, already validated and with secrets encrypted. -/
structure BootstrapPlan where
  policies : List NewPolicy
  groups : List NewGroup
  users : List NewUser
  /-- `(group_id, username)`. -/
  memberships : List (String × String)
  /-- `(username, policy_name)`. -/
  userPolicies : List (String × String)
  /-- `(group_id, policy_name)`. -/
  groupPolicies : List (String × String)
  credentials : List NewCredential
  deriving DecidableEq

/-- Rows created and rows that were already there. Bootstrap never updates. -/
structure BootstrapCounts where
  policies : UInt32
  groups : UInt32
  users : UInt32
  memberships : UInt32
  attachments : UInt32
  credentials : UInt32
  deriving DecidableEq, Repr

def BootstrapCounts.zero : BootstrapCounts := ⟨0, 0, 0, 0, 0, 0⟩

structure BootstrapReport where
  created : BootstrapCounts
  skipped : BootstrapCounts
  deriving DecidableEq, Repr

def BootstrapReport.zero : BootstrapReport := ⟨.zero, .zero⟩

end LakeFsAuth.Authz.Store
