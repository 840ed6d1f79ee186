import LakeFsAuth.Core.Json
import LakeFsAuth.Library.OrderedMap

/-! The wire models of the authorization API. Times on the wire are Unix
seconds; a client never sees the numeric id of a user. -/
namespace LakeFsAuth.Core.Model
open Std

/-- Largest page lakeFS asks for. -/
def maxPage : Int := 1000

/-- Page size when a request carries no `amount`. -/
def defaultPage : Int := 100

abbrev Bytes := List UInt8

/-- `Duration::from_secs`. Durations are in nanoseconds. -/
def secs (count : Nat) : Nat := count * 1000000000

structure User where
  username : String
  creationDate : Int
  friendlyName : Option String
  email : Option String
  source : Option String
  encryptedPassword : Option Bytes
  externalId : Option String
  deriving DecidableEq, Repr

/-- Body of `POST /auth/users`. -/
structure UserCreation where
  username : String
  email : Option String
  friendlyName : Option String
  source : Option String
  encryptedPassword : Option Bytes
  externalId : Option String
  invite : Option Bool
  deriving DecidableEq, Repr

/-- A group. lakeFS falls back to `name` when `id` is absent. -/
structure Group where
  id : Option String
  name : String
  description : Option String
  creationDate : Int
  deriving DecidableEq, Repr

/-- Body of `POST /auth/groups`. -/
structure GroupCreation where
  id : String
  description : Option String
  deriving DecidableEq, Repr

inductive Effect where
  | allow
  | deny
  deriving DecidableEq, Repr

/-- Operator to field to values. -/
abbrev Condition := ExtTreeMap String (ExtTreeMap String (List String))

structure Statement where
  effect : Effect
  resource : String
  action : List String
  condition : Option Condition
  deriving DecidableEq

/-! The JSON of a statement, as `serde` derives it. -/

def Effect.toJson : Effect → Json.Value
  | allow => .string "allow"
  | deny => .string "deny"

def conditionToJson (condition : Condition) : Json.Value :=
  .object (condition.toList.map fun (operator, fields) =>
    (operator, .object (fields.toList.map fun (field, values) =>
      (field, .array (values.map .string)))))

/-- A condition that is absent is left out. -/
def Statement.toJson (statement : Statement) : Json.Value :=
  .object ([("effect", statement.effect.toJson), ("resource", .string statement.resource),
    ("action", .array (statement.action.map .string))] ++
    statement.condition.toList.map fun condition => ("condition", conditionToJson condition))

structure Policy where
  name : String
  creationDate : Option Int
  statement : List Statement
  acl : Option String
  deriving DecidableEq

structure Credentials where
  accessKeyId : String
  creationDate : Int
  deriving DecidableEq, Repr

structure CredentialsWithSecret where
  accessKeyId : String
  secretAccessKey : String
  creationDate : Int
  userId : Int
  userName : Option String
  deriving DecidableEq, Repr

structure ExternalPrincipal where
  userId : String
  id : String
  deriving DecidableEq, Repr

structure VersionConfig where
  version : String
  deriving DecidableEq, Repr

/-- Body of `POST /auth/tokenid/claim`. -/
structure ClaimTokenId where
  tokenId : String
  expiresAt : Int
  deriving DecidableEq, Repr

structure Pagination where
  hasMore : Bool
  nextOffset : String
  results : Int
  maxPerPage : Int
  deriving DecidableEq, Repr

structure ListResponse (α : Type) where
  pagination : Pagination
  results : List α
  deriving DecidableEq, Repr

end LakeFsAuth.Core.Model
