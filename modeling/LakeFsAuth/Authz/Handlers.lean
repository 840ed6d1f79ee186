import LakeFsAuth.Authz.Service

/-! The handlers behind the routes. -/
namespace LakeFsAuth.Authz.Handlers
open Core.Error Core.Model Core.Pagination Core.Text Store Api

/-- `str::parse::<i64>`: an optional sign, then ASCII digits, within 64 bits. -/
def parseI64 (text : String) : Option Int :=
  let digits (chars : List Char) : Option Nat :=
    if chars = [] ∨ chars.any (fun ch => !ch.isDigit) then none
    else some (chars.foldl (fun n ch => 10 * n + (ch.toNat - '0'.toNat)) 0)
  let value : Option Int :=
    match text.toList with
    | '-' :: rest => (digits rest).map fun n => -(n : Int)
    | '+' :: rest => (digits rest).map fun n => (n : Int)
    | chars => (digits chars).map fun n => (n : Int)
  value.filter fun n => decide (-(2 ^ 63) ≤ n ∧ n < 2 ^ 63)

def single (user : Option UserRecord) : ListResponse User :=
  (PageOf.last (user.map Service.userToWire).toList).intoResponse

/-- A lookup that matches nothing answers with an empty list. -/
def listUsers (query : ListUsersQuery) : Action (Except ApiError (ListResponse User)) :=
  match query.id.bind nonBlank, query.email.bind nonBlank, query.externalId.bind nonBlank with
  | some id, _, _ =>
      match parseI64 id with
      | none => return .ok (single none)
      | some id => do
          let user ← store (.findUserById id)
          return (user.map single).mapError StoreError.toApiError
  | none, some email, _ => do
      let user ← store (.findUserByEmail email)
      return (user.map single).mapError StoreError.toApiError
  | none, none, some externalId => do
      let user ← store (.findUserByExternalId externalId)
      return (user.map single).mapError StoreError.toApiError
  | none, none, none => do
      let users ← store (.listUsers query.page.normalize)
      return (users.map fun page => (page.map Service.userToWire).intoResponse).mapError
        StoreError.toApiError

def healthcheck : Action (Except ApiError Unit) := return .ok ()

/-- The version of the package. -/
def VERSION : String := "0.1.0"

def version : Action (Except ApiError VersionConfig) := return .ok ⟨VERSION⟩

def getUser (username : String) : Action (Except ApiError User) := do
  let user ← store (.getUser username)
  return (user.map Service.userToWire).mapError StoreError.toApiError

def deleteUser (username : String) : Action (Except ApiError Unit) := do
  let outcome ← store (.deleteUser username)
  return outcome.mapError StoreError.toApiError

def updateFriendlyName (username friendlyName : String) : Action (Except ApiError Unit) := do
  let outcome ← store (.setFriendlyName username friendlyName)
  return outcome.mapError StoreError.toApiError

/-- Adding an existing membership again is still a success. -/
def addMembership (groupId username : String) : Action (Except ApiError Unit) := do
  let outcome ← store (.addMembership groupId username)
  return outcome.mapError StoreError.toApiError

def listUserGroups (username : String) (params : PaginationParams) :
    Action (Except ApiError (ListResponse Group)) := do
  let groups ← store (.listUserGroups username params.normalize)
  return (groups.map fun page => (page.map Service.groupToWire).intoResponse).mapError
    StoreError.toApiError

def attachPolicyToUser (username policy : String) : Action (Except ApiError Unit) := do
  let outcome ← store (.attachPolicyToUser username policy)
  return outcome.mapError StoreError.toApiError

def attachPolicyToGroup (groupId policy : String) : Action (Except ApiError Unit) := do
  let outcome ← store (.attachPolicyToGroup groupId policy)
  return outcome.mapError StoreError.toApiError

def answer : (request : Request) → Action (Except ApiError request.Success)
  | .healthcheck => healthcheck
  | .version => version
  | .listUsers query => listUsers query
  | .getUser username => getUser username
  | .createUser body => Service.createUser body
  | .deleteUser username => deleteUser username
  | .updateFriendlyName username friendlyName => updateFriendlyName username friendlyName
  | .addMembership groupId username => addMembership groupId username
  | .listUserGroups username params => listUserGroups username params
  | .createCredentials cipher draw username =>
      @Service.createCredentials cipher draw username none none

/-- The status of the route, or that of the error. -/
def respond (request : Request) : Except ApiError request.Success → Response request.Success
  | .ok value => ⟨request.successStatus, .json value⟩
  | .error error => ⟨error.statusCode, .error error.publicMessage⟩

theorem respond_json {request : Request} {result : Except ApiError request.Success}
    {value : request.Success} (h : (respond request result).body = .json value) :
    result = .ok value := by
  cases result with
  | ok value' =>
    cases h
    rfl
  | error error => cases h

def handle (request : Request) : Action (Response request.Success) := do
  let result ← answer request
  return respond request result

end LakeFsAuth.Authz.Handlers
