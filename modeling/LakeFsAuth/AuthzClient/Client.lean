import LakeFsAuth.Authz.Handlers

/-! The client of the authorization API. An attempt is carried by a network that
may lose it on either side of the server's commit. -/
namespace LakeFsAuth.AuthzClient
open Core.Error Core.Model Core.Pagination Core.Text Core.Validate Authz.Api Authz.Handlers

/-- A pagination error keeps the parts of its message. -/
inductive ClientError where
  | Transport (error : TransportError)
  | BadRequest (message : String)
  | Unauthorized
  | NotFound
  | AlreadyExists
  | NonUnique
  | InvalidId (message : String)
  | Pagination (error : CursorError) (username : String)
  | Status (status : Nat) (message : String)
  | Decode (message : String)
  deriving DecidableEq

/-- What a user should look like after an identity provider login. -/
structure EnsureUserSpec where
  externalId : String
  username : String
  email : Option String
  friendlyName : Option String
  source : String
  /-- Groups a newly created user joins. Existing users are not re-synced. -/
  groups : List String

structure EnsuredUser where
  user : User
  created : Bool
  deriving DecidableEq

/-- One attempt. The server runs the handler when the request reaches it. -/
def attempt (request : Request) :
    Action (Except TransportError (Response request.Success)) := do
  let fault ← network request
  if fault.committed then do
    let response ← handle request
    return fault.deliver response
  else return fault.refusal

def idempotent : Method → Bool
  | .GET | .PUT | .DELETE => true
  | .POST => false

def isServerError (status : Nat) : Bool := 500 ≤ status && status ≤ 599

/-- A `POST` is retried only when the connection could not be made, because
after that the server may have committed. -/
def retryable (method : Method) : Except TransportError (Response α) → Bool
  | .ok response => idempotent method && isServerError response.status
  | .error .connect => true
  | .error (.lost .timeout) | .error (.lost .request) => idempotent method
  | .error (.lost .other) => false

/-- A create that was committed is not sent again. -/
theorem post_not_retried {fault : Fault} (response : Response α) (committed : fault.committed = true) :
    retryable .POST (fault.deliver response) = false := by
  cases fault with
  | unreachable => cases committed
  | lost committed loss => cases loss <;> rfl
  | answered | failed committed status | garbled => rfl

/-- Sends with retries, as many as are left. -/
def sendWithRetry (request : Request) :
    Nat → Action (Except ClientError (Response request.Success))
  | 0 => do
      let outcome ← attempt request
      return outcome.mapError .Transport
  | retries + 1 => do
      let outcome ← attempt request
      if retryable request.method outcome then sendWithRetry request retries
      else return outcome.mapError .Transport

def errorMessage : Body α → String
  | .error message => message
  | .json _ | .broken => ""

def expectStatus (response : Response α) (expected : Nat) :
    Except ClientError (Response α) :=
  if response.status = expected then .ok response
  else
    let message := errorMessage response.body
    .error (match response.status with
      | 400 => .BadRequest message
      | 401 => .Unauthorized
      | 404 => .NotFound
      | 409 => .AlreadyExists
      | other => .Status other message)

def decodeJson (response : Response α) : Except ClientError α :=
  match response.body with
  | .json value => .ok value
  | .error _ => .error (.Decode "unexpected response body")
  | .broken => .error (.Transport (.lost .other))

/-- The entity id rule of the server: what it would refuse never leaves the client. -/
def segment (value : String) : Except ClientError String :=
  match validateEntityId "entity" value with
  | .error error => .error (.InvalidId error.publicMessage)
  | .ok () => .ok value

section Segment
variable {value : String}

theorem segment_ok {path : String} (h : segment value = .ok path) : path = value := by
  unfold segment at h
  split at h
  · cases h
  · exact (Except.ok.inj h).symm

theorem segment_error {error : ClientError} (h : segment value = .error error) :
    ∃ message, error = .InvalidId message := by
  unfold segment at h
  split at h
  · cases h
    exact ⟨_, rfl⟩
  · cases h

theorem segment_valid (valid : ValidId value) : segment value = .ok value := by
  unfold segment
  rw [(validateEntityId_ok_iff "entity" value).mpr valid]

theorem segment_invalid (invalid : ¬ ValidId value) :
    ∃ message, segment value = .error (.InvalidId message) := by
  cases h : segment value with
  | ok path =>
    refine absurd ((validateEntityId_ok_iff "entity" value).mp ?_) invalid
    unfold segment at h
    split at h
    · cases h
    · assumption
  | error error =>
    obtain ⟨message, rfl⟩ := segment_error h
    exact ⟨message, rfl⟩

end Segment

section
variable (maxRetries : Nat)

/-- `GET /healthcheck`, expects 204. -/
def healthcheck : Action (Except ClientError Unit) := do
  match ← sendWithRetry .healthcheck maxRetries with
  | .error error => return .error error
  | .ok response => return (expectStatus response 204).map fun _ => ()

/-- `GET /config/version`. -/
def version : Action (Except ClientError VersionConfig) := do
  match ← sendWithRetry .version maxRetries with
  | .error error => return .error error
  | .ok response => return expectStatus response 200 >>= decodeJson

/-- `GET /auth/users/{userId}`. Returns `none` on 404. -/
def getUser (username : String) : Action (Except ClientError (Option User)) := do
  match segment username with
  | .error error => return .error error
  | .ok username =>
      match ← sendWithRetry (.getUser username) maxRetries with
      | .error error => return .error error
      | .ok response =>
          if response.status = 404 then return .ok none
          else return (expectStatus response 200 >>= decodeJson).map some

/-- A blank value never reaches the server: it would list everyone. -/
def findUser (value : String) (query : ListUsersQuery) :
    Action (Except ClientError (Option User)) := do
  if trim value = "" then return .ok none
  else
    match ← sendWithRetry (.listUsers query) maxRetries with
    | .error error => return .error error
    | .ok response =>
        match expectStatus response 200 >>= decodeJson with
        | .error error => return .error error
        | .ok list =>
            match list.results with
            | [] => return .ok none
            | [user] => return .ok (some user)
            | _ :: _ :: _ => return .error .NonUnique

/-- `amount=2` is enough to see that a lookup is not unique. -/
def lookupPage : PaginationParams := ⟨none, none, some 2⟩

def findUserByExternalId (externalId : String) : Action (Except ClientError (Option User)) :=
  findUser maxRetries externalId ⟨lookupPage, none, none, some externalId⟩

def findUserByEmail (email : String) : Action (Except ClientError (Option User)) :=
  findUser maxRetries email ⟨lookupPage, none, some email, none⟩

/-- `POST /auth/users`, expects 201. -/
def createUser (user : UserCreation) : Action (Except ClientError User) := do
  match ← sendWithRetry (.createUser user) maxRetries with
  | .error error => return .error error
  | .ok response => return expectStatus response 201 >>= decodeJson

/-- `DELETE /auth/users/{userId}`, expects 204. -/
def deleteUser (username : String) : Action (Except ClientError Unit) := do
  match segment username with
  | .error error => return .error error
  | .ok username =>
      match ← sendWithRetry (.deleteUser username) maxRetries with
      | .error error => return .error error
      | .ok response => return (expectStatus response 204).map fun _ => ()

/-- `PUT /auth/users/{userId}/friendly_name`, expects 204. -/
def updateFriendlyName (username friendlyName : String) : Action (Except ClientError Unit) := do
  match segment username with
  | .error error => return .error error
  | .ok username =>
      match ← sendWithRetry (.updateFriendlyName username friendlyName) maxRetries with
      | .error error => return .error error
      | .ok response => return (expectStatus response 204).map fun _ => ()

/-- `PUT /auth/groups/{groupId}/members/{userId}`, expects 201. -/
def addGroupMembership (groupId username : String) : Action (Except ClientError Unit) := do
  match segment groupId, segment username with
  | .error error, _ => return .error error
  | .ok _, .error error => return .error error
  | .ok groupId, .ok username =>
      match ← sendWithRetry (.addMembership groupId username) maxRetries with
      | .error error => return .error error
      | .ok response => return (expectStatus response 201).map fun _ => ()

/-- Pages of one listing that the client follows. -/
def maxPages : Nat := 20

/-- The pages of the groups of a user, from where the walk stands. -/
def listGroupPages (username : String) (walk : CursorWalk) (groups : List Group) :
    Action (Except ClientError (List Group)) := do
  match ← sendWithRetry (.listUserGroups username ⟨none, some walk.after, some 1000⟩) maxRetries with
  | .error error => return .error error
  | .ok response =>
      match expectStatus response 200 >>= decodeJson with
      | .error error => return .error error
      | .ok page =>
          match _h : walk.advance page.pagination.nextOffset with
          | .error error => return .error (.Pagination error username)
          | .ok none => return .ok (groups ++ page.results)
          | .ok (some walk) => listGroupPages username walk (groups ++ page.results)
termination_by walk.maxPages - walk.pages
decreasing_by
  have := CursorWalk.advance_more _h
  omega

/-- All groups of a user. The walk stops with an error when a cursor repeats or after
`maxPages` pages. -/
def listUserGroups (username : String) : Action (Except ClientError (List Group)) :=
  match segment username with
  | .error error => return .error error
  | .ok username => listGroupPages maxRetries username (.new maxPages) []

/-- `POST /auth/users/{userId}/credentials` with keys the server generates, expects 201. -/
def createCredentials (cipher : Core.SecretBox.Aes256Gcm) (draw : Authz.Service.Draw)
    (username : String) : Action (Except ClientError CredentialsWithSecret) := do
  match segment username with
  | .error error => return .error error
  | .ok username =>
      match ← sendWithRetry (.createCredentials cipher draw username) maxRetries with
      | .error error => return .error error
      | .ok response => return expectStatus response 201 >>= decodeJson

/-- Deletes a user whose creation could not be completed. Best effort. -/
def rollBackCreate (username : String) : Action Unit := do
  let _ ← deleteUser maxRetries username
  return ()

/-- The body of the create of a spec, with or without its email. -/
def EnsureUserSpec.creation (spec : EnsureUserSpec) (email : Option String) : UserCreation where
  username := spec.username
  email := email
  friendlyName := spec.friendlyName
  source := some spec.source
  encryptedPassword := none
  externalId := some spec.externalId
  invite := none

/-- The user that holds the email of `spec`, if it is another identity. -/
def emailHolder (spec : EnsureUserSpec) : Action (Except ClientError (Option User)) :=
  match spec.email with
  | none => return .ok none
  | some email => do
      match ← findUserByEmail maxRetries email with
      | .error error => return .error error
      | .ok holder =>
          return .ok (holder.filter fun user => user.externalId != some spec.externalId)

/-- Adds the created user to its groups. A missing group is skipped; any other
failure deletes the user again. -/
def joinGroups (user : User) : List String → Action (Except ClientError EnsuredUser)
  | [] => return .ok ⟨user, true⟩
  | group :: groups => do
      match ← addGroupMembership maxRetries group user.username with
      | .ok () | .error .AlreadyExists | .error .NotFound => joinGroups user groups
      | .error other => do
          rollBackCreate maxRetries user.username
          return .error other

/-- What a conflict on create means: a concurrent login won the race; or another
identity holds the email, and the user is created without it; or the username
belongs to another identity. -/
def resolveConflict (spec : EnsureUserSpec) : Action (Except ClientError EnsuredUser) := do
  match ← findUserByExternalId maxRetries spec.externalId with
  | .error error => return .error error
  | .ok (some user) => return .ok ⟨user, false⟩
  | .ok none =>
      match ← emailHolder maxRetries spec with
      | .error error => return .error error
      | .ok none => return .error .AlreadyExists
      | .ok (some _) =>
          match ← createUser maxRetries (spec.creation none) with
          | .error error => return .error error
          | .ok user => joinGroups maxRetries user spec.groups

/-- Creates the user of `spec` and adds it to its groups. -/
def createUserWithGroups (spec : EnsureUserSpec) : Action (Except ClientError EnsuredUser) := do
  match ← createUser maxRetries (spec.creation spec.email) with
  | .ok user => joinGroups maxRetries user spec.groups
  | .error .AlreadyExists => resolveConflict maxRetries spec
  | .error other => return .error other

end

end LakeFsAuth.AuthzClient
