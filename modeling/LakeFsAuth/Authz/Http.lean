import LakeFsAuth.Authz.Handlers
import LakeFsAuth.Core.Token
import LakeFsAuth.Library.Form

/-! The authorization server as HTTP: the router, the bearer check in front of it, and the
handlers of all its routes. What the framework writes itself into an answer it gives on its
own is left open. -/
namespace LakeFsAuth.Authz.Http
open Library LakeFsAuth.Core Core.Error Core.Json Core.Model Core.Pagination Core.Text Core.Token
open Store Api

/-- The methods the router knows. Any other token is a method as well. -/
inductive Verb where
  | GET
  | HEAD
  | POST
  | PUT
  | DELETE
  | OPTIONS
  | other (token : String)
  deriving DecidableEq

/-- `HeaderValue::to_str`: visible ASCII only. -/
def headerText (value : String) : Option String :=
  if value.toList.all fun ch => isHeaderChar ch && ch.toNat < 127 then some value else none

/-- What the framework makes of the body of a request. A rejection carries its text. -/
inductive Body where
  /-- The bytes could not be buffered. -/
  | unbuffered (status : Nat) (text : String)
  /-- No JSON: another content type, or text that does not parse. -/
  | unreadable (text : String)
  /-- A JSON value, and the complaint about it where it is not of the type that is asked for. -/
  | json (value : Value) (complaint : String)

/-- A request, as the router sees it: the segments of its path as they were sent, its query,
and its `Authorization` header where that is text. -/
structure HttpRequest where
  verb : Verb
  path : List Text
  query : Option Text
  authorization : Option String
  body : Body

inductive Payload where
  | empty
  | json (value : Value)
  | text (text : String)
  /-- Text the framework writes. -/
  | framework

structure HttpResponse where
  status : Nat
  payload : Payload

/-! Errors as responses. -/

/-- A status outside the range of HTTP is a 500. -/
def status (error : ApiError) : Nat :=
  if 100 ≤ error.statusCode ∧ error.statusCode ≤ 999 then error.statusCode else 500

/-- `ApiError::into_response`. -/
def errorResponse (error : ApiError) : HttpResponse :=
  ⟨status error, .json (Wire.errorBody.write ⟨error.publicMessage⟩)⟩

def respond {α : Type} (success : Nat) (write : α → Payload) : Except ApiError α → HttpResponse
  | .ok value => ⟨success, write value⟩
  | .error error => errorResponse error

def noContent (_ : Unit) : Payload := .empty

def json {α : Type} (codec : Wire.Codec α) (value : α) : Payload := .json (codec.write value)

/-! Extractors. -/

/-- What the framework answers when it cannot extract a path or a query. -/
def rejected (status : Nat) : HttpResponse := ⟨status, .framework⟩

/-- The parameters of a path, percent-decoded. -/
def pathParams (params : List Text) : Option (List String) :=
  params.mapM fun param => SecretBox.fromUtf8 (Url.percentDecode param)

/-- `Path<String>`. -/
def path1 (params : List Text) (handler : String → Action HttpResponse) :
    Action HttpResponse :=
  match pathParams params with
  | none => return rejected 400
  | some [value] => handler value
  | some _ => return rejected 500

/-- `Path<(String, String)>`. -/
def path2 (params : List Text) (handler : String → String → Action HttpResponse) :
    Action HttpResponse :=
  match pathParams params with
  | none => return rejected 400
  | some [first, second] => handler first second
  | some _ => return rejected 500

def queryPairs (query : Option Text) : List (String × String) :=
  Form.parse (query.getD [])

/-- A field of a query, which may come once. -/
def queryField (pairs : List (String × String)) (name : String) : Option (Option String) :=
  match pairs.filter (·.1 == name) with
  | [] => some none
  | [pair] => some (some pair.2)
  | _ => none

/-- An integer that is absent when it is empty or unreadable. -/
def parseAmount (raw : Option String) : Option Int :=
  (raw.bind nonBlank).bind Handlers.parseI64

/-- A flag. Only `true` and `1` are true, in any case and with padding. -/
def lenientBool (raw : Option String) : Bool :=
  raw.any fun value => eqIgnoreAsciiCase (trim value) "true" || trim value == "1"

def paginationParams (pairs : List (String × String)) : Option PaginationParams := do
  return {
    pre := ← queryField pairs "prefix"
    after := ← queryField pairs "after"
    amount := parseAmount (← queryField pairs "amount") }

def listUsersQuery (pairs : List (String × String)) : Option ListUsersQuery := do
  return {
    page := ← paginationParams pairs
    id := ← queryField pairs "id"
    email := ← queryField pairs "email"
    externalId := ← queryField pairs "external_id" }

structure ListUserPoliciesQuery where
  page : PaginationParams
  effective : Bool

def listUserPoliciesQuery (pairs : List (String × String)) : Option ListUserPoliciesQuery := do
  return ⟨← paginationParams pairs, lenientBool (← queryField pairs "effective")⟩

structure CreateCredentialsQuery where
  accessKey : Option String
  secretKey : Option String

def createCredentialsQuery (pairs : List (String × String)) : Option CreateCredentialsQuery := do
  return ⟨← queryField pairs "access_key", ← queryField pairs "secret_key"⟩

structure PrincipalQuery where
  principalId : Option String

def principalQuery (pairs : List (String × String)) : Option PrincipalQuery := do
  return ⟨← queryField pairs "principalId"⟩

/-- `PrincipalQuery::principal_id`. -/
def PrincipalQuery.require (query : PrincipalQuery) : Except ApiError String :=
  match query.principalId.bind nonBlank with
  | none => .error (.invalid "principalId is required")
  | some id =>
      if id.toList.any isControl then
        .error (.invalid "principalId must not contain control characters")
      else .ok id

/-- `Query<T>`. -/
def withQuery {α : Type} (read : List (String × String) → Option α) (request : HttpRequest)
    (handler : α → Action HttpResponse) : Action HttpResponse :=
  match read (queryPairs request.query) with
  | none => return rejected 400
  | some query => handler query

/-- `ApiJson<T>`: a body that cannot be read is a 400 with an error body. One that could not be
buffered keeps its own status. -/
def apiJson {α : Type} (codec : Wire.Codec α) : Body → Except ApiError α
  | .unbuffered status text => .error (.WithStatus status text)
  | .unreadable text => .error (.invalid text)
  | .json value complaint =>
      match codec.read value with
      | none => .error (.invalid complaint)
      | some body => .ok body

def withJson {α : Type} (codec : Wire.Codec α) (request : HttpRequest)
    (handler : α → Action HttpResponse) : Action HttpResponse :=
  match apiJson codec request.body with
  | .error error => return errorResponse error
  | .ok body => handler body

/-! Handlers. -/

/-- A store call whose answer is turned into the wire form. -/
def storeCall {α : Type} (op : StoreOp) (wire : op.Value → α) : Action (Except ApiError α) := do
  let reply ← store op
  return (reply.map wire).mapError StoreError.toApiError

/-- A page of a listing, in its wire form. -/
def pageWire {α β : Type} (wire : α → β) (page : PageOf α) : ListResponse β :=
  (page.map wire).intoResponse

def credentialsToWire (record : CredentialRecord) : Credentials :=
  ⟨record.accessKeyId, record.creationDate.asSecond⟩

def principalToWire (record : ExternalPrincipalRecord) : ExternalPrincipal :=
  ⟨record.username, record.id⟩

def listGroups (params : PaginationParams) : Action (Except ApiError (ListResponse Group)) :=
  storeCall (.listGroups params.normalize) (pageWire Service.groupToWire)

def getGroup (groupId : String) : Action (Except ApiError Group) :=
  storeCall (.getGroup groupId) Service.groupToWire

def deleteGroup (groupId : String) : Action (Except ApiError Unit) :=
  storeCall (.deleteGroup groupId) fun done => done

def listPolicies (params : PaginationParams) : Action (Except ApiError (ListResponse Policy)) :=
  storeCall (.listPolicies params.normalize) (pageWire Service.policyToWire)

def getPolicy (name : String) : Action (Except ApiError Policy) :=
  storeCall (.getPolicy name) Service.policyToWire

def deletePolicy (name : String) : Action (Except ApiError Unit) :=
  storeCall (.deletePolicy name) fun done => done

def listGroupMembers (groupId : String) (params : PaginationParams) :
    Action (Except ApiError (ListResponse User)) :=
  storeCall (.listGroupMembers groupId params.normalize) (pageWire Service.userToWire)

def deleteMembership (groupId username : String) : Action (Except ApiError Unit) :=
  storeCall (.removeMembership groupId username) fun done => done

/-- lakeFS asks for the effective set on every authorization decision. -/
def listUserPolicies (username : String) (query : ListUserPoliciesQuery) :
    Action (Except ApiError (ListResponse Policy)) :=
  if query.effective then
    storeCall (.listEffectiveUserPolicies username query.page.normalize)
      (pageWire Service.policyToWire)
  else storeCall (.listUserPolicies username query.page.normalize) (pageWire Service.policyToWire)

def detachPolicyFromUser (username policy : String) : Action (Except ApiError Unit) :=
  storeCall (.detachPolicyFromUser username policy) fun done => done

def listGroupPolicies (groupId : String) (params : PaginationParams) :
    Action (Except ApiError (ListResponse Policy)) :=
  storeCall (.listGroupPolicies groupId params.normalize) (pageWire Service.policyToWire)

def detachPolicyFromGroup (groupId policy : String) : Action (Except ApiError Unit) :=
  storeCall (.detachPolicyFromGroup groupId policy) fun done => done

def listUserCredentials (username : String) (params : PaginationParams) :
    Action (Except ApiError (ListResponse Credentials)) :=
  storeCall (.listUserCredentials username params.normalize) (pageWire credentialsToWire)

def getCredentialsForUser (username accessKeyId : String) : Action (Except ApiError Credentials) :=
  storeCall (.getUserCredential username accessKeyId) credentialsToWire

def deleteCredentials (username accessKeyId : String) : Action (Except ApiError Unit) :=
  storeCall (.deleteCredential username accessKeyId) fun done => done

def listUserExternalPrincipals (username : String) (params : PaginationParams) :
    Action (Except ApiError (ListResponse ExternalPrincipal)) :=
  storeCall (.listUserExternalPrincipals username params.normalize) (pageWire principalToWire)

def createUserExternalPrincipal (username : String) (query : PrincipalQuery) :
    Action (Except ApiError Unit) :=
  match query.require with
  | .error error => return .error error
  | .ok id => storeCall (.createExternalPrincipal username id) fun done => done

def deleteUserExternalPrincipal (username : String) (query : PrincipalQuery) :
    Action (Except ApiError Unit) :=
  match query.require with
  | .error error => return .error error
  | .ok id => storeCall (.deleteExternalPrincipal username id) fun done => done

def getExternalPrincipal (query : PrincipalQuery) : Action (Except ApiError ExternalPrincipal) :=
  match query.require with
  | .error error => return .error error
  | .ok id => storeCall (.getExternalPrincipal id) principalToWire

def updatePassword : ApiError :=
  .NotImplemented "password authentication is not supported by this server"

/-- The readiness probe: a store that does not answer is a 503. -/
def readyz : Action (Except ApiError String) := do
  match ← store .ping with
  | .ok () => return .ok "ready"
  | .error _ => return .error (.Unavailable "the store does not answer")

/-! The operations, and what each extracts. -/

inductive Operation where
  | listUsers
  | createUser
  | getUser
  | deleteUser
  | updatePassword
  | updateFriendlyName
  | listGroups
  | createGroup
  | getGroup
  | deleteGroup
  | listPolicies
  | createPolicy
  | getPolicy
  | updatePolicy
  | deletePolicy
  | listGroupMembers
  | addMembership
  | deleteMembership
  | listUserCredentials
  | createCredentials
  | getCredentialsForUser
  | deleteCredentials
  | getCredentials
  | listUserGroups
  | listUserPolicies
  | attachPolicyToUser
  | detachPolicyFromUser
  | listGroupPolicies
  | attachPolicyToGroup
  | detachPolicyFromGroup
  | claimTokenId
  | listUserExternalPrincipals
  | createUserExternalPrincipal
  | deleteUserExternalPrincipal
  | getExternalPrincipal
  | version
  | healthcheck
  | readyz
  deriving DecidableEq

section Handle
variable [SecretBox.Aes256Gcm] [Validate.SerdeJson]

/-- The handler of an operation. What a create of credentials draws is a parameter. -/
def handle (draw : Service.Draw) (request : HttpRequest) (params : List Text) :
    Operation → Action HttpResponse
  | .listUsers => withQuery listUsersQuery request fun query => do
      return respond 200 (json (Wire.listResponse Wire.user)) (← Handlers.listUsers query)
  | .createUser => withJson Wire.userCreation request fun body => do
      return respond 201 (json Wire.user) (← Service.createUser body)
  | .getUser => path1 params fun username => do
      return respond 200 (json Wire.user) (← Handlers.getUser username)
  | .deleteUser => path1 params fun username => do
      return respond 204 noContent (← Handlers.deleteUser username)
  | .updatePassword => return errorResponse updatePassword
  | .updateFriendlyName => path1 params fun username =>
      withJson Wire.friendlyNameUpdate request fun body => do
        return respond 204 noContent
          (← Handlers.updateFriendlyName username body.friendlyName)
  | .listGroups => withQuery paginationParams request fun query => do
      return respond 200 (json (Wire.listResponse Wire.group)) (← listGroups query)
  | .createGroup => withJson Wire.groupCreation request fun body => do
      return respond 201 (json Wire.group) (← Service.createGroup body)
  | .getGroup => path1 params fun groupId => do
      return respond 200 (json Wire.group) (← getGroup groupId)
  | .deleteGroup => path1 params fun groupId => do
      return respond 204 noContent (← deleteGroup groupId)
  | .listPolicies => withQuery paginationParams request fun query => do
      return respond 200 (json (Wire.listResponse Wire.policy)) (← listPolicies query)
  | .createPolicy => withJson Wire.policy request fun body => do
      return respond 201 (json Wire.policy) (← Service.createPolicy body)
  | .getPolicy => path1 params fun name => do
      return respond 200 (json Wire.policy) (← getPolicy name)
  | .updatePolicy => path1 params fun name => withJson Wire.policy request fun body => do
      return respond 200 (json Wire.policy) (← Service.updatePolicy name body)
  | .deletePolicy => path1 params fun name => do
      return respond 204 noContent (← deletePolicy name)
  | .listGroupMembers => path1 params fun groupId =>
      withQuery paginationParams request fun query => do
        return respond 200 (json (Wire.listResponse Wire.user)) (← listGroupMembers groupId query)
  | .addMembership => path2 params fun groupId username => do
      return respond 201 noContent (← Handlers.addMembership groupId username)
  | .deleteMembership => path2 params fun groupId username => do
      return respond 204 noContent (← deleteMembership groupId username)
  | .listUserCredentials => path1 params fun username =>
      withQuery paginationParams request fun query => do
        return respond 200 (json (Wire.listResponse Wire.credentials))
          (← listUserCredentials username query)
  | .createCredentials => path1 params fun username =>
      withQuery createCredentialsQuery request fun query => do
        return respond 201 (json Wire.credentialsWithSecret)
          (← Service.createCredentials draw username query.accessKey query.secretKey)
  | .getCredentialsForUser => path2 params fun username accessKeyId => do
      return respond 200 (json Wire.credentials) (← getCredentialsForUser username accessKeyId)
  | .deleteCredentials => path2 params fun username accessKeyId => do
      return respond 204 noContent (← deleteCredentials username accessKeyId)
  | .getCredentials => path1 params fun accessKeyId => do
      return respond 200 (json Wire.credentialsWithSecret)
        (← Service.credentialsWithSecret accessKeyId)
  | .listUserGroups => path1 params fun username =>
      withQuery paginationParams request fun query => do
        return respond 200 (json (Wire.listResponse Wire.group))
          (← Handlers.listUserGroups username query)
  | .listUserPolicies => path1 params fun username =>
      withQuery listUserPoliciesQuery request fun query => do
        return respond 200 (json (Wire.listResponse Wire.policy)) (← listUserPolicies username query)
  | .attachPolicyToUser => path2 params fun username policy => do
      return respond 201 noContent (← Handlers.attachPolicyToUser username policy)
  | .detachPolicyFromUser => path2 params fun username policy => do
      return respond 204 noContent (← detachPolicyFromUser username policy)
  | .listGroupPolicies => path1 params fun groupId =>
      withQuery paginationParams request fun query => do
        return respond 200 (json (Wire.listResponse Wire.policy)) (← listGroupPolicies groupId query)
  | .attachPolicyToGroup => path2 params fun groupId policy => do
      return respond 201 noContent (← Handlers.attachPolicyToGroup groupId policy)
  | .detachPolicyFromGroup => path2 params fun groupId policy => do
      return respond 204 noContent (← detachPolicyFromGroup groupId policy)
  | .claimTokenId => withJson Wire.claimTokenId request fun body => do
      return respond 201 noContent (← Service.claimTokenId body)
  | .listUserExternalPrincipals => path1 params fun username =>
      withQuery paginationParams request fun query => do
        return respond 200 (json (Wire.listResponse Wire.externalPrincipal))
          (← listUserExternalPrincipals username query)
  | .createUserExternalPrincipal => path1 params fun username =>
      withQuery principalQuery request fun query => do
        return respond 201 noContent (← createUserExternalPrincipal username query)
  | .deleteUserExternalPrincipal => path1 params fun username =>
      withQuery principalQuery request fun query => do
        return respond 204 noContent (← deleteUserExternalPrincipal username query)
  | .getExternalPrincipal => withQuery principalQuery request fun query => do
      return respond 200 (json Wire.externalPrincipal) (← getExternalPrincipal query)
  | .version => do return respond 200 (json Wire.versionConfig) (← Handlers.version)
  | .healthcheck => do return respond 204 noContent (← Handlers.healthcheck)
  | .readyz => do return respond 200 .text (← readyz)

end Handle

/-! Routes. -/

inductive Piece where
  | literal (text : String)
  | param (name : String)
  deriving DecidableEq

/-- A path and what its methods do. -/
structure Route where
  template : List Piece
  methods : List (Verb × Operation)

/-- A literal stands for itself, as it was sent; a parameter for any segment that is not empty. -/
def matchTemplate : List Piece → List Text → Option (List Text)
  | [], [] => some []
  | .literal text :: template, segment :: path =>
      if segment = text.toList then matchTemplate template path else none
  | .param _ :: template, segment :: path =>
      if segment = [] then none else (matchTemplate template path).map (segment :: ·)
  | _, _ => none

def literals (texts : List String) : List Piece := texts.map .literal

/-- The path of a user, a group or a policy. -/
def user : List Piece := literals ["auth", "users"] ++ [.param "userId"]

def group : List Piece := literals ["auth", "groups"] ++ [.param "groupId"]

def policy : List Piece := literals ["auth", "policies"] ++ [.param "policyId"]

/-- Everything the bearer token protects, which is every route but the health check. -/
def protectedRouter : List Route :=
  [⟨literals ["auth", "users"], [(.GET, .listUsers), (.POST, .createUser)]⟩,
    ⟨user, [(.GET, .getUser), (.DELETE, .deleteUser)]⟩,
    ⟨user ++ literals ["password"], [(.PUT, .updatePassword)]⟩,
    ⟨user ++ literals ["friendly_name"], [(.PUT, .updateFriendlyName)]⟩,
    ⟨literals ["auth", "groups"], [(.GET, .listGroups), (.POST, .createGroup)]⟩,
    ⟨group, [(.GET, .getGroup), (.DELETE, .deleteGroup)]⟩,
    ⟨literals ["auth", "policies"], [(.GET, .listPolicies), (.POST, .createPolicy)]⟩,
    ⟨policy, [(.GET, .getPolicy), (.PUT, .updatePolicy), (.DELETE, .deletePolicy)]⟩,
    ⟨group ++ literals ["members"], [(.GET, .listGroupMembers)]⟩,
    ⟨group ++ [.literal "members", .param "userId"],
      [(.PUT, .addMembership), (.DELETE, .deleteMembership)]⟩,
    ⟨user ++ literals ["credentials"], [(.GET, .listUserCredentials), (.POST, .createCredentials)]⟩,
    ⟨user ++ [.literal "credentials", .param "accessKeyId"],
      [(.GET, .getCredentialsForUser), (.DELETE, .deleteCredentials)]⟩,
    ⟨literals ["auth", "credentials"] ++ [.param "accessKeyId"], [(.GET, .getCredentials)]⟩,
    ⟨user ++ literals ["groups"], [(.GET, .listUserGroups)]⟩,
    ⟨user ++ literals ["policies"], [(.GET, .listUserPolicies)]⟩,
    ⟨user ++ [.literal "policies", .param "policyId"],
      [(.PUT, .attachPolicyToUser), (.DELETE, .detachPolicyFromUser)]⟩,
    ⟨group ++ literals ["policies"], [(.GET, .listGroupPolicies)]⟩,
    ⟨group ++ [.literal "policies", .param "policyId"],
      [(.PUT, .attachPolicyToGroup), (.DELETE, .detachPolicyFromGroup)]⟩,
    ⟨literals ["auth", "tokenid", "claim"], [(.POST, .claimTokenId)]⟩,
    ⟨user ++ literals ["external", "principals", "ls"], [(.GET, .listUserExternalPrincipals)]⟩,
    ⟨user ++ literals ["external", "principals"],
      [(.POST, .createUserExternalPrincipal), (.DELETE, .deleteUserExternalPrincipal)]⟩,
    ⟨literals ["auth", "external", "principals"], [(.GET, .getExternalPrincipal)]⟩,
    ⟨literals ["config", "version"], [(.GET, .version)]⟩]

/-- The health check. lakeFS polls it before anything else. -/
def publicRouter : List Route := [⟨literals ["healthcheck"], [(.GET, .healthcheck)]⟩]

/-- The routes outside the base path. -/
def rootRouter : List Route := [⟨literals ["readyz"], [(.GET, .readyz)]⟩]

/-- The operation of a method. A `GET` route answers `HEAD` as well. -/
def Route.operation (route : Route) (verb : Verb) : Option Operation :=
  route.methods.lookup (if verb = .HEAD then .GET else verb)

/-- The first route of the path, with its parameters. -/
def findRoute (routes : List Route) (path : List Text) : Option (Route × List Text) :=
  routes.findSome? fun route => (matchTemplate route.template path).map (route, ·)

/-! The server. -/

/-- A base path as `/segment`, or empty when it is `/`. -/
def normalizeBasePath (basePath : String) : String :=
  let trimmed := ((trim basePath).toList.dropWhile (· == '/')).rdropWhile (· == '/')
  if trimmed = [] then "" else String.ofList ('/' :: trimmed)

def baseSegments (basePath : String) : List Text :=
  let base := normalizeBasePath basePath
  if base = "" then [] else base.toList.tail.splitOn '/'

structure RouterOptions where
  basePath : String
  corsAllowOrigins : List String

/-- What a request asks for. -/
inductive Target where
  /-- A route, whose method may not be one of the route. -/
  | route (guarded : Bool) (operation : Option Operation) (params : List Text)
  | unmatched

/-- The routes below the base path, and the probe at the root. -/
def target (options : RouterOptions) (request : HttpRequest) : Target :=
  let base := baseSegments options.basePath
  let api := if base <+: request.path then some (request.path.drop base.length) else none
  match api.bind (findRoute protectedRouter) with
  | some (route, params) => .route true (route.operation request.verb) params
  | none => match api.bind (findRoute publicRouter) with
    | some (route, params) => .route false (route.operation request.verb) params
    | none => match findRoute rootRouter request.path with
      | some (route, params) => .route false (route.operation request.verb) params
      | none => .unmatched

/-- The bearer check in front of the protected routes. -/
def requireAuth [NumericDate] [FromSlice] [Authn.SecureCookie.HmacSha256]
    (verifier : TokenVerifier) (authorization : Option String) (next : Action HttpResponse) :
    Action HttpResponse :=
  match authorization.bind bearerToken with
  | none =>
      if verifier.disabled then next
      else return errorResponse (.Unauthorized "missing bearer token")
  | some token => do
      let time ← now
      match verifier.verifyAt token time.asSecond with
      | .ok () => next
      | .error error => return errorResponse error

section Serve
variable [NumericDate] [FromSlice] [Authn.SecureCookie.HmacSha256]
  [SecretBox.Aes256Gcm] [Validate.SerdeJson]

/-- The handler of a route, or a 405 where the route has no such method. -/
def dispatch (draw : Service.Draw) (request : HttpRequest) (params : List Text) :
    Option Operation → Action HttpResponse
  | none => return rejected 405
  | some operation => handle draw request params operation

/-- The answer to a `HEAD` has no body. -/
def bodyFor (verb : Verb) (response : HttpResponse) : HttpResponse :=
  if verb = .HEAD then { response with payload := .empty } else response

/-- The CORS layer answers every `OPTIONS` itself, where origins are allowed. -/
def isPreflight (options : RouterOptions) (request : HttpRequest) : Bool :=
  options.corsAllowOrigins ≠ [] && request.verb = .OPTIONS

/-- The answer to a request. -/
def serve (verifier : TokenVerifier) (options : RouterOptions) (draw : Service.Draw)
    (request : HttpRequest) : Action HttpResponse :=
  if isPreflight options request then return ⟨200, .empty⟩
  else do
    let response ← match target options request with
      | .unmatched => pure (rejected 404)
      | .route true operation params =>
          requireAuth verifier request.authorization (dispatch draw request params operation)
      | .route false operation params => dispatch draw request params operation
    return bodyFor request.verb response

end Serve

end LakeFsAuth.Authz.Http
