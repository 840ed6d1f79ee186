import LakeFsAuth.Authn.Redirect
import LakeFsAuth.Authn.Session
import LakeFsAuth.Authz.Http
import LakeFsAuth.Authz.LakeFs
import LakeFsAuth.Library.Follow

/-! The server of the policy builder. Every data route acts as the person using the page: it
sends the session cookie of that person on to lakeFS, and lakeFS decides. -/
namespace LakeFsAuth.Authz.Builder
open Library LakeFsAuth.Core Core.Error Core.Json Core.Model Core.Pagination Core.Text Core.Token
open Core.Validate Authn.Redirect Authn.Session Api Http LakeFs

/-! Calls to lakeFS. -/

/-- A request to lakeFS, its URL as it is written. -/
structure Outgoing where
  method : Method
  url : String
  cookie : Option String
  body : Option Value

/-- A response of lakeFS. A body that does not arrive, or is no JSON, is `none`. -/
structure Incoming where
  status : Nat
  body : Option Value
  /-- The `Location` header, where it is text. -/
  location : Option String

inductive Call where
  /-- One request and its answer, on the wire. -/
  | send (request : Outgoing)
  /-- Which of two walks goes on. -/
  | turn

abbrev Call.Reply : Call → Type
  | send _ => Except TransportError Incoming
  | turn => Bool

abbrev Action (α : Type) := Program Call Call.Reply α

/-! Redirects, which the HTTP client follows where it is built with its defaults. -/

inductive Lead where
  | nowhere
  /-- To a URL the client cannot ask. -/
  | astray
  | to (url : String)

/-- What the HTTP client makes of URLs. -/
class Redirects where
  /-- A `Location`, in the answer of a URL. -/
  lead : (url location : String) → Lead
  /-- Whether the `Cookie` header goes on to the next URL, after those asked before. -/
  keepsCookie : (visited : List String) → (next : String) → Bool

/-- Redirects the client follows for one request. -/
def maxRedirects : Nat := 10

/-- What is asked for again. The older statuses turn a `POST` into a `GET`. -/
def Outgoing.redirected (request : Outgoing) (status : Nat) : Outgoing :=
  if status = 303 ∨ (status = 301 ∨ status = 302) ∧ request.method = .POST then
    { request with method := .GET, body := none }
  else request

section Redirects
variable [Redirects]

def Incoming.lead (incoming : Incoming) (url : String) : Lead :=
  if incoming.status ∈ [301, 302, 303, 307, 308] then
    match incoming.location with
    | some location => Redirects.lead url location
    | none => .nowhere
  else .nowhere

/-- What comes of a request, or the status and the URL it is redirected with. -/
def Outgoing.outcome (request : Outgoing) :
    Except TransportError Incoming → Except TransportError Incoming ⊕ Nat × String
  | .error error => .inl (.error error)
  | .ok incoming =>
      match incoming.lead request.url with
      | .nowhere => .inl (.ok incoming)
      | .astray => .inl (.error (.lost .other))
      | .to url => .inr (incoming.status, url)

/-- A request on its way through redirects. -/
structure Visit where
  /-- The `Cookie` header it came with. -/
  cookie : Option String
  visited : List String
  current : Outgoing

def Visit.first (request : Outgoing) : Visit := ⟨request.cookie, [], request⟩

def Visit.ask (visit : Visit) : Call := .send visit.current

def Visit.goOn (visit : Visit) (status : Nat) (url : String) : Visit :=
  let visited := visit.visited ++ [visit.current.url]
  let cookie := if Redirects.keepsCookie visited url then visit.cookie else none
  ⟨visit.cookie, visited, { visit.current.redirected status with url := url, cookie := cookie }⟩

def Visit.hop (visit : Visit) (reply : Except TransportError Incoming) :
    Except TransportError Incoming ⊕ Visit :=
  (visit.current.outcome reply).map id fun (status, url) => visit.goOn status url

/-- What comes of a request that is redirected once more. -/
def tooManyRedirects : Except TransportError Incoming := .error (.lost .other)

def send (request : Outgoing) : Action (Except TransportError Incoming) :=
  Program.follow Visit.ask Visit.hop tooManyRedirects maxRedirects (.first request)

end Redirects

/-! Sessions. -/

/-- The session of the caller, as the `Cookie` header to send on. -/
structure Session where
  header : String

/-- Reads `internal_auth_session` out of a `Cookie` header. -/
def Session.fromCookieHeader (header : String) : Option Session := do
  let value ← (header.toList.splitOn ';').findSome? fun pair => do
    let (name, value) ← splitOnce ['='] pair
    if trim (String.ofList name) = sessionCookie then some (trim (String.ofList value)) else none
  return ⟨← headerText (sessionCookie ++ "=" ++ value)⟩

/-! What is written and read as JSON. -/

def named : Wire.Codec Named := .struct
  ["id"]
  (fun named => [("id", some (Wire.Codec.string.write named.id))])
  (fun
    | [id] => do return ⟨← Wire.Codec.string.required id⟩
    | _ => none)
  (fun _ => True)
  (by decide) (fun _ => rfl) (by simp)
  (by simp)

/-- The caller lakeFS resolved the session to. -/
structure CurrentUser where
  user : Named

def currentUserCodec : Wire.Codec CurrentUser := .struct
  ["user"]
  (fun body => [("user", some (named.write body.user))])
  (fun
    | [user] => do return ⟨← named.required user⟩
    | _ => none)
  (fun _ => True)
  (by decide) (fun _ => rfl) (by simp)
  (by
    intro body _
    have huser : named.required (some (named.write body.user)) = some body.user :=
      named.required_write trivial
    simp [huser])

/-- What the page sends to create a policy. -/
structure PolicyRequest where
  name : String
  statement : List Statement

def policyRequest : Wire.Codec PolicyRequest := .struct
  ["name", "statement"]
  (fun request => [("name", some (Wire.Codec.string.write request.name)),
    ("statement", some ((Wire.Codec.list Wire.statement).write request.statement))])
  (fun
    | [name, statement] => do
        return ⟨← Wire.Codec.string.required name, ← (Wire.Codec.list Wire.statement).required statement⟩
    | _ => none)
  (fun request => (Wire.Codec.list Wire.statement).Fits request.statement)
  (by decide) (fun _ => rfl) (by simp)
  (by
    intro request fits
    simp [(Wire.Codec.list Wire.statement).required_write fits])

/-- The body of `POST /auth/policies`: lakeFS names the policy `id`. -/
def newPolicy (name : String) (statement : List Statement) : Value :=
  .object [("id", .string name), ("statement", (Wire.Codec.list Wire.statement).write statement)]

def strings (texts : List String) : Value := .array (texts.map .string)

/-! Errors. -/

/-- The texts of errors that others write. -/
class Display where
  transport : TransportError → String
  status : Nat → String
  cursor : CursorError → String

inductive BuilderError where
  | NoLakeFs
  | NoSession
  | CrossOrigin
  | LakeFs (error : LakeFsError)
  /-- What lakeFS said to a write. -/
  | Rejected (status : Nat) (message : String)
  | Invalid (error : ApiError)

section Errors
variable [Display]

def lakeFsMessage : LakeFsError → String
  | .Transport error => "call lakeFS: " ++ Display.transport error
  | .Forbidden path => "the lakeFS session may not read " ++ path
  | .Status status path => "lakeFS returned " ++ Display.status status ++ " for " ++ path
  | .Pagination path error =>
      "lakeFS pagination of " ++ path ++ " did not advance: " ++ Display.cursor error

/-- lakeFS already decided: its status is kept, so 409 stays a conflict. -/
def BuilderError.toApiError : BuilderError → ApiError
  | .Invalid error => error
  | .NoLakeFs => .NotFound "no lakeFS endpoint is configured"
  | .NoSession => .Unauthorized
      ("sign in to lakeFS first: no " ++ sessionCookie ++ " cookie was sent")
  | .CrossOrigin => .Forbidden "the request comes from another origin"
  | .LakeFs (.Forbidden path) => .Unauthorized (lakeFsMessage (.Forbidden path))
  | .Rejected status message => .WithStatus status ("lakeFS rejected the request: " ++ message)
  | .LakeFs error => .WithStatus 502 (lakeFsMessage error)

end Errors

/-! The client. -/

namespace Client
variable [Redirects] (self : LakeFsClient) (session : Session)

/-- A reply, as a value of the type that is asked for. -/
def reading {α : Type} (read : Value → Option α) (reply : Except TransportError Incoming) :
    Except TransportError (Response α) :=
  reply.map fun incoming => ⟨incoming.status, match incoming.body.bind read with
    | some value => .json value
    | none => .broken⟩

def get {α : Type} (read : Value → Option α) (path : String) : Action (Except LakeFsError α) := do
  let reply ← send ⟨.GET, self.endpoint ++ path, some session.header, none⟩
  return self.get (fun _ => reading read reply) path

/-- The user name lakeFS resolves the session to. -/
def currentUser : Action (Except LakeFsError String) := do
  let body ← get self session currentUserCodec.read "/user"
  return body.map (·.user.id)

/-- The names of a path from where the walk stands. -/
def listPages (path : String) (walk : CursorWalk) (names : List String) :
    Action (Except LakeFsError (List String)) := do
  match ← get self session (Wire.listResponse named).read
      (path ++ LakeFsClient.pageQuery walk.after) with
  | .error error => return .error error
  | .ok page =>
      match _h : walk.advance page.pagination.nextOffset with
      | .ok (some walk) => listPages path walk (names ++ (namesOf page).results)
      | .ok none => return .ok (names ++ (namesOf page).results)
      | .error (.TooManyPages _) => return .ok (names ++ (namesOf page).results)
      | .error (.Repeated cursor) => return .error (.Pagination path (.Repeated cursor))
termination_by walk.maxPages - walk.pages
decreasing_by
  have := CursorWalk.advance_more _h
  omega

def listNames (path : String) : Action (Except LakeFsError (List String)) :=
  listPages self session path (.new LakeFs.maxPages) []

def listNamesOrEmpty (path : String) : Action (Except LakeFsError (List String)) := do
  match ← listNames self session path with
  | .error (.Forbidden _) => return .ok []
  | other => return other

def repositories : Action (Except LakeFsError (List String)) :=
  listNames self session "/repositories"

def branches (repository : String) : Action (Except LakeFsError (List String)) :=
  listNames self session (LakeFsClient.branchesPath repository)

/-- The three lists are read side by side. -/
def names : Action (Except LakeFsError (List String × List String × List String)) :=
  Program.tryJoin Call.turn id (listNamesOrEmpty self session "/auth/users")
    (Program.tryJoin Call.turn id (listNamesOrEmpty self session "/auth/groups")
      (listNamesOrEmpty self session "/auth/policies"))

variable [Display]

/-- Creates a policy as the caller, and answers the name lakeFS stored. -/
def createPolicy (name : String) (statement : List Statement) :
    Action (Except BuilderError String) := do
  match ← send ⟨.POST, self.endpoint ++ "/auth/policies", some session.header,
      some (newPolicy name statement)⟩ with
  | .error error => return .error (.LakeFs (.Transport error))
  | .ok response =>
      if response.status = 201 then
        match response.body.bind named.read with
        | some created => return .ok created.id
        | none => return .error (.LakeFs (.Transport (.lost .other)))
      else
        let message := match response.body.bind Wire.errorBody.read with
          | some body => body.message
          | none => "lakeFS answered " ++ Display.status response.status
        return .error (.Rejected response.status message)

end Client

/-! Routes. -/

/-- A request to the builder. A header is there where it is text. -/
structure PageRequest where
  verb : Verb
  path : List Text
  cookie : Option String
  secFetchSite : Option String
  origin : Option String
  host : Option String
  body : Http.Body

structure BuilderState where
  lakefs : Option LakeFsClient

def session (request : PageRequest) : Option Session := request.cookie.bind Session.fromCookieHeader

/-- A configured client together with the session of the caller. -/
def live (state : BuilderState) (request : PageRequest) :
    Except BuilderError (LakeFsClient × Session) :=
  match state.lakefs with
  | none => .error .NoLakeFs
  | some client =>
      match session request with
      | none => .error .NoSession
      | some session => .ok (client, session)

/-- The guard of the write route. What the browser said about the site wins over the `Host`
header, which a proxy may rewrite. -/
def sameOrigin (request : PageRequest) : Except BuilderError Unit :=
  match request.secFetchSite with
  | some site =>
      if eqIgnoreAsciiCase site "same-origin" || eqIgnoreAsciiCase site "none" then .ok ()
      else .error .CrossOrigin
  | none =>
      match request.origin with
      | none => .ok ()
      | some origin =>
          let authority := match splitOnce "://".toList origin.toList with
            | some (_, rest) => String.ofList rest
            | none => origin
          if eqIgnoreAsciiCase authority (request.host.getD "") then .ok ()
          else .error .CrossOrigin

/-- The page is compiled in. Its text is left out. -/
def PAGE : String := "policy-builder.html"

section Routes
variable [Display] [Redirects] [SerdeJson]

def refuse (error : BuilderError) : HttpResponse := errorResponse error.toApiError

/-- A data route: what lakeFS answered, written for the page. -/
def asCaller {α : Type} (state : BuilderState) (request : PageRequest)
    (ask : LakeFsClient → Session → Action (Except LakeFsError α)) (write : α → Value) :
    Action HttpResponse :=
  match live state request with
  | .error error => return refuse error
  | .ok (client, session) => do
      match ← ask client session with
      | .error error => return refuse (.LakeFs error)
      | .ok value => return ⟨200, .json (write value)⟩

/-- This never fails: an anonymous visitor gets no user rather than an error. -/
def context (state : BuilderState) (request : PageRequest) : Action HttpResponse :=
  let answer (lakefs : Bool) (user : Option String) : HttpResponse :=
    ⟨200, .json (.object [("lakefs", .bool lakefs), ("user", (user.map .string).getD .null)])⟩
  match state.lakefs with
  | none => return answer false none
  | some client =>
      match session request with
      | none => return answer true none
      | some session => do
          let user ← Client.currentUser client session
          return answer true user.toOption

def names (state : BuilderState) (request : PageRequest) : Action HttpResponse :=
  asCaller state request Client.names fun (users, groups, policies) =>
    .object [("users", strings users), ("groups", strings groups), ("policies", strings policies)]

def repositories (state : BuilderState) (request : PageRequest) : Action HttpResponse :=
  asCaller state request Client.repositories fun repositories =>
    .object [("repositories", strings repositories)]

def branches (state : BuilderState) (request : PageRequest) (params : List Text) :
    Action HttpResponse :=
  match pathParams params with
  | none => return rejected 400
  | some [repository] =>
      asCaller state request (fun client session => Client.branches client session repository)
        fun branches => .object [("branches", strings branches)]
  | some _ => return rejected 500

/-- The rules that guard the API run here first, so an invalid policy never leaves this server. -/
def createPolicy (state : BuilderState) (request : PageRequest) : Action HttpResponse :=
  match apiJson policyRequest request.body with
  | .error error => return errorResponse error
  | .ok body =>
      match sameOrigin request with
      | .error error => return refuse error
      | .ok () =>
          match live state request with
          | .error error => return refuse error
          | .ok (client, session) =>
              match validatePolicy body.name body.statement with
              | .error error => return refuse (.Invalid error)
              | .ok () => do
                  match ← Client.createPolicy client session body.name body.statement with
                  | .error error => return refuse error
                  | .ok name => return ⟨201, .json (.object [("name", .string name)])⟩

inductive Route where
  | page
  | context
  | names
  | createPolicy
  | repositories
  | branches
  deriving DecidableEq

def routes : List (List Piece × Verb × Route) :=
  [(literals [""], .GET, .page), (literals ["api", "context"], .GET, .context),
    (literals ["api", "names"], .GET, .names), (literals ["api", "policies"], .POST, .createPolicy),
    (literals ["api", "repositories"], .GET, .repositories),
    (literals ["api", "repositories"] ++ [.param "repository", .literal "branches"], .GET, .branches)]

def handle (state : BuilderState) (request : PageRequest) (params : List Text) :
    Route → Action HttpResponse
  | .page => return ⟨200, .text PAGE⟩
  | .context => context state request
  | .names => names state request
  | .createPolicy => createPolicy state request
  | .repositories => repositories state request
  | .branches => branches state request params

/-- The route of a path, its method, and the parameters. -/
def findRoute (path : List Text) : Option ((Verb × Route) × List Text) :=
  routes.findSome? fun (template, route) => (matchTemplate template path).map (route, ·)

/-- The handler of a path, or a 405 where the path has no such method. -/
def dispatch (state : BuilderState) (request : PageRequest) : Action HttpResponse :=
  match findRoute request.path with
  | none => return rejected 404
  | some ((verb, route), params) =>
      if (if request.verb = .HEAD then .GET else request.verb) = verb then
        handle state request params route
      else return rejected 405

/-- The answer to a request. -/
def builderRouter (state : BuilderState) (request : PageRequest) : Action HttpResponse := do
  let response ← dispatch state request
  return bodyFor request.verb response

end Routes

end LakeFsAuth.Authz.Builder
