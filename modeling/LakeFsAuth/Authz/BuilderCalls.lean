import LakeFsAuth.Authz.Builder

/-! What the builder asks lakeFS for, however its requests interleave and whatever lakeFS answers. -/
namespace LakeFsAuth.Authz.Builder
open Library Program LakeFsAuth.Core Core.Error Core.Json Core.Model Core.Pagination Core.Text
open Core.Validate Api Http LakeFs

/-! One request of the client, and what it counts. -/

/-- Requests to lakeFS, by what their methods count. -/
def counted (price : Method → Nat) : Call → Nat
  | .send request => price request.method
  | .turn => 0

def each (_ : Method) : Nat := 1

/-- What is no `GET` writes. -/
def writes (method : Method) : Nat := if method = .GET then 0 else 1

/-- A redirect repeats a request, or asks for its URL alone. -/
theorem redirected_cases (request : Outgoing) (status : Nat) :
    request.redirected status = { request with method := .GET, body := none } ∨
      request.redirected status = request := by
  unfold Outgoing.redirected
  split
  · exact .inl rfl
  · exact .inr rfl

section Send
variable [Redirects]

/-- What the request counts that an answer redirects to. -/
def redirected (price : Method → Nat) : (call : Call) → call.Reply → Nat
  | .send request, reply =>
      match request.outcome reply with
      | .inl _ => 0
      | .inr (status, _) => price (request.redirected status).method
  | .turn, _ => 0

/-- What comes of a request where this is the last answer. -/
def settled (request : Outgoing) (reply : Except TransportError Incoming) :
    Except TransportError Incoming :=
  (request.outcome reply).elim id fun _ => tooManyRedirects

variable {visit next : Visit} {reply : Except TransportError Incoming} {out : Outgoing} {n : Nat}
  {price : Method → Nat}

end Send

/-! Walks. -/

section Walks
variable [Redirects] (self : LakeFsClient) (session : Session) (path : String)

section Budgets
variable {price : Method → Nat} {refund : (call : Call) → call.Reply → Nat} {n : Nat}

/-- What each `GET` may spend. -/
def Reads (price : Method → Nat) (refund : (call : Call) → call.Reply → Nat) (n : Nat) : Prop :=
  ∀ url cookie, Budget (counted price) refund n (send ⟨.GET, url, cookie, none⟩)

end Budgets

section Guides
variable {Allowed : List (Entry Call.Reply) → Call → Prop} {log : List (Entry Call.Reply)}

end Guides

end Walks

/-! What a create answers. -/

/-- The page is told that the policy exists. -/
def created (name : String) : HttpResponse := ⟨201, .json (.object [("name", .string name)])⟩

/-- What the page hears of the answer of lakeFS to its write. -/
inductive Relayed : Except TransportError Incoming → HttpResponse → Prop where
  | created {body : Option Value} {location : Option String} {name : String}
      (stored : body.bind named.read = some ⟨name⟩) : Relayed (.ok ⟨201, body, location⟩) (created name)
  | unreadable {body : Option Value} {location : Option String} {error : ApiError}
      (unread : body.bind named.read = none) (gateway : error.statusCode = 502) :
      Relayed (.ok ⟨201, body, location⟩) (errorResponse error)
  | rejected {status : Nat} {body : Option Value} {location : Option String} {message : String}
      (refused : status ≠ 201) :
      Relayed (.ok ⟨status, body, location⟩) (errorResponse (.WithStatus status message))
  | lost {transport : TransportError} {error : ApiError} (gateway : error.statusCode = 502) :
      Relayed (.error transport) (errorResponse error)

/-- The paths the builder reads below the endpoint. -/
inductive ReadPath : String → Prop where
  | user : ReadPath "/user"
  | listing {path : String} (after : String)
      (known : path ∈ ["/repositories", "/auth/users", "/auth/groups", "/auth/policies"]) :
      ReadPath (path ++ LakeFsClient.pageQuery after)
  | branches (repository after : String) :
      ReadPath (LakeFsClient.branchesPath repository ++ LakeFsClient.pageQuery after)

section Requests
variable {state : BuilderState} {request : PageRequest}

variable [SerdeJson]

/-- What a request may send of its own: reads, and the one policy it carries, where it comes from
the page itself. All of it goes to the endpoint, with the session of that request. -/
inductive MaySend (state : BuilderState) (request : PageRequest) : Outgoing → Prop where
  | read {client : LakeFsClient} {caller : Session} {path : String}
      (configured : state.lakefs = some client) (own : session request = some caller)
      (known : ReadPath path) :
      MaySend state request ⟨.GET, client.endpoint ++ path, some caller.header, none⟩
  | write {client : LakeFsClient} {caller : Session} {body : PolicyRequest}
      (configured : state.lakefs = some client) (own : session request = some caller)
      (verb : request.verb = .POST) (site : sameOrigin request = .ok ())
      (carried : apiJson policyRequest request.body = .ok body)
      (valid : validatePolicy body.name body.statement = .ok ()) :
      MaySend state request ⟨.POST, client.endpoint ++ "/auth/policies", some caller.header,
        some (newPolicy body.name body.statement)⟩

/-- What it may send wherever it is redirected: nothing, or that policy, with its session or
without. -/
inductive Carries (request : PageRequest) : Outgoing → Prop where
  | read {caller : Session} {url : String} {cookie : Option String}
      (own : session request = some caller) (sent : cookie = some caller.header ∨ cookie = none) :
      Carries request ⟨.GET, url, cookie, none⟩
  | write {caller : Session} {url : String} {cookie : Option String} {body : PolicyRequest}
      (own : session request = some caller) (sent : cookie = some caller.header ∨ cookie = none)
      (verb : request.verb = .POST) (site : sameOrigin request = .ok ())
      (carried : apiJson policyRequest request.body = .ok body)
      (valid : validatePolicy body.name body.statement = .ok ()) :
      Carries request ⟨.POST, url, cookie, some (newPolicy body.name body.statement)⟩

theorem Carries.redirected {out : Outgoing} (h : Carries request out) (status : Nat) :
    Carries request (out.redirected status) := by
  rcases redirected_cases out status with hget | hsame
  · rw [hget]
    cases h with
    | read own sent => exact .read own sent
    | write own sent => exact .read own sent
  · rwa [hsame]

theorem Carries.moved {out : Outgoing} {caller : Session} {cookie : Option String}
    (h : Carries request out) (url : String) (own : session request = some caller)
    (sent : cookie = some caller.header ∨ cookie = none) :
    Carries request { out with url := url, cookie := cookie } := by
  cases h with
  | read => exact .read own sent
  | write _ _ verb site carried valid => exact .write own sent verb site carried valid

theorem Carries.verb {out : Outgoing} (h : Carries request out) (post : out.method = .POST) :
    request.verb = .POST := by
  cases h with
  | read => cases post
  | write _ _ verb => exact verb

variable [Redirects]

/-- Where a request starts. -/
def Starts (state : BuilderState) (request : PageRequest) (visit : Visit) : Prop :=
  ∃ out, MaySend state request out ∧ visit = .first out

variable [Display]

/-- A create, as far as it was redirected, and what came of it. -/
inductive Ended : List (Entry Call.Reply) → Except TransportError Incoming → Prop where
  | intro {out : Outgoing} {front : List (Entry Call.Reply)} {visit : Visit}
      {reply : Call.Reply (.send visit.current)} (post : out.method = .POST)
      (trail : Trail Visit.ask Visit.hop (.first out) front visit)
      (few : front.length ≤ maxRedirects) :
      Ended (front ++ [⟨.send visit.current, reply⟩]) (settled visit.current reply)

section Budgets
variable {price : Method → Nat} {refund : (call : Call) → call.Reply → Nat} {n k : Nat}

end Budgets

end Requests

/-! The server, its requests side by side. -/

/-- What the page is told of a write. -/
structure Told [Redirects] (log : List (Entry Call.Reply)) (response : HttpResponse) : Prop where
  relayed : ∀ out reply, ⟨.send out, reply⟩ ∈ log → out.method = .POST →
    ∃ last, Ended log last ∧ Relayed last response
  /-- That the policy exists is what the last answer says. -/
  created : ∀ name, response = created name →
    ∃ body location, Ended log (.ok ⟨201, body, location⟩) ∧ body.bind named.read = some ⟨name⟩

section Server
variable [Display] [Redirects] [SerdeJson] {ι σ : Type} [DecidableEq ι]
  {Exec : (call : Call) → σ → call.Reply → σ → Prop} {Others : Call → Prop} {state : BuilderState}
  {requests : ι → PageRequest} {s₀ s : σ} {log : List (Record Call.Reply σ ι)}
  {now : ι → Action HttpResponse}

end Server

/-! A create, and a lakeFS that has moved and stores it. -/

section Stored
attribute [local instance] Validate.noLists

@[reducible] def plainDisplay : Display :=
  ⟨fun _ => "no answer", fun status => toString status, fun _ => "stuck"⟩

/-- Each `Location` is a URL, and the cookie goes on within the host it was sent to. -/
@[reducible] def withinHost : Redirects where
  lead _ location := .to location
  keepsCookie visited next :=
    let host (url : String) := (url.toList.drop "http://".length).takeWhile (· != '/')
    visited.all fun url => host url == host next

attribute [local instance] plainDisplay withinHost

def readers : PolicyRequest := ⟨"readers", [⟨.allow, "*", ["fs:ReadObject"], none⟩]⟩

def creation : PageRequest where
  verb := .POST
  path := ["api", "policies"].map String.toList
  cookie := some "theme=dark; internal_auth_session=abc"
  secFetchSite := some "same-origin"
  origin := none
  host := none
  body := .json (policyRequest.write readers) ""

def moved : BuilderState := ⟨some (.new "http://lakefs/api/v1/")⟩

def storing : Program.Pick Call.Reply Unit
  | .send out, _ =>
      if out.url = "http://lakefs/api/v1/auth/policies" then
        (.ok ⟨308, none, some "http://lakefs/api/v2/auth/policies"⟩, ())
      else (.ok ⟨201, some (named.write ⟨"readers"⟩), none⟩, ())
  | .turn, _ => (true, ())

def told : Moment Call Call.Reply HttpResponse Unit Unit :=
  ((Moment.initial (fun _ => builderRouter moved creation) ()).turn () storing).turn () storing

end Stored

end LakeFsAuth.Authz.Builder
