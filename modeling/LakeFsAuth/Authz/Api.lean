import LakeFsAuth.Authz.Store.Traits
import LakeFsAuth.Library.Program

/-! The HTTP surface of the authorization server, as far as the clients of this
repository use it: the routes, what they answer, and what can go wrong with an
attempt on the way. -/
namespace LakeFsAuth.Authz

/-- What the generators draw for a create of credentials. -/
structure Service.Draw where
  accessKeyId : String
  secretAccessKey : String
  nonce : Core.SecretBox.Nonce

namespace Api
open Core.Model Core.Pagination Store Library

/-- The page parameters plus three mutually exclusive lookups. -/
structure ListUsersQuery where
  page : PaginationParams
  id : Option String
  email : Option String
  externalId : Option String

inductive Method where
  | GET
  | POST
  | PUT
  | DELETE
  deriving DecidableEq

/-- A create of credentials carries the cipher and the draw of the server that
answers it. -/
inductive Request where
  | healthcheck
  | version
  | listUsers (query : ListUsersQuery)
  | getUser (username : String)
  | createUser (body : UserCreation)
  | deleteUser (username : String)
  | updateFriendlyName (username friendlyName : String)
  | addMembership (groupId username : String)
  | listUserGroups (username : String) (params : PaginationParams)
  | createCredentials (cipher : Core.SecretBox.Aes256Gcm) (draw : Service.Draw) (username : String)

namespace Request

def method : Request → Method
  | healthcheck | version | listUsers _ | getUser _ | listUserGroups _ _ => .GET
  | createUser _ | createCredentials _ _ _ => .POST
  | deleteUser _ => .DELETE
  | updateFriendlyName _ _ | addMembership _ _ => .PUT

/-- The body of a successful answer. -/
abbrev Success : Request → Type
  | version => VersionConfig
  | listUsers _ => ListResponse User
  | getUser _ | createUser _ => User
  | listUserGroups _ _ => ListResponse Group
  | createCredentials _ _ _ => CredentialsWithSecret
  | healthcheck | deleteUser _ | updateFriendlyName _ _ | addMembership _ _ => Unit

def successStatus : Request → Nat
  | version | listUsers _ | getUser _ | listUserGroups _ _ => 200
  | createUser _ | addMembership _ _ | createCredentials _ _ _ => 201
  | healthcheck | deleteUser _ | updateFriendlyName _ _ => 204

end Request

inductive Body (α : Type) where
  | json (value : α)
  | error (message : String)
  /-- Bytes that do not arrive, or do not parse. -/
  | broken

structure Response (α : Type) where
  status : Nat
  body : Body α

/-- A transport error after the connection was made. -/
inductive Loss where
  | timeout
  | request
  | other
  deriving DecidableEq

inductive TransportError where
  | connect
  | lost (loss : Loss)
  deriving DecidableEq

/-- A status that stands for a failure on the way: the 408 of the timeout layer,
or a 5xx. -/
structure FailureStatus where
  code : Nat
  failure : code = 408 ∨ (500 ≤ code ∧ code ≤ 599)

def FailureStatus.unavailable : FailureStatus := ⟨503, .inr (by decide)⟩

/-- What happens to one attempt. Unless the connection is not made, the server
may have committed the request before its answer is lost. -/
inductive Fault where
  | answered
  | unreachable
  | lost (committed : Bool) (loss : Loss)
  | failed (committed : Bool) (status : FailureStatus)
  /-- The answer arrives with a body that cannot be read. -/
  | garbled

namespace Fault

def committed : Fault → Bool
  | answered | garbled => true
  | unreachable => false
  | lost committed _ | failed committed _ => committed

/-- What the client sees of a response the server gave. -/
def deliver (response : Response α) : Fault → Except TransportError (Response α)
  | answered => .ok response
  | unreachable => .error .connect
  | lost _ loss => .error (.lost loss)
  | failed _ status => .ok ⟨status.code, .broken⟩
  | garbled => .ok ⟨response.status, .broken⟩

/-- What the client sees of an attempt the server never did. -/
def refusal : Fault → Except TransportError (Response α)
  | lost _ loss => .error (.lost loss)
  | failed _ status => .ok ⟨status.code, .broken⟩
  | answered | unreachable | garbled => .error .connect

end Fault

/-- Everything a handler or a client does that touches the world: a store call,
a reading of the clock, or the network deciding on an attempt. -/
inductive Call where
  | store (op : StoreOp)
  | now
  | attempt (request : Request)

abbrev Call.Reply : Call → Type
  | store op => op.Reply
  | now => Timestamp
  | attempt _ => Fault

/-- A store call is one step of the store. The clock and the network answer as
they like. -/
def Call.Exec (impl : StoreImpl σ) : (call : Call) → σ → call.Reply → σ → Prop
  | store op, s, reply, s' => impl.exec op s = (reply, s')
  | now, s, _, s' => s' = s
  | attempt _, s, _, s' => s' = s

/-- The store as it is, a clock that reads `date`, and a network that does `fault`. -/
def Call.pick (impl : StoreImpl σ) (date : Timestamp) (fault : Fault) :
    Program.Pick Call.Reply σ
  | store op, s => impl.exec op s
  | now, s => (date, s)
  | attempt _, s => (fault, s)

theorem Call.pick_exec (impl : StoreImpl σ) (date : Timestamp) (fault : Fault) (call : Call)
    (s : σ) : Call.Exec impl call s (pick impl date fault call s).1
      (pick impl date fault call s).2 := by
  cases call <;> rfl

/-- A schedule of turns, with what the network does in each. -/
def Call.picks (impl : StoreImpl σ) (date : Timestamp) (turns : List (ι × Fault)) :
    List (ι × Program.Pick Call.Reply σ) :=
  turns.map fun turn => (turn.1, pick impl date turn.2)

theorem Call.picks_exec (impl : StoreImpl σ) (date : Timestamp) (turns : List (ι × Fault)) :
    ∀ next ∈ picks impl date turns, ∀ call s,
      Call.Exec impl call s (next.2 call s).1 (next.2 call s).2 := by
  intro next hnext call s
  obtain ⟨turn, _, rfl⟩ := List.mem_map.mp hnext
  exact pick_exec impl date turn.2 call s

abbrev Action (α : Type) := Program Call Call.Reply α

def store (op : StoreOp) : Action op.Reply := Program.perform (Call.store op)

/-- `Timestamp::now`. -/
def now : Action Timestamp := Program.perform Call.now

def network (request : Request) : Action Fault := Program.perform (Call.attempt request)

end Api

end LakeFsAuth.Authz
