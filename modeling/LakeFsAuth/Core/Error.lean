/-! The error type the handlers and services of both servers share. -/
namespace LakeFsAuth.Core.Error

inductive ApiError where
  | NotFound (message : String)
  | Invalid (message : String)
  | AlreadyExists (message : String)
  | Unauthorized (message : String)
  | Forbidden (message : String)
  | NotImplemented (message : String)
  | Unavailable (message : String)
  | Internal (detail : String)
  | WithStatus (status : Nat) (message : String)
  deriving DecidableEq, Repr

namespace ApiError

def notFound (entity id : String) : ApiError :=
  .NotFound s!"{entity} not found: {id}"

def alreadyExists (entity id : String) : ApiError :=
  .AlreadyExists s!"{entity} already exists: {id}"

def invalid (message : String) : ApiError := .Invalid message

/-- HTTP status for the variant. -/
def statusCode : ApiError → Nat
  | NotFound _ => 404
  | Invalid _ => 400
  | AlreadyExists _ => 409
  | Unauthorized _ => 401
  | Forbidden _ => 403
  | NotImplemented _ => 501
  | Unavailable _ => 503
  | Internal _ => 500
  | WithStatus status _ => status

/-- Message that is safe to send to the caller. Internal details stay in the logs. -/
def publicMessage : ApiError → String
  | NotFound message | Invalid message | AlreadyExists message | Unauthorized message
  | Forbidden message | NotImplemented message | Unavailable message
  | WithStatus _ message => message
  | Internal _ => "internal server error"

end ApiError

end LakeFsAuth.Core.Error
