import LakeFsAuth.Authz.Api

/-! A lakeFS client that acts as the person using the policy builder. What lakeFS answers to the
URL of a request, sent with the session of that person, is a parameter. -/
namespace LakeFsAuth.Authz.LakeFs
open Core.Model Core.Pagination Core.Text Api

/-- Entries per request. -/
def pageAmount : Nat := 1000

/-- Pages to follow before stopping. The names only feed autocompletion, so a cut list is fine. -/
def maxPages : Nat := 20

inductive LakeFsError where
  | Transport (error : TransportError)
  | Forbidden (path : String)
  | Status (status : Nat) (path : String)
  /-- The pagination of the path did not advance. -/
  | Pagination (path : String) (error : CursorError)

/-- Repositories, branches, groups, and policies all carry their name in `id`. -/
structure Named where
  id : String

def namesOf (page : ListResponse Named) : ListResponse String :=
  ⟨page.pagination, page.results.map (·.id)⟩

/-- The endpoint includes the API prefix. -/
structure LakeFsClient where
  endpoint : String

namespace LakeFsClient

/-- The trailing slashes are dropped. -/
def new (endpoint : String) : LakeFsClient :=
  ⟨String.ofList (endpoint.toList.rdropWhile (· == '/'))⟩

/-- lakeFS answers 401 both for an expired session and for a missing permission. -/
def get (self : LakeFsClient) (send : String → Except TransportError (Response α)) (path : String) :
    Except LakeFsError α :=
  match send (self.endpoint ++ path) with
  | .error error => .error (.Transport error)
  | .ok response =>
      let route := String.ofList (path.toList.takeWhile (· != '?'))
      if response.status = 200 then
        match response.body with
        | .json value => .ok value
        | .error _ | .broken => .error (.Transport (.lost .other))
      else if response.status = 401 ∨ response.status = 403 then .error (.Forbidden route)
      else .error (.Status response.status route)

/-- The answer to each request for a page, by its number and its URL. -/
abbrev Pages := Nat → String → Except TransportError (Response (ListResponse Named))

/-- The page parameters of a request. -/
def pageQuery (after : String) : String := s!"?amount={pageAmount}&after={pathSegment after}"

/-- One page of the names of a path. -/
def namesPage (self : LakeFsClient) (send : Pages) (path : String) (request : Nat)
    (after : String) : Except LakeFsError (ListResponse String) :=
  (self.get (send request) (path ++ pageQuery after)).map namesOf

/-- Follows `next_offset` until lakeFS reports no more, or `maxPages` is reached. A cursor that
repeats is an error. -/
def listNames (self : LakeFsClient) (send : Pages) (path : String) :
    Except LakeFsError (List String) :=
  (CursorWalk.new maxPages).collect (self.namesPage send path)
    (fun names error =>
      match error with
      | .TooManyPages _ => .ok names
      | .Repeated _ => .error (.Pagination path error)) []

/-- A caller without the permission gets an empty list. -/
def listNamesOrEmpty (self : LakeFsClient) (send : Pages) (path : String) :
    Except LakeFsError (List String) :=
  match self.listNames send path with
  | .error (.Forbidden _) => .ok []
  | other => other

/-- Every repository the caller may see. -/
def repositories (self : LakeFsClient) (send : Pages) : Except LakeFsError (List String) :=
  self.listNames send "/repositories"

def branchesPath (repository : String) : String :=
  s!"/repositories/{pathSegment repository}/branches"

/-- Every branch of one repository the caller may see. -/
def branches (self : LakeFsClient) (send : Pages) (repository : String) :
    Except LakeFsError (List String) :=
  self.listNames send (branchesPath repository)

end LakeFsClient

end LakeFsAuth.Authz.LakeFs
