import LakeFsAuth.Core.Error
import LakeFsAuth.Core.Model
import LakeFsAuth.Core.Text

/-! Validation rules that mirror what lakeFS itself accepts. -/
namespace LakeFsAuth.Core.Validate
open Error Model Text

/-- Services that lakeFS accepts in actions. -/
def services : List String := ["fs", "auth", "ci", "retention", "branches", "pr", "catalog"]

/-- The wildcard resource. -/
def allResources : String := "*"

def maxIdLen : Nat := 512

/-- The JSON reader of the code, `serde_json::from_str::<Vec<String>>`: the
list, or the text of its error. -/
class SerdeJson where
  stringList : String → Except String (List String)

/-- A reader that finds no list anywhere. -/
@[reducible] def noLists : SerdeJson := ⟨fun _ => .error "expected value"⟩

/-- Users, groups, and policies share the same identifier rules. `*` and `?`
would turn a policy resource into a wildcard when lakeFS expands it. -/
def validateEntityId (kind id : String) : Except ApiError Unit :=
  if id = "" then .error (.invalid s!"{kind} id must not be empty")
  else if maxIdLen < id.utf8ByteSize then
    .error (.invalid s!"{kind} id is longer than {maxIdLen} bytes")
  else if id = "." ∨ id = ".." then
    .error (.invalid s!"{kind} id must not be '.' or '..'")
  else if id.toList.contains '/' then
    .error (.invalid s!"{kind} id must not contain '/'")
  else if id.toList.any (fun ch => ch == '*' || ch == '?') then
    .error (.invalid s!"{kind} id must not contain '*' or '?'")
  else if id.toList.any isControl then
    .error (.invalid s!"{kind} id must not contain control characters")
  else .ok ()

/-- What the identifier rules ask for. -/
structure ValidId (id : String) : Prop where
  nonempty : id ≠ ""
  short : id.utf8ByteSize ≤ maxIdLen
  noDots : ¬ (id = "." ∨ id = "..")
  noSlash : id.toList.contains '/' = false
  noWildcard : (id.toList.any fun ch => ch == '*' || ch == '?') = false
  noControl : id.toList.any isControl = false

theorem validateEntityId_ok_iff (kind id : String) :
    validateEntityId kind id = .ok () ↔ ValidId id := by
  unfold validateEntityId
  constructor
  · intro h
    split_ifs at h with hempty hlong hdots hslash hwildcard hcontrol
    exact ⟨hempty, not_lt.mp hlong, hdots, by simpa using hslash, by simpa using hwildcard,
      by simpa using hcontrol⟩
  · rintro ⟨hempty, hshort, hdots, hslash, hwildcard, hcontrol⟩
    rw [if_neg hempty, if_neg (not_lt.mpr hshort), if_neg hdots, hslash, hwildcard, hcontrol]
    rfl

/-- `str::splitn`: at most `count` pieces, the last one unsplit. -/
def splitn (sep : Char) : Nat → List Char → List (List Char)
  | 0, _ => []
  | 1, text => [text]
  | count + 2, text =>
      match text.dropWhile (· != sep) with
      | [] => [text]
      | _ :: rest => text.takeWhile (· != sep) :: splitn sep (count + 1) rest

/-- An action is `service:Name` where the service is known. -/
def validateAction (action : String) : Except ApiError Unit :=
  match splitn ':' 3 action.toList with
  | [service, name] =>
      if String.ofList service ∉ services then
        .error (.invalid s!"unknown service in action: {action}")
      else if name = [] then
        .error (.invalid s!"action name must not be empty: {action}")
      else .ok ()
  | _ => .error (.invalid s!"action must have the form service:Action: {action}")

/-- Six colon-separated fields, partition `lakefs`, non-empty service and resource. -/
def validateArn (text : String) : Except ApiError Unit :=
  match (splitn ':' 6 text.toList).map String.ofList with
  | [arn, part, service, _region, _account, resource] =>
      if arn ≠ "arn" then .error (.invalid s!"invalid ARN: {text}")
      else if part ≠ "lakefs" then
        .error (.invalid s!"ARN partition must be lakefs: {text}")
      else if service = "" then
        .error (.invalid s!"ARN service must not be empty: {text}")
      else if resource = "" then
        .error (.invalid s!"ARN resource must not be empty: {text}")
      else .ok ()
  | _ => .error (.invalid s!"invalid ARN: {text}")

variable [SerdeJson]

/-- A resource is `*`, an ARN, or a JSON array of ARNs encoded as a string. -/
def validateResource (resource : String) : Except ApiError Unit :=
  if resource = allResources then .ok ()
  else if resource.toList.head? = some '[' ∧ resource.toList.getLast? = some ']' then
    match SerdeJson.stringList resource with
    | .error err =>
        .error (.invalid s!"resource list is not a JSON array of strings: {err}")
    | .ok [] => .error (.invalid "resource list must not be empty")
    | .ok list =>
        list.forM fun item => if item = allResources then .ok () else validateArn item
  else validateArn resource

/-- An unknown condition operator is only logged. -/
def validateStatement (statement : Statement) : Except ApiError Unit :=
  if statement.action = [] then
    .error (.invalid "statement needs at least one action")
  else do
    statement.action.forM validateAction
    validateResource statement.resource

def validateStatements (statements : List Statement) : Except ApiError Unit :=
  if statements = [] then .error (.invalid "policy needs at least one statement")
  else statements.forM validateStatement

/-- Everything a policy must satisfy before it is stored or forwarded. -/
def validatePolicy (name : String) (statements : List Statement) : Except ApiError Unit := do
  validateEntityId "policy" name
  validateStatements statements

end LakeFsAuth.Core.Validate
