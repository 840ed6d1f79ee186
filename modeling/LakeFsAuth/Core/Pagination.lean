import LakeFsAuth.Core.Model
import LakeFsAuth.Core.Text

/-! Pagination for the `prefix` / `after` / `amount` contract: a page is cut
from a fetch of one row more than asked for, and the extra row becomes the
cursor. -/
namespace LakeFsAuth.Core.Pagination
open Model Text

/-- Query parameters as lakeFS sends them. -/
structure PaginationParams where
  pre : Option String
  after : Option String
  amount : Option Int

/-- Normalized page request. The bounds are part of the request, so no listing
sees a limit outside them. -/
structure PageQuery where
  pre : String
  after : String
  limit : Int
  limit_pos : 1 ≤ limit
  limit_le : limit ≤ maxPage
  deriving DecidableEq

/-- Number of rows to fetch so that the cursor can be derived. -/
def PageQuery.fetchLimit (query : PageQuery) : Int := query.limit + 1

/-- The prefix as literals of a `LIKE … ESCAPE '\'` pattern. -/
def escapeLikePrefix (pre : String) : String :=
  String.ofList (pre.toList.flatMap fun ch =>
    if ch = '\\' ∨ ch = '%' ∨ ch = '_' then ['\\', ch] else [ch])

/-- A missing amount means the default; zero, a negative value, or a value
above the maximum mean the maximum. -/
def PaginationParams.normalize (params : PaginationParams) : PageQuery :=
  let pre := params.pre.getD ""
  let after := params.after.getD ""
  match params.amount with
  | none => ⟨pre, after, defaultPage, by decide, by decide⟩
  | some amount =>
      if h : 1 ≤ amount ∧ amount ≤ maxPage then ⟨pre, after, amount, h.1, h.2⟩
      else ⟨pre, after, maxPage, by decide, by decide⟩

/-- One page of results plus the cursor for the next page. -/
structure PageOf (α : Type) where
  items : List α
  nextOffset : Option String
  deriving DecidableEq, Repr

namespace PageOf

/-- Builds a page from a `limit + 1` fetch. -/
def fromOverfetch (rows : List α) (limit : Int) (key : α → String) : PageOf α :=
  let limit := (max limit 0).toNat
  if limit < rows.length then
    let rows := rows.take limit
    ⟨rows, rows.getLast?.map key⟩
  else ⟨rows, none⟩

/-- A page that is the whole result. -/
def last (items : List α) : PageOf α := ⟨items, none⟩

def map (f : α → β) (page : PageOf α) : PageOf β :=
  ⟨page.items.map f, page.nextOffset⟩

/-- Wire form. `has_more` follows `next_offset`, never the other way round. -/
def intoResponse (page : PageOf α) : ListResponse α where
  pagination :=
    { hasMore := page.nextOffset.isSome
      nextOffset := page.nextOffset.getD ""
      results := page.items.length
      maxPerPage := maxPage }
  results := page.items

end PageOf

/-- Why a cursor walk stopped early. -/
inductive CursorError where
  | Repeated (cursor : String)
  | TooManyPages (pages : Nat)
  deriving DecidableEq, Repr

/-- Follows `next_offset` cursors on behalf of a client that collects every page. -/
structure CursorWalk where
  after : String
  pages : Nat
  maxPages : Nat

namespace CursorWalk

def new (maxPages : Nat) : CursorWalk := ⟨"", 0, maxPages⟩

/-- Records the page just read. `none` means the listing is complete. -/
def advance (self : CursorWalk) (nextOffset : String) : Except CursorError (Option CursorWalk) :=
  let pages := self.pages + 1
  if nextOffset = "" then .ok none
  else if nextOffset = self.after then .error (.Repeated nextOffset)
  else if self.maxPages ≤ pages then .error (.TooManyPages self.maxPages)
  else .ok (some ⟨nextOffset, pages, self.maxPages⟩)

/-- Every page that is followed by another one counts against the limit. -/
theorem advance_more {self next : CursorWalk} {nextOffset : String}
    (h : self.advance nextOffset = .ok (some next)) :
    next.maxPages = self.maxPages ∧ next.pages = self.pages + 1 ∧ next.pages < next.maxPages := by
  simp only [advance] at h
  split_ifs at h with hdone hsame hlast
  · cases h
  · cases h
    exact ⟨rfl, rfl, not_le.mp hlast⟩

/-- Reads every page of a listing. `fetch` gets the number of the request and its `after`;
`stopped` is what becomes of the items when the walk stops early. -/
def collect (fetch : Nat → String → Except ε (ListResponse α))
    (stopped : List α → CursorError → Except ε (List α)) (walk : CursorWalk) (items : List α) :
    Except ε (List α) :=
  match fetch walk.pages walk.after with
  | .error error => .error error
  | .ok page =>
      match _h : walk.advance page.pagination.nextOffset with
      | .error error => stopped (items ++ page.results) error
      | .ok none => .ok (items ++ page.results)
      | .ok (some next) => collect fetch stopped next (items ++ page.results)
termination_by walk.maxPages - walk.pages
decreasing_by
  have := advance_more _h
  omega

/-- The `after` of each request, when the pages carry these cursors. -/
def requests (offsets : Nat → String) (walk : CursorWalk) : List String :=
  walk.after :: match _h : walk.advance (offsets walk.pages) with
    | .ok (some next) => requests offsets next
    | _ => []
termination_by walk.maxPages - walk.pages
decreasing_by
  have := advance_more _h
  omega

end CursorWalk

/-- Pages a list that is already sorted ascending by key. -/
def pageSorted (sorted : List (String × α)) (query : PageQuery) : PageOf α :=
  let fetch := query.fetchLimit.toNat
  let rows := (sorted.filter fun (key, _) =>
    startsWith key query.pre && decide (query.after < key)).take fetch
  (PageOf.fromOverfetch rows query.limit Prod.fst).map Prod.snd

/-- The rows a page is cut from. -/
theorem pageSorted_rows (sorted : List (String × α)) (query : PageQuery) :
    pageSorted sorted query = (PageOf.fromOverfetch ((sorted.filter fun row =>
      startsWith row.1 query.pre && decide (query.after < row.1)).take query.fetchLimit.toNat)
        query.limit Prod.fst).map Prod.snd := rfl

end LakeFsAuth.Core.Pagination
