import LakeFsAuth.Authz.Store.Listing

/-! Walking a listing page by page, with other operations between the pages. -/
namespace LakeFsAuth.Authz.Store.Mem
open Core.Model Core.Pagination Core.Text Library

/-- A page as a client got it, and the store it was read from. -/
structure PageRead (l : Listing) where
  store : Inner
  response : ListResponse l.Row

namespace PageRead
variable {l : Listing}

def keys (read : PageRead l) : List String := read.response.results.map l.key

def nextOffset (read : PageRead l) : String := read.response.pagination.nextOffset

end PageRead

/-- A walk from a cursor: each page is read after any operations at all, with
any page size, and the next one starts at its `next_offset`. `done` says that
the last one was empty. -/
inductive PageWalk (l : Listing) (pre : String) :
    Inner → String → List (PageRead l) → (done : Bool) → Prop where
  | stop (s : Inner) (cursor : String) : PageWalk l pre s cursor [] false
  | last (s : Inner) (writes : List StoreOp) (query : PageQuery) (page : PageOf l.Row)
      (hpre : query.pre = pre) (answer : l.read query (s.after writes) = .ok page)
      (final : page.intoResponse.pagination.nextOffset = "") :
      PageWalk l pre s query.after [⟨s.after writes, page.intoResponse⟩] true
  | more (s : Inner) (writes : List StoreOp) (query : PageQuery) (page : PageOf l.Row)
      (rest : List (PageRead l)) (done : Bool) (hpre : query.pre = pre)
      (answer : l.read query (s.after writes) = .ok page)
      (link : page.intoResponse.pagination.nextOffset ≠ "")
      (walk : PageWalk l pre (s.after writes) page.intoResponse.pagination.nextOffset rest done) :
      PageWalk l pre s query.after (⟨s.after writes, page.intoResponse⟩ :: rest) done

theorem empty_le (text : String) : "" ≤ text := by
  rw [← not_lt, String.lt_iff_toList_lt]
  exact List.not_lt_nil _

namespace Listing
variable (l : Listing)

/-- A page of a well-formed store, as the keyset rules see it. -/
theorem page_reads {s : Inner} (ok : WellFormed s) {query : PageQuery} {page : PageOf l.Row}
    (answer : l.read query s = .ok page) :
    Keyset.Visit.Reads
      ⟨{k | l.Holds s k ∧ startsWith k query.pre = true}, page.items.map l.key,
        page.nextOffset⟩ query.after := by
  obtain ⟨_, hpage⟩ := (l.read_ok_iff query s page).mp answer
  obtain ⟨cutRows, hcut, hsub, hkeys⟩ := pageSorted_eq (l.rows s) query
  have hlimit := query.limit_pos
  have hreads := Keyset.cut_reads _ query.after query.limit.toNat (by omega)
    ((l.rows_sorted s).filter (startsWith · query.pre))
  have hpresent : {k | k ∈ ((l.rows s).map Prod.fst).filter (startsWith · query.pre)} =
      {k | l.Holds s k ∧ startsWith k query.pre = true} := by
    ext k
    simp only [Set.mem_ofPred_eq, List.mem_filter, List.mem_map, Prod.exists,
      exists_and_right, exists_eq_right, l.mem_rows ok k]
  have hitems : page.items.map l.key = cutRows.map Prod.fst := by
    rw [hpage, hcut, List.map_map]
    exact List.map_congr_left fun row hrow => l.key_of_mem ok (hsub.subset hrow)
  rw [hpresent] at hreads
  rw [hitems, hkeys, hpage, hcut]
  exact hreads

/-- The empty offset on the wire is the absent cursor: a cursor lies beyond the
one the page was asked for. -/
theorem nextOffset_eq {s : Inner} (ok : WellFormed s) {query : PageQuery} {page : PageOf l.Row}
    (answer : l.read query s = .ok page) :
    (page.nextOffset = none ∧ page.intoResponse.pagination.nextOffset = "") ∨
    (page.nextOffset = some page.intoResponse.pagination.nextOffset ∧
      page.intoResponse.pagination.nextOffset ≠ "") := by
  have reads := l.page_reads ok answer
  cases hnext : page.nextOffset with
  | none => exact .inl ⟨rfl, by simp [PageOf.intoResponse, hnext]⟩
  | some cursor =>
    have hoffset : page.intoResponse.pagination.nextOffset = cursor := by
      simp [PageOf.intoResponse, hnext]
    have hbeyond := reads.beyond cursor (reads.more cursor hnext).1
    rw [hoffset]
    exact .inr ⟨rfl, ((empty_le query.after).trans_lt hbeyond).ne'⟩

end Listing

/-- The visit behind a page. -/
def PageRead.visit {l : Listing} (pre : String) (read : PageRead l) : Keyset.Visit String where
  present := {k | l.Holds read.store k ∧ startsWith k pre = true}
  keys := read.keys
  next := if read.nextOffset = "" then none else some read.nextOffset

namespace PageWalk
variable {l : Listing} {pre : String}

private theorem visit_reads {s : Inner} (ok : WellFormed s) {query : PageQuery}
    {page : PageOf l.Row} (answer : l.read query s = .ok page) :
    (PageRead.visit query.pre ⟨s, page.intoResponse⟩).Reads query.after := by
  have hnext : (PageRead.visit query.pre ⟨s, page.intoResponse⟩).next = page.nextOffset := by
    unfold PageRead.visit PageRead.nextOffset
    rcases l.nextOffset_eq ok answer with ⟨hnone, hempty⟩ | ⟨hsome, hnonempty⟩
    · rw [hnone]
      exact if_pos hempty
    · rw [hsome]
      exact if_neg hnonempty
  have reads := l.page_reads ok answer
  rw [← hnext] at reads
  exact reads

/-- A walk of a listing is a keyset walk of its keys. -/
theorem visits {s : Inner} {cursor : String} {pages : List (PageRead l)} {done : Bool}
    (walk : PageWalk l pre s cursor pages done) (ok : WellFormed s) :
    Keyset.Walk cursor (pages.map (PageRead.visit pre)) done := by
  induction walk with
  | stop s cursor => exact .stop cursor
  | last s writes query page hpre answer final =>
    subst hpre
    exact .last (visit_reads ((s.after_changes writes).wellFormed ok) answer) (if_pos final)
  | more s writes query page rest done hpre answer link walk ih =>
    have ok' := (s.after_changes writes).wellFormed ok
    subst hpre
    exact .more (visit_reads ok' answer) (if_neg link) (ih ok')

theorem returned_eq (pages : List (PageRead l)) :
    Keyset.returned (pages.map (PageRead.visit pre)) = pages.flatMap PageRead.keys :=
  List.flatMap_map ..

theorem hasMore_iff {s : Inner} {cursor : String} {pages : List (PageRead l)} {done : Bool}
    (walk : PageWalk l pre s cursor pages done) (ok : WellFormed s) :
    ∀ page ∈ pages, page.response.pagination.hasMore = true ↔ page.nextOffset ≠ "" := by
  have hpage : ∀ {s : Inner} {query : PageQuery} {page : PageOf l.Row}, WellFormed s →
      l.read query s = .ok page → (page.intoResponse.pagination.hasMore = true ↔
        page.intoResponse.pagination.nextOffset ≠ "") := by
    intro s query page ok answer
    rcases l.nextOffset_eq ok answer with ⟨hnone, hempty⟩ | ⟨hsome, hnonempty⟩
    · have hmore : page.intoResponse.pagination.hasMore = false := by
        simp only [PageOf.intoResponse, hnone, Option.isSome_none]
      simp [hmore, hempty]
    · have hmore : page.intoResponse.pagination.hasMore = page.nextOffset.isSome := rfl
      rw [hmore, hsome]
      simpa using hnonempty
  induction walk with
  | stop s cursor => simp
  | last s writes query page hpre answer final =>
    intro read hread
    rw [List.mem_singleton.mp hread]
    exact hpage ((s.after_changes writes).wellFormed ok) answer
  | more s writes query page rest done hpre answer link walk ih =>
    have ok' := (s.after_changes writes).wellFormed ok
    intro read hread
    rcases List.mem_cons.mp hread with rfl | hread
    · exact hpage ok' answer
    · exact ih ok' read hread

/-- Whatever happens between the pages, a walk of a listing is sorted, repeats
nothing, shows only what was there, and, once it is done, has shown every key
that was there on each of its pages. -/
theorem complete_and_duplicate_free (ops : List StoreOp) (pages : List (PageRead l))
    (done : Bool) (walk : PageWalk l pre (Inner.new.after ops) "" pages done) :
    (pages.flatMap PageRead.keys).Pairwise (· < ·) ∧
    (pages.flatMap PageRead.keys).Nodup ∧
    (done = true → ∀ k, k ≠ "" → startsWith k pre = true →
      (∀ page ∈ pages, l.Holds page.store k) → (pages.flatMap PageRead.keys).count k = 1) ∧
    (∀ page ∈ pages, ∀ k ∈ page.keys, l.Holds page.store k ∧ startsWith k pre = true) ∧
    (∀ page ∈ pages, page.response.pagination.hasMore = true ↔ page.nextOffset ≠ "") := by
  have ok := Inner.after_wellFormed ops
  have visits := walk.visits ok
  have hsorted := visits.sorted
  rw [returned_eq] at hsorted
  have hnodup : (pages.flatMap PageRead.keys).Nodup := hsorted.imp fun h => h.ne
  refine ⟨hsorted, hnodup, ?_, ?_, walk.hasMore_iff ok⟩
  · rintro rfl k hne hpre hstays
    have hmem := visits.complete k (lt_of_le_of_ne (empty_le k) hne.symm) (by
      intro visit hvisit
      obtain ⟨page, hpage, rfl⟩ := List.mem_map.mp hvisit
      exact ⟨hstays page hpage, hpre⟩)
    rw [returned_eq] at hmem
    exact List.count_eq_one_of_mem hnodup hmem
  · intro page hpage k hk
    exact visits.present (page.visit pre) (List.mem_map_of_mem hpage) k hk

/-- Three users, one a page; the one a cursor stands on is deleted meanwhile. -/
theorem complete_and_duplicate_free_past_delete :
    ∃ pages, PageWalk .users "" (Inner.new.after
        [.createUser (.named "a"), .createUser (.named "b"), .createUser (.named "c")])
        "" pages true ∧
      (pages.flatMap PageRead.keys).Nodup ∧ (pages.flatMap PageRead.keys).count "c" = 1 := by
  have walk := PageWalk.more (l := .users) (Inner.new.after
      [.createUser (.named "a"), .createUser (.named "b"), .createUser (.named "c")])
    [] ⟨"", "", 1, by decide, by decide⟩ _ _ true rfl rfl (by decide)
    (PageWalk.last _ [.deleteUser "a"] ⟨"", "a", 2, by decide, by decide⟩ _ rfl rfl
      (by decide))
  have facts := complete_and_duplicate_free _ _ true walk
  refine ⟨_, walk, facts.2.1, facts.2.2.1 rfl "c" (by decide) (by decide) ?_⟩
  intro page hpage
  rcases List.mem_cons.mp hpage with rfl | hpage
  · exact ⟨_, rfl⟩
  · rw [List.mem_singleton.mp hpage]
    exact ⟨_, rfl⟩

end PageWalk

/-! The full listing of one store: a finished walk with nothing in between. -/

structure FullWalk (l : Listing) (pre : String) (s : Inner) (pages : List (PageRead l)) :
    Prop where
  walk : PageWalk l pre s "" pages true
  still : ∀ page ∈ pages, page.store = s

namespace FullWalk
variable {l : Listing} {pre : String} {s : Inner}

private theorem exists_from (ok : WellFormed s) (owner : l.HasOwner s) (query : PageQuery)
    (n : Nat) (hn : (((l.rows s).map Prod.fst).filter (query.after < ·)).length ≤ n) :
    ∃ pages : List (PageRead l), PageWalk l query.pre s query.after pages true ∧
      ∀ page ∈ pages, page.store = s := by
  induction n generalizing query with
  | zero =>
    have answer := (l.read_ok_iff query s _).mpr ⟨owner, rfl⟩
    rcases l.nextOffset_eq ok answer with ⟨_, hempty⟩ | ⟨hsome, _⟩
    · exact ⟨_, .last s [] query _ rfl answer hempty, by simp⟩
    · have reads := l.page_reads ok answer
      have hcursor := (reads.more _ hsome).1
      obtain ⟨row, hrow⟩ := (l.mem_rows ok _).mpr (reads.present _ hcursor).1
      have hnil := List.length_eq_zero_iff.mp (Nat.le_zero.mp hn)
      have hmem := List.filter_eq_nil_iff.mp hnil _ (List.mem_map_of_mem hrow)
      exact absurd (decide_eq_true (reads.beyond _ hcursor)) hmem
  | succ n ih =>
    have answer := (l.read_ok_iff query s _).mpr ⟨owner, rfl⟩
    rcases l.nextOffset_eq ok answer with ⟨_, hempty⟩ | ⟨hsome, hnonempty⟩
    · exact ⟨_, .last s [] query _ rfl answer hempty, by simp⟩
    · have reads := l.page_reads ok answer
      have hcursor := (reads.more _ hsome).1
      obtain ⟨row, hrow⟩ := (l.mem_rows ok _).mpr (reads.present _ hcursor).1
      have hless := Keyset.beyond_shrinks (reads.beyond _ hcursor) (List.mem_map_of_mem (f := Prod.fst) hrow)
      obtain ⟨pages, hwalk, hstill⟩ := ih { query with
        after := (pageSorted (l.rows s) query).intoResponse.pagination.nextOffset }
        (Nat.lt_succ_iff.mp (hless.trans_le hn))
      refine ⟨_, .more s [] query _ pages true rfl answer hnonempty hwalk, ?_⟩
      intro page hpage
      rcases List.mem_cons.mp hpage with rfl | hpage
      · rfl
      · exact hstill page hpage

/-- Whatever the page size, the walk ends. -/
theorem exists_of_owner (ok : WellFormed s) (owner : l.HasOwner s) (limit : Int)
    (hpos : 1 ≤ limit) (hle : limit ≤ maxPage) : ∃ pages, FullWalk l pre s pages := by
  obtain ⟨pages, walk, still⟩ :=
    exists_from ok owner ⟨pre, "", limit, hpos, hle⟩ _ (Nat.le_refl _)
  exact ⟨pages, walk, still⟩

/-- The full listing shows the non-empty keys that belong in it. -/
theorem mem_iff (ok : WellFormed s) {pages : List (PageRead l)}
    (full : FullWalk l pre s pages) (k : String) :
    k ∈ pages.flatMap PageRead.keys ↔ l.Holds s k ∧ startsWith k pre = true ∧ k ≠ "" := by
  have visits := full.walk.visits ok
  constructor
  · intro hk
    obtain ⟨page, hpage, hkey⟩ := List.mem_flatMap.mp hk
    have hpresent := visits.present (page.visit pre) (List.mem_map_of_mem hpage) k hkey
    have hbeyond := visits.beyond k (by rw [PageWalk.returned_eq]; exact hk)
    have hholds : l.Holds page.store k := hpresent.1
    rw [full.still page hpage] at hholds
    exact ⟨hholds, hpresent.2, hbeyond.ne'⟩
  · rintro ⟨hholds, hpre, hne⟩
    have hmem := visits.complete k (lt_of_le_of_ne (empty_le k) hne.symm) (by
      intro visit hvisit
      obtain ⟨page, hpage, rfl⟩ := List.mem_map.mp hvisit
      refine ⟨?_, hpre⟩
      rw [full.still page hpage]
      exact hholds)
    rwa [PageWalk.returned_eq] at hmem

theorem sorted (ok : WellFormed s) {pages : List (PageRead l)}
    (full : FullWalk l pre s pages) : (pages.flatMap PageRead.keys).Pairwise (· < ·) := by
  have hsorted := (full.walk.visits ok).sorted
  rwa [PageWalk.returned_eq] at hsorted

end FullWalk

end LakeFsAuth.Authz.Store.Mem
