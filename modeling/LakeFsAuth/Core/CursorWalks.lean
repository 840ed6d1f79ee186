import LakeFsAuth.Core.Pagination

/-! What a walk asks a server for that answers with cursors of its choice. -/
namespace LakeFsAuth.Core.Pagination.CursorWalk
open Model

section Steps
variable {fetch : Nat → String → Except ε (ListResponse α)}
  {stopped : List α → CursorError → Except ε (List α)} {walk next : CursorWalk} {items : List α}
  {page : ListResponse α}

theorem collect_failed {error : ε} (h : fetch walk.pages walk.after = .error error) :
    collect fetch stopped walk items = .error error := by
  rw [collect, h]

theorem collect_stopped {error : CursorError} (hpage : fetch walk.pages walk.after = .ok page)
    (h : walk.advance page.pagination.nextOffset = .error error) :
    collect fetch stopped walk items = stopped (items ++ page.results) error := by
  rw [collect, hpage]
  dsimp only
  split <;> simp_all

theorem collect_last (hpage : fetch walk.pages walk.after = .ok page)
    (h : walk.advance page.pagination.nextOffset = .ok none) :
    collect fetch stopped walk items = .ok (items ++ page.results) := by
  rw [collect, hpage]
  dsimp only
  split <;> simp_all

theorem collect_more (hpage : fetch walk.pages walk.after = .ok page)
    (h : walk.advance page.pagination.nextOffset = .ok (some next)) :
    collect fetch stopped walk items =
      collect fetch stopped next (items ++ page.results) := by
  rw [collect, hpage]
  dsimp only
  split <;> simp_all

/-- A walk makes no request twice, so only the answers that are left count. -/
theorem collect_congr {fetch' : Nat → String → Except ε (ListResponse α)}
    (h : ∀ n after, walk.pages ≤ n → fetch n after = fetch' n after) :
    collect fetch stopped walk items = collect fetch' stopped walk items := by
  generalize hleft : walk.maxPages - walk.pages = left
  induction left using Nat.strong_induction_on generalizing walk items with
  | h left ih =>
    cases hpage : fetch walk.pages walk.after with
    | error error => rw [collect_failed hpage, collect_failed ((h _ _ le_rfl).symm.trans hpage)]
    | ok page =>
      have hpage' := (h _ _ le_rfl).symm.trans hpage
      cases hadvance : walk.advance page.pagination.nextOffset with
      | error error => rw [collect_stopped hpage hadvance, collect_stopped hpage' hadvance]
      | ok more =>
        cases more with
        | none => rw [collect_last hpage hadvance, collect_last hpage' hadvance]
        | some next =>
          obtain ⟨hmax, hpages, hlt⟩ := advance_more hadvance
          rw [collect_more hpage hadvance, collect_more hpage' hadvance]
          exact ih _ (by omega) (fun n after hle => h n after (by omega)) rfl

end Steps

section Cursors
variable (offsets : Nat → String) (maxPages : Nat)

/-- The `after` of request `n`, if the walk gets there. -/
def before : Nat → String
  | 0 => ""
  | n + 1 => offsets n

/-- A walk that is about to make request `n`. -/
def standing (n : Nat) : CursorWalk := ⟨before offsets n, n, maxPages⟩

/-- Page `n` has a cursor, and another one than the page before. -/
def Goes (n : Nat) : Prop := offsets n ≠ "" ∧ offsets n ≠ before offsets n

/-- No page before page `n` ends the listing or repeats the cursor it was asked with. -/
def Continues (n : Nat) : Prop := ∀ k < n, Goes offsets k

/-- A cursor that comes again in the walk comes again on the next page. -/
def RepeatsAtOnce : Prop :=
  ∀ i j, i < j → Continues offsets j → offsets j ≠ "" → offsets i = offsets j → j = i + 1

theorem standing_zero : standing offsets maxPages 0 = new maxPages := rfl

variable {offsets} {n : Nat}

theorem advance_goes (goes : Goes offsets n) (more : n + 1 < maxPages) :
    (standing offsets maxPages n).advance (offsets n) =
      .ok (some (standing offsets maxPages (n + 1))) := by
  change _ = Except.ok (some (CursorWalk.mk (offsets n) (n + 1) maxPages))
  simp [advance, standing, goes.1, goes.2, not_le.mpr more]

theorem advance_full (goes : Goes offsets n) (full : maxPages ≤ n + 1) :
    (standing offsets maxPages n).advance (offsets n) = .error (.TooManyPages maxPages) := by
  simp [advance, standing, goes.1, goes.2, full]

theorem advance_repeated (cursor : offsets n ≠ "") (same : offsets n = before offsets n) :
    (standing offsets maxPages n).advance (offsets n) = .error (.Repeated (offsets n)) := by
  simp [advance, standing, cursor, ← same]

theorem requests_more (goes : Goes offsets n) (more : n + 1 < maxPages) :
    requests offsets (standing offsets maxPages n) =
      before offsets n :: requests offsets (standing offsets maxPages (n + 1)) := by
  have hadvance := advance_goes maxPages goes more
  rw [requests]
  change before offsets n :: _ = _
  congr 1
  split
  · rename_i next h
    rw [show (standing offsets maxPages n).pages = n from rfl, hadvance] at h
    cases h
    rfl
  · rename_i h
    exact absurd hadvance (h _)

theorem requests_end (ends : ¬(Goes offsets n ∧ n + 1 < maxPages)) :
    requests offsets (standing offsets maxPages n) = [before offsets n] := by
  rw [requests]
  change before offsets n :: _ = _
  congr 1
  split
  · rename_i next h
    refine absurd ⟨?_, ?_⟩ ends
    · constructor <;> intro hcursor
      · simp [advance, standing, hcursor] at h
      · simp only [advance, standing, hcursor, if_true] at h
        split at h <;> cases h
    · obtain ⟨hmax, hpages, hlt⟩ := advance_more h
      rw [hpages, hmax] at hlt
      exact hlt
  · rfl

/-- A walk makes request `k` when all pages before it lead on, within the limit. -/
theorem requests_getElem? (k : Nat) (after : String) :
    (requests offsets (standing offsets maxPages n))[k]? = some after ↔
      after = before offsets (n + k) ∧ (∀ i, n ≤ i → i < n + k → Goes offsets i) ∧
        (k = 0 ∨ n + k < maxPages) := by
  induction k generalizing n with
  | zero =>
    have hfirst : (requests offsets (standing offsets maxPages n))[0]? = some (before offsets n) := by
      rw [requests]
      rfl
    rw [hfirst, Option.some_inj, eq_comm]
    simp
    omega
  | succ k ih =>
    by_cases hmore : Goes offsets n ∧ n + 1 < maxPages
    · obtain ⟨hgoes, hlimit⟩ := hmore
      rw [requests_more maxPages hgoes hlimit, List.getElem?_cons_succ, ih]
      have hindex : n + 1 + k = n + (k + 1) := by omega
      rw [hindex]
      refine and_congr_right fun _ => and_congr ⟨fun h i hle hlt => ?_, fun h i hle => h i (by omega)⟩ ?_
      · obtain rfl | hne := eq_or_ne n i
        · exact hgoes
        · exact h i (by omega) hlt
      · omega
    · rw [requests_end maxPages hmore]
      constructor
      · intro h
        simp at h
      rintro ⟨_, hgoes, hlimit⟩
      have hlimit : n + 1 < maxPages := by omega
      exact absurd ⟨hgoes n le_rfl (by omega), hlimit⟩ hmore

theorem new_requests_getElem? (k : Nat) (after : String) :
    (requests offsets (new maxPages))[k]? = some after ↔
      after = before offsets k ∧ Continues offsets k ∧ (k = 0 ∨ k < maxPages) := by
  rw [← standing_zero offsets, requests_getElem? maxPages, Nat.zero_add]
  simp [Continues]

theorem requests_length : (requests offsets (new maxPages)).length ≤ max 1 maxPages := by
  by_contra hlong
  have hread : max 1 maxPages < (requests offsets (new maxPages)).length := by omega
  have hget := List.getElem?_eq_getElem hread
  have hlimit := ((new_requests_getElem? maxPages _ _).mp hget).2.2
  omega

/-- No cursor is asked for twice. -/
def Distinct (asked : List String) : Prop :=
  asked.Pairwise fun after later => after ≠ "" → later ≠ after

theorem requests_distinct (repeats : RepeatsAtOnce offsets) :
    Distinct (requests offsets (new maxPages)) := by
  refine List.pairwise_iff_getElem.mpr fun i j hi hj hlt hcursor hsame => ?_
  obtain ⟨hafter, _, _⟩ := (new_requests_getElem? maxPages i _).mp (List.getElem?_eq_getElem hi)
  obtain ⟨hlater, hcontinues, _⟩ := (new_requests_getElem? maxPages j _).mp (List.getElem?_eq_getElem hj)
  rw [hafter] at hcursor hsame
  rw [hlater] at hsame
  obtain ⟨i, rfl⟩ : ∃ i', i = i' + 1 := Nat.exists_eq_succ_of_ne_zero fun h => by
    subst h
    exact hcursor rfl
  obtain ⟨j, rfl⟩ : ∃ j', j = j' + 1 := Nat.exists_eq_succ_of_ne_zero (by omega)
  have hat := repeats i j (by omega) (fun k hk => hcontinues k (by omega))
    (hcontinues j (by omega)).1 hsame.symm
  subst hat
  exact (hcontinues (i + 1) (by omega)).2 hsame

/-- A cursor that comes again later is asked for twice by a walk that may go so far. -/
theorem repeatsAtOnce_of_distinct
    (distinct : ∀ maxPages, Distinct (requests offsets (new maxPages))) : RepeatsAtOnce offsets := by
  intro i j hlt hcontinues hcursor hsame
  by_contra hlater
  have twice : ∀ m, i + 1 < m → Continues offsets m → before offsets m = offsets i → False := by
    intro m hm hcontinues hbefore
    have hfirst := (new_requests_getElem? (m + 1) (i + 1) _).mpr
      ⟨rfl, fun k hk => hcontinues k (by omega), .inr (by omega)⟩
    have hagain := (new_requests_getElem? (m + 1) m _).mpr
      ⟨rfl, hcontinues, .inr (by omega)⟩
    obtain ⟨hi, hi'⟩ := List.getElem?_eq_some_iff.mp hfirst
    obtain ⟨hj, hj'⟩ := List.getElem?_eq_some_iff.mp hagain
    have hne := List.pairwise_iff_getElem.mp (distinct (m + 1)) (i + 1) m hi hj hm
    rw [hi', hj'] at hne
    exact hne (by rw [before, hsame]; exact hcursor) hbefore
  by_cases hstop : offsets j = before offsets j
  · exact twice j (by omega) hcontinues (hstop.symm.trans hsame.symm)
  · refine twice (j + 1) (by omega) (fun k hk => ?_) hsame.symm
    obtain rfl | hne := eq_or_ne k j
    · exact ⟨hcursor, hstop⟩
    · exact hcontinues k (by omega)

section Follows
variable {fetch : Nat → String → Except ε (ListResponse α)}
  (stopped : List α → CursorError → Except ε (List α))

/-- The pages that arrive carry these cursors. -/
def Follows (fetch : Nat → String → Except ε (ListResponse α)) (offsets : Nat → String) : Prop :=
  ∀ n after page, fetch n after = .ok page → page.pagination.nextOffset = offsets n

/-- A walk comes to every page that the pages before lead to, unless a request fails. -/
theorem collect_reaches (follows : Follows fetch offsets) {j : Nat}
    (continues : Continues offsets j) (limit : j = 0 ∨ j < maxPages) :
    (∃ n after error, fetch n after = .error error ∧
        collect fetch stopped (new maxPages) [] = .error error) ∨
      ∃ items, collect fetch stopped (new maxPages) [] =
        collect fetch stopped (standing offsets maxPages j) items := by
  induction j with
  | zero => exact .inr ⟨[], rfl⟩
  | succ j ih =>
    obtain hfailed | ⟨items, hitems⟩ := ih (fun k hk => continues k (by omega)) (by omega)
    · exact .inl hfailed
    · rw [hitems]
      cases hpage : fetch j (before offsets j) with
      | error error => exact .inl ⟨_, _, error, hpage, collect_failed hpage⟩
      | ok page =>
        have hadvance := advance_goes maxPages (continues j (by omega)) (by omega)
        rw [← follows _ _ _ hpage] at hadvance
        exact .inr ⟨_, collect_more hpage hadvance⟩

/-- A cursor that comes again at once ends the walk in an error. -/
theorem collect_repeated (follows : Follows fetch offsets)
    (errors : ∀ items cursor, ∃ error, stopped items (.Repeated cursor) = .error error) {j : Nat}
    (continues : Continues offsets (j + 1)) (limit : j + 1 < maxPages)
    (same : offsets j = offsets (j + 1)) :
    ∃ error, collect fetch stopped (new maxPages) [] = .error error := by
  obtain ⟨_, _, error, _, herror⟩ | ⟨items, hitems⟩ :=
    collect_reaches maxPages stopped follows continues (.inr limit)
  · exact ⟨error, herror⟩
  · rw [hitems]
    cases hpage : fetch (j + 1) (before offsets (j + 1)) with
    | error error => exact ⟨error, collect_failed hpage⟩
    | ok page =>
      have hcursor : offsets (j + 1) ≠ "" := same ▸ (continues j (by omega)).1
      have hadvance := advance_repeated maxPages hcursor same.symm
      rw [← follows _ _ _ hpage] at hadvance
      rw [collect_stopped hpage hadvance]
      exact errors _ _

end Follows
end Cursors

end LakeFsAuth.Core.Pagination.CursorWalk
