import Mathlib.Data.List.Basic
import Mathlib.Data.List.Sort
import Mathlib.Order.Basic

/-! Keyset pagination over any linear order. A page holds the smallest keys
beyond a cursor, and its last key is the next cursor. Nothing is assumed about
what happens to the key set between two pages. -/
namespace LakeFsAuth.Library.Keyset

variable {κ : Type u} [LinearOrder κ]

/-- One page as read: the keys that were present then, the keys it returned,
and the cursor it handed out. -/
structure Visit (κ : Type u) where
  present : Set κ
  keys : List κ
  next : Option κ

/-- What a page read beyond `cursor` promises. -/
structure Visit.Reads (visit : Visit κ) (cursor : κ) : Prop where
  sorted : visit.keys.Pairwise (· < ·)
  beyond : ∀ k ∈ visit.keys, cursor < k
  present : ∀ k ∈ visit.keys, k ∈ visit.present
  last : visit.next = none → ∀ k ∈ visit.present, cursor < k → k ∈ visit.keys
  more : ∀ c, visit.next = some c →
    c ∈ visit.keys ∧ (∀ k ∈ visit.keys, k ≤ c) ∧
      ∀ k ∈ visit.present, cursor < k → k ≤ c → k ∈ visit.keys

/-- A walk from a cursor. `done` says that its last page handed out no cursor. -/
inductive Walk : κ → List (Visit κ) → (done : Bool) → Prop where
  | stop (cursor : κ) : Walk cursor [] false
  | last {cursor : κ} {visit : Visit κ} (reads : visit.Reads cursor)
      (final : visit.next = none) : Walk cursor [visit] true
  | more {cursor next : κ} {visit : Visit κ} {rest : List (Visit κ)} {done : Bool}
      (reads : visit.Reads cursor) (link : visit.next = some next)
      (walk : Walk next rest done) : Walk cursor (visit :: rest) done

/-- The keys of a whole walk, in the order they were returned. -/
def returned (visits : List (Visit κ)) : List κ := visits.flatMap (·.keys)

theorem Walk.beyond {cursor : κ} {visits : List (Visit κ)} {done : Bool}
    (walk : Walk cursor visits done) : ∀ k ∈ returned visits, cursor < k := by
  induction walk with
  | stop cursor => simp [returned]
  | last reads final => simpa [returned] using reads.beyond
  | @more cursor next visit rest done reads link walk ih =>
    intro k hk
    have happend : returned (visit :: rest) = visit.keys ++ returned rest := by simp [returned]
    rw [happend, List.mem_append] at hk
    rcases hk with hk | hk
    · exact reads.beyond k hk
    · exact (reads.beyond next (reads.more next link).1).trans (ih k hk)

/-- The keys of a walk are strictly ascending, so no key is returned twice. -/
theorem Walk.sorted {cursor : κ} {visits : List (Visit κ)} {done : Bool}
    (walk : Walk cursor visits done) : (returned visits).Pairwise (· < ·) := by
  induction walk with
  | stop cursor => simp [returned]
  | last reads final => simpa [returned] using reads.sorted
  | @more cursor next visit rest done reads link walk ih =>
    have happend : returned (visit :: rest) = visit.keys ++ returned rest := by simp [returned]
    rw [happend, List.pairwise_append]
    refine ⟨reads.sorted, ih, ?_⟩
    intro a ha b hb
    exact ((reads.more next link).2.1 a ha).trans_lt (walk.beyond b hb)

theorem Walk.present {cursor : κ} {visits : List (Visit κ)} {done : Bool}
    (walk : Walk cursor visits done) :
    ∀ visit ∈ visits, ∀ k ∈ visit.keys, k ∈ visit.present := by
  induction walk with
  | stop cursor => simp
  | last reads final => simpa using reads.present
  | more reads link walk ih =>
    intro visit hvisit
    rcases List.mem_cons.mp hvisit with rfl | hvisit
    · exact reads.present
    · exact ih visit hvisit

/-- A finished walk misses no key that was there on every page. -/
theorem Walk.complete {cursor : κ} {visits : List (Visit κ)}
    (walk : Walk cursor visits true) (k : κ) (beyond : cursor < k)
    (stays : ∀ visit ∈ visits, k ∈ visit.present) : k ∈ returned visits := by
  generalize hdone : true = done at walk
  induction walk with
  | stop cursor => cases hdone
  | last reads final =>
    simpa [returned] using reads.last final k (stays _ List.mem_cons_self) beyond
  | @more cursor next visit rest done reads link walk ih =>
    have happend : returned (visit :: rest) = visit.keys ++ returned rest := by simp [returned]
    rw [happend, List.mem_append]
    rcases le_or_gt k next with hle | hlt
    · exact .inl ((reads.more next link).2.2 k (stays _ List.mem_cons_self) beyond hle)
    · exact .inr (ih hlt (fun v hv => stays v (List.mem_cons_of_mem _ hv)) hdone)

section Cut

/-- The page cut out of a sorted listing: the rows beyond the cursor, at most
`limit` of them, with a cursor when some are left over. -/
def cut (rows : List κ) (cursor : κ) (limit : Nat) : List κ × Option κ :=
  let tail := rows.filter (cursor < ·)
  if limit < tail.length then (tail.take limit, (tail.take limit).getLast?)
  else (tail, none)

theorem cut_reads (rows : List κ) (cursor : κ) (limit : Nat) (hlimit : 0 < limit)
    (sorted : rows.Pairwise (· < ·)) :
    Visit.Reads ⟨{k | k ∈ rows}, (cut rows cursor limit).1, (cut rows cursor limit).2⟩
      cursor := by
  have htail : (rows.filter (cursor < ·)).Pairwise (· < ·) := sorted.filter _
  have hmem : ∀ k, k ∈ rows.filter (cursor < ·) ↔ k ∈ rows ∧ cursor < k := by simp
  unfold cut
  dsimp only
  split
  · rename_i hlong
    have hsub := List.take_sublist limit (rows.filter (cursor < ·))
    refine ⟨htail.sublist hsub, ?_, ?_, ?_, ?_⟩
    · exact fun k hk => ((hmem k).mp (hsub.subset hk)).2
    · exact fun k hk => ((hmem k).mp (hsub.subset hk)).1
    · intro hnone
      rw [List.getLast?_eq_none_iff, List.take_eq_nil_iff] at hnone
      rcases hnone with hzero | hnil
      · omega
      · rw [hnil] at hlong
        simp at hlong
    · intro c hc
      obtain ⟨front, hfront⟩ := List.getLast?_eq_some_iff.mp hc
      have hsplit : rows.filter (cursor < ·) =
          front ++ [c] ++ (rows.filter (cursor < ·)).drop limit := by
        rw [← hfront, List.take_append_drop]
      have hpre := htail.sublist hsub
      rw [hfront] at hpre
      refine ⟨by rw [hfront]; simp, ?_, ?_⟩
      · intro k hk
        rw [hfront] at hk
        rcases List.mem_append.mp hk with hk | hk
        · exact ((List.pairwise_append.mp hpre).2.2 k hk c (by simp)).le
        · exact (List.mem_singleton.mp hk).le
      · intro k hk hbeyond hle
        have hin := (hmem k).mpr ⟨hk, hbeyond⟩
        rw [hsplit] at hin htail
        rw [hfront]
        rcases List.mem_append.mp hin with hin | hin
        · exact hin
        · exact absurd ((List.pairwise_append.mp htail).2.2 c (by simp) k hin) hle.not_gt
  · rename_i hshort
    refine ⟨htail, ?_, ?_, ?_, ?_⟩
    · exact fun k hk => ((hmem k).mp hk).2
    · exact fun k hk => ((hmem k).mp hk).1
    · exact fun _ k hk hbeyond => (hmem k).mpr ⟨hk, hbeyond⟩
    · simp

/-- A later cursor leaves fewer keys: a walk of a fixed key set comes to an end. -/
theorem beyond_shrinks {rows : List κ} {cursor next : κ} (hlt : cursor < next)
    (hmem : next ∈ rows) :
    (rows.filter (next < ·)).length < (rows.filter (cursor < ·)).length := by
  have hsub : List.Sublist (rows.filter (next < ·)) (rows.filter (cursor < ·)) := by
    apply List.monotone_filter_right
    intro k hk
    exact decide_eq_true (hlt.trans (of_decide_eq_true hk))
  refine lt_of_le_of_ne hsub.length_le fun heq => ?_
  have hin : next ∈ rows.filter (cursor < ·) := by simp [hmem, hlt]
  rw [← hsub.eq_of_length heq] at hin
  simp at hin

end Cut

end LakeFsAuth.Library.Keyset
