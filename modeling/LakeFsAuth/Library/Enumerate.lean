import Mathlib.Data.List.Destutter
import Mathlib.Data.List.Perm.Basic
import Mathlib.Data.List.Sort
import Mathlib.Order.Defs.LinearOrder

/-! A set, or a multiset, as the ascending list of its members. -/
namespace LakeFsAuth.Library
variable {α : Type} [LinearOrder α]

/-- The members of the set in ascending order, each of them once. -/
structure Enumerates (list : List α) (members : Set α) : Prop where
  ascending : list.Pairwise (· < ·)
  mem_iff : ∀ a, a ∈ list ↔ a ∈ members

/-- There is one such list. -/
theorem Enumerates.unique {list other : List α} {members : Set α} (h : Enumerates list members)
    (h' : Enumerates other members) : list = other :=
  h.ascending.eq_of_mem_iff h'.ascending fun a => (h.mem_iff a).trans (h'.mem_iff a).symm

theorem Enumerates.eq_nil_iff {list : List α} {members : Set α} (h : Enumerates list members) :
    list = [] ↔ members = ∅ := by
  simp only [List.eq_nil_iff_forall_not_mem, Set.eq_empty_iff_forall_notMem, h.mem_iff]

theorem mem_destutter'_ne {a b : α} (list : List α) :
    a ∈ list.destutter' (· ≠ ·) b ↔ a ∈ b :: list := by
  induction list generalizing b with
  | nil => simp
  | cons first rest ih =>
    by_cases h : b = first
    · subst h
      rw [List.destutter'_cons_neg _ (by simp), ih]
      simp
    · rw [List.destutter'_cons_pos _ h, List.mem_cons, ih]
      simp

theorem mem_destutter_ne {a : α} (list : List α) : a ∈ list.destutter (· ≠ ·) ↔ a ∈ list := by
  cases list with
  | nil => simp
  | cons first rest => exact mem_destutter'_ne rest

/-- A list that is sorted and then loses its neighbours that are equal. -/
theorem enumerates_sorted (list : List α) :
    Enumerates ((list.mergeSort (· ≤ ·)).destutter (· ≠ ·)) {a | a ∈ list} where
  ascending := by
    have hsorted := List.pairwise_mergeSort' (· ≤ ·) list
    have hle := hsorted.sublist (List.destutter_sublist (· ≠ ·) _)
    have hne := List.isChain_destutter (· ≠ ·) (list.mergeSort (· ≤ ·))
    have hlt : ((list.mergeSort (· ≤ ·)).destutter (· ≠ ·)).IsChain (· < ·) := by
      apply List.isChain_iff_getElem.mpr
      intro i h
      apply lt_of_le_of_ne
      · exact List.isChain_iff_getElem.mp hle.isChain i h
      · exact List.isChain_iff_getElem.mp hne i h
    exact hlt.pairwise
  mem_iff a := by simp [mem_destutter_ne]

/-- Lists are equal once they are sorted when they are the same multiset. -/
theorem mergeSort_eq_iff {list others : List α} :
    list.mergeSort (· ≤ ·) = others.mergeSort (· ≤ ·) ↔ list.Perm others := by
  constructor
  · intro h
    exact (List.mergeSort_perm list _).symm.trans (h ▸ List.mergeSort_perm others _)
  · intro h
    apply List.Perm.eq_of_sortedLE List.sortedLE_mergeSort List.sortedLE_mergeSort
    exact (List.mergeSort_perm list _).trans (h.trans (List.mergeSort_perm others _).symm)

omit [LinearOrder α] in
/-- The images are the same multiset when a reordering matches one by one. -/
theorem map_perm_iff {β : Type} (f : α → β) (list others : List α) :
    (list.map f).Perm (others.map f) ↔
      ∃ reordered, list.Perm reordered ∧ List.Forall₂ (fun a b => f a = f b) reordered others := by
  constructor
  · intro h
    have himage : List.Forall₂ (fun a b => f a = b) list (list.map f) := by
      rw [List.forall₂_map_right_iff]
      exact List.forall₂_refl list
    have hcomp : (Relation.Comp (List.Forall₂ fun a b => f a = b) List.Perm) list (others.map f) :=
      ⟨_, himage, h⟩
    rw [List.forall₂_comp_perm_eq_perm_comp_forall₂] at hcomp
    obtain ⟨reordered, hperm, heach⟩ := hcomp
    exact ⟨reordered, hperm, List.forall₂_map_right_iff.mp heach⟩
  · rintro ⟨reordered, hperm, heach⟩
    have hsame : reordered.map f = others.map f := by
      rw [← List.forall₂_eq_eq_eq, List.forall₂_map_left_iff, List.forall₂_map_right_iff]
      exact heach
    exact hsame ▸ hperm.map f

end LakeFsAuth.Library
