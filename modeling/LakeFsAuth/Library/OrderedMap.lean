import Std.Data.ExtTreeMap
import Std.Data.ExtTreeSet
import Mathlib.Data.String.Basic
import Mathlib.Order.Compare

/-! Ordered maps and sets with exact keys. `Std` states its lemmas for an
arbitrary comparison; under a lawful one the side conditions become equalities,
which is the form every proof about a keyed store wants. -/
namespace LakeFsAuth.Library.OrderedMap
open Std

/-- The order of a composite primary key: first component, then second. -/
def pairCompare [Ord α] [Ord β] : α × β → α × β → Ordering :=
  compareLex (compareOn Prod.fst) (compareOn Prod.snd)

instance [Ord α] [Ord β] [TransOrd α] [TransOrd β] :
    TransCmp (pairCompare : α × β → α × β → Ordering) :=
  inferInstanceAs (TransCmp (compareLex (compareOn Prod.fst) (compareOn Prod.snd)))

instance [Ord α] [Ord β] [LawfulEqOrd α] [LawfulEqOrd β] :
    LawfulEqCmp (pairCompare : α × β → α × β → Ordering) where
  compare_self := by
    intro a
    simp [pairCompare, compareLex, compareOn]
  eq_of_compare := by
    intro a b h
    simp only [pairCompare, compareLex, compareOn, Ordering.then_eq_eq] at h
    exact Prod.ext (LawfulEqOrd.eq_of_compare h.1) (LawfulEqOrd.eq_of_compare h.2)

section Map
variable {α : Type u} {β : Type v} {cmp : α → α → Ordering} [TransCmp cmp] [LawfulEqCmp cmp]

theorem get_insert [DecidableEq α] (m : ExtTreeMap α β cmp) (k a : α) (v : β) :
    (m.insert k v)[a]? = if k = a then some v else m[a]? := by
  rw [ExtTreeMap.getElem?_insert]
  simp only [LawfulEqCmp.compare_eq_iff_eq]

theorem insert_insert [DecidableEq α] (m : ExtTreeMap α β cmp) (k : α) (v w : β) :
    (m.insert k v).insert k w = m.insert k w := by
  ext a
  rw [get_insert, get_insert, get_insert]
  split <;> rfl

theorem get_erase [DecidableEq α] (m : ExtTreeMap α β cmp) (k a : α) :
    (m.erase k)[a]? = if k = a then none else m[a]? := by
  rw [ExtTreeMap.getElem?_erase]
  simp only [LawfulEqCmp.compare_eq_iff_eq]

theorem has_insert [DecidableEq α] {m : ExtTreeMap α β cmp} {k : α} (a : α) (b : β)
    (h : ∃ v, m[k]? = some v) : ∃ v, (m.insert a b)[k]? = some v := by
  rw [get_insert]
  split
  · exact ⟨b, rfl⟩
  · exact h

/-- What every row is, and a new one too. -/
theorem rows_insert [DecidableEq α] {m : ExtTreeMap α β cmp} {P : α → β → Prop} {key : α} {row : β}
    (h : ∀ (k : α) (v : β), m[k]? = some v → P k v) (own : P key row) (k : α) (v : β)
    (hrow : (m.insert key row)[k]? = some v) : P k v := by
  rw [get_insert] at hrow
  split at hrow
  · rename_i hkey
    cases hkey
    cases hrow
    exact own
  · exact h k v hrow

theorem has_erase [DecidableEq α] {m : ExtTreeMap α β cmp} {k a : α} (hne : a ≠ k)
    (h : ∃ v, m[k]? = some v) : ∃ v, (m.erase a)[k]? = some v := by
  rw [get_erase, if_neg hne]
  exact h

theorem get_of_erase [DecidableEq α] {m : ExtTreeMap α β cmp} {k a : α} {v : β}
    (h : (m.erase a)[k]? = some v) : a ≠ k ∧ m[k]? = some v := by
  rw [get_erase] at h
  split at h
  · cases h
  · exact ⟨by assumption, h⟩

/-- `BTreeMap::retain`: an entry stays when the predicate holds of it. -/
theorem get_retain (m : ExtTreeMap α β cmp) (keep : α → β → Bool) (a : α) :
    (m.filter keep)[a]? = m[a]?.filter (keep a) := by
  rw [ExtTreeMap.getElem?_filter]
  simp only [ExtTreeMap.getKey_eq, Option.pfilter_eq_filter]

theorem get_of_retain {m : ExtTreeMap α β cmp} {keep : α → β → Bool} {k : α} {v : β}
    (h : (m.filter keep)[k]? = some v) : m[k]? = some v ∧ keep k v = true := by
  rw [get_retain] at h
  exact Option.filter_eq_some_iff.mp h

omit [LawfulEqCmp cmp] in
theorem contains_iff (m : ExtTreeMap α β cmp) (k : α) :
    m.contains k = true ↔ ∃ v, m[k]? = some v := by
  rw [ExtTreeMap.contains_eq_isSome_getElem?, Option.isSome_iff_exists]

omit [LawfulEqCmp cmp] in
theorem not_contains_iff (m : ExtTreeMap α β cmp) (k : α) :
    m.contains k = false ↔ m[k]? = none := by
  rw [ExtTreeMap.contains_eq_isSome_getElem?]
  cases m[k]? <;> simp

/-- A map is read back from its entries. -/
theorem ofList_toList [DecidableEq α] (m : ExtTreeMap α β cmp) :
    ExtTreeMap.ofList m.toList cmp = m := by
  have : LawfulBEqCmp cmp := ⟨by simp⟩
  ext a v
  cases h : m[a]? with
  | some b =>
    rw [ExtTreeMap.getElem?_ofList_of_mem ReflCmp.compare_self ExtTreeMap.distinct_keys_toList
      (ExtTreeMap.mem_toList_iff_getElem?_eq_some.mpr h)]
  | none =>
    have habsent : (m.toList.map Prod.fst).contains a = false := by
      rw [ExtTreeMap.map_fst_toList_eq_keys, ExtTreeMap.contains_keys]
      exact (not_contains_iff m a).mpr h
    rw [ExtTreeMap.getElem?_ofList_of_contains_eq_false habsent]

/-- `BTreeMap::values`: the values in key order. -/
def values (m : ExtTreeMap α β cmp) : List β :=
  m.toList.map Prod.snd

theorem mem_values (m : ExtTreeMap α β cmp) (v : β) :
    v ∈ values m ↔ ∃ k : α, m[k]? = some v := by
  rw [values, List.mem_map]
  constructor
  · rintro ⟨⟨k, v'⟩, hmem, rfl⟩
    exact ⟨k, ExtTreeMap.mem_toList_iff_getElem?_eq_some.mp hmem⟩
  · rintro ⟨k, hk⟩
    exact ⟨(k, v), ExtTreeMap.mem_toList_iff_getElem?_eq_some.mpr hk, rfl⟩

/-- A column that tells the rows apart has no value twice. -/
theorem values_nodup (m : ExtTreeMap α β cmp) (column : β → γ)
    (h : ∀ (k k' : α) (v v' : β), m[k]? = some v → m[k']? = some v' →
      column v = column v' → k = k') : ((values m).map column).Nodup := by
  unfold values
  rw [List.map_map, List.Nodup, List.pairwise_map]
  refine List.Pairwise.imp_of_mem ?_ ExtTreeMap.ordered_keys_toList
  intro a b ha hb hlt heq
  have hkey := h a.1 b.1 a.2 b.2 (ExtTreeMap.mem_toList_iff_getElem?_eq_some.mp ha)
    (ExtTreeMap.mem_toList_iff_getElem?_eq_some.mp hb) heq
  have hself : cmp b.1 b.1 = .eq := ReflCmp.compare_self
  rw [hkey, hself] at hlt
  cases hlt

theorem any_values (m : ExtTreeMap α β cmp) (p : β → Bool) :
    (values m).any p = true ↔ ∃ (k : α) (v : β), m[k]? = some v ∧ p v = true := by
  rw [List.any_eq_true]
  constructor
  · rintro ⟨v, hmem, hp⟩
    obtain ⟨k, hk⟩ := (mem_values m v).mp hmem
    exact ⟨k, v, hk, hp⟩
  · rintro ⟨k, v, hk, hp⟩
    exact ⟨v, (mem_values m v).mpr ⟨k, hk⟩, hp⟩

theorem find_values_some (m : ExtTreeMap α β cmp) (p : β → Bool) (v : β)
    (h : (values m).find? p = some v) : (∃ k : α, m[k]? = some v) ∧ p v = true :=
  ⟨(mem_values m v).mp (List.mem_of_find?_eq_some h), List.find?_some h⟩

theorem find_values_none (m : ExtTreeMap α β cmp) (p : β → Bool) :
    (values m).find? p = none ↔ ∀ (k : α) (v : β), m[k]? = some v → p v = false := by
  rw [List.find?_eq_none]
  constructor
  · intro h k v hk
    exact Bool.not_eq_true _ ▸ h v ((mem_values m v).mpr ⟨k, hk⟩)
  · intro h v hmem
    obtain ⟨k, hk⟩ := (mem_values m v).mp hmem
    simp [h k v hk]

end Map

section Set
variable {α : Type u} {cmp : α → α → Ordering} [TransCmp cmp] [LawfulEqCmp cmp]

theorem mem_insert (s : ExtTreeSet α cmp) (k a : α) :
    a ∈ s.insert k ↔ k = a ∨ a ∈ s := by
  rw [ExtTreeSet.mem_insert, LawfulEqCmp.compare_eq_iff_eq]

theorem mem_erase (s : ExtTreeSet α cmp) (k a : α) :
    a ∈ s.erase k ↔ k ≠ a ∧ a ∈ s := by
  rw [ExtTreeSet.mem_erase, Ne, LawfulEqCmp.compare_eq_iff_eq]

/-- `BTreeSet::retain`. -/
theorem mem_retain (s : ExtTreeSet α cmp) (keep : α → Bool) (a : α) :
    a ∈ s.filter keep ↔ a ∈ s ∧ keep a = true := by
  rw [ExtTreeSet.mem_filter]
  simp

theorem insert_of_mem (s : ExtTreeSet α cmp) (k : α) (h : k ∈ s) : s.insert k = s := by
  apply ExtTreeSet.ext_mem
  intro a
  rw [mem_insert]
  constructor
  · rintro (rfl | ha)
    · exact h
    · exact ha
  · exact Or.inr

end Set

end LakeFsAuth.Library.OrderedMap
