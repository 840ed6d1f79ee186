import Mathlib.Data.List.Basic
import Mathlib.Data.List.TakeWhile

/-! Text made of fields with a separator between them. -/
namespace LakeFsAuth.Library.Fields

variable {α : Type} [DecidableEq α] (sep : α)

/-- At most `count` pieces, the last one unsplit. -/
def splitn : Nat → List α → List (List α)
  | 0, _ => []
  | 1, text => [text]
  | count + 2, text =>
      match text.dropWhile (· != sep) with
      | [] => [text]
      | _ :: rest => text.takeWhile (· != sep) :: splitn (count + 1) rest

variable {sep}

/-- A field without the separator is the first piece. -/
theorem splitn_field {field : List α} (h : sep ∉ field) (count : Nat) (rest : List α) :
    splitn sep (count + 2) (field ++ sep :: rest) = field :: splitn sep (count + 1) rest := by
  have hfield : ∀ ch ∈ field, (ch != sep) = true := by
    intro ch hch
    have hne : ch ≠ sep := fun heq => h (heq ▸ hch)
    simpa using hne
  rw [splitn, List.dropWhile_append_of_pos hfield, List.takeWhile_append_of_pos hfield]
  simp

/-- The pieces of a split, put together again. -/
theorem splitn_cons {count : Nat} {text field next : List α} {fields : List (List α)}
    (h : splitn sep (count + 2) text = field :: next :: fields) :
    sep ∉ field ∧ ∃ rest, text = field ++ sep :: rest ∧
      splitn sep (count + 1) rest = next :: fields := by
  rw [splitn] at h
  have happend := List.takeWhile_append_dropWhile (p := (· != sep)) (l := text)
  split at h
  · cases h
  · rename_i ch rest hdrop
    obtain ⟨rfl, hrest⟩ := List.cons.inj h
    have hsep : ch = sep := by
      have hhead := List.head_dropWhile_not (· != sep) (l := text) (by simp [hdrop])
      simpa [hdrop] using hhead
    refine ⟨fun hmem => ?_, rest, ?_, hrest⟩
    · simpa using List.mem_takeWhile_imp hmem
    · rw [hdrop, hsep] at happend
      exact happend.symm

omit [DecidableEq α] in
/-- The last field of a text is what follows the last separator. -/
theorem last_unique {before before' field field' : List α} (h : sep ∉ field) (h' : sep ∉ field')
    (heq : before ++ sep :: field = before' ++ sep :: field') :
    before = before' ∧ field = field' := by
  rcases List.append_eq_append_iff.mp heq with ⟨middle, hbefore, hrest⟩ | ⟨middle, hbefore, hrest⟩
  · cases middle with
    | nil => simpa [hbefore] using hrest
    | cons ch middle =>
      obtain ⟨rfl, rfl⟩ := List.cons.inj hrest
      simp at h
  · cases middle with
    | nil => simpa [hbefore, eq_comm] using hrest
    | cons ch middle =>
      obtain ⟨rfl, rfl⟩ := List.cons.inj hrest
      simp at h'

/-- What is before the last separator, and what is after it. -/
def rsplit (sep : α) (text : List α) : Option (List α × List α) :=
  match text.reverse.dropWhile (· != sep) with
  | [] => none
  | _ :: before => some (before.reverse, (text.reverse.takeWhile (· != sep)).reverse)

theorem rsplit_append {field : List α} (h : sep ∉ field) (before : List α) :
    rsplit sep (before ++ sep :: field) = some (before, field) := by
  have hfield : ∀ ch ∈ field.reverse, (ch != sep) = true := by
    intro ch hch
    have hne : ch ≠ sep := fun heq => h (heq ▸ List.mem_reverse.mp hch)
    simpa using hne
  have hreverse : (before ++ sep :: field).reverse = field.reverse ++ sep :: before.reverse := by
    simp
  rw [rsplit, hreverse, List.dropWhile_append_of_pos hfield, List.takeWhile_append_of_pos hfield]
  simp

theorem rsplit_some {text before field : List α} (h : rsplit sep text = some (before, field)) :
    text = before ++ sep :: field ∧ sep ∉ field := by
  have happend := List.takeWhile_append_dropWhile (p := (· != sep)) (l := text.reverse)
  unfold rsplit at h
  split at h
  · cases h
  · rename_i ch rest hdrop
    cases h
    have hsep : ch = sep := by
      have hhead := List.head_dropWhile_not (· != sep) (l := text.reverse) (by simp [hdrop])
      simpa [hdrop] using hhead
    rw [hdrop, hsep] at happend
    refine ⟨?_, fun hmem => ?_⟩
    · simpa using (congrArg List.reverse happend).symm
    · simpa using List.mem_takeWhile_imp (List.mem_reverse.mp hmem)

end LakeFsAuth.Library.Fields
