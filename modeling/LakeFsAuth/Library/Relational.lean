import Mathlib.Data.List.Dedup
import Mathlib.Data.List.Infix
import Mathlib.Data.List.Sort
import LakeFsAuth.Library.OrderedMap

/-! Tables under constraints, as a relational database keeps them: what a statement
does to the rows of a table and which violation refuses it. A table is the list of its
rows; nothing depends on their order until a query asks for one. -/
namespace LakeFsAuth.Library.Relational
open Std

/-- The constraint a refused statement names. -/
inductive Violation where
  | unique (constraint : String)
  | foreignKey (constraint : String)
  deriving DecidableEq

/-- A unique index: no two rows agree on it. -/
structure UniqueIndex (α : Type) where
  name : String
  agree : α → α → Bool

/-- A unique column. -/
def UniqueIndex.on [DecidableEq κ] (name : String) (column : α → κ) : UniqueIndex α :=
  ⟨name, fun row other => column row == column other⟩

/-- A unique column that may be NULL. NULL agrees with nothing. -/
def UniqueIndex.onNullable [DecidableEq κ] (name : String) (column : α → Option κ) : UniqueIndex α :=
  ⟨name, fun row other => (column row).isSome && column row == column other⟩

/-- A foreign key: is the row it points at there? -/
structure Reference (α : Type) where
  name : String
  present : α → Bool

/-- A statement that was carried out: the rows it affected, and the table after it. -/
structure Done (α : Type) where
  rows : List α
  table : List α

/-- The first foreign key that points nowhere. -/
def checkReferences (references : List (Reference α)) (row : α) : Except Violation Unit :=
  match references.find? fun reference => !reference.present row with
  | some reference => .error (.foreignKey reference.name)
  | none => .ok ()

/-- `INSERT`. A conflict on an index that `skips` names inserts nothing; another
unique violation is reported at the row's insertion, before the foreign keys. -/
def insert (uniques : List (UniqueIndex α)) (references : List (Reference α))
    (skips : UniqueIndex α → Bool) (row : α) (table : List α) : Except Violation (Done α) :=
  let taken (index : UniqueIndex α) := table.any (index.agree row)
  if uniques.any fun index => skips index && taken index then .ok ⟨[], table⟩
  else
    match uniques.find? taken with
    | some index => .error (.unique index.name)
    | none => (checkReferences references row).map fun _ => ⟨[row], table ++ [row]⟩

/-- No `ON CONFLICT`. -/
def onConflictError (_ : UniqueIndex α) : Bool := false

/-- `ON CONFLICT DO NOTHING`. -/
def onConflictDoNothing (_ : UniqueIndex α) : Bool := true

/-- `ON CONFLICT (…) DO NOTHING`, by the index it names. -/
def onConflictOf (name : String) (index : UniqueIndex α) : Bool := index.name == name

def delete (condition : α → Bool) (table : List α) : Done α :=
  ⟨table.filter condition, table.filter fun row => !condition row⟩

def update (condition : α → Bool) (set : α → α) (table : List α) : Done α :=
  ⟨(table.filter condition).map set, table.map fun row => if condition row then set row else row⟩

/-- `ON DELETE CASCADE`: the rows that point at a removed row go with it. -/
def cascade (removed : List α) (pointsAt : β → α → Bool) (table : List β) : List β :=
  table.filter fun row => !removed.any (pointsAt row)

/-- `ORDER BY` of a column that compares bytewise. -/
def orderBy (column : α → String) (rows : List α) : List α :=
  rows.insertionSort fun row other => column row ≤ column other

/-- `UNION`: both results, without duplicates. -/
def union [DecidableEq α] (rows others : List α) : List α := (rows ++ others).dedup

theorem checkReferences_cases (references : List (Reference α)) (row : α) :
    ((∀ reference ∈ references, reference.present row = true) ∧
      checkReferences references row = .ok ()) ∨
    (∃ reference ∈ references, reference.present row = false ∧
      checkReferences references row = .error (.foreignKey reference.name)) := by
  unfold checkReferences
  cases h : references.find? fun reference => !reference.present row with
  | some reference =>
    refine .inr ⟨reference, List.mem_of_find?_eq_some h, ?_, rfl⟩
    simpa using List.find?_some h
  | none =>
    refine .inl ⟨?_, rfl⟩
    simpa using h

/-- A row nothing collides with. -/
theorem insert_free {uniques : List (UniqueIndex α)} {row : α} {table : List α}
    (references : List (Reference α)) (skips : UniqueIndex α → Bool)
    (free : ∀ index ∈ uniques, table.any (index.agree row) = false) :
    insert uniques references skips row table =
      (checkReferences references row).map fun _ => ⟨[row], table ++ [row]⟩ := by
  unfold insert
  rw [if_neg, List.find?_eq_none.mpr]
  · intro index hindex
    simp [free index hindex]
  · intro hany
    obtain ⟨index, hindex, hskip⟩ := List.any_eq_true.mp hany
    simp [free index hindex] at hskip

/-- A collision on an index the statement skips. -/
theorem insert_skipped {uniques : List (UniqueIndex α)} {row : α} {table : List α}
    (references : List (Reference α)) (skips : UniqueIndex α → Bool) {index : UniqueIndex α}
    (hindex : index ∈ uniques) (hskips : skips index = true)
    (taken : table.any (index.agree row) = true) :
    insert uniques references skips row table = .ok ⟨[], table⟩ := by
  unfold insert
  rw [if_pos]
  exact List.any_eq_true.mpr ⟨index, hindex, Bool.and_eq_true_iff.mpr ⟨hskips, taken⟩⟩

/-- A collision, and none on an index the statement skips. -/
theorem insert_taken {uniques : List (UniqueIndex α)} {row : α} {table : List α}
    (references : List (Reference α)) (skips : UniqueIndex α → Bool) {index : UniqueIndex α}
    (hindex : index ∈ uniques) (taken : table.any (index.agree row) = true)
    (kept : ∀ other ∈ uniques, skips other = true → table.any (other.agree row) = false) :
    ∃ other ∈ uniques, insert uniques references skips row table = .error (.unique other.name) := by
  unfold insert
  rw [if_neg]
  · cases h : uniques.find? fun index => table.any (index.agree row) with
    | some other => exact ⟨other, List.mem_of_find?_eq_some h, rfl⟩
    | none => exact absurd taken (List.find?_eq_none.mp h index hindex)
  · intro hany
    obtain ⟨other, hother, hskip⟩ := List.any_eq_true.mp hany
    obtain ⟨hskips, htaken⟩ := Bool.and_eq_true_iff.mp hskip
    exact Bool.false_ne_true ((kept other hother hskips).symm.trans htaken)

/-- An insert that succeeds has added its row, which nothing collided with, or has skipped
it for one that was there. -/
theorem insert_ok {uniques : List (UniqueIndex α)} {references : List (Reference α)}
    {skips : UniqueIndex α → Bool} {row : α} {table : List α} {done : Done α}
    (h : insert uniques references skips row table = .ok done) :
    (done = ⟨[row], table ++ [row]⟩ ∧
      ∀ index ∈ uniques, table.any (index.agree row) = false) ∨
    (done = ⟨[], table⟩ ∧
      ∃ index ∈ uniques, skips index = true ∧ table.any (index.agree row) = true) := by
  unfold insert at h
  dsimp only at h
  split at h
  · rename_i hskip
    cases h
    obtain ⟨index, hindex, hboth⟩ := List.any_eq_true.mp hskip
    obtain ⟨hskips, htaken⟩ := Bool.and_eq_true_iff.mp hboth
    exact .inr ⟨rfl, index, hindex, hskips, htaken⟩
  · split at h
    · cases h
    · rename_i hfree
      cases hreferences : checkReferences references row with
      | error violation =>
        rw [hreferences] at h
        cases h
      | ok =>
        rw [hreferences] at h
        cases h
        exact .inl ⟨rfl, by simpa using hfree⟩

/-- The rows an update affects are, after it, the rows its condition holds of. -/
theorem update_filter (condition : α → Bool) (set : α → α) (table : List α)
    (h : ∀ row, condition row = true → condition (set row) = true) :
    (update condition set table).table.filter condition =
      (update condition set table).rows := by
  have hcondition : (condition ∘ fun row => if condition row = true then set row else row) =
      condition := by
    ext row
    by_cases hrow : condition row = true <;> simp [hrow, h]
  simp only [update]
  rw [List.filter_map, hcondition]
  apply List.map_congr_left
  intro row hrow
  rw [if_pos (List.mem_filter.mp hrow).2]

@[simp] theorem cascade_nil (pointsAt : β → α → Bool) (table : List β) :
    cascade [] pointsAt table = table := by
  simp [cascade]

/-- `LIKE … ESCAPE`, on characters. -/
def like (escape : Char) : List Char → List Char → Bool
  | [], text => text.isEmpty
  | ch :: pattern, text =>
      if ch = escape then
        match pattern, text with
        | literal :: pattern, ch :: text => literal == ch && like escape pattern text
        | _, _ => false
      else if ch = '%' then text.tails.any fun rest => like escape pattern rest
      else
        match text with
        | [] => false
        | first :: text => (ch == '_' || ch == first) && like escape pattern text

theorem like_literal (escape ch : Char) (pattern text : List Char) :
    like escape (escape :: ch :: pattern) text = true ↔
      ∃ rest, text = ch :: rest ∧ like escape pattern rest = true := by
  rw [like.eq_def]
  cases text with
  | nil => simp
  | cons first text =>
    simp only [if_true, Bool.and_eq_true, beq_iff_eq]
    constructor
    · rintro ⟨rfl, h⟩
      exact ⟨text, rfl, h⟩
    · rintro ⟨rest, heq, h⟩
      cases heq
      exact ⟨rfl, h⟩

theorem like_plain {escape ch : Char} (hescape : ch ≠ escape) (hmany : ch ≠ '%')
    (hone : ch ≠ '_') (pattern text : List Char) :
    like escape (ch :: pattern) text = true ↔
      ∃ rest, text = ch :: rest ∧ like escape pattern rest = true := by
  rw [like.eq_def]
  cases text with
  | nil => simp [hescape, hmany]
  | cons first text =>
    simp only [hescape, hmany, if_false, Bool.and_eq_true, Bool.or_eq_true, beq_iff_eq, hone,
      false_or]
    constructor
    · rintro ⟨rfl, h⟩
      exact ⟨text, rfl, h⟩
    · rintro ⟨rest, heq, h⟩
      cases heq
      exact ⟨rfl, h⟩

/-- A literal character as it stands in a pattern. -/
def escapeLiteral (ch : Char) : List Char :=
  if ch = '\\' ∨ ch = '%' ∨ ch = '_' then ['\\', ch] else [ch]

theorem like_escapeLiteral (ch : Char) (pattern text : List Char) :
    like '\\' (escapeLiteral ch ++ pattern) text = true ↔
      ∃ rest, text = ch :: rest ∧ like '\\' pattern rest = true := by
  unfold escapeLiteral
  split
  · apply like_literal
  · rename_i hplain
    push Not at hplain
    exact like_plain hplain.1 hplain.2.1 hplain.2.2 pattern text

/-- Literals and then `%`: the texts that start with the literals. -/
theorem like_literals (literals text : List Char) :
    like '\\' (literals.flatMap escapeLiteral ++ ['%']) text = true ↔ literals <+: text := by
  induction literals generalizing text with
  | nil => simp [like, List.mem_tails]
  | cons ch literals ih =>
    rw [List.flatMap_cons, List.append_assoc, like_escapeLiteral]
    cases text with
    | nil => simp
    | cons first text =>
      simp only [List.cons.injEq, List.cons_prefix_cons, and_assoc, exists_and_left,
        exists_eq_left', ih]
      exact and_congr_left' eq_comm

/-- A table lists a set of rows: each of them once, and nothing else. -/
structure Lists (table : List α) (P : α → Prop) : Prop where
  nodup : table.Nodup
  mem : ∀ row, row ∈ table ↔ P row

namespace Lists
variable {table : List α} {P : α → Prop}

theorem nil : Lists ([] : List α) fun _ => False := ⟨List.nodup_nil, by simp⟩

theorem congr {Q : α → Prop} (lists : Lists table P) (h : ∀ row, P row ↔ Q row) :
    Lists table Q :=
  ⟨lists.nodup, fun row => (lists.mem row).trans (h row)⟩

theorem any (lists : Lists table P) (p : α → Bool) :
    table.any p = true ↔ ∃ row, P row ∧ p row = true := by
  simp only [List.any_eq_true, lists.mem]

theorem snoc (lists : Lists table P) {row : α} (fresh : ¬ P row) :
    Lists (table ++ [row]) fun other => P other ∨ other = row where
  nodup := by
    rw [List.nodup_append]
    refine ⟨lists.nodup, List.nodup_singleton row, ?_⟩
    intro other hother last hlast heq
    rw [List.mem_singleton.mp hlast] at heq
    exact fresh (heq ▸ (lists.mem other).mp hother)
  mem := by simp [lists.mem]

theorem map (lists : Lists table P) {f : α → β} (injective : f.Injective) :
    Lists (table.map f) fun row => ∃ old, P old ∧ f old = row where
  nodup := lists.nodup.map injective
  mem := by simp [lists.mem]

theorem filter (lists : Lists table P) (p : α → Bool) :
    Lists (table.filter p) fun row => P row ∧ p row = true where
  nodup := lists.nodup.filter p
  mem := by simp [List.mem_filter, lists.mem]

/-- Rows sorted by a column that tells them apart are the rows in the only order
there is. -/
theorem orderBy_eq (lists : Lists table P) {column : α → String} {sorted : List α}
    (hsorted : (sorted.map column).Pairwise (· < ·)) (hmem : ∀ row, row ∈ sorted ↔ P row) :
    orderBy column table = sorted := by
  have hlt : sorted.Pairwise fun row other => column row < column other :=
    List.pairwise_map.mp hsorted
  have hnodup : sorted.Nodup := hlt.imp fun h heq => absurd (heq ▸ h) (lt_irrefl _)
  have hperm : table.Perm sorted := (List.perm_ext_iff_of_nodup lists.nodup hnodup).mpr fun row =>
    (lists.mem row).trans (hmem row).symm
  have hinj : ∀ row ∈ sorted, ∀ other ∈ sorted, column row = column other → row = other := by
    have hcolumns : (sorted.map column).Nodup := hsorted.imp fun h => h.ne
    exact fun row hrow other hother h => List.inj_on_of_nodup_map hcolumns hrow hother h
  have hperm' : (orderBy column table).Perm sorted :=
    (List.perm_insertionSort _ table).trans hperm
  refine @List.Perm.eq_of_pairwise _ (fun row other => column row ≤ column other) _ _ ?_ ?_ ?_ hperm'
  · intro row other hrow hother hle hge
    exact hinj row (hperm'.mem_iff.mp hrow) other hother (String.le_antisymm hle hge)
  · exact List.pairwise_insertionSort _ table
  · exact hlt.imp fun h => h.le

end Lists

end LakeFsAuth.Library.Relational
