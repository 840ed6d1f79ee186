import LakeFsAuth.Library.Relational

/-! A table whose rows are told apart by one column, next to the ordered map it is a
copy of: what a statement on the table is on the map. -/
namespace LakeFsAuth.Library.Relational
open Std OrderedMap

/-- The table has one row for every entry of the map, under the entry's key. -/
structure Keeps {κ : Type u} {cmp : κ → κ → Ordering} [TransCmp cmp] (table : List β)
    (column : β → κ) (image : κ → α → β) (map : ExtTreeMap κ α cmp) : Prop where
  nodup : (table.map column).Nodup
  mem : ∀ row, row ∈ table ↔ ∃ (k : κ) (a : α), map[k]? = some a ∧ image k a = row
  key : ∀ (k : κ) (a : α), map[k]? = some a → column (image k a) = k

namespace Keeps
variable {κ : Type u} {cmp : κ → κ → Ordering} [TransCmp cmp] [LawfulEqCmp cmp]
variable {table : List β} {column : β → κ} {image : κ → α → β} {map : ExtTreeMap κ α cmp}

omit [LawfulEqCmp cmp] in
theorem empty (column : β → κ) (image : κ → α → β) :
    Keeps ([] : List β) column image (∅ : ExtTreeMap κ α cmp) := by
  constructor <;> simp

omit [LawfulEqCmp cmp] in
theorem image_mem (keeps : Keeps table column image map) {k : κ} {a : α}
    (h : map[k]? = some a) : image k a ∈ table :=
  (keeps.mem _).mpr ⟨k, a, h, rfl⟩

omit [LawfulEqCmp cmp] in
theorem congr (keeps : Keeps table column image map) {image' : κ → α → β}
    (h : ∀ (k : κ) (a : α), map[k]? = some a → image' k a = image k a) :
    Keeps table column image' map where
  nodup := keeps.nodup
  mem := by
    intro row
    rw [keeps.mem]
    constructor
    · rintro ⟨k, a, ha, rfl⟩
      exact ⟨k, a, ha, h k a ha⟩
    · rintro ⟨k, a, ha, rfl⟩
      exact ⟨k, a, ha, (h k a ha).symm⟩
  key := fun k a ha => (h k a ha).symm ▸ keeps.key k a ha

omit [LawfulEqCmp cmp] in
theorem lists (keeps : Keeps table column image map) :
    Lists table fun row => ∃ (k : κ) (a : α), map[k]? = some a ∧ image k a = row :=
  ⟨keeps.nodup.of_map column, keeps.mem⟩

omit [LawfulEqCmp cmp] in
/-- The rows of a key are its only row, or none. -/
theorem rows_of_key [DecidableEq κ] (keeps : Keeps table column image map) (k : κ) :
    (table.filter fun row => column row == k) = (map[k]?.map (image k)).toList := by
  have hnodup : (table.filter fun row => column row == k).Nodup :=
    keeps.lists.nodup.filter _
  have hmem : ∀ row, row ∈ (table.filter fun row => column row == k) ↔
      ∃ a, map[k]? = some a ∧ image k a = row := by
    intro row
    rw [List.mem_filter, keeps.mem, beq_iff_eq]
    constructor
    · rintro ⟨⟨k', a, ha, rfl⟩, hk⟩
      rw [keeps.key k' a ha] at hk
      subst hk
      exact ⟨a, ha, rfl⟩
    · rintro ⟨a, ha, rfl⟩
      exact ⟨⟨k, a, ha, rfl⟩, keeps.key k a ha⟩
  cases hk : map[k]? with
  | none =>
    apply List.eq_nil_iff_forall_not_mem.mpr
    intro row hrow
    obtain ⟨a, ha, _⟩ := (hmem row).mp hrow
    rw [hk] at ha
    cases ha
  | some a =>
    apply List.perm_singleton.mp
    apply (List.perm_ext_iff_of_nodup hnodup (List.nodup_singleton _)).mpr
    intro row
    rw [hmem, hk]
    simp [eq_comm]

omit [LawfulEqCmp cmp] in
theorem any_key [DecidableEq κ] (keeps : Keeps table column image map) (k : κ) :
    (table.any fun row => column row == k) = map.contains k := by
  rw [Bool.eq_iff_iff, keeps.lists.any, contains_iff]
  constructor
  · rintro ⟨row, ⟨k', a, ha, rfl⟩, hk⟩
    rw [beq_iff_eq, keeps.key k' a ha] at hk
    exact ⟨a, hk ▸ ha⟩
  · rintro ⟨a, ha⟩
    exact ⟨_, ⟨k, a, ha, rfl⟩, beq_iff_eq.mpr (keeps.key k a ha)⟩

theorem length (keeps : Keeps table column image map) : table.length = map.size := by
  have hperm : (table.map column).Perm map.keys := by
    apply (List.perm_ext_iff_of_nodup keeps.nodup ExtTreeMap.nodup_keys).mpr
    intro k
    rw [ExtTreeMap.mem_keys, ExtTreeMap.mem_iff_isSome_getElem?, Option.isSome_iff_exists,
      List.mem_map]
    constructor
    · rintro ⟨row, hrow, rfl⟩
      obtain ⟨k, a, ha, rfl⟩ := (keeps.mem row).mp hrow
      exact ⟨a, (keeps.key k a ha).symm ▸ ha⟩
    · rintro ⟨a, ha⟩
      exact ⟨image k a, keeps.image_mem ha, keeps.key k a ha⟩
  rw [← List.length_map, hperm.length_eq, ExtTreeMap.length_keys]

omit [LawfulEqCmp cmp] in
/-- Whether the primary key of a new row is taken. -/
theorem taken [DecidableEq κ] (keeps : Keeps table column image map) (name : String) (row : β) :
    table.any ((UniqueIndex.on name column).agree row) = map.contains (column row) := by
  rw [← keeps.any_key]
  unfold UniqueIndex.on
  congr 1
  ext other
  exact Bool.beq_comm

/-- A row under a free key. -/
theorem snoc (keeps : Keeps table column image map) [DecidableEq κ] {k : κ} {a : α}
    (free : map[k]? = none) (hkey : column (image k a) = k) :
    Keeps (table ++ [image k a]) column image (map.insert k a) where
  nodup := by
    rw [List.map_append, List.map_singleton, List.nodup_append]
    refine ⟨keeps.nodup, List.nodup_singleton _, ?_⟩
    intro key hold last hlast heq
    obtain ⟨row, hrow, rfl⟩ := List.mem_map.mp hold
    obtain ⟨k', a', ha', rfl⟩ := (keeps.mem row).mp hrow
    rw [List.mem_singleton.mp hlast, hkey, keeps.key k' a' ha'] at heq
    rw [heq, free] at ha'
    cases ha'
  mem := by
    intro row
    rw [List.mem_append, keeps.mem, List.mem_singleton]
    constructor
    · rintro (⟨k', a', ha', rfl⟩ | rfl)
      · refine ⟨k', a', ?_, rfl⟩
        rw [get_insert, if_neg]
        · exact ha'
        · rintro rfl
          rw [free] at ha'
          cases ha'
      · exact ⟨k, a, by rw [get_insert, if_pos rfl], rfl⟩
    · rintro ⟨k', a', ha', rfl⟩
      rw [get_insert] at ha'
      split at ha'
      · rename_i heq
        subst heq
        cases ha'
        exact .inr rfl
      · exact .inl ⟨k', a', ha', rfl⟩
  key := by
    intro k' a' ha'
    rw [get_insert] at ha'
    split at ha'
    · rename_i heq
      subst heq
      cases ha'
      exact hkey
    · exact keeps.key k' a' ha'

/-- The rows a condition keeps. -/
theorem retain (keeps : Keeps table column image map) {p : β → Bool} {q : κ → α → Bool}
    (h : ∀ (k : κ) (a : α), map[k]? = some a → p (image k a) = q k a) :
    Keeps (table.filter p) column image (map.filter q) where
  nodup := (List.filter_sublist.map column).nodup keeps.nodup
  mem := by
    intro row
    rw [List.mem_filter, keeps.mem]
    constructor
    · rintro ⟨⟨k, a, ha, rfl⟩, hp⟩
      refine ⟨k, a, ?_, rfl⟩
      rw [get_retain, ha, Option.filter_some, ← h k a ha, hp, if_pos rfl]
    · rintro ⟨k, a, ha, rfl⟩
      obtain ⟨hold, hkeep⟩ := get_of_retain ha
      exact ⟨⟨k, a, hold, rfl⟩, (h k a hold).trans hkeep⟩
  key := fun k a ha => keeps.key k a (get_of_retain ha).1

theorem erase [DecidableEq κ] (keeps : Keeps table column image map) {k : κ} {p : β → Bool}
    (h : ∀ (k' : κ) (a : α), map[k']? = some a → p (image k' a) = !(k' == k)) :
    Keeps (table.filter p) column image (map.erase k) := by
  have heq : map.erase k = map.filter fun k' _ => !(k' == k) := by
    apply ExtTreeMap.ext_getElem?
    intro k'
    rw [get_erase, get_retain]
    cases map[k']? with
    | none => simp
    | some a =>
      by_cases hk : k = k'
      · simp [hk]
      · have hkeep : (!(k' == k)) = true := by simp [Ne.symm hk]
        simp [hk, Option.filter_some, hkeep]
  rw [heq]
  exact keeps.retain h

/-- `DELETE` of the row under a key, when it has what else the condition asks for. -/
theorem delete [DecidableEq κ] (keeps : Keeps table column image map) {k : κ} {p : β → Bool}
    {q : α → Bool}
    (hp : ∀ (k' : κ) (a : α), map[k']? = some a → p (image k' a) = (k' == k && q a)) :
    (map[k]?.any q = false ∧ Relational.delete p table = ⟨[], table⟩) ∨
    (∃ a, map[k]? = some a ∧ q a = true ∧ (Relational.delete p table).rows = [image k a] ∧
      Keeps (Relational.delete p table).table column image (map.erase k)) := by
  cases hq : map[k]?.any q with
  | false =>
    have hnone : ∀ row ∈ table, p row = false := by
      intro row hrow
      obtain ⟨k', a, ha, rfl⟩ := (keeps.mem row).mp hrow
      rw [hp k' a ha]
      by_cases hk : k' = k
      · subst hk
        rw [ha, Option.any_some] at hq
        simp [hq]
      · simp [hk]
    refine .inl ⟨rfl, ?_⟩
    unfold Relational.delete
    congr 1
    · simpa using hnone
    · simpa using hnone
  | true =>
    obtain ⟨a, ha, hqa⟩ := (Option.any_eq_true q map[k]?).mp hq
    have hkey : ∀ (k' : κ) (b : α), map[k']? = some b → p (image k' b) = (k' == k) := by
      intro k' b hb
      rw [hp k' b hb]
      by_cases hk : k' = k
      · subst hk
        rw [ha] at hb
        cases hb
        simp [hqa]
      · simp [hk]
    refine .inr ⟨a, ha, hqa, ?_, ?_⟩
    · have hrows : table.filter p = table.filter fun row => column row == k := by
        apply List.filter_congr
        intro row hrow
        obtain ⟨k', b, hb, rfl⟩ := (keeps.mem row).mp hrow
        rw [hkey k' b hb, keeps.key k' b hb]
      change table.filter p = _
      rw [hrows, keeps.rows_of_key, ha, Option.map_some, Option.toList_some]
    · apply keeps.erase
      intro k' b hb
      rw [hkey k' b hb]

/-- `UPDATE` of the row under a key. -/
theorem set [DecidableEq κ] (keeps : Keeps table column image map) {k : κ} {a a' : α}
    {f : β → β} (stored : map[k]? = some a) (hf : f (image k a) = image k a')
    (hkey : column (image k a') = k) :
    Keeps (table.map fun row => if column row == k then f row else row) column image
      (map.insert k a') := by
  have hset : ∀ row ∈ table, column (if column row == k then f row else row) = column row := by
    intro row hrow
    obtain ⟨k', b, hb, rfl⟩ := (keeps.mem row).mp hrow
    rw [keeps.key k' b hb]
    split
    · rename_i heq
      rw [beq_iff_eq] at heq
      subst heq
      rw [stored] at hb
      cases hb
      rw [hf, hkey]
    · exact keeps.key k' b hb
  constructor
  · rw [List.map_map]
    have heq : table.map (column ∘ fun row => if column row == k then f row else row) =
        table.map column := List.map_congr_left hset
    rw [heq]
    exact keeps.nodup
  · intro row
    rw [List.mem_map]
    constructor
    · rintro ⟨old, hold, rfl⟩
      obtain ⟨k', b, hb, rfl⟩ := (keeps.mem old).mp hold
      refine ⟨k', if k = k' then a' else b, ?_, ?_⟩
      · rw [get_insert]
        split <;> simp_all
      · rw [keeps.key k' b hb]
        by_cases heq : k = k'
        · subst heq
          rw [stored] at hb
          cases hb
          simp [hf]
        · simp [heq, Ne.symm heq]
    · rintro ⟨k', b, hb, rfl⟩
      rw [get_insert] at hb
      split at hb
      · rename_i heq
        subst heq
        cases hb
        exact ⟨_, keeps.image_mem stored, by simp [keeps.key k a stored, hf]⟩
      · rename_i hne
        exact ⟨_, keeps.image_mem hb, by simp [keeps.key k' b hb, Ne.symm hne]⟩
  · intro k' b hb
    rw [get_insert] at hb
    split at hb
    · rename_i heq
      subst heq
      cases hb
      exact hkey
    · exact keeps.key k' b hb

theorem update [DecidableEq κ] (keeps : Keeps table column image map) {k : κ} {f : β → β}
    {g : α → α} (hf : ∀ a, map[k]? = some a → f (image k a) = image k (g a))
    (hkey : ∀ a, map[k]? = some a → column (image k (g a)) = k) :
    (map[k]? = none ∧
      Relational.update (fun row => column row == k) f table = ⟨[], table⟩) ∨
    (∃ a, map[k]? = some a ∧
      (Relational.update (fun row => column row == k) f table).rows = [image k (g a)] ∧
      Keeps (Relational.update (fun row => column row == k) f table).table column image
        (map.insert k (g a))) := by
  have hrows := keeps.rows_of_key k
  cases hk : map[k]? with
  | none =>
    rw [hk] at hrows
    refine .inl ⟨rfl, ?_⟩
    unfold Relational.update
    rw [hrows]
    have hkept : ∀ row ∈ table, (if column row == k then f row else row) = row := by
      intro row hrow
      rw [if_neg]
      intro hcolumn
      have hfound : row ∈ table.filter fun row => column row == k :=
        List.mem_filter.mpr ⟨hrow, hcolumn⟩
      rw [hrows] at hfound
      cases hfound
    rw [List.map_congr_left hkept, List.map_id']
    rfl
  | some a =>
    rw [hk] at hrows
    refine .inr ⟨a, rfl, ?_, keeps.set hk (hf a hk) (hkey a hk)⟩
    change (table.filter fun row => column row == k).map f = _
    rw [hrows]
    simp [hf a hk]

/-- `INSERT` into a table with a primary key and nothing else that is unique. -/
theorem insert [DecidableEq κ] (keeps : Keeps table column image map) (name : String)
    (references : List (Reference β)) (skips : UniqueIndex β → Bool) {k : κ} {a : α}
    (hkey : column (image k a) = k) :
    (map.contains k = true ∧
      Relational.insert [.on name column] references skips (image k a) table =
        if skips (.on name column) then .ok ⟨[], table⟩ else .error (.unique name)) ∨
    (map.contains k = false ∧ (∀ reference ∈ references, reference.present (image k a) = true) ∧
      Relational.insert [.on name column] references skips (image k a) table =
        .ok ⟨[image k a], table ++ [image k a]⟩ ∧
      Keeps (table ++ [image k a]) column image (map.insert k a)) ∨
    (map.contains k = false ∧ ∃ reference ∈ references, reference.present (image k a) = false ∧
      Relational.insert [.on name column] references skips (image k a) table =
        .error (.foreignKey reference.name)) := by
  have htaken : table.any ((UniqueIndex.on name column).agree (image k a)) = map.contains k := by
    rw [keeps.taken, hkey]
  cases hk : map.contains k with
  | true =>
    rw [hk] at htaken
    refine .inl ⟨rfl, ?_⟩
    split
    · rename_i hskips
      exact insert_skipped references skips (List.mem_singleton_self _) hskips htaken
    · rename_i hskips
      obtain ⟨other, hother, heq⟩ := insert_taken references skips
        (List.mem_singleton_self _) htaken (by simp [hskips])
      rw [heq, List.mem_singleton.mp hother]
      rfl
  | false =>
    rw [hk] at htaken
    have hfree : ∀ index ∈ [UniqueIndex.on name column],
        table.any (index.agree (image k a)) = false := by
      intro index hindex
      rw [List.mem_singleton.mp hindex, htaken]
    rw [insert_free references skips hfree]
    rcases checkReferences_cases references (image k a) with ⟨hall, hok⟩ | ⟨ref, href, hmiss, herr⟩
    · rw [hok]
      exact .inr (.inl ⟨rfl, hall, rfl, keeps.snoc ((not_contains_iff _ _).mp hk) hkey⟩)
    · rw [herr]
      exact .inr (.inr ⟨rfl, ref, href, hmiss, rfl⟩)

/-- The same without foreign keys: the key is taken, or the row is written. -/
theorem insert_unreferenced [DecidableEq κ] (keeps : Keeps table column image map) (name : String)
    (skips : UniqueIndex β → Bool) {k : κ} {a : α} (hkey : column (image k a) = k) :
    (map.contains k = true ∧
      Relational.insert [.on name column] [] skips (image k a) table =
        if skips (.on name column) then .ok ⟨[], table⟩ else .error (.unique name)) ∨
    (map.contains k = false ∧
      Relational.insert [.on name column] [] skips (image k a) table =
        .ok ⟨[image k a], table ++ [image k a]⟩ ∧
      Keeps (table ++ [image k a]) column image (map.insert k a)) := by
  rcases keeps.insert name [] skips hkey with taken | ⟨hout, _, written⟩ | ⟨_, ref, href, _⟩
  · exact .inl taken
  · exact .inr ⟨hout, written⟩
  · cases href

omit [LawfulEqCmp cmp] in
/-- The one row a condition holds of. -/
theorem head_of_unique (keeps : Keeps table column image map) {p : β → Bool} {k : κ} {a : α}
    (stored : map[k]? = some a) (hp : p (image k a) = true)
    (unique : ∀ (k' : κ) (a' : α), map[k']? = some a' → p (image k' a') = true → k' = k) :
    (table.filter p).head? = some (image k a) := by
  have hmem : image k a ∈ table.filter p := List.mem_filter.mpr ⟨keeps.image_mem stored, hp⟩
  cases h : table.filter p with
  | nil =>
    rw [h] at hmem
    cases hmem
  | cons row rest =>
    have hrow : row ∈ table.filter p := h ▸ List.mem_cons_self
    obtain ⟨k', a', ha', rfl⟩ := (keeps.mem row).mp (List.mem_filter.mp hrow).1
    have hk := unique k' a' ha' (List.mem_filter.mp hrow).2
    subst hk
    rw [stored] at ha'
    cases ha'
    rfl

omit [LawfulEqCmp cmp] in
theorem head_none (keeps : Keeps table column image map) {p : β → Bool}
    (h : ∀ (k : κ) (a : α), map[k]? = some a → p (image k a) = false) :
    (table.filter p).head? = none := by
  rw [List.head?_eq_none_iff, List.filter_eq_nil_iff]
  intro row hrow
  obtain ⟨k, a, ha, rfl⟩ := (keeps.mem row).mp hrow
  rw [h k a ha]
  simp

end Keeps

/-- Whether a row of a table without further columns is taken. -/
theorem Lists.taken [DecidableEq α] {table : List α} {P : α → Prop} (lists : Lists table P)
    (name : String) (row : α) :
    table.any ((UniqueIndex.on name id).agree row) = true ↔ P row := by
  rw [lists.any]
  simp [UniqueIndex.on]

/-- A set that is kept as a table: `INSERT … ON CONFLICT DO NOTHING` adds a row that is
not there, and a row that is there passed its foreign keys when it came. -/
theorem Lists.insert {table : List α} {cmp : α → α → Ordering} [TransCmp cmp]
    [LawfulEqCmp cmp] [DecidableEq α] {set : ExtTreeSet α cmp} (lists : Lists table (· ∈ set))
    (name : String) (references : List (Reference α)) (row : α)
    (held : row ∈ set → ∀ reference ∈ references, reference.present row = true) :
    ((∀ reference ∈ references, reference.present row = true) ∧
      ∃ done, Relational.insert [.on name id] references onConflictDoNothing row table =
          .ok done ∧
        (decide (0 < done.rows.length)) = !set.contains row ∧
        Lists done.table (· ∈ set.insert row)) ∨
    (∃ reference ∈ references, reference.present row = false ∧
      Relational.insert [.on name id] references onConflictDoNothing row table =
        .error (.foreignKey reference.name)) := by
  by_cases hmem : row ∈ set
  · have heq := insert_skipped references onConflictDoNothing
      (List.mem_singleton_self (UniqueIndex.on name id)) rfl ((lists.taken name row).mpr hmem)
    refine .inl ⟨held hmem, _, heq, ?_, ?_⟩
    · simp [ExtTreeSet.contains_iff_mem.mpr hmem]
    · rw [insert_of_mem set row hmem]
      exact lists
  · have hfree : ∀ index ∈ [UniqueIndex.on name (id : α → α)],
        table.any (index.agree row) = false := by
      intro index hindex
      rw [List.mem_singleton.mp hindex, ← Bool.not_eq_true, lists.taken]
      exact hmem
    rw [insert_free references onConflictDoNothing hfree]
    rcases checkReferences_cases references row with ⟨hall, hok⟩ | ⟨reference, href, hmiss, herr⟩
    · have hout : set.contains row = false := by
        rw [← Bool.not_eq_true, ExtTreeSet.contains_iff_mem]
        exact hmem
      refine .inl ⟨hall, _, by rw [hok]; rfl, ?_, ?_⟩
      · simp [hout]
      · apply (lists.snoc hmem).congr
        intro other
        rw [OrderedMap.mem_insert, or_comm, eq_comm]
    · exact .inr ⟨reference, href, hmiss, by rw [herr]; rfl⟩

theorem Lists.retain {table : List α} {cmp : α → α → Ordering} [TransCmp cmp]
    [LawfulEqCmp cmp] {set : ExtTreeSet α cmp} (lists : Lists table (· ∈ set))
    {p keep : α → Bool} (h : ∀ row, p row = keep row) :
    Lists (table.filter p) (· ∈ set.filter keep) := by
  apply (lists.filter p).congr
  intro row
  rw [mem_retain, h]

/-- `DELETE` of one row of a set. -/
theorem Lists.delete {table : List α} {cmp : α → α → Ordering} [TransCmp cmp]
    [LawfulEqCmp cmp] [DecidableEq α] {set : ExtTreeSet α cmp} (lists : Lists table (· ∈ set))
    (row : α) {p : α → Bool} (hp : ∀ other, p other = true ↔ other = row) :
    (row ∉ set ∧ Relational.delete p table = ⟨[], table⟩) ∨
    (row ∈ set ∧ (Relational.delete p table).rows.length ≠ 0 ∧
      Lists (Relational.delete p table).table (· ∈ set.erase row)) := by
  by_cases hmem : row ∈ set
  · refine .inr ⟨hmem, ?_, ?_⟩
    · have hrow : row ∈ table.filter p :=
        List.mem_filter.mpr ⟨(lists.mem row).mpr hmem, (hp row).mpr rfl⟩
      intro hzero
      rw [List.length_eq_zero_iff] at hzero
      change table.filter p = [] at hzero
      rw [hzero] at hrow
      cases hrow
    · apply (lists.filter _).congr
      intro other
      rw [OrderedMap.mem_erase, and_comm, Bool.not_eq_true', ← Bool.not_eq_true, hp, ← ne_eq, ne_comm]
  · have hnone : ∀ other ∈ table, p other = false := by
      intro other hother
      rw [← Bool.not_eq_true, hp]
      rintro rfl
      exact hmem ((lists.mem other).mp hother)
    refine .inl ⟨hmem, ?_⟩
    unfold Relational.delete
    congr 1
    · simpa using hnone
    · simpa using hnone

/-- A join on the key: the rows under the given keys. -/
theorem Lists.join {κ : Type} {cmp : κ → κ → Ordering} [TransCmp cmp] [DecidableEq κ]
    {keys : List κ} {P : κ → Prop} (lists : Lists keys P) {table : List β} {column : β → κ}
    {image : κ → α → β} {map : ExtTreeMap κ α cmp} (keeps : Keeps table column image map) :
    Lists (keys.flatMap fun k => table.filter fun row => column row == k)
      fun row => ∃ (k : κ) (a : α), (P k ∧ map[k]? = some a) ∧ image k a = row where
  nodup := by
    rw [List.nodup_flatMap]
    refine ⟨fun k _ => keeps.lists.nodup.filter _, ?_⟩
    apply lists.nodup.imp
    intro k k' hne row hrow hrow'
    exact hne ((beq_iff_eq.mp (List.mem_filter.mp hrow).2).symm.trans
      (beq_iff_eq.mp (List.mem_filter.mp hrow').2))
  mem := by
    intro row
    simp only [List.mem_flatMap, lists.mem, keeps.rows_of_key, Option.mem_toList,
      Option.map_eq_some_iff]
    constructor
    · rintro ⟨k, hk, a, ha, rfl⟩
      exact ⟨k, a, ⟨hk, ha⟩, rfl⟩
    · rintro ⟨k, a, ⟨hk, ha⟩, rfl⟩
      exact ⟨k, hk, a, ha, rfl⟩

private theorem flatMap_if (p : α → Prop) [DecidablePred p] (rows : List α) :
    (rows.flatMap fun row => if p row then [row] else []) = rows.filter fun row => decide (p row) := by
  induction rows with
  | nil => rfl
  | cons row rows ih =>
    rw [List.flatMap_cons, List.filter_cons, ih]
    by_cases h : p row <;> simp [h]

/-- A join of a table with a list of its keys. -/
theorem Keeps.semijoin {κ : Type} {cmp : κ → κ → Ordering} [TransCmp cmp] [DecidableEq κ]
    {table : List β} {column : β → κ} {image : κ → α → β} {map : ExtTreeMap κ α cmp}
    (keeps : Keeps table column image map) {keys : List κ} {P : κ → Prop}
    (lists : Lists keys P) :
    Lists (table.flatMap fun row => (keys.filter (· == column row)).map fun _ => row)
      fun row => ∃ (k : κ) (a : α), (P k ∧ map[k]? = some a) ∧ image k a = row := by
  have hcount (row : β) : (keys.filter (· == column row)).map (fun _ => row) =
      if column row ∈ keys then [row] else [] := by
    rw [List.filter_beq, List.map_replicate]
    by_cases hmem : column row ∈ keys
    · rw [if_pos hmem, List.count_eq_one_of_mem lists.nodup hmem]
      rfl
    · rw [if_neg hmem, List.count_eq_zero_of_not_mem hmem]
      rfl
  have heq : (table.flatMap fun row => (keys.filter (· == column row)).map fun _ => row) =
      table.filter fun row => decide (column row ∈ keys) := by
    simp only [hcount]
    exact flatMap_if _ table
  rw [heq]
  apply (keeps.lists.filter _).congr
  intro row
  simp only [decide_eq_true_eq, lists.mem]
  constructor
  · rintro ⟨⟨k, a, ha, rfl⟩, hmem⟩
    rw [keeps.key k a ha] at hmem
    exact ⟨k, a, ⟨hmem, ha⟩, rfl⟩
  · rintro ⟨k, a, ⟨hmem, ha⟩, rfl⟩
    exact ⟨⟨k, a, ha, rfl⟩, (keeps.key k a ha).symm ▸ hmem⟩

/-- One column of the rows with a value in the other one, where the two columns are the row. -/
theorem Lists.column [DecidableEq κ] {table : List α} {P : α → Prop} (lists : Lists table P)
    {key : α → κ} {value : α → β} (row : κ → β → α) (hkey : ∀ k b, key (row k b) = k)
    (hvalue : ∀ k b, value (row k b) = b) (hrow : ∀ a, row (key a) (value a) = a) (k : κ) :
    Lists ((table.filter fun a => key a == k).map value) fun b => P (row k b) where
  nodup := by
    apply (lists.nodup.filter _).map_on
    intro a ha a' ha' heq
    have hka := beq_iff_eq.mp (List.mem_filter.mp ha).2
    have hka' := beq_iff_eq.mp (List.mem_filter.mp ha').2
    rw [← hrow a, ← hrow a', hka, hka', heq]
  mem := by
    intro b
    simp only [List.mem_map, List.mem_filter, lists.mem, beq_iff_eq]
    constructor
    · rintro ⟨a, ⟨hlisted, rfl⟩, rfl⟩
      rwa [hrow]
    · exact fun hlisted => ⟨row k b, ⟨hlisted, hkey k b⟩, hvalue k b⟩

/-- The second column of the rows with one first column. -/
theorem Lists.seconds [DecidableEq κ] {table : List (κ × β)} {P : κ × β → Prop}
    (lists : Lists table P) (first : κ) :
    Lists ((table.filter fun row => row.1 == first).map Prod.snd) fun b => P (first, b) :=
  lists.column Prod.mk (fun _ _ => rfl) (fun _ _ => rfl) (fun _ => rfl) first

/-- The first column of the rows with one second column. -/
theorem Lists.firsts [DecidableEq κ] {table : List (β × κ)} {P : β × κ → Prop}
    (lists : Lists table P) (second : κ) :
    Lists ((table.filter fun row => row.2 == second).map Prod.fst) fun b => P (b, second) :=
  lists.column (fun second first => (first, second)) (fun _ _ => rfl) (fun _ _ => rfl)
    (fun _ => rfl) second

end LakeFsAuth.Library.Relational
