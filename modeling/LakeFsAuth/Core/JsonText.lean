import LakeFsAuth.Core.Json
import Mathlib.Tactic.IntervalCases

/-! The compact text of a JSON value determines the value, and shows where it ends. A number is
the exception: its text may go on. -/
namespace LakeFsAuth.Core.Json

def hexValue (ch : Char) : Nat := if ch.toNat < 58 then ch.toNat - 48 else ch.toNat - 87

/-- The next character of a string, and what follows it. There is none at the closing quote. -/
def unescape : List Char → Option (Char × List Char)
  | '\\' :: 'b' :: rest => some (Char.ofNat 8, rest)
  | '\\' :: 't' :: rest => some (Char.ofNat 9, rest)
  | '\\' :: 'n' :: rest => some (Char.ofNat 10, rest)
  | '\\' :: 'f' :: rest => some (Char.ofNat 12, rest)
  | '\\' :: 'r' :: rest => some (Char.ofNat 13, rest)
  | '\\' :: 'u' :: '0' :: '0' :: high :: low :: rest =>
      some (Char.ofNat (16 * hexValue high + hexValue low), rest)
  | '\\' :: ch :: rest => some (ch, rest)
  | ch :: rest => if ch = Char.ofNat 34 then none else some (ch, rest)
  | [] => none

theorem unescape_quote (rest : List Char) : unescape (Char.ofNat 34 :: rest) = none := rfl

theorem unescape_plain {ch : Char} (hslash : ch ≠ '\\') (hquote : ch ≠ Char.ofNat 34)
    (rest : List Char) : unescape (ch :: rest) = some (ch, rest) := by
  unfold unescape
  split <;> simp_all

theorem unescape_escapeChar (ch : Char) (rest : List Char) :
    unescape (escapeChar ch ++ rest) = some (ch, rest) := by
  by_cases hcontrol : ch.toNat < 32
  · obtain ⟨n, hn, rfl⟩ : ∃ n, n < 32 ∧ ch = Char.ofNat n :=
      ⟨ch.toNat, hcontrol, (Char.ofNat_toNat ch).symm⟩
    interval_cases n <;> rfl
  · by_cases hquote : ch = Char.ofNat 34
    · subst hquote
      rfl
    · by_cases hslash : ch = '\\'
      · subst hslash
        rfl
      · have hescape : escapeChar ch = [ch] := by
          have hquote' : ch.toNat ≠ 34 := fun h => hquote (by rw [← h, Char.ofNat_toNat])
          have hslash' : ch.toNat ≠ 92 := fun h => hslash (by rw [← Char.ofNat_toNat ch, h])
          unfold escapeChar
          split <;> first | omega | rw [if_neg hcontrol]
        rw [hescape]
        exact unescape_plain hslash hquote rest

theorem escaped_append_inj {text other : List Char} {rest rest' : List Char}
    (h : text.flatMap escapeChar ++ Char.ofNat 34 :: rest =
      other.flatMap escapeChar ++ Char.ofNat 34 :: rest') : text = other ∧ rest = rest' := by
  induction text generalizing other with
  | nil =>
    cases other with
    | nil => simpa using h
    | cons ch other =>
      have hread := congrArg unescape h
      simp [unescape_quote, unescape_escapeChar] at hread
  | cons ch text ih =>
    cases other with
    | nil =>
      have hread := congrArg unescape h
      simp [unescape_quote, unescape_escapeChar] at hread
    | cons ch' other =>
      have hread := congrArg unescape h
      simp only [List.flatMap_cons, List.append_assoc, unescape_escapeChar, Option.some.injEq,
        Prod.mk.injEq] at hread
      obtain ⟨htext, hrest⟩ := ih hread.2
      rw [hread.1, htext]
      exact ⟨rfl, hrest⟩

theorem quote_append_inj {text other rest rest' : List Char}
    (h : quote text ++ rest = quote other ++ rest') : text = other ∧ rest = rest' := by
  simp only [quote, List.cons_append, List.append_assoc, List.nil_append, List.cons.injEq,
    true_and] at h
  exact escaped_append_inj h

/-! Values. -/

namespace Value

/-- A value without numbers. -/
inductive NumberFree : Value → Prop where
  | null : NumberFree null
  | bool (flag : Bool) : NumberFree (bool flag)
  | string (text : String) : NumberFree (string text)
  | array {items : List Value} (each : ∀ item ∈ items, NumberFree item) : NumberFree (array items)
  | object {entries : List (String × Value)} (each : ∀ entry ∈ entries, NumberFree entry.2) :
      NumberFree (object entries)

def entryText (entry : String × Value) : List Char := quote entry.1.toList ++ ':' :: entry.2.compact

theorem compactItems_eq (items : List Value) : compactItems items = items.map compact := by
  induction items with
  | nil => rfl
  | cons item items ih => simp [compactItems, ih]

theorem compactEntries_eq (entries : List (String × Value)) :
    compactEntries entries = entries.map entryText := by
  induction entries with
  | nil => rfl
  | cons entry entries ih => simp [compactEntries, entryText, ih]

/-- What may come after an item: a comma, or the bracket that closes the list. -/
def closers : List Char := [',', ']', Char.ofNat 125]

theorem starts {value : Value} (free : NumberFree value) :
    ∃ ch rest, value.compact = ch :: rest ∧ ch ∉ closers := by
  cases free with
  | null => exact ⟨'n', _, rfl, by decide⟩
  | bool flag => cases flag
                 · exact ⟨'f', _, rfl, by decide⟩
                 · exact ⟨'t', _, rfl, by decide⟩
  | string text => exact ⟨Char.ofNat 34, _, rfl, by decide⟩
  | array each => exact ⟨'[', _, by rw [compact], by decide⟩
  | object each => exact ⟨Char.ofNat 123, _, by rw [compact], by decide⟩

end Value

theorem commaSeparated_cons (item : List Char) (items : List (List Char)) (rest : List Char) :
    commaSeparated (item :: items) ++ rest =
      item ++ if items = [] then rest else ',' :: (commaSeparated items ++ rest) := by
  cases items <;> simp [commaSeparated]

/-- A list of items that each show where they end shows where it ends itself. -/
theorem commaSeparated_append_inj {α : Type} {write : α → List Char} {items others : List α}
    {close : Char} {rest rest' : List Char} (closes : close ≠ ',')
    (ends : ∀ a ∈ items, ∀ b ∈ others, ∀ rest rest', write a ++ rest = write b ++ rest' →
      a = b ∧ rest = rest')
    (opens : ∀ a, a ∈ items ∨ a ∈ others → ∃ ch tail, write a = ch :: tail ∧ ch ≠ close)
    (h : commaSeparated (items.map write) ++ close :: rest =
      commaSeparated (others.map write) ++ close :: rest') : items = others ∧ rest = rest' := by
  induction items generalizing others with
  | nil =>
    cases others with
    | nil => simpa [commaSeparated] using h
    | cons b others =>
      obtain ⟨ch, tail, hwrite, hch⟩ := opens b (.inr List.mem_cons_self)
      rw [List.map_cons, commaSeparated_cons, hwrite] at h
      simp [commaSeparated] at h
      exact absurd h.1.symm hch
  | cons a items ih =>
    cases others with
    | nil =>
      obtain ⟨ch, tail, hwrite, hch⟩ := opens a (.inl List.mem_cons_self)
      rw [List.map_cons, commaSeparated_cons, hwrite] at h
      simp [commaSeparated] at h
      exact absurd h.1 hch
    | cons b others =>
      rw [List.map_cons, List.map_cons, commaSeparated_cons, commaSeparated_cons] at h
      obtain ⟨rfl, hrest⟩ := ends a List.mem_cons_self b List.mem_cons_self _ _ h
      simp only [List.map_eq_nil_iff] at hrest
      by_cases hitems : items = []
      · by_cases hothers : others = []
        · simpa [hitems, hothers] using hrest
        · simp [hitems, hothers, closes] at hrest
      · by_cases hothers : others = []
        · simp [hitems, hothers, Ne.symm closes] at hrest
        · simp only [hitems, hothers, if_false, List.cons.injEq, true_and] at hrest
          obtain ⟨rfl, htail⟩ := ih
            (fun a ha b hb => ends a (List.mem_cons_of_mem _ ha) b (List.mem_cons_of_mem _ hb))
            (fun a ha => opens a (ha.imp (List.mem_cons_of_mem _) (List.mem_cons_of_mem _))) hrest
          exact ⟨rfl, htail⟩

namespace Value

theorem compact_append_inj {value other : Value} (free : NumberFree value)
    (otherFree : NumberFree other) {rest rest' : List Char}
    (h : value.compact ++ rest = other.compact ++ rest') : value = other ∧ rest = rest' := by
  induction free generalizing other rest rest' with
  | null =>
    cases otherFree with
    | null => simpa [compact] using h
    | bool flag => cases flag <;> simp [compact] at h
    | _ => simp [compact, quote] at h
  | bool flag =>
    cases otherFree with
    | bool flag' => cases flag <;> cases flag' <;> simp_all [compact]
    | _ => cases flag <;> simp [compact, quote] at h
  | string text =>
    cases otherFree with
    | string text' =>
      obtain ⟨htext, hrest⟩ := quote_append_inj (by simpa only [compact] using h)
      exact ⟨congrArg string (String.toList_inj.mp htext), hrest⟩
    | bool flag => cases flag <;> simp [compact, quote] at h
    | _ => simp [compact, quote] at h
  | @array items each ih =>
    cases otherFree with
    | @array others each' =>
      simp only [compact, compactItems_eq, List.cons_append, List.append_assoc, List.nil_append,
        List.cons.injEq, true_and] at h
      have ends := fun a ha b hb rest rest' => @ih a ha b (each' b hb) rest rest'
      have opens : ∀ a, a ∈ items ∨ a ∈ others → ∃ ch tail, a.compact = ch :: tail ∧ ch ≠ ']' := by
        intro a ha
        obtain ⟨ch, tail, htext, hch⟩ := starts (ha.elim (each a) (each' a))
        exact ⟨ch, tail, htext, fun hclose => hch (by simp [closers, hclose])⟩
      obtain ⟨rfl, hrest⟩ := commaSeparated_append_inj (by decide) ends opens h
      exact ⟨rfl, hrest⟩
    | bool flag => cases flag <;> simp [compact] at h
    | _ => simp [compact, quote] at h
  | @object entries each ih =>
    cases otherFree with
    | @object others each' =>
      simp only [compact, compactEntries_eq, List.cons_append, List.append_assoc, List.nil_append,
        List.cons.injEq, true_and] at h
      have ends : ∀ a ∈ entries, ∀ b ∈ others, ∀ rest rest', entryText a ++ rest = entryText b ++ rest' →
          a = b ∧ rest = rest' := by
        rintro ⟨key, value⟩ ha ⟨key', value'⟩ hb rest rest' hab
        simp only [entryText, List.append_assoc, List.cons_append] at hab
        obtain ⟨hkey, htail⟩ := quote_append_inj hab
        obtain ⟨hvalue, hrest⟩ := ih _ ha (each' _ hb) (List.cons.inj htail).2
        exact ⟨Prod.ext (String.toList_inj.mp hkey) hvalue, hrest⟩
      obtain ⟨rfl, hrest⟩ := commaSeparated_append_inj (by decide) ends
        (fun a _ => ⟨Char.ofNat 34, _, rfl, by decide⟩) h
      exact ⟨rfl, hrest⟩
    | bool flag => cases flag <;> simp [compact] at h
    | _ => simp [compact, quote] at h

/-- Values without numbers have different texts. -/
theorem compact_inj {value other : Value} (free : NumberFree value) (otherFree : NumberFree other)
    (h : value.compact = other.compact) : value = other :=
  (compact_append_inj free otherFree (congrArg (· ++ []) h)).1

end Value

end LakeFsAuth.Core.Json
