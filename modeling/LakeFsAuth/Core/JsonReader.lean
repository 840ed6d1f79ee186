import LakeFsAuth.Authn.Jwt
import LakeFsAuth.Core.JsonText

/-! Reading JSON text back. What the servers rely on is that a reader takes back what the
writer wrote; a reader of compact text shows that one can. -/
namespace LakeFsAuth.Core.Json
open Library

/-- A value whose numbers are whole. -/
inductive Written : Value → Prop where
  | null : Written .null
  | bool (flag : Bool) : Written (.bool flag)
  | integer (n : Int) : Written (Authn.Jwt.integer n)
  | string (text : String) : Written (.string text)
  | array {items : List Value} (each : ∀ item ∈ items, Written item) : Written (.array items)
  | object {entries : List (String × Value)} (each : ∀ entry ∈ entries, Written entry.2) :
      Written (.object entries)

/-- `serde_json::from_slice`. It reads what `to_vec` writes. -/
class FromSlice where
  fromSlice : Model.Bytes → Option Value
  fromSlice_toVec : ∀ {value}, Written value → fromSlice (Authn.Jwt.toVec value) = some value

/-! A reader of compact text. The fuel is the length of the text. -/

def readString : Nat → List Char → Option (List Char × List Char)
  | 0, _ => none
  | fuel + 1, text =>
      if text.head? = some (Char.ofNat 34) then some ([], text.tail)
      else do
        let (ch, rest) ← unescape text
        let (more, rest) ← readString fuel rest
        return (ch :: more, rest)

/-- Items with commas between them, up to the closing bracket. -/
def readList {α : Type} (read : List Char → Option (α × List Char)) (close : Char) :
    Nat → List Char → Option (List α × List Char)
  | 0, _ => none
  | fuel + 1, text => do
      let (item, rest) ← read text
      match rest with
      | [] => none
      | ch :: rest =>
          if ch = close then return ([item], rest)
          else if ch = ',' then do
            let (items, rest) ← readList read close fuel rest
            return (item :: items, rest)
          else none

def isNumeric (ch : Char) : Bool := ch.isDigit || ch == '-'

def readNumber (text : List Char) : Option (Value × List Char) :=
  if text.takeWhile isNumeric = [] then none
  else some (.number (String.ofList (text.takeWhile isNumeric)), text.dropWhile isNumeric)

/-- A key, a colon and the value of the key. -/
def readEntry (fuel : Nat) (read : List Char → Option (Value × List Char)) (text : List Char) :
    Option ((String × Value) × List Char) :=
  if text.head? = some (Char.ofNat 34) then do
    let (key, rest) ← readString fuel text.tail
    if rest.head? = some ':' then do
      let (value, rest) ← read rest.tail
      return ((String.ofList key, value), rest)
    else none
  else none

/-- The items between two brackets, of which there may be none. -/
def readItems {α : Type} (read : List Char → Option (α × List Char)) (close : Char) (fuel : Nat)
    (text : List Char) : Option (List α × List Char) :=
  if text.head? = some close then some ([], text.tail) else readList read close fuel text

def readValue : Nat → List Char → Option (Value × List Char)
  | 0, _ => none
  | fuel + 1, text =>
      match text with
      | [] => none
      | ch :: rest =>
          if ch = Char.ofNat 34 then
            (readString fuel rest).map fun read => (.string (String.ofList read.1), read.2)
          else if ch = '[' then
            (readItems (readValue fuel) ']' fuel rest).map fun read => (.array read.1, read.2)
          else if ch = Char.ofNat 123 then
            (readItems (readEntry fuel (readValue fuel)) (Char.ofNat 125) fuel rest).map
              fun read => (.object read.1, read.2)
          else if ch = 'n' then some (.null, text.drop 4)
          else if ch = 't' then some (.bool true, text.drop 4)
          else if ch = 'f' then some (.bool false, text.drop 5)
          else readNumber text

/-- Nothing that a number could go on with. -/
def Stops (rest : List Char) : Prop := ∀ ch ∈ rest.head?, isNumeric ch = false

theorem stops_cons {ch : Char} (h : isNumeric ch = false) (rest : List Char) : Stops (ch :: rest) := by
  intro head hhead
  cases hhead
  exact h

theorem readString_escaped (text rest : List Char) {fuel : Nat} (h : text.length < fuel) :
    readString fuel (text.flatMap escapeChar ++ Char.ofNat 34 :: rest) = some (text, rest) := by
  induction text generalizing fuel with
  | nil =>
    obtain ⟨fuel, rfl⟩ := Nat.exists_eq_add_of_lt h
    simp [readString]
  | cons ch text ih =>
    obtain ⟨fuel, rfl⟩ : ∃ k, fuel = k + 1 := ⟨fuel - 1, by simp at h; omega⟩
    have hread := unescape_escapeChar ch (text.flatMap escapeChar ++ Char.ofNat 34 :: rest)
    have hless : text.length < fuel := by simpa using h
    have hmore := ih hless
    have hopen : (escapeChar ch ++ (text.flatMap escapeChar ++ Char.ofNat 34 :: rest)).head? ≠
        some (Char.ofNat 34) := by
      intro hhead
      cases htext : escapeChar ch ++ (text.flatMap escapeChar ++ Char.ofNat 34 :: rest) with
      | nil => simp [htext] at hhead
      | cons first more =>
        rw [htext] at hread hhead
        cases hhead
        rw [unescape_quote] at hread
        cases hread
    rw [List.flatMap_cons, List.append_assoc, readString, if_neg hopen, hread]
    simp [hmore]

/-- A list of texts that are each read back is read back. -/
theorem readList_write {α : Type} {read : List Char → Option (α × List Char)}
    {write : α → List Char} {close : Char} (closes : close ≠ ',') {items : List α}
    (reads : ∀ item ∈ items, ∀ rest, (∃ ch tail, rest = ch :: tail ∧ (ch = close ∨ ch = ',')) →
      read (write item ++ rest) = some (item, rest))
    (nonempty : items ≠ []) (rest : List Char) {fuel : Nat} (h : items.length ≤ fuel) :
    readList read close fuel (commaSeparated (items.map write) ++ close :: rest) =
      some (items, rest) := by
  induction items generalizing fuel with
  | nil => exact absurd rfl nonempty
  | cons item items ih =>
    obtain ⟨fuel, rfl⟩ : ∃ k, fuel = k + 1 := ⟨fuel - 1, by simp at h; omega⟩
    have hitem := reads item List.mem_cons_self
    rw [List.map_cons, commaSeparated_cons, readList]
    cases items with
    | nil =>
      rw [List.map_nil, if_pos rfl, hitem _ ⟨close, rest, rfl, .inl rfl⟩]
      simp
    | cons next items =>
      rw [if_neg (by simp), hitem _ ⟨',', _, rfl, .inr rfl⟩]
      have hless : (next :: items).length ≤ fuel := by simpa using h
      have hmore := ih (fun other hother => reads other (List.mem_cons_of_mem _ hother)) (by simp) hless
      rw [List.map_cons] at hmore
      simp [hmore, Ne.symm closes]

theorem le_commaSeparated {text : List Char} {texts : List (List Char)} (h : text ∈ texts) :
    text.length ≤ (commaSeparated texts).length := by
  fun_induction commaSeparated texts with
  | case1 => cases h
  | case2 item => rw [List.mem_singleton.mp h]
  | case3 item items hitems ih =>
    rw [List.length_append, List.length_cons]
    rcases List.mem_cons.mp h with rfl | h
    · omega
    · have := ih h
      omega

theorem count_le_commaSeparated {texts : List (List Char)} (solid : ∀ text ∈ texts, text ≠ []) :
    texts.length ≤ (commaSeparated texts).length := by
  fun_induction commaSeparated texts with
  | case1 => exact Nat.le_refl 0
  | case2 item => exact List.length_pos_iff.mpr (solid item List.mem_cons_self)
  | case3 item items hitems ih =>
    have := ih fun text htext => solid text (List.mem_cons_of_mem _ htext)
    rw [List.length_append, List.length_cons, List.length_cons]
    omega

/-- The text between two brackets is read back, whether it holds items or not. -/
theorem readItems_write {α : Type} (read : List Char → Option (α × List Char))
    (write : α → List Char) (close : Char) (items : List α) (closes : close ≠ ',')
    (reads : ∀ item ∈ items, ∀ rest, (∃ ch tail, rest = ch :: tail ∧ (ch = close ∨ ch = ',')) →
      read (write item ++ rest) = some (item, rest))
    (opens : ∀ item ∈ items, ∃ ch tail, write item = ch :: tail ∧ ch ≠ close)
    (rest : List Char) {fuel : Nat} (h : items.length ≤ fuel) :
    readItems read close fuel (commaSeparated (items.map write) ++ close :: rest) =
      some (items, rest) := by
  unfold readItems
  cases items with
  | nil => simp [commaSeparated]
  | cons item items =>
    obtain ⟨ch, tail, hwrite, hne⟩ := opens item List.mem_cons_self
    have hhead : (commaSeparated ((item :: items).map write) ++ close :: rest).head? ≠
        some close := by
      rw [List.map_cons, commaSeparated_cons, hwrite]
      simpa using hne
    rw [if_neg hhead, readList_write closes reads (by simp) rest h]

theorem integer_text (n : Int) : (Authn.Jwt.integer n).compact =
    (Decimal.text n).map fun byte => Char.ofNat byte.toNat := by
  rw [Authn.Jwt.integer, Value.compact, Authn.Jwt.ascii, String.toList_ofList]

theorem numeric_of_mem {n : Int} {ch : Char} (h : ch ∈ (Authn.Jwt.integer n).compact) :
    isNumeric ch = true := by
  have hbytes : ∀ byte : Fin 256, Decimal.isDigit (UInt8.ofNat byte.val) = true ∨ byte.val = 45 →
      isNumeric (Char.ofNat byte.val) = true := by decide +kernel
  rw [integer_text] at h
  obtain ⟨byte, hbyte, rfl⟩ := List.mem_map.mp h
  refine hbytes ⟨byte.toNat, byte.toNat_lt⟩ ?_
  rw [UInt8.ofNat_toNat]
  by_contra hnot
  have ⟨hdigit, hminus⟩ := not_or.mp hnot
  refine Decimal.not_mem_text (fun heq => hminus ?_) (by simpa using hdigit) n hbyte
  rw [heq]
  rfl

theorem integer_ne_nil (n : Int) : (Authn.Jwt.integer n).compact ≠ [] := by
  rw [integer_text]
  cases n <;> simp [Decimal.text, Decimal.digits_ne_nil]

/-- The first character tells what kind of value follows. -/
theorem Written.starts {value : Value} (written : Written value) :
    ∃ ch tail, value.compact = ch :: tail ∧ ch ≠ ']' ∧ ch ≠ Char.ofNat 125 := by
  cases written with
  | null => exact ⟨'n', _, rfl, by decide⟩
  | bool flag =>
    cases flag with
    | false => exact ⟨'f', _, rfl, by decide⟩
    | true => exact ⟨'t', _, rfl, by decide⟩
  | integer n =>
    obtain ⟨ch, tail, hcompact⟩ := List.exists_cons_of_ne_nil (integer_ne_nil n)
    have hnumeric := numeric_of_mem (n := n) (hcompact ▸ List.mem_cons_self)
    refine ⟨ch, tail, hcompact, ?_, ?_⟩
    all_goals
      rintro rfl
      exact absurd hnumeric (by decide)
  | string text => exact ⟨Char.ofNat 34, _, rfl, by decide⟩
  | array each => exact ⟨'[', _, by rw [Value.compact], by decide⟩
  | object each => exact ⟨Char.ofNat 123, _, by rw [Value.compact], by decide⟩

theorem readNumber_integer (n : Int) {rest : List Char} (stops : Stops rest) :
    readNumber ((Authn.Jwt.integer n).compact ++ rest) = some (Authn.Jwt.integer n, rest) := by
  have hrest : rest.takeWhile isNumeric = [] ∧ rest.dropWhile isNumeric = rest := by
    cases rest with
    | nil => exact ⟨rfl, rfl⟩
    | cons ch rest =>
      have hstop := stops ch rfl
      simp [hstop]
  have htake : ((Authn.Jwt.integer n).compact ++ rest).takeWhile isNumeric =
      (Authn.Jwt.integer n).compact := by
    rw [List.takeWhile_append_of_pos fun ch => numeric_of_mem, hrest.1, List.append_nil]
  have hdrop : ((Authn.Jwt.integer n).compact ++ rest).dropWhile isNumeric = rest := by
    rw [List.dropWhile_append_of_pos fun ch => numeric_of_mem, hrest.2]
  rw [readNumber, htake, hdrop, if_neg (integer_ne_nil n), Authn.Jwt.integer, Value.compact,
    String.ofList_toList]

theorem stops_closer {close ch : Char} {tail : List Char} (closer : close = ']' ∨ close = Char.ofNat 125)
    (h : ch = close ∨ ch = ',') : Stops (ch :: tail) := by
  refine stops_cons ?_ tail
  rcases h with rfl | rfl
  · rcases closer with rfl | rfl <;> decide
  · decide

theorem length_lt_quote (text : List Char) : text.length < (quote text).length := by
  have hescape : ∀ ch, 1 ≤ (escapeChar ch).length := by
    intro ch
    unfold escapeChar
    split
    case h_8 => split <;> simp
    all_goals simp
  rw [quote, List.length_cons, List.length_append]
  suffices text.length ≤ (text.flatMap escapeChar).length by omega
  induction text with
  | nil => exact Nat.le_refl 0
  | cons ch text ih =>
    have := hescape ch
    rw [List.flatMap_cons, List.length_append, List.length_cons]
    omega

theorem readEntry_write {entry : String × Value} {fuel : Nat} {rest : List Char}
    (key : entry.1.toList.length < fuel)
    (value : readValue fuel (entry.2.compact ++ rest) = some (entry.2, rest)) :
    readEntry fuel (readValue fuel) (Value.entryText entry ++ rest) = some (entry, rest) := by
  have hkey := readString_escaped entry.1.toList (':' :: entry.2.compact ++ rest) key
  have htext : Value.entryText entry ++ rest = Char.ofNat 34 ::
      (entry.1.toList.flatMap escapeChar ++ Char.ofNat 34 :: (':' :: entry.2.compact ++ rest)) := by
    simp [Value.entryText, quote]
  rw [htext, readEntry, List.head?_cons, if_pos rfl, List.tail_cons, hkey]
  simp [value]

/-- The reader takes back what was written, and leaves what follows. -/
theorem readValue_compact {value : Value} (written : Written value) {fuel : Nat}
    (h : value.compact.length < fuel) {rest : List Char} (stops : Stops rest) :
    readValue fuel (value.compact ++ rest) = some (value, rest) := by
  induction written generalizing fuel rest with
  | null =>
    obtain ⟨fuel, rfl⟩ := Nat.exists_eq_add_of_lt h
    rfl
  | bool flag =>
    obtain ⟨fuel, rfl⟩ := Nat.exists_eq_add_of_lt h
    cases flag <;> rfl
  | integer n =>
    obtain ⟨fuel, rfl⟩ : ∃ k, fuel = k + 1 := ⟨fuel - 1, by omega⟩
    have hread := readNumber_integer n stops
    obtain ⟨ch, tail, hcompact⟩ := List.exists_cons_of_ne_nil (integer_ne_nil n)
    have hnumeric := numeric_of_mem (n := n) (hcompact ▸ List.mem_cons_self)
    have hother : ∀ mark, isNumeric mark = false → ch ≠ mark := by
      rintro mark hmark rfl
      rw [hmark] at hnumeric
      cases hnumeric
    rw [hcompact, List.cons_append] at hread ⊢
    rw [readValue, if_neg (hother _ (by decide)), if_neg (hother _ (by decide)),
      if_neg (hother _ (by decide)), if_neg (hother _ (by decide)), if_neg (hother _ (by decide)),
      if_neg (hother _ (by decide)), hread]
  | string text =>
    obtain ⟨fuel, rfl⟩ : ∃ k, fuel = k + 1 := ⟨fuel - 1, by omega⟩
    have hlength := length_lt_quote text.toList
    have hless : text.toList.length < fuel := by
      rw [Value.compact] at h
      omega
    have hread := readString_escaped text.toList rest hless
    rw [Value.compact, quote, List.cons_append, List.append_assoc, List.singleton_append, readValue,
      if_pos rfl, hread]
    simp
  | @array items each ih =>
    obtain ⟨fuel, rfl⟩ : ∃ k, fuel = k + 1 := ⟨fuel - 1, by omega⟩
    rw [Value.compact, Value.compactItems_eq, List.length_cons, List.length_append] at h
    have hsolid : ∀ text ∈ items.map Value.compact, text ≠ [] := by
      intro text htext
      obtain ⟨item, hitem, rfl⟩ := List.mem_map.mp htext
      obtain ⟨ch, tail, hcompact, _⟩ := (each item hitem).starts
      rw [hcompact]
      exact List.cons_ne_nil _ _
    have hcount := count_le_commaSeparated hsolid
    rw [List.length_map] at hcount
    have hless : items.length ≤ fuel := by omega
    have hread := readItems_write (readValue fuel) Value.compact ']' items (by decide)
      (fun item hitem rest' hrest => by
        obtain ⟨ch, tail, rfl, hch⟩ := hrest
        have hlength := le_commaSeparated (List.mem_map_of_mem (f := Value.compact) hitem)
        exact ih item hitem (by omega) (stops_closer (.inl rfl) hch))
      (fun item hitem => by
        obtain ⟨ch, tail, hcompact, hne, _⟩ := (each item hitem).starts
        exact ⟨ch, tail, hcompact, hne⟩)
      rest hless
    rw [Value.compact, Value.compactItems_eq, List.cons_append, List.append_assoc,
      List.singleton_append, readValue, if_neg (by decide), if_pos rfl, hread]
    rfl
  | @object entries each ih =>
    obtain ⟨fuel, rfl⟩ : ∃ k, fuel = k + 1 := ⟨fuel - 1, by omega⟩
    rw [Value.compact, Value.compactEntries_eq, List.length_cons, List.length_append] at h
    have hsolid : ∀ text ∈ entries.map Value.entryText, text ≠ [] := by
      intro text htext
      obtain ⟨entry, hentry, rfl⟩ := List.mem_map.mp htext
      simp [Value.entryText, quote]
    have hcount := count_le_commaSeparated hsolid
    rw [List.length_map] at hcount
    have hless : entries.length ≤ fuel := by omega
    have hread := readItems_write (readEntry fuel (readValue fuel)) Value.entryText (Char.ofNat 125)
      entries (by decide) (fun entry hentry rest' hrest => by
        obtain ⟨ch, tail, rfl, hch⟩ := hrest
        have hlength := le_commaSeparated (List.mem_map_of_mem (f := Value.entryText) hentry)
        have hkey := length_lt_quote entry.1.toList
        have htext : (Value.entryText entry).length =
            (quote entry.1.toList).length + (entry.2.compact.length + 1) := by
          simp [Value.entryText]
        exact readEntry_write (by omega)
          (ih entry hentry (by omega) (stops_closer (.inr rfl) hch)))
      (fun entry hentry => ⟨Char.ofNat 34, _, rfl, by decide⟩)
      rest hless
    rw [Value.compact, Value.compactEntries_eq, List.cons_append, List.append_assoc,
      List.singleton_append, readValue, if_neg (by decide), if_neg (by decide), if_pos rfl, hread]
    rfl

/-- A reader of text that was written here, and of no other. -/
@[reducible] def compactReader : FromSlice where
  fromSlice bytes := do
    let text ← SecretBox.fromUtf8 bytes
    match readValue (text.toList.length + 1) text.toList with
    | some (value, []) => return value
    | _ => none
  fromSlice_toVec := by
    intro value written
    have hread := @readValue_compact value written _ (Nat.lt_succ_self value.compact.length) []
      (fun _ hhead => nomatch hhead)
    rw [List.append_nil] at hread
    rw [Authn.Jwt.toVec, SecretBox.fromUtf8_asBytes]
    simp [hread]

end LakeFsAuth.Core.Json
