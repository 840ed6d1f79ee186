import LakeFsAuth.Authn.Redirect
import LakeFsAuth.Library.Fallible
import LakeFsAuth.Library.OrderedMap

/-! A comma separated `key=value` list of the configuration. -/
namespace LakeFsAuth.Authn.KeyValues
open Std Core.Text Library Library.OrderedMap Redirect

abbrev Map := ExtTreeMap String String

inductive ParseError where
  | EmptyKey (item : String)
  | EmptyValue (item : String)
  | ExpectedKeyValue (item : String)
  | Repeated (key : String)

/-- `debug` is how `{:?}` writes a text. -/
def ParseError.message (debug : String → String) : ParseError → String
  | EmptyKey item => "empty key in " ++ debug item
  | EmptyValue item => "empty value in " ++ debug item
  | ExpectedKeyValue item => "expected key=value, got " ++ debug item
  | Repeated key => "key " ++ debug key ++ " is given more than once"

def insertOnce (map : Map) (key value : String) : Except ParseError Map :=
  if map.contains key then .error (.Repeated key) else .ok (map.insert key value)

/-- The pairs that are complete, and the pair that is read. -/
structure Reading where
  map : Map
  current : Option (String × String)

namespace Reading

def flush (self : Reading) : Except ParseError Map :=
  match self.current with
  | some (key, value) => insertOnce self.map key value
  | none => .ok self.map

/-- An item without `=` continues the value before it. -/
def item (self : Reading) (item : String) : Except ParseError Reading :=
  match splitOnce ['='] item.toList with
  | some (key, value) => do
      let map ← self.flush
      let key := trim (String.ofList key)
      let value := trim (String.ofList value)
      if key = "" then .error (.EmptyKey item)
      else if value = "" then .error (.EmptyValue item)
      else .ok ⟨map, some (key, value)⟩
  | none =>
      match self.current with
      | some (key, value) => .ok { self with current := some (key, value ++ "," ++ item) }
      | none => .error (.ExpectedKeyValue item)

end Reading

def fromStr (value : String) : Except ParseError Map := do
  let reading ← (commaList value).foldlM Reading.item ⟨∅, none⟩
  reading.flush

/-- The pairs, as a list of the configuration. -/
def render (map : Map) : String :=
  ",".intercalate (map.toList.map fun (key, value) => key ++ "=" ++ value)

/-- A trimmed item that is not blank. -/
structure IsItem (item : String) : Prop where
  filled : item ≠ ""
  trimmed : trim item = item
  comma : ',' ∉ item.toList

structure IsKey (key : String) : Prop extends IsItem key where
  equals : '=' ∉ key.toList

/-- Items joined with commas. Only the first one may hold an equals sign. -/
def IsValue (value : String) : Prop :=
  ∃ first rest, value = ",".intercalate (first :: rest) ∧ IsItem first ∧
    ∀ item ∈ rest, IsItem item ∧ '=' ∉ item.toList

/-- What a map holds that is read from a list. -/
def WellFormed (map : Map) : Prop :=
  ∀ key value, map[key]? = some value → IsKey key ∧ IsValue value

/-! The items of a list. -/

theorem commaList_nil : commaList "" = [] := by decide

theorem commaList_append (text more : String) :
    commaList (text ++ "," ++ more) = commaList text ++ commaList more := by
  have htext : (text ++ "," ++ more).toList = text.toList ++ ',' :: more.toList := by simp
  rw [commaList, htext, List.splitOn_append_cons_self, List.filterMap_append]
  rfl

theorem commaList_intercalate (texts : List String) :
    commaList (",".intercalate texts) = texts.flatMap commaList := by
  induction texts with
  | nil => exact commaList_nil
  | cons text texts ih =>
    cases texts with
    | nil => simp
    | cons second texts =>
      rw [String.intercalate_cons_cons, commaList_append, ih]
      rfl

theorem comma_not_mem_splitOn {text piece : Text} (h : piece ∈ text.splitOn ',') : ',' ∉ piece := by
  induction text generalizing piece with
  | nil => simp_all
  | cons ch text ih =>
    rw [List.splitOn_cons_eq_if_modifyHead] at h
    split at h
    · rcases List.mem_cons.mp h with rfl | hmem
      · simp
      · exact ih hmem
    · rename_i hch
      cases hsplit : text.splitOn ',' with
      | nil => simp at hsplit
      | cons first pieces =>
        rw [hsplit, List.modifyHead_cons] at h
        rcases List.mem_cons.mp h with rfl | hmem
        · have hfirst := ih (hsplit ▸ List.mem_cons_self)
          rw [List.mem_cons, not_or]
          exact ⟨fun heq => hch (beq_iff_eq.mpr heq.symm), hfirst⟩
        · exact ih (hsplit ▸ List.mem_cons_of_mem _ hmem)

theorem mem_trim {text : String} {ch : Char} (h : ch ∈ (trim text).toList) : ch ∈ text.toList := by
  rw [trim, String.toList_ofList] at h
  exact (List.dropWhile_sublist _).subset ((List.rdropWhile_prefix _ _).subset h)

theorem isItem_of_mem {text item : String} (h : item ∈ commaList text) : IsItem item := by
  obtain ⟨piece, hpiece, hitem⟩ := List.mem_filterMap.mp h
  obtain ⟨rfl, hfilled⟩ := nonBlank_some hitem
  refine ⟨hfilled, trim_trim _, fun hcomma => ?_⟩
  have hmem := mem_trim hcomma
  rw [String.toList_ofList] at hmem
  exact comma_not_mem_splitOn hpiece hmem

theorem IsItem.commaList_eq {item : String} (h : IsItem item) : commaList item = [item] := by
  rw [commaList, List.splitOn_eq_singleton h.comma]
  simp [nonBlank, h.trimmed, h.filled]

/-! One step of the reader. -/

theorem insertOnce_ok {map next : Map} {key value : String}
    (h : insertOnce map key value = .ok next) :
    map.contains key = false ∧ next = map.insert key value := by
  unfold insertOnce at h
  split at h
  · cases h
  · rename_i hnew
    cases h
    exact ⟨eq_false_of_ne_true hnew, rfl⟩

namespace Reading

/-- An item starts a pair, or it continues the one that is read. -/
theorem item_cases {reading next : Reading} {text : String} (h : reading.item text = .ok next) :
    (∃ before after map, splitOnce ['='] text.toList = some (before, after) ∧
      reading.flush = .ok map ∧ trim (String.ofList before) ≠ "" ∧
      trim (String.ofList after) ≠ "" ∧
      next = ⟨map, some (trim (String.ofList before), trim (String.ofList after))⟩) ∨
    (splitOnce ['='] text.toList = none ∧ ∃ key value, reading.current = some (key, value) ∧
      next = { reading with current := some (key, value ++ "," ++ text) }) := by
  unfold item at h
  split at h
  · rename_i before after hsplit
    obtain ⟨map, hflush, hpair⟩ := Fallible.bind_ok h
    dsimp only at hpair
    split_ifs at hpair with hkey hvalue
    cases hpair
    exact .inl ⟨before, after, map, hsplit, hflush, hkey, hvalue, rfl⟩
  · rename_i hsplit
    split at h
    · rename_i key value hcurrent
      cases h
      exact .inr ⟨hsplit, key, value, hcurrent, rfl⟩
    · cases h

/-- The pairs that are read so far. -/
def count (reading : Reading) : Nat := reading.map.size + reading.current.toList.length

theorem flush_count {reading : Reading} {map : Map} (h : reading.flush = .ok map) :
    map.size = reading.count := by
  unfold flush at h
  unfold count
  split at h
  · rename_i key value hcurrent
    obtain ⟨hnew, rfl⟩ := insertOnce_ok h
    simp [ExtTreeMap.size_insert, hnew, hcurrent]
  · rename_i hcurrent
    cases h
    rw [hcurrent]
    rfl

end Reading

def hasEquals (item : String) : Bool := item.toList.contains '='

/-- An item is split at its first equals sign. -/
theorem splitOnce_equals {item : String} {before after : Text}
    (h : splitOnce ['='] item.toList = some (before, after)) : hasEquals item = true := by
  simp [hasEquals, splitOnce_some h]

theorem splitOnce_plain {item : String} (h : splitOnce ['='] item.toList = none) :
    hasEquals item = false := by
  by_contra hequals
  obtain ⟨before, after, htext, hbefore⟩ :=
    List.eq_append_cons_of_mem (by simpa [hasEquals] using hequals : '=' ∈ item.toList)
  have hfirst : splitOnce ['='] (before ++ '=' :: ([] ++ after)) = some (before, after) :=
    splitOnce_first hbefore after
  rw [List.nil_append, ← htext, h] at hfirst
  cases hfirst

namespace Reading

theorem item_count {reading next : Reading} {text : String} (h : reading.item text = .ok next) :
    next.count = reading.count + if hasEquals text then 1 else 0 := by
  obtain ⟨before, after, map, hsplit, hflush, _, _, rfl⟩ | ⟨hsplit, key, value, hcurrent, rfl⟩ :=
    item_cases h
  · rw [splitOnce_equals hsplit, if_pos rfl, ← flush_count hflush]
    rfl
  · rw [splitOnce_plain hsplit]
    simp [count, hcurrent]

/-- Each item with an equals sign is a pair. -/
theorem items_count {items : List String} {reading : Reading}
    (h : items.foldlM item ⟨∅, none⟩ = .ok reading) :
    reading.count = (items.filter hasEquals).length := by
  have step : ∀ (notes : List String) (acc : Reading) (text : String) (next : Reading),
      acc.item text = .ok next → acc.count = notes.length →
      next.count = (notes ++ [text].filter hasEquals).length := by
    intro notes acc text next hitem hcount
    rw [item_count hitem, hcount, List.length_append]
    cases hequals : hasEquals text <;> simp [hequals]
  have hrun := Fallible.foldlM_ok_notes (fun notes reading => count reading = notes.length)
    (fun text => [text].filter hasEquals) step h (rfl : _ = ([] : List String).length)
  rw [hrun, List.nil_append, ← List.filter_flatMap, List.flatMap_singleton']

end Reading

theorem fromStr_count {text : String} {map : Map} (h : fromStr text = .ok map) :
    ((commaList text).filter hasEquals).length = map.size := by
  obtain ⟨reading, hitems, hflush⟩ := Fallible.bind_ok h
  rw [Reading.flush_count hflush, Reading.items_count hitems]

/-! What is read is well formed. -/

theorem isItem_trim {text : Text} (filled : trim (String.ofList text) ≠ "") (comma : ',' ∉ text) :
    IsItem (trim (String.ofList text)) where
  filled := filled
  trimmed := trim_trim _
  comma h := comma (by simpa using mem_trim h)

theorem intercalate_snoc (first : String) (rest : List String) (last : String) :
    ",".intercalate (first :: rest) ++ "," ++ last =
      ",".intercalate (first :: (rest ++ [last])) := by
  induction rest generalizing first with
  | nil => simp [String.intercalate_cons_cons]
  | cons second rest ih =>
    rw [String.intercalate_cons_cons, List.cons_append, String.intercalate_cons_cons, ← ih]
    simp only [String.append_assoc]

theorem equals_not_before {text before after : Text}
    (h : splitOnce ['='] text = some (before, after)) : '=' ∉ before := by
  induction text generalizing before with
  | nil => cases h
  | cons ch text ih =>
    rw [splitOnce] at h
    split_ifs at h with hmark
    · cases h
      simp
    · obtain ⟨pieces, hpieces, heq⟩ := Option.map_eq_some_iff.mp h
      cases heq
      rw [List.mem_cons, not_or]
      exact ⟨fun heq => hmark (heq ▸ rfl), ih hpieces⟩

namespace Reading

/-- The pairs of a reading are well formed. -/
structure Good (reading : Reading) : Prop where
  map : WellFormed reading.map
  current : ∀ key value, reading.current = some (key, value) → IsKey key ∧ IsValue value

theorem flush_good {reading : Reading} {map : Map} (good : reading.Good)
    (h : reading.flush = .ok map) : WellFormed map := by
  unfold flush at h
  split at h
  · rename_i key value hcurrent
    obtain ⟨_, rfl⟩ := insertOnce_ok h
    intro other text hother
    rw [get_insert] at hother
    split_ifs at hother with heq
    · cases hother
      exact heq ▸ good.current key value hcurrent
    · exact good.map other text hother
  · cases h
    exact good.map

theorem item_good {reading next : Reading} {text : String} (isItem : IsItem text)
    (good : reading.Good) (h : reading.item text = .ok next) : next.Good := by
  obtain ⟨before, after, map, hsplit, hflush, hkey, hvalue, rfl⟩ |
    ⟨hsplit, key, value, hcurrent, rfl⟩ := item_cases h
  · refine ⟨flush_good good hflush, fun key value heq => ?_⟩
    cases heq
    have hcomma := isItem.comma
    rw [splitOnce_some hsplit] at hcomma
    simp only [List.mem_append, not_or] at hcomma
    have first := isItem_trim hvalue hcomma.2
    refine ⟨⟨isItem_trim hkey hcomma.1.1, fun hmem => equals_not_before hsplit ?_⟩,
      _, [], by simp, first, by simp⟩
    simpa using mem_trim hmem
  · refine ⟨good.map, fun other extended heq => ?_⟩
    cases heq
    obtain ⟨isKey, first, rest, rfl, hfirst, hrest⟩ := good.current key value hcurrent
    refine ⟨isKey, first, rest ++ [text], ?_, hfirst, fun item hitem => ?_⟩
    · exact intercalate_snoc first rest text
    · rcases List.mem_append.mp hitem with hmem | hmem
      · exact hrest item hmem
      · rw [List.mem_singleton.mp hmem]
        exact ⟨isItem, by simpa [hasEquals] using splitOnce_plain hsplit⟩

theorem items_good {items : List String} {reading next : Reading}
    (isItem : ∀ item ∈ items, IsItem item) (good : reading.Good)
    (h : items.foldlM item reading = .ok next) : next.Good := by
  induction items generalizing reading with
  | nil =>
    cases h
    exact good
  | cons text items ih =>
    rw [List.foldlM_cons] at h
    obtain ⟨middle, hitem, hrest⟩ := Fallible.bind_ok h
    rw [List.forall_mem_cons] at isItem
    exact ih isItem.2 (item_good isItem.1 good hitem) hrest

end Reading

theorem fromStr_wellFormed {text : String} {map : Map} (h : fromStr text = .ok map) :
    WellFormed map := by
  obtain ⟨reading, hitems, hflush⟩ := Fallible.bind_ok h
  have start : Reading.Good ⟨∅, none⟩ := ⟨by intro key value h; simp at h, by simp⟩
  exact Reading.flush_good (Reading.items_good (fun _ => isItem_of_mem) start hitems) hflush

/-! A well formed map is read back from its own text. -/

theorem ends_of_trim {text : String} (h : trim text = text) :
    text.toList.dropWhile isWhitespace = text.toList ∧
      text.toList.rdropWhile isWhitespace = text.toList := by
  have hlist := congrArg String.toList h
  rw [trim, String.toList_ofList] at hlist
  have hsuffix := List.dropWhile_suffix isWhitespace (l := text.toList)
  have hstarts := List.rdropWhile_prefix isWhitespace (text.toList.dropWhile isWhitespace)
  have hstart : text.toList.dropWhile isWhitespace = text.toList :=
    hsuffix.eq_of_length_le (by rw [hlist] at hstarts; exact hstarts.length_le)
  rw [hstart] at hlist
  exact ⟨hstart, hlist⟩

/-- Between two items there may be any text. -/
theorem trim_joined {before after : String} (middle : String) (hbefore : IsItem before)
    (hafter : IsItem after) : trim (before ++ middle ++ after) = before ++ middle ++ after := by
  have hstart : (before ++ middle ++ after).toList.dropWhile isWhitespace =
      (before ++ middle ++ after).toList := by
    have hends := (ends_of_trim hbefore.trimmed).1
    cases hlist : before.toList with
    | nil => exact absurd (String.toList_eq_nil_iff.mp hlist) hbefore.filled
    | cons ch text =>
      have hch : isWhitespace ch = false := by
        rw [hlist] at hends
        exact eq_false_of_ne_true (List.dropWhile_eq_self_iff.mp hends (by simp))
      simp [String.toList_append, hlist, hch]
  have hend : (before ++ middle ++ after).toList.rdropWhile isWhitespace =
      (before ++ middle ++ after).toList := by
    have hends := (ends_of_trim hafter.trimmed).2
    have hfilled : after.toList ≠ [] := fun h => hafter.filled (String.toList_eq_nil_iff.mp h)
    have hlast := List.rdropWhile_eq_self_iff.mp hends hfilled
    rw [List.rdropWhile_eq_self_iff]
    intro hne
    simpa [String.toList_append, List.getLast_append_of_ne_nil, hfilled] using hlast
  rw [trim, hstart, hend, String.ofList_toList]

/-- The items of a pair. -/
theorem commaList_pair {key first : String} {rest : List String} (isKey : IsKey key)
    (isFirst : IsItem first) (isRest : ∀ item ∈ rest, IsItem item) :
    commaList (key ++ "=" ++ ",".intercalate (first :: rest)) = (key ++ "=" ++ first) :: rest := by
  have joined : IsItem (key ++ "=" ++ first) := by
    refine ⟨?_, trim_joined "=" isKey.toIsItem isFirst, ?_⟩
    · intro h
      have hlist := congrArg String.toList h
      simp at hlist
    · simp [isKey.comma, isFirst.comma]
  have htext : key ++ "=" ++ ",".intercalate (first :: rest) =
      ",".intercalate ((key ++ "=" ++ first) :: rest) := by
    cases rest with
    | nil => simp
    | cons second rest => simp [String.intercalate_cons_cons, String.append_assoc]
  rw [htext, commaList_intercalate, List.flatMap_cons, joined.commaList_eq,
    List.flatMap_congr fun item hitem => (isRest item hitem).commaList_eq]
  simp

namespace Reading

theorem items_rest (map : Map) (key first : String) {rest : List String}
    (isRest : ∀ item ∈ rest, IsItem item ∧ '=' ∉ item.toList) (done : List String) :
    rest.foldlM item ⟨map, some (key, ",".intercalate (first :: done))⟩ =
      .ok ⟨map, some (key, ",".intercalate (first :: (done ++ rest)))⟩ := by
  induction rest generalizing done with
  | nil =>
    rw [List.append_nil]
    rfl
  | cons text rest ih =>
    rw [List.forall_mem_cons] at isRest
    have hsplit : splitOnce ['='] text.toList = none := splitOnce_none (by simp) isRest.1.2
    have hitem : item ⟨map, some (key, ",".intercalate (first :: done))⟩ text =
        .ok ⟨map, some (key, ",".intercalate (first :: (done ++ [text])))⟩ := by
      unfold item
      rw [hsplit, ← intercalate_snoc]
    rw [List.foldlM_cons, hitem, List.append_cons done text rest]
    exact ih isRest.2 (done ++ [text])

/-- The items of one pair end the pair before it. -/
theorem items_pair {reading : Reading} {map : Map} (hflush : reading.flush = .ok map)
    {key first : String} (isKey : IsKey key) (isFirst : IsItem first) {rest : List String}
    (isRest : ∀ item ∈ rest, IsItem item ∧ '=' ∉ item.toList) :
    ((key ++ "=" ++ first) :: rest).foldlM item reading =
      .ok ⟨map, some (key, ",".intercalate (first :: rest))⟩ := by
  have hstart : reading.item (key ++ "=" ++ first) = .ok ⟨map, some (key, first)⟩ := by
    have hsplit := @splitOnce_first '=' [] key.toList isKey.equals first.toList
    have htext : (key ++ "=" ++ first).toList = key.toList ++ '=' :: ([] ++ first.toList) := by
      simp
    unfold item
    rw [htext, hsplit]
    simp only [hflush, String.ofList_toList, isKey.trimmed, isFirst.trimmed, isKey.filled,
      isFirst.filled, if_false]
    rfl
  have hrest := items_rest map key first isRest []
  rw [String.intercalate_singleton, List.nil_append] at hrest
  rw [List.foldlM_cons, hstart]
  exact hrest

/-- The items of pairs with keys of their own. -/
theorem items_pairs {pairs : List (String × String)} {reading : Reading} {map : Map}
    (hflush : reading.flush = .ok map) (good : ∀ pair ∈ pairs, IsKey pair.1 ∧ IsValue pair.2)
    (distinct : pairs.Pairwise fun pair other => pair.1 ≠ other.1)
    (new : ∀ pair ∈ pairs, map.contains pair.1 = false) :
    ∃ next, (pairs.flatMap fun pair => commaList (pair.1 ++ "=" ++ pair.2)).foldlM item reading =
      .ok next ∧ next.flush = .ok (map.insertMany pairs) := by
  induction pairs generalizing reading map with
  | nil => exact ⟨reading, rfl, by simpa using hflush⟩
  | cons pair pairs ih =>
    obtain ⟨key, value⟩ := pair
    rw [List.forall_mem_cons] at good new
    rw [List.pairwise_cons] at distinct
    dsimp only at good new distinct
    obtain ⟨isKey, first, rest, rfl, isFirst, isRest⟩ := good.1
    have hinsert : flush ⟨map, some (key, ",".intercalate (first :: rest))⟩ =
        .ok (map.insert key (",".intercalate (first :: rest))) := by
      simp only [flush, insertOnce, new.1, Bool.false_eq_true, if_false]
    have hnew : ∀ pair ∈ pairs,
        (map.insert key (",".intercalate (first :: rest))).contains pair.1 = false := by
      intro pair hpair
      rw [not_contains_iff, get_insert, if_neg (distinct.1 pair hpair), ← not_contains_iff]
      exact new.2 pair hpair
    obtain ⟨next, hrest, hnext⟩ := ih hinsert good.2 distinct.2 hnew
    have hitems := commaList_pair isKey isFirst fun item hitem => (isRest item hitem).1
    refine ⟨next, ?_, by rw [ExtTreeMap.insertMany_cons, hnext]⟩
    rw [List.flatMap_cons, List.foldlM_append, hitems, items_pair hflush isKey isFirst isRest]
    exact hrest

end Reading

theorem fromStr_render {map : Map} (good : WellFormed map) : fromStr (render map) = .ok map := by
  have hpairs : ∀ pair ∈ map.toList, IsKey pair.1 ∧ IsValue pair.2 := fun pair hpair =>
    good _ _ (ExtTreeMap.mem_toList_iff_getElem?_eq_some.mp hpair)
  have hdistinct : map.toList.Pairwise fun pair other => pair.1 ≠ other.1 :=
    ExtTreeMap.distinct_keys_toList.imp fun h heq => h (by simp [heq])
  obtain ⟨next, hitems, hflush⟩ := Reading.items_pairs
    (rfl : Reading.flush ⟨∅, none⟩ = .ok ∅) hpairs hdistinct (by simp)
  have hlist : commaList (render map) =
      map.toList.flatMap fun pair => commaList (pair.1 ++ "=" ++ pair.2) := by
    rw [render, commaList_intercalate, List.flatMap_map]
  rw [fromStr, hlist, hitems]
  rw [← ExtTreeMap.ofList_eq_insertMany_empty, ofList_toList] at hflush
  exact hflush

/-- No item with an equals sign is lost, and a map is read back from its own text. -/
theorem fromStr_keeps :
    (∀ (text : String) (map : Map), fromStr text = .ok map →
      ((commaList text).filter hasEquals).length = map.size ∧ fromStr (render map) = .ok map) ∧
    ∀ map : Map, map ≠ ∅ → (∀ key value, map[key]? = some value → IsKey key ∧ IsValue value) →
      fromStr (render map) = .ok map :=
  ⟨fun _ _ h => ⟨fromStr_count h, fromStr_render (fromStr_wellFormed h)⟩,
    fun _ _ good => fromStr_render good⟩

/-- A value with a comma and an equals sign. -/
theorem fromStr_keeps_array :
    ((commaList (render (ExtTreeMap.insert ∅ "aud" "a=b,c"))).filter hasEquals).length = 1 ∧
      fromStr (render (ExtTreeMap.insert ∅ "aud" "a=b,c")) =
        .ok (ExtTreeMap.insert ∅ "aud" "a=b,c") := by
  obtain ⟨parsed, rendered⟩ := fromStr_keeps
  have read := rendered (ExtTreeMap.insert ∅ "aud" "a=b,c") (by simp) <| by
    intro key value h
    rw [get_insert] at h
    split_ifs at h with hkey
    · cases h
      rw [← hkey]
      have item (text : String) (clean : text ≠ "" ∧ trim text = text ∧ ',' ∉ text.toList) :
          IsItem text := ⟨clean.1, clean.2.1, clean.2.2⟩
      exact ⟨⟨item "aud" (by decide), by decide⟩, "a=b", ["c"], by decide,
        item "a=b" (by decide), by simp [item "c" (by decide)]⟩
    · simp at h
  exact ⟨(parsed _ _ read).1.trans (by simp [ExtTreeMap.size_insert]), read⟩

end LakeFsAuth.Authn.KeyValues
