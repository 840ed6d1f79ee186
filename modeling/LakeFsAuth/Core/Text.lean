import Mathlib.Data.List.DropRight
import Mathlib.Data.String.Basic
import LakeFsAuth.Library.Url

/-! The text rules both servers and the clients share. -/
namespace LakeFsAuth.Core.Text

/-- `str::eq_ignore_ascii_case`. -/
def eqIgnoreAsciiCase (text other : String) : Bool :=
  text.toList.map Char.toLower == other.toList.map Char.toLower

/-- What may be in a header. -/
def isHeaderChar (ch : Char) : Bool := ch == '\t' || (32 ≤ ch.toNat && ch.toNat != 127)

/-- `HeaderValue::from_str`. -/
def isHeaderValue (text : String) : Bool := text.toList.all isHeaderChar

theorem isHeaderValue_append (front back : String) :
    isHeaderValue (front ++ back) = (isHeaderValue front && isHeaderValue back) := by
  rw [isHeaderValue, String.toList_append, List.all_append]
  rfl

/-- `char::is_whitespace`: the Unicode property `White_Space`. -/
def isWhitespace (ch : Char) : Bool :=
  let code := ch.toNat
  (9 ≤ code && code ≤ 13) || code == 32 || code == 0x85 || code == 0xA0 ||
    code == 0x1680 || (0x2000 ≤ code && code ≤ 0x200A) || code == 0x2028 ||
    code == 0x2029 || code == 0x202F || code == 0x205F || code == 0x3000

/-- `char::is_control`: the Unicode category `Cc`. -/
def isControl (ch : Char) : Bool :=
  let code := ch.toNat
  code ≤ 0x1F || (0x7F ≤ code && code ≤ 0x9F)

/-- `str::trim`. -/
def trim (value : String) : String :=
  String.ofList ((value.toList.dropWhile isWhitespace).rdropWhile isWhitespace)

/-- Trims and drops what is blank. Optional text is stored and looked up
through this one rule. -/
def nonBlank (value : String) : Option String :=
  let trimmed := trim value
  if trimmed = "" then none else some trimmed

/-- An optional text field as stored: trimmed, and absent when blank. -/
def optionalText (value : Option String) : Option String :=
  value.bind nonBlank

@[simp] theorem optionalText_none : optionalText none = none := Option.bind_none _

@[simp] theorem optionalText_some (value : String) : optionalText (some value) = nonBlank value :=
  Option.bind_some _ _

/-- Optional text that is absent, or not blank and without white space at its ends. -/
def Normalised (text : Option String) : Prop :=
  ∀ value, text = some value → value ≠ "" ∧ trim value = value

/-- What a URL path segment does not hold as it is: everything but the unreserved characters. -/
def pathSegmentSet (ch : Char) : Bool :=
  !(ch.isAlphanum || ch == '-' || ch == '.' || ch == '_' || ch == '~')

/-- One URL path segment, percent encoded, so that a name with a slash or a space stays one
segment. -/
def pathSegment (value : String) : String :=
  String.ofList (value.toList.flatMap (Library.Url.percentEncode pathSegmentSet))

/-- `str::starts_with`. -/
def startsWith (value pre : String) : Bool :=
  pre.toList.isPrefixOf value.toList

theorem startsWith_iff (value pre : String) :
    startsWith value pre = true ↔ pre.toList <+: value.toList := by
  simp [startsWith]

theorem nonBlank_of_trim_ne (value : String) (h : trim value ≠ "") :
    nonBlank value = some (trim value) := by
  simp [nonBlank, h]

theorem nonBlank_some {value text : String} (h : nonBlank value = some text) :
    text = trim value ∧ text ≠ "" := by
  by_cases hblank : trim value = ""
  · simp [nonBlank, hblank] at h
  · rw [nonBlank_of_trim_ne value hblank] at h
    cases h
    exact ⟨rfl, hblank⟩

private theorem head_of_dropWhile {p : α → Bool} (xs : List α) (a : α)
    (h : (xs.dropWhile p).head? = some a) : p a = false := by
  cases hd : xs.dropWhile p with
  | nil => simp [hd] at h
  | cons b bs =>
    have hb : b = a := by simpa [hd] using h
    have hne : xs.dropWhile p ≠ [] := by simp [hd]
    have := List.head_dropWhile_not p hne
    simpa [hd, hb] using this

/-- Ends that are trimmed have nothing to trim. -/
theorem trimEnds_trimEnds (p : Char → Bool) (text : List Char) :
    (((text.dropWhile p).rdropWhile p).dropWhile p).rdropWhile p =
      (text.dropWhile p).rdropWhile p := by
  have hstart : ((text.dropWhile p).rdropWhile p).dropWhile p = (text.dropWhile p).rdropWhile p := by
    cases hr : (text.dropWhile p).rdropWhile p with
    | nil => rfl
    | cons b bs =>
      have hpre := List.rdropWhile_prefix p (l := text.dropWhile p)
      rw [hr] at hpre
      have hb : p b = false := by
        apply head_of_dropWhile text
        obtain ⟨rest, hrest⟩ := hpre
        rw [← hrest]
        rfl
      simp [hb]
  rw [hstart, List.rdropWhile_idempotent]

@[simp] theorem trim_trim (value : String) : trim (trim value) = trim value := by
  unfold trim
  rw [String.toList_ofList, trimEnds_trimEnds]

/-- Normalised text is what the rule leaves as it is. -/
theorem normalised_iff (text : Option String) : Normalised text ↔ optionalText text = text := by
  cases text with
  | none => simp [Normalised, optionalText]
  | some value =>
    rw [optionalText_some, Normalised]
    constructor
    · intro h
      obtain ⟨hne, htrim⟩ := h value rfl
      rw [nonBlank_of_trim_ne value (htrim.symm ▸ hne), htrim]
    · intro h other heq
      cases heq
      obtain ⟨htrim, hne⟩ := nonBlank_some h
      exact ⟨hne, htrim.symm⟩

theorem normalised_optionalText (text : Option String) : Normalised (optionalText text) := by
  intro value h
  obtain ⟨original, _, htext⟩ := Option.bind_eq_some_iff.mp h
  obtain ⟨rfl, hne⟩ := nonBlank_some htext
  exact ⟨hne, trim_trim original⟩

end LakeFsAuth.Core.Text
