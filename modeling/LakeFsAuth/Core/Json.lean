import LakeFsAuth.Core.Text
import Mathlib.Algebra.Ring.Int.Defs
import Mathlib.Algebra.Ring.Nat
import Mathlib.Data.List.Basic

/-! JSON values and their compact text, as `serde_json` writes it. -/
namespace LakeFsAuth.Core.Json

/-- A JSON value. A number is kept as its text, an object as its entries in the
order of its keys. -/
inductive Value where
  | null
  | bool (flag : Bool)
  | number (text : String)
  | string (text : String)
  | array (items : List Value)
  | object (entries : List (String × Value))

def hexDigit (n : Nat) : Char :=
  if n < 10 then Char.ofNat (48 + n) else Char.ofNat (87 + n)

/-- Quotes, backslashes and control characters are escaped, everything else stands
for itself. -/
def escapeChar (ch : Char) : List Char :=
  match ch.toNat with
  | 8 => ['\\', 'b']
  | 9 => ['\\', 't']
  | 10 => ['\\', 'n']
  | 12 => ['\\', 'f']
  | 13 => ['\\', 'r']
  | 34 => ['\\', ch]
  | 92 => ['\\', ch]
  | code => if code < 32 then ['\\', 'u', '0', '0', hexDigit (code / 16), hexDigit (code % 16)]
      else [ch]

def quote (text : List Char) : List Char :=
  Char.ofNat 34 :: (text.flatMap escapeChar ++ [Char.ofNat 34])

/-- The items with commas between them. -/
def commaSeparated : List (List Char) → List Char
  | [] => []
  | [item] => item
  | item :: items => item ++ ',' :: commaSeparated items

namespace Value

mutual
def compact : Value → List Char
  | null => "null".toList
  | bool flag => (if flag then "true" else "false").toList
  | number text => text.toList
  | string text => quote text.toList
  | array items => '[' :: (commaSeparated (compactItems items) ++ [']'])
  | object entries => Char.ofNat 123 :: (commaSeparated (compactEntries entries) ++ [Char.ofNat 125])

def compactItems : List Value → List (List Char)
  | [] => []
  | item :: items => item.compact :: compactItems items

def compactEntries : List (String × Value) → List (List Char)
  | [] => []
  | (key, value) :: entries => (quote key.toList ++ ':' :: value.compact) :: compactEntries entries
end

end Value

/-! How long the text of a value is. -/

/-- The bytes of text in UTF-8. -/
def byteSize (text : List Char) : Nat := (text.map Char.utf8Size).sum

@[simp] theorem byteSize_nil : byteSize [] = 0 := rfl

@[simp] theorem byteSize_cons (ch : Char) (text : List Char) :
    byteSize (ch :: text) = ch.utf8Size + byteSize text := by
  simp [byteSize]

@[simp] theorem byteSize_append (text more : List Char) :
    byteSize (text ++ more) = byteSize text + byteSize more := by
  simp [byteSize]

theorem utf8ByteSize_ofList (text : List Char) :
    (String.ofList text).utf8ByteSize = byteSize text := by
  induction text with
  | nil => rfl
  | cons ch text ih =>
    have hcons : String.ofList (ch :: text) = String.singleton ch ++ String.ofList text := by
      rw [String.singleton_eq_ofList, ← String.ofList_append]
      rfl
    rw [hcons, String.utf8ByteSize_append, String.utf8ByteSize_singleton, ih, byteSize_cons]

theorem byteSize_toList (text : String) : byteSize text.toList = text.utf8ByteSize := by
  rw [← utf8ByteSize_ofList, String.ofList_toList]

/-- Only a quote and a backslash are escaped where there are no control characters. -/
theorem byteSize_escapeChar_le {ch : Char} (h : Text.isControl ch = false) :
    byteSize (escapeChar ch) ≤ 2 * ch.utf8Size := by
  have hpos := ch.utf8Size_pos
  have hcode : 32 ≤ ch.toNat := by
    simp [Text.isControl] at h
    omega
  have hbackslash : '\\'.utf8Size = 1 := rfl
  unfold escapeChar
  split
  case h_6 => simp; omega
  case h_7 => simp; omega
  case h_8 =>
    rw [if_neg (by omega)]
    simp
    omega
  all_goals omega

theorem byteSize_quote_le {text : List Char} (h : ∀ ch ∈ text, Text.isControl ch = false) :
    byteSize (quote text) ≤ 2 * byteSize text + 2 := by
  have hescaped : byteSize (text.flatMap escapeChar) ≤ 2 * byteSize text := by
    induction text with
    | nil => simp
    | cons ch text ih =>
      have hch := byteSize_escapeChar_le (h ch List.mem_cons_self)
      have hrest := ih fun other hother => h other (List.mem_cons_of_mem _ hother)
      simp only [List.flatMap_cons, byteSize_append, byteSize_cons]
      omega
  have hquote : (Char.ofNat 34).utf8Size = 1 := rfl
  simp only [quote, byteSize_cons, byteSize_append, byteSize_nil, hquote]
  omega

end LakeFsAuth.Core.Json
