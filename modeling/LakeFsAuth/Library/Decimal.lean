import Mathlib.Algebra.Ring.Nat
import Mathlib.Data.Nat.Init

/-! Decimal text of integers, as bytes, and the reader that takes a sign and leading zeros. -/
namespace LakeFsAuth.Library.Decimal

/-- The byte `-`. -/
def minus : UInt8 := 45

/-- The byte `+`. -/
def plus : UInt8 := 43

def isDigit (ch : UInt8) : Bool := 48 ≤ ch && ch ≤ 57

def digits (n : Nat) : List UInt8 := (Nat.toDigits 10 n).map fun ch => UInt8.ofNat ch.toNat

def text : Int → List UInt8
  | .ofNat n => digits n
  | .negSucc n => minus :: digits (n + 1)

/-- At least one digit, and nothing else. -/
def readDigits (text : List UInt8) : Option Nat :=
  if text ≠ [] ∧ text.all isDigit then
    some (text.foldl (fun sum ch => 10 * sum + (ch.toNat - 48)) 0)
  else none

def read : List UInt8 → Option Int
  | [] => none
  | ch :: rest =>
      if ch = plus then (readDigits rest).map Int.ofNat
      else if ch = minus then (readDigits rest).map fun n => -Int.ofNat n
      else (readDigits (ch :: rest)).map Int.ofNat

theorem toNat_of_digit {ch : Char} (h : ch.isDigit) : (UInt8.ofNat ch.toNat).toNat = ch.toNat := by
  simp only [Char.isDigit, Bool.and_eq_true, decide_eq_true_eq, UInt32.le_iff_toNat_le] at h
  have hbound : ch.toNat ≤ 57 := h.2
  simp only [UInt8.toNat_ofNat']
  omega

theorem isDigit_of_digit {ch : Char} (h : ch.isDigit) : isDigit (UInt8.ofNat ch.toNat) := by
  have hbyte := toNat_of_digit h
  simp only [Char.isDigit, Bool.and_eq_true, decide_eq_true_eq, UInt32.le_iff_toNat_le] at h
  simp only [isDigit, Bool.and_eq_true, decide_eq_true_eq, UInt8.le_iff_toNat_le, hbyte]
  exact h

theorem isDigit_of_mem_digits {n : Nat} {ch : UInt8} (h : ch ∈ digits n) : isDigit ch := by
  obtain ⟨digit, hdigit, rfl⟩ := List.mem_map.mp h
  exact isDigit_of_digit (Nat.isDigit_of_mem_toDigits (by decide) (by decide) hdigit)

theorem digits_ne_nil (n : Nat) : digits n ≠ [] := by simp [digits]

theorem readDigits_digits (n : Nat) : readDigits (digits n) = some n := by
  have hall : (digits n).all isDigit := List.all_eq_true.mpr fun ch => isDigit_of_mem_digits
  have hsame : ∀ chars : List Char, (∀ ch ∈ chars, ch.isDigit) → ∀ start,
      (chars.map fun ch => UInt8.ofNat ch.toNat).foldl
        (fun sum ch => 10 * sum + (ch.toNat - 48)) start = Nat.ofDigitChars 10 chars start := by
    intro chars
    induction chars with
    | nil => simp
    | cons ch chars ih =>
      intro h start
      have hch := toNat_of_digit (h ch List.mem_cons_self)
      rw [List.map_cons, List.foldl_cons, hch, Nat.ofDigitChars_cons]
      exact ih (fun other hother => h other (List.mem_cons_of_mem _ hother)) _
  rw [readDigits, if_pos ⟨digits_ne_nil n, hall⟩, digits,
    hsame _ fun ch hch => Nat.isDigit_of_mem_toDigits (by decide) (by decide) hch]
  simp

theorem read_text (n : Int) : read (text n) = some n := by
  cases n with
  | ofNat n =>
    cases hdigits : digits n with
    | nil => exact absurd hdigits (digits_ne_nil n)
    | cons ch rest =>
      have hdigit : isDigit ch := isDigit_of_mem_digits (hdigits ▸ List.mem_cons_self)
      have hplus : ch ≠ plus := fun h => by simp [h, plus, isDigit] at hdigit
      have hminus : ch ≠ minus := fun h => by simp [h, minus, isDigit] at hdigit
      rw [text, hdigits, read, if_neg hplus, if_neg hminus, ← hdigits, readDigits_digits]
      rfl
  | negSucc n =>
    rw [text, read, if_neg (by decide), if_pos rfl, readDigits_digits]
    rfl

theorem not_mem_text {ch : UInt8} (hminus : ch ≠ minus) (hdigit : isDigit ch = false) (n : Int) :
    ch ∉ text n := by
  have hdigits (k : Nat) : ch ∉ digits k := fun h => by simp [isDigit_of_mem_digits h] at hdigit
  cases n with
  | ofNat n => exact hdigits n
  | negSucc n => simp [text, hminus, hdigits]

theorem digits_length_le {n k : Nat} (hk : 0 < k) (h : n < 10 ^ k) : (digits n).length ≤ k := by
  rw [digits, List.length_map]
  exact (Nat.length_toDigits_le_iff (by decide) hk).mpr h

theorem text_length_le {n : Int} {k : Nat} (hk : 0 < k) (h : n.natAbs < 10 ^ k) :
    (text n).length ≤ k + 1 := by
  cases n with
  | ofNat n => exact Nat.le_succ_of_le (digits_length_le hk h)
  | negSucc n => exact Nat.succ_le_succ (digits_length_le hk h)

end LakeFsAuth.Library.Decimal
