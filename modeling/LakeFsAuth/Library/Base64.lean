import Mathlib.Data.Fintype.Basic
import Mathlib.Data.List.FinRange

/-! Base64 over bytes. The padded reader is canonical: it takes what the padded writer writes,
and nothing else. -/
namespace LakeFsAuth.Library.Base64

/-- The byte `=`. -/
def pad : UInt8 := 61

/-- The last six bits. -/
def sextet (n : Nat) : Fin 64 := ⟨n % 64, Nat.mod_lt n (by decide)⟩

@[simp] theorem sextet_val (n : Nat) : (sextet n).val = n % 64 := rfl

structure Alphabet where
  symbol : Fin 64 → UInt8
  injective : Function.Injective symbol
  unpadded : ∀ n, symbol n ≠ pad

namespace Alphabet
variable (alphabet : Alphabet)

/-- What a symbol stands for. -/
def value (ch : UInt8) : Option (Fin 64) :=
  (List.finRange 64).find? fun n => alphabet.symbol n == ch

def low (n : Nat) : UInt8 := alphabet.symbol (sextet n)

theorem value_eq_some_iff {ch : UInt8} {n : Fin 64} :
    alphabet.value ch = some n ↔ alphabet.symbol n = ch := by
  constructor
  · intro h
    simpa using List.find?_some h
  · intro h
    subst h
    cases hfound : alphabet.value (alphabet.symbol n) with
    | none =>
      have hnone := List.find?_eq_none.mp hfound n (List.mem_finRange n)
      simp at hnone
    | some m =>
      have hm : alphabet.symbol m = alphabet.symbol n := by simpa using List.find?_some hfound
      rw [alphabet.injective hm]

@[simp] theorem value_low (n : Nat) : alphabet.value (alphabet.low n) = some (sextet n) :=
  alphabet.value_eq_some_iff.mpr rfl

@[simp] theorem low_ne_pad (n : Nat) : alphabet.low n ≠ pad := alphabet.unpadded _

theorem low_of_value {ch : UInt8} {n : Fin 64} {m : Nat} (h : alphabet.value ch = some n)
    (hm : m % 64 = n.val) : alphabet.low m = ch := by
  rw [← alphabet.value_eq_some_iff.mp h]
  exact congrArg alphabet.symbol (Fin.ext hm)

/-- Three bytes are four symbols. The padding fills the last group up. -/
def encode (padded : Bool) : List UInt8 → List UInt8
  | [] => []
  | [a] =>
      let bits := a.toNat * 16
      alphabet.low (bits / 64) :: alphabet.low bits :: if padded then [pad, pad] else []
  | [a, b] =>
      let bits := a.toNat * 1024 + b.toNat * 4
      alphabet.low (bits / 4096) :: alphabet.low (bits / 64) :: alphabet.low bits ::
        if padded then [pad] else []
  | a :: b :: c :: rest =>
      let bits := a.toNat * 65536 + b.toNat * 256 + c.toNat
      alphabet.low (bits / 262144) :: alphabet.low (bits / 4096) :: alphabet.low (bits / 64) ::
        alphabet.low bits :: encode padded rest

/-- The bytes of two, three and four symbols. -/
def first (w x : Fin 64) : UInt8 := UInt8.ofNat (w.val * 4 + x.val / 16)

def second (x y : Fin 64) : UInt8 := UInt8.ofNat (x.val % 16 * 16 + y.val / 4)

def third (y z : Fin 64) : UInt8 := UInt8.ofNat (y.val % 4 * 64 + z.val)

/-- The reader of padded text. It wants the padding, and the bits the padding stands for to
be zero. -/
def decode : List UInt8 → Option (List UInt8)
  | [] => some []
  | w :: x :: y :: z :: rest => do
      let w ← alphabet.value w
      let x ← alphabet.value x
      if z = pad ∧ rest = [] then
        if y = pad then
          if x.val % 16 = 0 then some [first w x] else none
        else do
          let y ← alphabet.value y
          if y.val % 4 = 0 then some [first w x, second x y] else none
      else do
        let y ← alphabet.value y
        let z ← alphabet.value z
        let more ← decode rest
        some (first w x :: second x y :: third y z :: more)
  | _ => none

theorem ofNat_eq {n : Nat} {byte : UInt8} (h : n = byte.toNat) : UInt8.ofNat n = byte := by
  rw [h, UInt8.ofNat_toNat]

theorem decode_encode (bytes : List UInt8) :
    alphabet.decode (alphabet.encode true bytes) = some bytes := by
  fun_induction alphabet.encode true bytes with
  | case1 => rfl
  | case2 a bits =>
    have ha := a.toNat_lt
    have hfirst : first (sextet (bits / 64)) (sextet bits) = a := by
      apply ofNat_eq
      simp only [bits, sextet_val]
      omega
    have hzero : bits % 64 % 16 = 0 := by omega
    simp [decode, hfirst, hzero]
  | case3 a b bits =>
    have ha := a.toNat_lt
    have hb := b.toNat_lt
    have hfirst : first (sextet (bits / 4096)) (sextet (bits / 64)) = a := by
      apply ofNat_eq
      simp only [bits, sextet_val]
      omega
    have hsecond : second (sextet (bits / 64)) (sextet bits) = b := by
      apply ofNat_eq
      simp only [bits, sextet_val]
      omega
    have hzero : bits % 64 % 4 = 0 := by omega
    simp [decode, hfirst, hsecond, hzero]
  | case4 a b c rest bits ih =>
    have ha := a.toNat_lt
    have hb := b.toNat_lt
    have hc := c.toNat_lt
    have hfirst : first (sextet (bits / 262144)) (sextet (bits / 4096)) = a := by
      apply ofNat_eq
      simp only [bits, sextet_val]
      omega
    have hsecond : second (sextet (bits / 4096)) (sextet (bits / 64)) = b := by
      apply ofNat_eq
      simp only [bits, sextet_val]
      omega
    have hthird : third (sextet (bits / 64)) (sextet bits) = c := by
      apply ofNat_eq
      simp only [bits, sextet_val]
      omega
    simp [decode, hfirst, hsecond, hthird, ih]

/-- The padding that fills the last group of a text up. -/
def padding (text : List UInt8) : List UInt8 :=
  List.replicate ((4 - text.length % 4) % 4) pad

/-- The reader of text without padding. -/
def decodeNoPad (text : List UInt8) : Option (List UInt8) :=
  if text.contains pad then none else alphabet.decode (text ++ padding text)

theorem encode_padding (bytes : List UInt8) : alphabet.encode true bytes =
    alphabet.encode false bytes ++ padding (alphabet.encode false bytes) := by
  fun_induction alphabet.encode true bytes with
  | case1 => simp [encode, padding]
  | case2 a bits => rfl
  | case3 a b bits => rfl
  | case4 a b c rest bits ih =>
    have hlength : (4 - ((alphabet.encode false rest).length + 1 + 1 + 1 + 1) % 4) % 4 =
        (4 - (alphabet.encode false rest).length % 4) % 4 := by omega
    rw [ih]
    simp [encode, padding, hlength, bits]

/-- The text of one byte, from its two symbols. -/
theorem encode_first {w x : UInt8} {m n : Fin 64} (hw : alphabet.value w = some m)
    (hx : alphabet.value x = some n) (hzero : n.val % 16 = 0) :
    alphabet.encode true [first m n] = [w, x, pad, pad] := by
  have hbits : (first m n).toNat = m.val * 4 + n.val / 16 := by
    simp only [first, UInt8.toNat_ofNat']
    omega
  simp only [encode, hbits]
  rw [alphabet.low_of_value hw (by omega), alphabet.low_of_value hx (by omega)]
  rfl

theorem encode_second {w x y : UInt8} {m n k : Fin 64} (hw : alphabet.value w = some m)
    (hx : alphabet.value x = some n) (hy : alphabet.value y = some k) (hzero : k.val % 4 = 0) :
    alphabet.encode true [first m n, second n k] = [w, x, y, pad] := by
  have hfirst : (first m n).toNat = m.val * 4 + n.val / 16 := by
    simp only [first, UInt8.toNat_ofNat']
    omega
  have hsecond : (second n k).toNat = n.val % 16 * 16 + k.val / 4 := by
    simp only [second, UInt8.toNat_ofNat']
    omega
  simp only [encode, hfirst, hsecond]
  rw [alphabet.low_of_value hw (by omega), alphabet.low_of_value hx (by omega),
    alphabet.low_of_value hy (by omega)]
  rfl

theorem encode_third {w x y z : UInt8} {m n k l : Fin 64} (hw : alphabet.value w = some m)
    (hx : alphabet.value x = some n) (hy : alphabet.value y = some k)
    (hz : alphabet.value z = some l) (rest : List UInt8) :
    alphabet.encode true (first m n :: second n k :: third k l :: rest) =
      w :: x :: y :: z :: alphabet.encode true rest := by
  have hfirst : (first m n).toNat = m.val * 4 + n.val / 16 := by
    simp only [first, UInt8.toNat_ofNat']
    omega
  have hsecond : (second n k).toNat = n.val % 16 * 16 + k.val / 4 := by
    simp only [second, UInt8.toNat_ofNat']
    omega
  have hthird : (third k l).toNat = k.val % 4 * 64 + l.val := by
    simp only [third, UInt8.toNat_ofNat']
    omega
  simp only [encode, hfirst, hsecond, hthird]
  rw [alphabet.low_of_value hw (by omega), alphabet.low_of_value hx (by omega),
    alphabet.low_of_value hy (by omega), alphabet.low_of_value hz (by omega)]

theorem encode_of_decode {text bytes : List UInt8} (h : alphabet.decode text = some bytes) :
    alphabet.encode true bytes = text := by
  fun_induction alphabet.decode text generalizing bytes with
  | case1 =>
    cases h
    rfl
  | case2 w x y z rest ih =>
    obtain ⟨m, hw, hrest⟩ := Option.bind_eq_some_iff.mp h
    obtain ⟨n, hx, hgroup⟩ := Option.bind_eq_some_iff.mp hrest
    clear h hrest
    by_cases hlast : z = pad ∧ rest = []
    · rw [if_pos hlast] at hgroup
      rw [hlast.1, hlast.2]
      by_cases hone : y = pad
      · rw [if_pos hone] at hgroup
        split_ifs at hgroup with hzero
        cases hgroup
        rw [hone]
        exact alphabet.encode_first hw hx hzero
      · rw [if_neg hone] at hgroup
        obtain ⟨k, hy, hbytes⟩ := Option.bind_eq_some_iff.mp hgroup
        split_ifs at hbytes with hzero
        cases hbytes
        exact alphabet.encode_second hw hx hy hzero
    · rw [if_neg hlast] at hgroup
      obtain ⟨k, hy, hgroup'⟩ := Option.bind_eq_some_iff.mp hgroup
      obtain ⟨l, hz, hmore⟩ := Option.bind_eq_some_iff.mp hgroup'
      obtain ⟨more, hdecoded, hbytes⟩ := Option.bind_eq_some_iff.mp hmore
      cases hbytes
      rw [alphabet.encode_third hw hx hy hz, ih hdecoded]
  | case3 => cases h

theorem encode_length (padded : Bool) (bytes : List UInt8) :
    (alphabet.encode padded bytes).length =
      if padded then (bytes.length + 2) / 3 * 4 else (bytes.length * 4 + 2) / 3 := by
  fun_induction alphabet.encode padded bytes with
  | case1 => cases padded <;> rfl
  | case2 a bits => cases padded <;> simp
  | case3 a b bits => cases padded <;> simp
  | case4 a b c rest bits ih =>
    simp only [List.length_cons, ih]
    split <;> omega

/-- A byte that is no symbol is not in the text. -/
theorem not_mem_encode {ch : UInt8} (foreign : ∀ n, alphabet.symbol n ≠ ch) (hpad : ch ≠ pad)
    (padded : Bool) (bytes : List UInt8) : ch ∉ alphabet.encode padded bytes := by
  have hlow (n : Nat) : ch ≠ alphabet.low n := Ne.symm (foreign _)
  fun_induction alphabet.encode padded bytes with
  | case1 => simp
  | case2 a bits => cases padded <;> simp [hlow, hpad]
  | case3 a b bits => cases padded <;> simp [hlow, hpad]
  | case4 a b c rest bits ih => simp [hlow, ih]

/-- What holds of the symbols and of the padding holds of every byte of the text. -/
theorem encode_all {P : UInt8 → Prop} (symbols : ∀ n, P (alphabet.symbol n)) (hpad : P pad)
    {padded : Bool} {bytes : List UInt8} {byte : UInt8} (h : byte ∈ alphabet.encode padded bytes) :
    P byte := by
  by_contra hnot
  refine alphabet.not_mem_encode (fun n heq => ?_) (fun heq => ?_) padded bytes h
  · exact hnot (heq ▸ symbols n)
  · exact hnot (heq ▸ hpad)

theorem decodeNoPad_encode (bytes : List UInt8) :
    alphabet.decodeNoPad (alphabet.encode false bytes) = some bytes := by
  have hpad : (alphabet.encode false bytes).contains pad = false := by
    suffices pad ∉ alphabet.encode false bytes by simpa using this
    have hlow (n : Nat) : pad ≠ alphabet.low n := (alphabet.low_ne_pad n).symm
    fun_induction alphabet.encode false bytes with
    | case1 => simp
    | case2 a bits => simp [hlow]
    | case3 a b bits => simp [hlow]
    | case4 a b c rest bits ih => simp [hlow, ih]
  rw [decodeNoPad, hpad, if_neg (by decide), ← encode_padding, decode_encode]

end Alphabet

/-- Letters, digits, `-` and `_`. -/
def urlSafe : Alphabet where
  symbol n :=
    if n.val < 26 then UInt8.ofNat (65 + n.val)
    else if n.val < 52 then UInt8.ofNat (97 + (n.val - 26))
    else if n.val < 62 then UInt8.ofNat (48 + (n.val - 52))
    else if n.val = 62 then 45
    else 95
  injective := by decide
  unpadded := by decide

/-- Letters, digits, `+` and `/`. -/
def standard : Alphabet where
  symbol n :=
    if n.val < 26 then UInt8.ofNat (65 + n.val)
    else if n.val < 52 then UInt8.ofNat (97 + (n.val - 26))
    else if n.val < 62 then UInt8.ofNat (48 + (n.val - 52))
    else if n.val = 62 then 43
    else 47
  injective := by decide
  unpadded := by decide

end LakeFsAuth.Library.Base64
