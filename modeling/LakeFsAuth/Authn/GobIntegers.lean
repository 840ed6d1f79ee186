import LakeFsAuth.Authn.GobGrammar
import Mathlib.Data.Nat.Digits.Defs

/-! The integers of gob in machine words, as `encode_uint`, `encode_int` and the cursor compute
them with shifts and complements. They agree with the readers and writers over `Nat` and `Int`. -/
namespace LakeFsAuth.Authn.Gob.Words
open Library Core.Model Reader

/-- `u64::to_be_bytes`. -/
def toBeBytes (value : UInt64) : Bytes :=
  ([56, 48, 40, 32, 24, 16, 8, 0] : List UInt64).map fun shift => (value >>> shift).toUInt8

/-- What `encode_uint` pushes. -/
def encodeUint (value : UInt64) : Bytes :=
  if value < 128 then [value.toUInt8]
  else
    let bytes := toBeBytes value
    let first := (bytes.findIdx? (· != 0)).getD (bytes.length - 1)
    let significant := bytes.drop first
    UInt8.ofNat (256 - significant.length) :: significant

/-- What `encode_int` pushes. -/
def encodeInt (value : Int64) : Bytes :=
  let encoded := if value < 0 then (~~~value).toUInt64 <<< 1 ||| 1 else value.toUInt64 <<< 1
  encodeUint encoded

/-- `Cursor::uint`. -/
def uint : Cursor UInt64 := do
  match ← take 1 with
  | first :: _ =>
      if first < 128 then return first.toUInt64
      else
        let count := (256 - first.toUInt16).toNat
        if 8 < count then fail .IntegerTooLarge
        else
          let bytes ← take count
          return bytes.foldl (fun value byte => value <<< 8 ||| byte.toUInt64) 0
  | [] => fail .Truncated

/-- `Cursor::int`. -/
def int : Cursor Int64 := do
  let raw ← uint
  return if raw &&& 1 = 1 then ~~~(raw >>> 1).toInt64 else (raw >>> 1).toInt64

/-! The words of the writers. -/

theorem toBeBytes_eq (value : UInt64) : toBeBytes value = Gob.toBeBytes value.toNat := by
  have hplace (shift : UInt64) (place : Nat) (h : shift.toNat % 64 = 8 * place) :
      (value >>> shift).toUInt8 = UInt8.ofNat (value.toNat / 256 ^ place) := by
    apply UInt8.toNat_inj.mp
    rw [UInt64.toNat_toUInt8, UInt64.toNat_shiftRight, UInt8.toNat_ofNat', h,
      Nat.shiftRight_eq_div_pow, Nat.pow_mul]
  simp only [toBeBytes, Gob.toBeBytes, List.map_cons, List.map_nil]
  rw [hplace 56 7 rfl, hplace 48 6 rfl, hplace 40 5 rfl, hplace 32 4 rfl, hplace 24 3 rfl,
    hplace 16 2 rfl, hplace 8 1 rfl, hplace 0 0 rfl]

/-- To drop up to the first byte that is not zero is to drop the zeros. -/
theorem drop_findIdx (bytes : Bytes) :
    bytes.drop (bytes.findIdx (· != 0)) = bytes.dropWhile (· == 0) := by
  induction bytes with
  | nil => rfl
  | cons byte bytes ih =>
    by_cases hzero : byte = 0
    · simp [List.findIdx_cons, hzero, ih]
    · have hfilled : (byte != 0) = true := by simpa using hzero
      simp [List.findIdx_cons, hzero, hfilled]

/-- The bytes of a positive value are not all zero. -/
theorem findIdx?_toBeBytes {value : Nat} (hpos : 0 < value) (h : value < 2 ^ 64) :
    (Gob.toBeBytes value).findIdx? (· != 0) = some ((Gob.toBeBytes value).findIdx (· != 0)) := by
  apply List.findIdx?_eq_some_of_exists
  by_contra hnone
  have hlen := (significant_length hpos h).1
  rw [List.dropWhile_eq_nil_iff.mpr (by simpa using hnone)] at hlen
  simp at hlen

theorem encodeUint_eq (value : UInt64) : encodeUint value = Gob.encodeUint value.toNat := by
  have hlt : value < 128 ↔ value.toNat < 128 := UInt64.lt_iff_toNat_lt
  unfold encodeUint Gob.encodeUint
  by_cases hsmall : value.toNat < 128
  · rw [if_pos (hlt.mpr hsmall), if_pos hsmall]
    congr
  · rw [if_neg fun h => hsmall (hlt.mp h), if_neg hsmall, toBeBytes_eq]
    dsimp only
    rw [findIdx?_toBeBytes (by omega) value.toNat_lt, Option.getD_some, drop_findIdx]

/-! The sign. -/

/-- The upper half of the unsigned words are the negative ones. -/
theorem toInt_cases (value : UInt64) :
    value.toInt64.toInt = if value.toNat < 2 ^ 63 then (value.toNat : Int) else value.toNat - 2 ^ 64 := by
  have hlt := value.toNat_lt
  change value.toBitVec.toInt = _
  rw [BitVec.toInt, UInt64.toNat_toBitVec]
  split <;> split <;> omega

theorem toInt_toInt64 {value : UInt64} (h : value.toNat < 2 ^ 63) :
    value.toInt64.toInt = value.toNat := by
  rw [toInt_cases, if_pos h]

theorem toNat_toUInt64 (value : Int64) (h : 0 ≤ value.toInt) :
    value.toUInt64.toNat = value.toInt.toNat := by
  have hcases := toInt_cases value.toUInt64
  have hlt := value.toUInt64.toNat_lt
  rw [Int64.toInt64_toUInt64] at hcases
  split at hcases <;> omega

/-- A number and its complement are never both negative, so this does not overflow. -/
theorem toInt_complement (value : Int64) : (~~~value).toInt = -value.toInt - 1 := by
  have hle := value.le_toInt
  have hlt := value.toInt_lt
  rw [Int64.toInt_not, Int.bmod_eq_of_le (by omega) (by omega)]

theorem toNat_double {value : UInt64} (h : value.toNat < 2 ^ 63) :
    (value <<< 1).toNat = value.toNat * 2 := by
  rw [UInt64.toNat_shiftLeft]
  change value.toNat <<< 1 % 2 ^ 64 = _
  rw [Nat.shiftLeft_eq]
  omega

theorem toNat_double_or_one {value : UInt64} (h : value.toNat < 2 ^ 63) :
    (value <<< 1 ||| 1).toNat = value.toNat * 2 + 1 := by
  rw [UInt64.toNat_or, toNat_double h, Nat.mul_comm]
  exact (Nat.two_pow_add_eq_or_of_lt (i := 1) (by decide : 1 < 2 ^ 1) value.toNat).symm

theorem encodeInt_eq (value : Int64) : encodeInt value = Gob.encodeInt value.toInt := by
  have hlt : value < 0 ↔ value.toInt < 0 := Int64.lt_iff_toInt_lt
  have hrange := value.le_toInt
  have hrange' := value.toInt_lt
  unfold encodeInt Gob.encodeInt
  dsimp only
  rw [encodeUint_eq]
  congr 1
  by_cases hneg : value.toInt < 0
  · have hfold := toNat_toUInt64 (~~~value) (by rw [toInt_complement]; omega)
    rw [toInt_complement] at hfold
    rw [if_pos (hlt.mpr hneg), if_pos hneg, toNat_double_or_one (by omega), hfold]
  · have hsame := toNat_toUInt64 value (by omega)
    rw [if_neg fun h => hneg (hlt.mp h), if_neg hneg, toNat_double (by omega), hsame]

/-! The words of the cursor. -/

theorem toNat_push {value : UInt64} (byte : UInt8) (h : value.toNat < 2 ^ 56) :
    (value <<< 8 ||| byte.toUInt64).toNat = value.toNat * 256 + byte.toNat := by
  have hshift : (value <<< 8).toNat = 2 ^ 8 * value.toNat := by
    rw [UInt64.toNat_shiftLeft]
    change value.toNat <<< 8 % 2 ^ 64 = _
    rw [Nat.shiftLeft_eq]
    omega
  rw [UInt64.toNat_or, hshift, UInt8.toNat_toUInt64, ← Nat.two_pow_add_eq_or_of_lt byte.toNat_lt]
  omega

/-- No byte is shifted out as long as there is room for all that follow. -/
theorem toNat_foldl (bytes : Bytes) (value : UInt64)
    (room : (value.toNat + 1) * 256 ^ bytes.length ≤ 2 ^ 64) :
    (bytes.foldl (fun (value : UInt64) byte => value <<< 8 ||| byte.toUInt64) value).toNat =
      bytes.foldl (fun value byte => value * 256 + byte.toNat) value.toNat := by
  induction bytes generalizing value with
  | nil => rfl
  | cons byte bytes ih =>
    have hbyte := byte.toNat_lt
    have hroom : (value.toNat + 1) * 256 * 256 ^ bytes.length ≤ 2 ^ 64 := by
      rwa [List.length_cons, Nat.pow_succ', ← Nat.mul_assoc] at room
    have hsmall : (value.toNat + 1) * 256 ≤ 2 ^ 64 :=
      (Nat.le_mul_of_pos_right _ (Nat.pow_pos (by decide))).trans hroom
    have hpush := toNat_push byte (by omega : value.toNat < 2 ^ 56)
    rw [List.foldl_cons, List.foldl_cons, ← hpush]
    apply ih
    rw [hpush]
    exact (Nat.mul_le_mul_right _ (by omega)).trans hroom

theorem fromBeBytes_word {bytes : Bytes} (h : bytes.length ≤ 8) :
    (bytes.foldl (fun (value : UInt64) byte => value <<< 8 ||| byte.toUInt64) 0).toNat =
      fromBeBytes bytes := by
  apply toNat_foldl bytes 0
  calc ((0 : UInt64).toNat + 1) * 256 ^ bytes.length
      = 256 ^ bytes.length := Nat.one_mul _
    _ ≤ 256 ^ 8 := Nat.pow_le_pow_right (by decide) h

theorem map_uint : UInt64.toNat <$> uint = Gob.uint := by
  unfold uint Gob.uint
  rw [map_bind]
  congr
  funext bytes
  cases bytes with
  | nil => rfl
  | cons first rest =>
    have hcount : (256 - first.toUInt16).toNat = 256 - first.toNat := by
      have hle : first.toUInt16 ≤ 256 := by
        rw [UInt16.le_iff_toNat_le, UInt8.toNat_toUInt16]
        exact first.toNat_lt.le
      rw [UInt16.toNat_sub_of_le _ _ hle, UInt8.toNat_toUInt16]
      rfl
    dsimp only
    rw [hcount]
    split
    · rw [map_pure, UInt8.toNat_toUInt64]
    · split
      · rfl
      · rw [map_bind]
        refine take_bind_congr _ fun bytes hlen => ?_
        rw [map_pure, fromBeBytes_word (by omega)]
        rfl

theorem toInt_signed (raw : UInt64) :
    (if raw &&& 1 = 1 then ~~~(raw >>> 1).toInt64 else (raw >>> 1).toInt64).toInt =
      signed raw.toNat := by
  have hbit : raw &&& 1 = 1 ↔ raw.toNat % 2 = 1 := by
    rw [← UInt64.toNat_inj, UInt64.toNat_and]
    change raw.toNat &&& 1 = 1 ↔ _
    rw [Nat.and_one_is_mod]
  have hhalf : (raw >>> 1).toNat = raw.toNat / 2 := by
    rw [UInt64.toNat_shiftRight]
    exact Nat.shiftRight_eq_div_pow raw.toNat 1
  have hlt := raw.toNat_lt
  have hsame : (raw >>> 1).toInt64.toInt = (raw.toNat / 2 : Nat) := by
    rw [toInt_toInt64 (by omega), hhalf]
  unfold signed
  by_cases hodd : raw.toNat % 2 = 1
  · rw [if_pos (hbit.mpr hodd), if_pos hodd, toInt_complement, hsame]
  · rw [if_neg fun h => hodd (hbit.mp h), if_neg hodd, hsame]

theorem map_int : Int64.toInt <$> int = Gob.int := by
  unfold int Gob.int
  rw [map_bind, ← map_uint, bind_map_left]
  congr
  funext raw
  rw [map_pure, toInt_signed]
  rfl

/-! No form is shorter. -/

theorem fromBeBytes_eq_ofDigits (bytes : Bytes) :
    fromBeBytes bytes = Nat.ofDigits 256 (bytes.reverse.map UInt8.toNat) := by
  induction bytes using List.reverseRecOn with
  | nil => rfl
  | append_singleton bytes byte ih =>
    rw [fromBeBytes, List.foldl_append, ← fromBeBytes, ih]
    simp only [List.foldl_cons, List.foldl_nil, List.reverse_append, List.reverse_singleton,
      List.singleton_append, List.map_cons, Nat.ofDigits_cons]
    rw [Nat.mul_comm, Nat.add_comm]

theorem digits_fromBeBytes {bytes : Bytes} (h : bytes.head? ≠ some 0) :
    Nat.digits 256 (fromBeBytes bytes) = bytes.reverse.map UInt8.toNat := by
  rw [fromBeBytes_eq_ofDigits]
  apply Nat.digits_ofDigits 256 (by decide)
  · intro digit hdigit
    obtain ⟨byte, _, rfl⟩ := List.mem_map.mp hdigit
    exact byte.toNat_lt
  · intro hne hzero
    cases bytes with
    | nil => exact hne rfl
    | cons byte bytes =>
      rw [List.getLast_map, List.getLast_reverse, List.head_cons] at hzero
      obtain rfl : byte = 0 := UInt8.toNat_inj.mp hzero
      exact h rfl

theorem head?_dropWhile (bytes : Bytes) : (bytes.dropWhile (· == 0)).head? ≠ some 0 := by
  intro h
  have hnot := List.head?_dropWhile_not (· == (0 : UInt8)) bytes
  rw [h] at hnot
  simp at hnot

/-- Without the zeros in front, a number has one form only. -/
theorem dropWhile_eq {bytes other : Bytes} (same : fromBeBytes bytes = fromBeBytes other) :
    bytes.dropWhile (· == 0) = other.dropWhile (· == 0) := by
  have hdigits : Nat.digits 256 (fromBeBytes (bytes.dropWhile (· == 0))) =
      Nat.digits 256 (fromBeBytes (other.dropWhile (· == 0))) := by
    simp only [fromBeBytes, fold_dropWhile] at same ⊢
    rw [same]
  rw [digits_fromBeBytes (head?_dropWhile bytes), digits_fromBeBytes (head?_dropWhile other)]
    at hdigits
  exact List.reverse_inj.mp (List.map_injective_iff.mpr (fun _ _ => UInt8.toNat_inj.mp) hdigits)

theorem shortest_uint {value : Nat} (h : value < 2 ^ 64) :
    Shortest Gob.uint (Gob.encodeUint value) value := by
  intro other hreads
  obtain ⟨used, form, hused⟩ := run_uint_form (hreads [])
  obtain rfl := List.append_cancel_right hused
  cases form with
  | short byte small =>
    have hsmall : byte.toNat < 128 := UInt8.lt_iff_toNat_lt.mp small
    left
    rw [Gob.encodeUint, if_pos hsmall, UInt8.ofNat_toNat]
  | long bytes some few =>
    unfold Gob.encodeUint
    split
    · right
      simpa using some
    · have hsame : (Gob.toBeBytes (fromBeBytes bytes)).dropWhile (· == 0) =
          bytes.dropWhile (· == 0) := dropWhile_eq (fold_toBeBytes h)
      have hsuffix := List.dropWhile_suffix (l := bytes) (· == 0)
      rw [hsame]
      rcases hsuffix.length_le.eq_or_lt with hlen | hlen
      · left
        rw [hsuffix.eq_of_length hlen]
      · right
        simpa using hlen

theorem signed_injective : Function.Injective signed := by
  intro raw other h
  unfold signed at h
  split at h <;> split at h <;> omega

theorem shortest_int {value : Int} (h : -2 ^ 63 ≤ value ∧ value < 2 ^ 63) :
    Shortest Gob.int (Gob.encodeInt value) value := by
  unfold Gob.encodeInt
  generalize hraw : (if value < 0 then (-value - 1).toNat * 2 + 1 else value.toNat * 2) = raw
  have hword : raw < 2 ^ 64 := by
    rw [← hraw]
    split <;> omega
  have hsigned : signed raw = value := by
    rw [← hraw]
    unfold signed
    split <;> split <;> omega
  rw [← hsigned]
  exact (shortest_uint hword).map signed_injective

/-- What follows the first byte, which may be a count, does not begin with a zero. -/
def Trimmed (text : Bytes) : Prop := text.tail.head? ≠ some 0

theorem trimmed_encodeUint (value : Nat) : Trimmed (Gob.encodeUint value) := by
  unfold Gob.encodeUint Trimmed
  split
  · simp
  · exact head?_dropWhile _

/-- What the writers write, of either kind. -/
def encodings : Set Bytes := Set.range encodeUint ∪ Set.range encodeInt

theorem uint_reads (value : UInt64) : Reads uint (encodeUint value) value := by
  have hreads := reads_uint value.toNat_lt
  rw [← encodeUint_eq, ← map_uint] at hreads
  exact hreads.of_map fun _ _ => UInt64.toNat_inj.mp

theorem int_reads (value : Int64) : Reads int (encodeInt value) value := by
  have hreads := reads_int ⟨value.le_toInt, value.toInt_lt⟩
  rw [← encodeInt_eq, ← map_int] at hreads
  exact hreads.of_map fun _ _ => Int64.toInt_inj.mp

/-- A signed integer is written as an unsigned one. -/
theorem encodings_eq : encodings = Set.range encodeUint := by
  apply Set.union_eq_left.mpr
  rintro text ⟨value, rfl⟩
  exact ⟨_, rfl⟩

/-- The integers come back from their encodings, whatever follows, and no encoding can be made
shorter or is the start of another one. -/
theorem integers_exact :
    (∀ value tail, uint.run (encodeUint value ++ tail) = .ok (value, tail)) ∧
    (∀ value tail, int.run (encodeInt value ++ tail) = .ok (value, tail)) ∧
    (∀ value, Trimmed (encodeUint value) ∧ Shortest uint (encodeUint value) value) ∧
    (∀ value, Trimmed (encodeInt value) ∧ Shortest int (encodeInt value) value) ∧
    IsAntichain (· <+: ·) encodings := by
  refine ⟨uint_reads, int_reads, fun value => ⟨?_, ?_⟩, fun value => ⟨?_, ?_⟩, ?_⟩
  · rw [encodeUint_eq]
    exact trimmed_encodeUint value.toNat
  · apply Shortest.of_map (f := UInt64.toNat)
    rw [map_uint, encodeUint_eq]
    exact shortest_uint value.toNat_lt
  · rw [encodeInt_eq]
    exact trimmed_encodeUint _
  · apply Shortest.of_map (f := Int64.toInt)
    rw [map_int, encodeInt_eq]
    exact shortest_int ⟨value.le_toInt, value.toInt_lt⟩
  · rw [encodings_eq]
    refine (isAntichain_reads uint).subset ?_
    rintro text ⟨value, rfl⟩
    exact ⟨value, uint_reads value⟩

/-- The least number takes all nine bytes. -/
example : encodeUint 16777215 = [0xfd, 0xff, 0xff, 0xff] ∧ encodeInt (-64) = [0x7f] ∧
    encodeInt Int64.minValue = [0xf8, 0xff, 0xff, 0xff, 0xff, 0xff, 0xff, 0xff, 0xff] := by
  decide

end LakeFsAuth.Authn.Gob.Words
