import LakeFsAuth.Core.SecretBox
import LakeFsAuth.Library.Reader

/-! Go `encoding/gob` for `map[interface{}]interface{}` with one string entry. The stream is two
length-prefixed messages: the map type definition and the value. -/
namespace LakeFsAuth.Authn.Gob
open Library Core.Model Core.SecretBox Reader

/-- Type id Go assigns to the first user type in the stream. -/
def mapTypeId : Int := 64

/-- Type id Go 1.20 and older assign. -/
def legacyMapTypeId : Int := 65

def stringTypeId : Int := 6

def interfaceTypeId : Int := 8

/-- Field index of `wireType.MapT`. -/
def wireTypeMapField : Nat := 3

def mapTypeName : String := "map[interface {}]interface {}"

def stringTypeName : String := "string"

inductive GobError where
  | Truncated
  | IntegerTooLarge
  | TrailingBytes
  | UnexpectedTypeId (typeId : Int)
  | UnexpectedTypeName (name : String)
  | Unexpected (what : String)
  | NotUtf8
  deriving DecidableEq, Repr

/-- How a decoder stops early: with an error it returns, in a panic, or at the room it asks for, when
it is watched for that. -/
inductive Fault where
  | error (error : GobError)
  | panic
  | reserving (count : Nat)
  deriving DecidableEq, Repr

abbrev Cursor := Reader Fault

/-! The writers. Unsigned integers are below `2 ^ 64` throughout. -/

/-- `u64::to_be_bytes`. -/
def toBeBytes (value : Nat) : Bytes :=
  [7, 6, 5, 4, 3, 2, 1, 0].map fun place => UInt8.ofNat (value / 256 ^ place)

/-- One byte below 128, else a negated byte count and the bytes without leading zeros. -/
def encodeUint (value : Nat) : Bytes :=
  if value < 128 then [UInt8.ofNat value]
  else
    let significant := (toBeBytes value).dropWhile (· == 0)
    UInt8.ofNat (256 - significant.length) :: significant

/-- The sign goes to the last bit. -/
def encodeInt (value : Int) : Bytes :=
  encodeUint (if value < 0 then (-value - 1).toNat * 2 + 1 else value.toNat * 2)

def message (body : Bytes) : Bytes := encodeUint body.length ++ body

def encodeString (value : String) : Bytes := encodeUint (asBytes value).length ++ asBytes value

/-- The definition announces itself with the negated type id. A struct is its fields, each with
the distance to the one before, and a zero; the empty name of the type is left out. -/
def typeDefinition (typeId : Int) : Bytes :=
  encodeInt (-typeId) ++ (encodeUint (wireTypeMapField + 1) ++ (encodeUint 1 ++ (encodeUint 2 ++
    (encodeInt typeId ++ (encodeUint 0 ++ (encodeUint 1 ++ (encodeInt interfaceTypeId ++
      (encodeUint 1 ++ (encodeInt interfaceTypeId ++ (encodeUint 0 ++ encodeUint 0))))))))))

/-- An interface value: the name of its type, the type id, and a message with the value. -/
def encodeInterfaceString (value : String) : Bytes :=
  encodeString stringTypeName ++ (encodeInt stringTypeId ++
    message (encodeUint 0 ++ encodeString value))

def encodeEntries : List (String × String) → Bytes
  | [] => []
  | (key, value) :: entries =>
      encodeInterfaceString key ++ (encodeInterfaceString value ++ encodeEntries entries)

def mapValue (typeId : Int) (entries : List (String × String)) : Bytes :=
  encodeInt typeId ++ (encodeUint 0 ++ (encodeUint entries.length ++ encodeEntries entries))

/-- The stream of `map[interface{}]interface{}` with the entry `token`. -/
def encodeTokenMap (token : String) : Bytes :=
  message (typeDefinition mapTypeId) ++ message (mapValue mapTypeId [("token", token)])

/-! The readers. -/

def fail (error : GobError) : Cursor α := throw (.error error)

def take (count : Nat) : Cursor Bytes := Reader.take (.error .Truncated) count

/-- `Cursor::uint`. -/
def uint : Cursor Nat := do
  match ← take 1 with
  | first :: _ =>
      if first < 128 then return first.toNat
      else
        let count := 256 - first.toNat
        if 8 < count then fail .IntegerTooLarge
        else
          let bytes ← take count
          return bytes.foldl (fun value byte => value * 256 + byte.toNat) 0
  | [] => fail .Truncated

/-- `Cursor::int`. -/
def int : Cursor Int := do
  let raw ← uint
  return if raw % 2 = 1 then -(raw / 2 : Nat) - 1 else (raw / 2 : Nat)

/-- `Cursor::string`. -/
def string : Cursor String := do
  let bytes ← take (← uint)
  match fromUtf8 bytes with
  | some text => return text
  | none => fail .NotUtf8

/-- `Cursor::message`. -/
def readMessage : Cursor Bytes := do
  take (← uint)

def expectUint (expected : Nat) (what : String) : Cursor Unit := do
  if (← uint) = expected then return () else fail (.Unexpected what)

def expectInt (expected : Int) (what : String) : Cursor Unit := do
  if (← int) = expected then return () else fail (.Unexpected what)

/-- A whole message body, or the error of `TrailingBytes`. -/
def within (reader : Cursor α) (body : Bytes) : Except Fault α :=
  whole (.error .TrailingBytes) reader body

/-- The negation of an `i64`, with overflow checks. -/
def negate (value : Int) : Cursor Int :=
  if value = -2 ^ 63 then throw .panic else return -value

/-- The fields of the definition after the announced type id. -/
def readMapType (typeId : Int) : Cursor Int := do
  expectUint (wireTypeMapField + 1) "type definition is not a map type"
  expectUint 1 "map type has no common type"
  match ← uint with
  | 2 => pure ()
  | 1 =>
      let name ← string
      if name ≠ mapTypeName then fail (.UnexpectedTypeName name)
      else expectUint 1 "map type has no id"
  | _ => fail (.Unexpected "map type has no id")
  expectInt typeId "map type id does not match the definition"
  expectUint 0 "common type is not terminated"
  expectUint 1 "map type has no key type"
  expectInt interfaceTypeId "map key is not an interface"
  expectUint 1 "map type has no element type"
  expectInt interfaceTypeId "map element is not an interface"
  expectUint 0 "map type is not terminated"
  expectUint 0 "wire type is not terminated"
  return typeId

def readTypeDefinition (body : Bytes) : Except Fault Int :=
  within (do
    let announced ← int
    if 0 ≤ announced then fail (.Unexpected "first message is not a type definition")
    else
      let typeId ← negate announced
      if typeId ≠ mapTypeId ∧ typeId ≠ legacyMapTypeId then fail (.UnexpectedTypeId typeId)
      else readMapType typeId) body

def readInterfaceString : Cursor String := do
  let name ← string
  if name ≠ stringTypeName then fail (.UnexpectedTypeName name)
  else
    expectInt stringTypeId "interface value is not a string"
    let inner ← readMessage
    StateT.lift (within (do
      expectUint 0 "interface value has no singleton delta"
      string) inner)

def readEntries : Nat → Cursor (List (String × String))
  | 0 => return []
  | count + 1 => do
      let key ← readInterfaceString
      let value ← readInterfaceString
      return (key, value) :: (← readEntries count)

/-- `Vec::with_capacity` of pairs of strings, 48 bytes each. -/
def reserve (count : Nat) : Cursor Unit :=
  if 48 * count < 2 ^ 63 then return () else throw .panic

section Decode
variable (withCapacity : Nat → Cursor Unit)

def readMapValue (typeId : Int) (body : Bytes) : Except Fault (List (String × String)) :=
  within (do
    expectInt typeId "value message has a different type id"
    expectUint 0 "singleton delta is missing"
    let count ← uint
    withCapacity count
    readEntries count) body

def decodeStringMapWith (stream : Bytes) : Except Fault (List (String × String)) :=
  within (do
    let typeId ← StateT.lift (readTypeDefinition (← readMessage))
    StateT.lift (readMapValue withCapacity typeId (← readMessage))) stream

/-- The entry `token` of the map. -/
def decodeTokenMapWith (stream : Bytes) : Except Fault String := do
  match (← decodeStringMapWith withCapacity stream).find? (·.1 == "token") with
  | some (_, value) => return value
  | none => throw (.error (.Unexpected "no token entry in the session map"))

end Decode

def decodeStringMap : Bytes → Except Fault (List (String × String)) := decodeStringMapWith reserve

def decodeTokenMap : Bytes → Except Fault String := decodeTokenMapWith reserve

/-- The pairs the decoder asks room for, before it has read any. -/
def reserved (stream : Bytes) : Option Nat :=
  match decodeTokenMapWith (fun count => throw (.reserving count)) stream with
  | .error (.reserving count) => some count
  | _ => none

/-! What the writers write, the readers read. -/

theorem fold_dropWhile (bytes : Bytes) :
    (bytes.dropWhile (· == 0)).foldl (fun value byte => value * 256 + byte.toNat) 0 =
      bytes.foldl (fun value byte => value * 256 + byte.toNat) 0 := by
  induction bytes with
  | nil => rfl
  | cons byte bytes ih =>
    by_cases hzero : byte = 0
    · rw [List.dropWhile_cons_of_pos (by simp [hzero]), ih]
      simp [hzero]
    · rw [List.dropWhile_cons_of_neg (by simpa using hzero)]

theorem fold_toBeBytes {value : Nat} (h : value < 2 ^ 64) :
    (toBeBytes value).foldl (fun value byte => value * 256 + byte.toNat) 0 = value := by
  have hfirst : value / 256 ^ 7 % 2 ^ 8 = value / 256 ^ 7 :=
    Nat.mod_eq_of_lt (Nat.div_lt_of_lt_mul h)
  have hplace (place : Nat) : value / 256 ^ (place + 1) * 256 + value / 256 ^ place % 2 ^ 8 =
      value / 256 ^ place := by
    rw [Nat.pow_succ, ← Nat.div_div_eq_div_mul]
    exact Nat.div_add_mod' _ 256
  simp only [toBeBytes, List.map_cons, List.map_nil, List.foldl_cons, List.foldl_nil,
    UInt8.toNat_ofNat', Nat.zero_mul, Nat.zero_add, hfirst]
  rw [hplace 6, hplace 5, hplace 4, hplace 3, hplace 2, hplace 1, hplace 0, Nat.pow_zero,
    Nat.div_one]

/-- The bytes of a positive value do not vanish, and they are at most eight. -/
theorem significant_length {value : Nat} (hpos : 0 < value) (h : value < 2 ^ 64) :
    0 < ((toBeBytes value).dropWhile (· == 0)).length ∧
      ((toBeBytes value).dropWhile (· == 0)).length ≤ 8 := by
  constructor
  · apply List.length_pos_of_ne_nil
    intro hnil
    have hfold := (fold_dropWhile (toBeBytes value)).trans (fold_toBeBytes h)
    rw [hnil] at hfold
    simp only [List.foldl_nil] at hfold
    omega
  · exact (List.dropWhile_suffix _).length_le

theorem reads_take_of (bytes : Bytes) {count : Nat} (h : count = bytes.length) :
    Reads (take count) bytes bytes := by
  rw [h]
  exact reads_take _ bytes

theorem reads_uint {value : Nat} (h : value < 2 ^ 64) : Reads uint (encodeUint value) value := by
  unfold encodeUint uint
  split
  · rename_i hsmall
    have hfirst : (UInt8.ofNat value).toNat = value := by
      rw [UInt8.toNat_ofNat']
      omega
    have hlt : UInt8.ofNat value < 128 := by
      rw [UInt8.lt_iff_toNat_lt, hfirst]
      exact hsmall
    refine (reads_take_of [UInt8.ofNat value] rfl).bind_end ?_
    dsimp only
    rw [if_pos hlt, hfirst]
    exact Reads.pure value
  · rename_i hlarge
    obtain ⟨hpos, hlen⟩ := significant_length (by omega : 0 < value) h
    generalize hbytes : (toBeBytes value).dropWhile (· == 0) = bytes at hpos hlen
    have hfold : bytes.foldl (fun value byte => value * 256 + byte.toNat) 0 = value := by
      rw [← hbytes, fold_dropWhile, fold_toBeBytes h]
    have hfirst : (UInt8.ofNat (256 - bytes.length)).toNat = 256 - bytes.length := by
      rw [UInt8.toNat_ofNat']
      omega
    have hlt : ¬ UInt8.ofNat (256 - bytes.length) < 128 := by
      rw [UInt8.lt_iff_toNat_lt, hfirst]
      simp
      omega
    refine (reads_take_of [UInt8.ofNat (256 - bytes.length)] rfl).bind ?_
    dsimp only
    rw [if_neg hlt, hfirst, if_neg (by omega)]
    refine (reads_take_of bytes (by omega)).bind_end ?_
    rw [hfold]
    exact Reads.pure value

theorem reads_int {value : Int} (h : -2 ^ 63 ≤ value ∧ value < 2 ^ 63) :
    Reads int (encodeInt value) value := by
  unfold int encodeInt
  split
  · have hraw : (-value - 1).toNat * 2 + 1 < 2 ^ 64 := by omega
    refine (reads_uint hraw).bind_end ?_
    have hvalue : (if ((-value - 1).toNat * 2 + 1) % 2 = 1 then
        -(((-value - 1).toNat * 2 + 1) / 2 : Nat) - 1
        else (((-value - 1).toNat * 2 + 1) / 2 : Nat) : Int) = value := by
      rw [if_pos (by omega)]
      omega
    rw [hvalue]
    exact Reads.pure value
  · have hraw : value.toNat * 2 < 2 ^ 64 := by omega
    refine (reads_uint hraw).bind_end ?_
    have hvalue : (if (value.toNat * 2) % 2 = 1 then -((value.toNat * 2) / 2 : Nat) - 1
        else ((value.toNat * 2) / 2 : Nat) : Int) = value := by
      rw [if_neg (by omega)]
      omega
    rw [hvalue]
    exact Reads.pure value

theorem reads_expectUint {expected : Nat} (what : String) (h : expected < 2 ^ 64) :
    Reads (expectUint expected what) (encodeUint expected) () := by
  refine (reads_uint h).bind_end ?_
  rw [if_pos rfl]
  exact Reads.pure ()

theorem reads_expectInt {expected : Int} (what : String)
    (h : -2 ^ 63 ≤ expected ∧ expected < 2 ^ 63) :
    Reads (expectInt expected what) (encodeInt expected) () := by
  refine (reads_int h).bind_end ?_
  rw [if_pos rfl]
  exact Reads.pure ()

theorem reads_message {body : Bytes} (h : body.length < 2 ^ 64) :
    Reads readMessage (message body) body :=
  (reads_uint h).bind (reads_take_of body rfl)

theorem reads_string {value : String} (h : (asBytes value).length < 2 ^ 64) :
    Reads string (encodeString value) value := by
  refine (reads_uint h).bind ((reads_take_of (asBytes value) rfl).bind_end ?_)
  rw [fromUtf8_asBytes]
  exact Reads.pure value

theorem reads_interfaceString {value : String}
    (h : (encodeUint 0 ++ encodeString value).length < 2 ^ 64) :
    Reads readInterfaceString (encodeInterfaceString value) value := by
  have hvalue : (asBytes value).length < 2 ^ 64 := by
    simp only [encodeString, List.length_append] at h
    omega
  refine (reads_string (by decide)).bind ?_
  rw [if_neg (by simp)]
  refine (reads_expectInt _ (by decide)).bind ((reads_message h).bind_end (Reads.lift ?_))
  exact ((reads_expectUint _ (by decide)).bind (reads_string hvalue)).whole

theorem reads_entries {entries : List (String × String)}
    (h : ∀ entry ∈ entries, (encodeUint 0 ++ encodeString entry.1).length < 2 ^ 64 ∧
      (encodeUint 0 ++ encodeString entry.2).length < 2 ^ 64) :
    Reads (readEntries entries.length) (encodeEntries entries) entries := by
  induction entries with
  | nil => exact Reads.pure []
  | cons entry entries ih =>
    obtain ⟨hkey, hvalue⟩ := h entry List.mem_cons_self
    have hrest := ih fun other hother => h other (List.mem_cons_of_mem _ hother)
    exact (reads_interfaceString hkey).bind ((reads_interfaceString hvalue).bind
      (hrest.bind_end (Reads.pure _)))

theorem inner_length_le (value : String) :
    (encodeUint 0 ++ encodeString value).length ≤ (encodeInterfaceString value).length := by
  simp only [encodeInterfaceString, message, List.length_append]
  omega

theorem entry_length_le {entries : List (String × String)} {entry : String × String}
    (h : entry ∈ entries) :
    (encodeInterfaceString entry.1).length ≤ (encodeEntries entries).length ∧
      (encodeInterfaceString entry.2).length ≤ (encodeEntries entries).length := by
  induction entries with
  | nil => simp at h
  | cons first entries ih =>
    simp only [encodeEntries, List.length_append]
    rcases List.mem_cons.mp h with rfl | hrest
    · omega
    · have hle := ih hrest
      omega

/-- A type id the decoder knows. -/
def KnownTypeId (typeId : Int) : Prop := typeId = mapTypeId ∨ typeId = legacyMapTypeId

theorem reads_mapType {typeId : Int} (known : KnownTypeId typeId) :
    Reads (readMapType typeId) (encodeUint (wireTypeMapField + 1) ++ (encodeUint 1 ++
      (encodeUint 2 ++ (encodeInt typeId ++ (encodeUint 0 ++ (encodeUint 1 ++
        (encodeInt interfaceTypeId ++ (encodeUint 1 ++ (encodeInt interfaceTypeId ++
          (encodeUint 0 ++ encodeUint 0)))))))))) typeId := by
  have hrange : -2 ^ 63 ≤ typeId ∧ typeId < 2 ^ 63 := by
    rcases known with rfl | rfl <;> decide
  unfold readMapType
  refine (reads_expectUint _ (by decide)).bind ((reads_expectUint _ (by decide)).bind ?_)
  refine (reads_uint (by decide)).bind ?_
  refine (reads_expectInt _ hrange).bind ((reads_expectUint _ (by decide)).bind ?_)
  refine (reads_expectUint _ (by decide)).bind ((reads_expectInt _ (by decide)).bind ?_)
  refine (reads_expectUint _ (by decide)).bind ((reads_expectInt _ (by decide)).bind ?_)
  exact (reads_expectUint _ (by decide)).bind ((reads_expectUint _ (by decide)).bind_end
    (Reads.pure typeId))

theorem readTypeDefinition_typeDefinition {typeId : Int} (known : KnownTypeId typeId) :
    readTypeDefinition (typeDefinition typeId) = .ok typeId := by
  have hrange : -2 ^ 63 ≤ -typeId ∧ -typeId < 2 ^ 63 := by
    rcases known with rfl | rfl <;> decide
  have hnegative : ¬ 0 ≤ -typeId := by
    rcases known with rfl | rfl <;> decide
  have hmin : -typeId ≠ -2 ^ 63 := by
    rcases known with rfl | rfl <;> decide
  have hknown : ¬ (typeId ≠ mapTypeId ∧ typeId ≠ legacyMapTypeId) := by
    rcases known with rfl | rfl <;> decide
  refine ((reads_int hrange).bind ?_).whole
  rw [if_neg hnegative, negate, if_neg hmin, Int.neg_neg]
  refine Reads.bind_nil (Reads.pure typeId) ?_
  rw [if_neg hknown]
  exact reads_mapType known

theorem readMapValue_mapValue {typeId : Int} {entries : List (String × String)}
    (known : KnownTypeId typeId) (fits : (mapValue typeId entries).length < 2 ^ 64)
    (room : 48 * entries.length < 2 ^ 63) :
    readMapValue reserve typeId (mapValue typeId entries) = .ok entries := by
  have hrange : -2 ^ 63 ≤ typeId ∧ typeId < 2 ^ 63 := by
    rcases known with rfl | rfl <;> decide
  have hentries : ∀ entry ∈ entries, (encodeUint 0 ++ encodeString entry.1).length < 2 ^ 64 ∧
      (encodeUint 0 ++ encodeString entry.2).length < 2 ^ 64 := by
    intro entry hentry
    have hlength := entry_length_le hentry
    have hkey := inner_length_le entry.1
    have hvalue := inner_length_le entry.2
    rw [mapValue, List.length_append, List.length_append, List.length_append] at fits
    omega
  have hreserve : reserve entries.length = pure () := if_pos room
  refine ((reads_expectInt _ hrange).bind ((reads_expectUint _ (by decide)).bind
    ((reads_uint (by omega)).bind ?_))).whole
  rw [hreserve]
  exact Reads.bind_nil (Reads.pure ()) (reads_entries hentries)

/-- A map that fits is decoded to what was encoded. -/
theorem decodeStringMap_encode {typeId : Int} {entries : List (String × String)}
    (known : KnownTypeId typeId) (fits : (mapValue typeId entries).length < 2 ^ 64)
    (room : 48 * entries.length < 2 ^ 63) :
    decodeStringMap (message (typeDefinition typeId) ++ message (mapValue typeId entries)) =
      .ok entries := by
  have hdefinition : (typeDefinition typeId).length < 2 ^ 64 := by
    rcases known with rfl | rfl <;> decide
  refine ((reads_message hdefinition).bind (Reads.bind_nil
    (Reads.lift (readTypeDefinition_typeDefinition known)) ((reads_message fits).bind_end
      (Reads.lift (readMapValue_mapValue known fits room))))).whole

theorem encodeUint_length_le (value : Nat) : (encodeUint value).length ≤ 9 := by
  unfold encodeUint
  split
  · simp
  · have hle := (List.dropWhile_suffix (· == 0) : (toBeBytes value).dropWhile (· == 0) <:+ _).length_le
    simp only [List.length_cons]
    exact Nat.succ_le_succ hle

theorem mapValue_token_length_le (token : String) :
    (mapValue mapTypeId [("token", token)]).length ≤ (asBytes token).length + 60 := by
  have hinner := encodeUint_length_le (encodeUint 0 ++ encodeString token).length
  have hlength := encodeUint_length_le (asBytes token).length
  have hkey : (encodeInterfaceString "token").length = 16 := by decide
  have hname : (encodeString stringTypeName).length = 7 := by decide
  have hhead : (encodeInt mapTypeId).length = 2 ∧ (encodeUint 0).length = 1 ∧
      (encodeUint 1).length = 1 ∧ (encodeInt stringTypeId).length = 1 := by decide
  obtain ⟨hid, hzero, hone, hstring⟩ := hhead
  have hvalue : (encodeInterfaceString token).length ≤ (asBytes token).length + 27 := by
    simp only [encodeInterfaceString, message, encodeString, List.length_append] at hinner hname ⊢
    omega
  simp only [mapValue, encodeEntries, List.length_append, List.length_cons, List.length_nil,
    Nat.zero_add] at hvalue ⊢
  omega

/-- The stream adds a fixed amount to the token. -/
theorem encodeTokenMap_length_le (token : String) :
    (encodeTokenMap token).length ≤ (asBytes token).length + 83 := by
  have hvalue := mapValue_token_length_le token
  have hlead := encodeUint_length_le (mapValue mapTypeId [("token", token)]).length
  have hdefinition : (message (typeDefinition mapTypeId)).length = 14 := by decide
  simp only [encodeTokenMap, message, List.length_append] at hdefinition ⊢
  omega

theorem decodeTokenMap_encodeTokenMap (token : String)
    (fits : (asBytes token).length + 60 < 2 ^ 64) :
    decodeTokenMap (encodeTokenMap token) = .ok token := by
  have hvalue := mapValue_token_length_le token
  have hmap : decodeStringMapWith reserve (encodeTokenMap token) = .ok [("token", token)] :=
    decodeStringMap_encode (.inl rfl) (by omega) (by simp)
  unfold decodeTokenMap decodeTokenMapWith
  rw [hmap]
  rfl

/-- The bytes of the pairs in memory, 24 for the head of a string. -/
def totalSize (pairs : List (String × String)) : Nat :=
  (pairs.map fun (key, value) => (24 + (asBytes key).length) + (24 + (asBytes value).length)).sum

theorem encodeInterfaceString_length_le (value : String) :
    (encodeInterfaceString value).length ≤ 27 + (asBytes value).length := by
  have hname : (encodeString stringTypeName).length = 7 := by decide
  have hid : (encodeInt stringTypeId).length = 1 ∧ (encodeUint 0).length = 1 := by decide
  have hinner := encodeUint_length_le (encodeUint 0 ++ encodeString value).length
  have hlength := encodeUint_length_le (asBytes value).length
  simp only [encodeInterfaceString, message, List.length_append] at hinner ⊢
  simp only [encodeString, List.length_append] at hinner hname ⊢
  omega

/-- Text is written longer than it is in memory, but not by much. -/
theorem encodeEntries_length_le (pairs : List (String × String)) :
    8 * (encodeEntries pairs).length ≤ 9 * totalSize pairs := by
  induction pairs with
  | nil => simp [encodeEntries]
  | cons pair pairs ih =>
    have hkey := encodeInterfaceString_length_le pair.1
    have hvalue := encodeInterfaceString_length_le pair.2
    simp only [encodeEntries, List.length_append, totalSize, List.map_cons, List.sum_cons] at ih ⊢
    omega

theorem length_le_totalSize (pairs : List (String × String)) : 48 * pairs.length ≤ totalSize pairs := by
  induction pairs with
  | nil => simp
  | cons pair pairs ih =>
    simp only [totalSize, List.length_cons, List.map_cons, List.sum_cons] at ih ⊢
    omega

/-- What is written is read back: any map that fits in memory, under both type ids, and any
token. -/
theorem gob_round_trip :
    (∀ typeId, KnownTypeId typeId → ∀ pairs, totalSize pairs < 2 ^ 63 →
      decodeStringMap (message (typeDefinition typeId) ++ message (mapValue typeId pairs)) = .ok pairs) ∧
    ∀ token, (asBytes token).length < 2 ^ 63 → decodeTokenMap (encodeTokenMap token) = .ok token := by
  constructor
  · intro typeId known pairs hsize
    have hentries := encodeEntries_length_le pairs
    have hcount := length_le_totalSize pairs
    have hid : (encodeInt typeId).length = 2 ∧ (encodeUint 0).length = 1 := by
      rcases known with rfl | rfl <;> decide
    have hlength := encodeUint_length_le pairs.length
    apply decodeStringMap_encode known
    · simp only [mapValue, List.length_append]
      omega
    · omega
  · intro token hlength
    apply decodeTokenMap_encodeTokenMap
    omega

theorem gob_round_trip_legacy :
    decodeStringMap (message (typeDefinition legacyMapTypeId) ++
      message (mapValue legacyMapTypeId [("token", "jwt"), ("", "ünï")])) =
        .ok [("token", "jwt"), ("", "ünï")] ∧
    decodeTokenMap (encodeTokenMap "abc") = .ok "abc" :=
  ⟨gob_round_trip.1 legacyMapTypeId (.inr rfl) _ (by decide), gob_round_trip.2 "abc" (by decide)⟩

end LakeFsAuth.Authn.Gob
