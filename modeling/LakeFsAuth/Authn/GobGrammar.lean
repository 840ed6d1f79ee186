import LakeFsAuth.Authn.Gob
import LakeFsAuth.Library.Grammar

/-! The grammar of the streams the gob decoder takes, the streams on which it panics, and the room it
asks for. -/
namespace LakeFsAuth.Authn.Gob
open Library Core.Model Core.SecretBox Reader

/-- Bytes of an integer, the first one the most significant. -/
def fromBeBytes (bytes : Bytes) : Nat := bytes.foldl (fun value byte => value * 256 + byte.toNat) 0

/-- The integer an unsigned one stands for: the sign is its last bit. -/
def signed (raw : Nat) : Int := if raw % 2 = 1 then -(raw / 2 : Nat) - 1 else (raw / 2 : Nat)

/-! The languages of the format. -/

namespace Grammar

/-- One byte below 128, or a negated count and as many bytes, at most eight of them. -/
inductive UintForm : Nat → Bytes → Prop where
  | short (byte : UInt8) (small : byte < 128) : UintForm byte.toNat [byte]
  | long (bytes : Bytes) (some : 0 < bytes.length) (few : bytes.length ≤ 8) :
      UintForm (fromBeBytes bytes) (UInt8.ofNat (256 - bytes.length) :: bytes)

def uint (value : Nat) : Language UInt8 := {text | UintForm value text}

def int (value : Int) : Language UInt8 := ⨆ raw, ⨆ _ : signed raw = value, uint raw

/-- A body after its length. -/
def message (body : Language UInt8) : Language UInt8 := ⨆ text, ⨆ _ : text ∈ body, uint text.length * {text}

def string (value : String) : Language UInt8 := message {asBytes value}

/-- The name of the map type is omitted, or it is the one Go gives it. -/
def typeName : Language UInt8 := uint 2 + uint 1 * string mapTypeName * uint 1

/-- The definition of a map type, after the id it announces: the common type with its id, the key
type and the element type. -/
def mapType (typeId : Int) : Language UInt8 :=
  uint (wireTypeMapField + 1) *
    (uint 1 * typeName * int typeId * uint 0) *
    (uint 1 * int interfaceTypeId) * (uint 1 * int interfaceTypeId) * uint 0 * uint 0

def typeDefinition (typeId : Int) : Language UInt8 := int (-typeId) * mapType typeId

/-- A string as an interface value. -/
def interfaceString (value : String) : Language UInt8 :=
  string stringTypeName * int stringTypeId * message (uint 0 * string value)

def entries : List (String × String) → Language UInt8
  | [] => 1
  | (key, value) :: rest => interfaceString key * interfaceString value * entries rest

def mapValue (typeId : Int) (pairs : List (String × String)) : Language UInt8 :=
  int typeId * uint 0 * uint pairs.length * entries pairs

/-- The two messages of a stream. -/
def stream (pairs : List (String × String)) : Language UInt8 :=
  ⨆ typeId, ⨆ _ : KnownTypeId typeId, message (typeDefinition typeId) * message (mapValue typeId pairs)

end Grammar

/-! What each reader takes. -/

section Accepts

theorem accepts_take (count : Nat) : Accepts (take count) fun bytes => ⨆ _ : bytes.length = count, {bytes} :=
  .take _ count

theorem run_uint (first : UInt8) (rest : Bytes) : uint.run (first :: rest) =
    if first < 128 then .ok (first.toNat, rest)
    else if 8 < 256 - first.toNat then .error (.error .IntegerTooLarge)
    else (take (256 - first.toNat)).run rest >>= fun (bytes, rest) => .ok (fromBeBytes bytes, rest) := by
  have hfirst : (take 1).run ([first] ++ rest) = .ok ([first], rest) := reads_take_of [first] rfl rest
  unfold uint
  rw [StateT.run_bind]
  change (take 1).run ([first] ++ rest) >>= _ = _
  rw [hfirst]
  change StateT.run (if first < 128 then _ else _) rest = _
  split
  · rfl
  · change StateT.run (if 8 < 256 - first.toNat then _ else _) rest = _
    split <;> rfl

theorem run_uint_form {text rest : Bytes} {value : Nat} (h : uint.run text = .ok (value, rest)) :
    ∃ used, Grammar.UintForm value used ∧ used ++ rest = text := by
  cases text with
  | nil => cases h
  | cons first tail =>
    rw [run_uint] at h
    split at h
    · rename_i hsmall
      cases h
      exact ⟨[first], .short first hsmall, rfl⟩
    · split at h
      · cases h
      · rename_i hlarge hfew
        cases htake : (take (256 - first.toNat)).run tail with
        | error error =>
          rw [htake] at h
          cases h
        | ok outcome =>
          obtain ⟨bytes, after⟩ := outcome
          rw [htake] at h
          cases h
          obtain ⟨used, hused, rfl⟩ := (accepts_take _ _ _ _).mp htake
          obtain ⟨hlen, rfl⟩ := Language.mem_iSup.mp hused
          have hbyte := first.toNat_lt
          have hfirst : UInt8.ofNat (256 - used.length) = first := by
            rw [hlen, show 256 - (256 - first.toNat) = first.toNat by omega, UInt8.ofNat_toNat]
          refine ⟨first :: used, ?_, rfl⟩
          rw [← hfirst]
          exact .long used (by omega) (by omega)

theorem form_run_uint {used : Bytes} {value : Nat} (form : Grammar.UintForm value used) (rest : Bytes) :
    uint.run (used ++ rest) = .ok (value, rest) := by
  cases form with
  | short byte small =>
    change uint.run (byte :: rest) = _
    rw [run_uint, if_pos small]
  | long bytes some few =>
    have hcount : (UInt8.ofNat (256 - bytes.length)).toNat = 256 - bytes.length := by
      rw [UInt8.toNat_ofNat']
      omega
    have hlarge : ¬ UInt8.ofNat (256 - bytes.length) < 128 := by
      rw [UInt8.lt_iff_toNat_lt, hcount]
      simp
      omega
    change uint.run (UInt8.ofNat (256 - bytes.length) :: (bytes ++ rest)) = _
    rw [run_uint, if_neg hlarge, hcount, if_neg (by omega),
      reads_take_of bytes (by omega : 256 - (256 - bytes.length) = bytes.length) rest]
    rfl

theorem accepts_uint : Accepts uint Grammar.uint := by
  intro text value rest
  constructor
  · exact run_uint_form
  · rintro ⟨used, form, rfl⟩
    exact form_run_uint form rest

theorem accepts_int : Accepts int Grammar.int := by
  refine (accepts_uint.bind fun raw => Accepts.pure (signed raw)).congr fun value => ?_
  ext text
  simp [Grammar.int, Language.mem_iSup, Language.mem_mul, eq_comm, and_comm]

theorem accepts_message : Accepts readMessage fun body => Grammar.uint body.length * {body} := by
  refine (accepts_uint.bind accepts_take).congr fun body => ?_
  ext text
  simp [Language.mem_iSup, Language.mem_mul]

/-- A message that another reader takes whole. -/
theorem accepts_within {α : Type} {reader : Cursor α} {form : α → Language UInt8}
    (h : Accepts reader form) :
    Accepts (readMessage >>= fun body => StateT.lift (within reader body))
      fun value => Grammar.message (form value) := by
  refine (accepts_message.bind fun body => Accepts.lift _).congr fun value => ?_
  ext text
  simp only [Grammar.message, within, h.whole_ok, Language.mem_iSup, Language.mem_mul, exists_prop]
  constructor
  · rintro ⟨_, _, ⟨front, hfront, body, rfl, rfl⟩, _, ⟨hbody, rfl⟩, rfl⟩
    exact ⟨body, hbody, front, hfront, body, rfl, (List.append_nil _).symm⟩
  · rintro ⟨body, hbody, front, hfront, _, rfl, rfl⟩
    exact ⟨_, _, ⟨front, hfront, _, rfl, rfl⟩, [], ⟨hbody, rfl⟩, List.append_nil _⟩

theorem fromUtf8_eq_some {bytes : Bytes} {text : String} :
    fromUtf8 bytes = some text ↔ bytes = asBytes text := by
  constructor
  · intro h
    unfold fromUtf8 String.fromUTF8? at h
    split at h
    · cases h
      rfl
    · cases h
  · rintro rfl
    exact fromUtf8_asBytes text

theorem string_eq : string = uint >>= fun len => take len >>= fun bytes =>
    (fromUtf8 bytes).elim (fail .NotUtf8) pure := by
  unfold string
  congr
  funext len
  congr
  funext bytes
  cases fromUtf8 bytes <;> rfl

theorem accepts_string : Accepts string Grammar.string := by
  have htext (bytes : Bytes) :
      Accepts ((fromUtf8 bytes).elim (fail .NotUtf8 : Cursor String) pure)
        fun text => ⨆ _ : bytes = asBytes text, 1 := by
    cases hread : fromUtf8 bytes with
    | none =>
      refine (Accepts.throw _).congr fun text => (iSup_neg fun h => ?_).symm
      simp [fromUtf8_eq_some.mpr h] at hread
    | some text =>
      refine (Accepts.pure text).congr fun other => ?_
      simp only [fromUtf8_eq_some.mp hread, asBytes_inj, eq_comm]
  rw [string_eq]
  refine (accepts_uint.bind fun len => (accepts_take len).bind htext).congr fun text => ?_
  ext bytes
  simp only [Grammar.string, Grammar.message, Language.mem_iSup, Language.mem_mul, Language.mem_one,
    exists_prop]
  constructor
  · rintro ⟨_, len, hlen, _, ⟨_, _, ⟨rfl, rfl⟩, _, ⟨rfl, rfl⟩, rfl⟩, rfl⟩
    exact ⟨_, rfl, len, hlen, _, rfl, by simp⟩
  · rintro ⟨_, rfl, len, hlen, _, rfl, rfl⟩
    exact ⟨_, len, hlen, _, ⟨_, _, ⟨rfl, rfl⟩, [], ⟨rfl, rfl⟩, rfl⟩, by simp⟩

theorem accepts_expectUint (expected : Nat) (what : String) :
    Accepts (expectUint expected what) fun _ => Grammar.uint expected := by
  refine (accepts_uint.only expected (fun _ => _) (Accepts.pure ())).congr fun _ => ?_
  simp

theorem accepts_expectInt (expected : Int) (what : String) :
    Accepts (expectInt expected what) fun _ => Grammar.int expected := by
  refine (accepts_int.only expected (fun _ => _) (Accepts.pure ())).congr fun _ => ?_
  simp

theorem accepts_interfaceString : Accepts readInterfaceString Grammar.interfaceString := by
  have hvalue := accepts_within ((accepts_expectUint 0 "interface value has no singleton delta").andThen
    accepts_string)
  have hrest := (accepts_expectInt stringTypeId "interface value is not a string").andThen hvalue
  unfold readInterfaceString
  simp only [ne_eq, ite_not]
  refine (accepts_string.only stringTypeName (fun name => .error (.UnexpectedTypeName name))
    hrest).congr fun value => ?_
  simp only [Grammar.interfaceString, mul_assoc]

theorem accepts_entries (count : Nat) : Accepts (readEntries count) fun pairs =>
    ⨆ _ : pairs.length = count, Grammar.entries pairs := by
  induction count with
  | zero =>
    refine (Accepts.pure []).congr fun pairs => ?_
    cases pairs <;> simp [Grammar.entries]
  | succ count ih =>
    refine (accepts_interfaceString.bind fun key => accepts_interfaceString.bind fun value =>
      ih.bind fun rest => Accepts.pure ((key, value) :: rest)).congr fun pairs => ?_
    ext text
    cases pairs with
    | nil =>
      have hnone (text : Bytes) : text ∉ (⊥ : Language UInt8) := fun h => h
      simp [Language.mem_iSup, Language.mem_mul, hnone]
    | cons pair pairs =>
      simp only [Grammar.entries, Language.mem_iSup, Language.mem_mul, Language.mem_one, List.cons.injEq,
        List.length_cons, Nat.add_right_cancel_iff, exists_prop]
      constructor
      · rintro ⟨key, front, hfront, _, ⟨value, mid, hmid, _, ⟨_, back, ⟨rfl, hback⟩, _,
          ⟨⟨rfl, rfl⟩, rfl⟩, rfl⟩, rfl⟩, rfl⟩
        exact ⟨rfl, _, ⟨front, hfront, mid, hmid, rfl⟩, back, hback, by simp⟩
      · rintro ⟨rfl, _, ⟨front, hfront, mid, hmid, rfl⟩, back, hback, rfl⟩
        exact ⟨_, front, hfront, _, ⟨_, mid, hmid, _, ⟨_, back, ⟨rfl, hback⟩, [],
          ⟨⟨rfl, rfl⟩, rfl⟩, rfl⟩, rfl⟩, by simp⟩

/-- What follows the name of the type. -/
def afterName (typeId : Int) : Language UInt8 :=
  Grammar.int typeId * (Grammar.uint 0 * (Grammar.uint 1 * (Grammar.int interfaceTypeId *
    (Grammar.uint 1 * (Grammar.int interfaceTypeId * (Grammar.uint 0 * Grammar.uint 0))))))

/-- The delta to the id says whether the name is there. -/
def afterDelta (typeId : Int) (delta : Nat) : Language UInt8 :=
  if delta = 2 then afterName typeId
  else if delta = 1 then Grammar.string mapTypeName * (Grammar.uint 1 * afterName typeId)
  else 0

theorem mapType_eq (typeId : Int) : Grammar.mapType typeId =
    Grammar.uint (wireTypeMapField + 1) * (Grammar.uint 1 * ⨆ delta, Grammar.uint delta * afterDelta typeId delta) := by
  have hdelta : ⨆ delta, Grammar.uint delta * afterDelta typeId delta =
      Grammar.typeName * afterName typeId := by
    ext text
    simp only [Grammar.typeName, Language.mem_iSup, add_mul, Language.mem_add, mul_assoc]
    constructor
    · rintro ⟨delta, hmem⟩
      unfold afterDelta at hmem
      split at hmem
      · rename_i h
        exact .inl (h ▸ hmem)
      · split at hmem
        · rename_i h
          exact .inr (h ▸ hmem)
        · simp at hmem
    · rintro (hmem | hmem)
      · exact ⟨2, by simpa [afterDelta] using hmem⟩
      · exact ⟨1, by simpa [afterDelta] using hmem⟩
  rw [hdelta]
  simp only [Grammar.mapType, afterName, mul_assoc]

theorem accepts_mapType (typeId : Int) : Accepts (readMapType typeId) fun result =>
    ⨆ _ : result = typeId, Grammar.mapType typeId := by
  have hend := ((accepts_expectInt interfaceTypeId "map key is not an interface").andThen
    ((accepts_expectUint 1 "map type has no element type").andThen
    ((accepts_expectInt interfaceTypeId "map element is not an interface").andThen
    ((accepts_expectUint 0 "map type is not terminated").andThen
    ((accepts_expectUint 0 "wire type is not terminated").andThen (Accepts.pure typeId))))))
  have hid := (accepts_expectInt typeId "map type id does not match the definition").andThen
    ((accepts_expectUint 0 "common type is not terminated").andThen
    ((accepts_expectUint 1 "map type has no key type").andThen hend))
  have hname := accepts_string.only mapTypeName (fun name => .error (.UnexpectedTypeName name))
    ((accepts_expectUint 1 "map type has no id").andThen hid)
  unfold readMapType
  refine ((accepts_expectUint (wireTypeMapField + 1) "type definition is not a map type").andThen
    ((accepts_expectUint 1 "map type has no common type").andThen
    (@Accepts.bind _ _ _ _ _ _ (fun delta result => ⨆ _ : result = typeId, afterDelta typeId delta)
      accepts_uint fun delta => ?_))).congr fun result => ?_
  · dsimp only
    split
    · refine hid.congr fun result => ?_
      simp [afterDelta, afterName, Language.mul_iSup]
    · simp only [ne_eq, ite_not]
      refine hname.congr fun result => ?_
      simp [afterDelta, afterName, Language.mul_iSup]
    · rename_i htwo hone
      refine (Accepts.throw _).congr fun result => ?_
      have hnone : afterDelta typeId delta = 0 := by
        rw [afterDelta, if_neg htwo, if_neg hone]
      ext text
      simp [hnone, Language.mem_iSup]
  · rw [mapType_eq]
    simp only [Language.mul_iSup]
    exact iSup_comm

theorem accepts_negate (value : Int) : Accepts (negate value) fun result =>
    ⨆ _ : ¬ value = -2 ^ 63, ⨆ _ : result = -value, 1 :=
  .throw_ite _ fun _ => .pure _

theorem readTypeDefinition_ok {body : Bytes} {typeId : Int} : readTypeDefinition body = .ok typeId ↔
    KnownTypeId typeId ∧ body ∈ Grammar.typeDefinition typeId := by
  have hknown (typeId : Int) := Accepts.throw_ite (p := typeId ≠ mapTypeId ∧ typeId ≠ legacyMapTypeId)
    (.error (.UnexpectedTypeId typeId)) fun _ => accepts_mapType typeId
  have hnegative (announced : Int) := Accepts.throw_ite (p := 0 ≤ announced)
    (.error (.Unexpected "first message is not a type definition"))
    fun _ => (accepts_negate announced).bind hknown
  refine ((accepts_int.bind hnegative).whole_ok _).trans ?_
  simp only [Language.mem_iSup, Language.mem_mul, Language.mem_one, exists_prop]
  constructor
  · rintro ⟨announced, front, hfront, _, ⟨_, typeId, _, ⟨_, rfl, rfl⟩, back, ⟨hid, rfl, hback⟩, rfl⟩, rfl⟩
    refine ⟨by unfold KnownTypeId; tauto, ?_⟩
    rw [Grammar.typeDefinition, Int.neg_neg]
    exact Language.append_mem_mul hfront hback
  · rintro ⟨known, hbody⟩
    obtain ⟨front, hfront, back, hback, rfl⟩ := Language.mem_mul.mp hbody
    have hrange : ¬ 0 ≤ -typeId ∧ ¬ -typeId = -2 ^ 63 := by
      rcases known with rfl | rfl <;> decide
    refine ⟨-typeId, front, hfront, back, ⟨hrange.1, typeId, [], ⟨hrange.2, by simp, rfl⟩, back,
      ⟨?_, rfl, hback⟩, rfl⟩, rfl⟩
    unfold KnownTypeId at known
    tauto

/-- A vector of that many pairs can be asked for. -/
def Allocatable (count : Nat) : Prop := 48 * count < 2 ^ 63

theorem readMapValue_ok {typeId : Int} {body : Bytes} {pairs : List (String × String)} :
    readMapValue reserve typeId body = .ok pairs ↔
      body ∈ Grammar.mapValue typeId pairs ∧ Allocatable pairs.length := by
  have hreserve (count : Nat) : Accepts (reserve count) fun _ => ⨆ _ : Allocatable count, 1 :=
    (Accepts.ite_throw _ fun _ => Accepts.pure ()).congr fun _ => by simp [Allocatable]
  refine (((accepts_expectInt typeId _).andThen ((accepts_expectUint 0 _).andThen (accepts_uint.bind
    fun count => (hreserve count).andThen (accepts_entries count)))).whole_ok _).trans ?_
  simp only [Grammar.mapValue, mul_assoc, Language.mem_mul, Language.mem_iSup, Language.mem_one, exists_prop]
  constructor
  · rintro ⟨front, hfront, _, ⟨zero, hzero, _, ⟨_, count, hcount, _,
      ⟨_, ⟨hroom, rfl⟩, back, ⟨rfl, hback⟩, rfl⟩, rfl⟩, rfl⟩, rfl⟩
    exact ⟨⟨front, hfront, _, ⟨zero, hzero, _, ⟨count, hcount, back, hback, rfl⟩, rfl⟩, by simp⟩, hroom⟩
  · rintro ⟨⟨front, hfront, _, ⟨zero, hzero, _, ⟨count, hcount, back, hback, rfl⟩, rfl⟩, rfl⟩, hroom⟩
    exact ⟨front, hfront, _, ⟨zero, hzero, _, ⟨_, count, hcount, _,
      ⟨[], ⟨hroom, rfl⟩, back, ⟨rfl, hback⟩, rfl⟩, rfl⟩, rfl⟩, rfl⟩

theorem accepts_stream : Accepts
    (do
      let typeId ← StateT.lift (readTypeDefinition (← readMessage))
      StateT.lift (readMapValue reserve typeId (← readMessage)) : Cursor (List (String × String)))
    fun pairs => ⨆ _ : Allocatable pairs.length, Grammar.stream pairs := by
  refine (accepts_message.bind fun definition => (Accepts.lift (readTypeDefinition definition)).bind
    fun typeId => accepts_message.bind fun value => Accepts.lift (readMapValue reserve typeId value)).congr
    fun pairs => ?_
  ext text
  simp only [Grammar.stream, Grammar.message, readTypeDefinition_ok, readMapValue_ok, Language.mem_iSup,
    Language.mem_mul, Language.mem_one, exists_prop]
  constructor
  · rintro ⟨definition, front, hfront, _, ⟨typeId, _, ⟨⟨known, hdefinition⟩, rfl⟩, _, ⟨value, back, hback, _,
      ⟨⟨hvalue, hroom⟩, rfl⟩, rfl⟩, rfl⟩, rfl⟩
    exact ⟨hroom, typeId, known, front, ⟨definition, hdefinition, hfront⟩, back,
      ⟨value, hvalue, hback⟩, by simp⟩
  · rintro ⟨hroom, typeId, known, front, ⟨definition, hdefinition, hfront⟩, back, ⟨value, hvalue, hback⟩, rfl⟩
    exact ⟨definition, front, hfront, _, ⟨typeId, [], ⟨⟨known, hdefinition⟩, rfl⟩, _, ⟨value, back, hback, [],
      ⟨⟨hvalue, hroom⟩, rfl⟩, rfl⟩, rfl⟩, by simp⟩

/-- The decoder takes the streams of the grammar whose pairs fit a vector, and no others. No
stream it takes is a proper prefix of another one. -/
theorem decodeStringMap_takes (stream : Bytes) :
    (∀ pairs, decodeStringMap stream = .ok pairs ↔
      stream ∈ Grammar.stream pairs ∧ Allocatable pairs.length) ∧
    ∀ more pairs others, decodeStringMap stream = .ok pairs →
      decodeStringMap (stream ++ more) = .ok others → more = [] := by
  refine ⟨fun pairs => ?_, fun more pairs others hfront hall => accepts_stream.whole_prefix hfront hall⟩
  refine (accepts_stream.whole_ok _).trans ?_
  simp only [Language.mem_iSup, exists_prop]
  exact and_comm

/-- A stream of the legacy type id. -/
def legacyStream : Bytes :=
  message (typeDefinition legacyMapTypeId) ++ message (mapValue legacyMapTypeId [("token", "jwt")])

theorem decodeStringMap_takes_legacy : legacyStream ∈ Grammar.stream [("token", "jwt")] ∧
    ∀ more others, decodeStringMap (legacyStream ++ more) = .ok others → more = [] := by
  have hread : decodeStringMap legacyStream = .ok [("token", "jwt")] := by decide
  obtain ⟨takes, prefixFree⟩ := decodeStringMap_takes legacyStream
  exact ⟨((takes _).mp hread).1, fun more others => prefixFree more _ others hread⟩

end Accepts

/-! The streams on which the decoder panics. -/

namespace Grammar

/-- A first message that announces the least type id. -/
def leastTypeId : Language UInt8 := message (int (-2 ^ 63) * ⊤) * ⊤

/-- A stream that gets to its pairs and announces this many. -/
def announcing (count : Nat) : Language UInt8 :=
  ⨆ typeId, ⨆ _ : KnownTypeId typeId, message (typeDefinition typeId) *
    (message (int typeId * (uint 0 * (uint count * ⊤))) * ⊤)

end Grammar

/-- The decoder answers with a token or an error, and it never asks room for more pairs than there
are bytes. -/
structure Safe (stream : Bytes) : Prop where
  answers : decodeTokenMap stream ≠ .error .panic
  bounded : ∀ count, reserved stream = some count → count ≤ stream.length

section Raises

/-- What stops a reader is no error of the format. -/
abbrev Halts (fault : Fault) : Prop := ∀ error, Fault.error error ≠ fault

abbrev Calm {α : Type} (fault : Fault) (reader : Cursor α) : Prop := Raises reader fault 0

variable {fault : Fault} (halts : Halts fault)
include halts

theorem calm_fail {α : Type} (error : GobError) : Calm fault (fail error : Cursor α) :=
  .throw_other (halts error)

theorem calm_take (count : Nat) : Calm fault (take count) := .take (halts _) count

theorem calm_uint : Calm fault uint := by
  refine (calm_take halts 1).bind_never fun bytes => ?_
  split
  · split
    · exact .pure _
    · dsimp only
      split
      · exact calm_fail halts _
      · exact (calm_take halts _).bind_never fun _ => .pure _
  · exact calm_fail halts _

theorem calm_int : Calm fault int := (calm_uint halts).bind_never fun _ => .pure _

theorem calm_message : Calm fault readMessage := (calm_uint halts).bind_never (calm_take halts)

theorem calm_string : Calm fault string := by
  refine (calm_uint halts).bind_never fun len => (calm_take halts len).bind_never fun bytes => ?_
  split
  · exact .pure _
  · exact calm_fail halts _

theorem calm_expectUint (expected : Nat) (what : String) : Calm fault (expectUint expected what) := by
  refine (calm_uint halts).bind_never fun value => ?_
  split
  · exact .pure _
  · exact calm_fail halts _

theorem calm_expectInt (expected : Int) (what : String) : Calm fault (expectInt expected what) := by
  refine (calm_int halts).bind_never fun value => ?_
  split
  · exact .pure _
  · exact calm_fail halts _

theorem calm_interfaceString : Calm fault readInterfaceString := by
  refine (calm_string halts).bind_never fun name => ?_
  split
  · exact calm_fail halts _
  · refine (calm_expectInt halts _ _).bind_never fun _ => (calm_message halts).bind_never fun inner => ?_
    exact ((calm_expectUint halts _ _).bind_never fun _ => calm_string halts).lift_whole (halts _) inner

theorem calm_entries (count : Nat) : Calm fault (readEntries count) := by
  induction count with
  | zero => exact .pure _
  | succ count ih =>
    exact (calm_interfaceString halts).bind_never fun key =>
      (calm_interfaceString halts).bind_never fun value => ih.bind_never fun rest => .pure _

theorem calm_mapType (typeId : Int) : Calm fault (readMapType typeId) := by
  have hid : Calm fault (do
      expectInt typeId "map type id does not match the definition"
      expectUint 0 "common type is not terminated"
      expectUint 1 "map type has no key type"
      expectInt interfaceTypeId "map key is not an interface"
      expectUint 1 "map type has no element type"
      expectInt interfaceTypeId "map element is not an interface"
      expectUint 0 "map type is not terminated"
      expectUint 0 "wire type is not terminated"
      return typeId) :=
    (calm_expectInt halts _ _).bind_never fun _ => (calm_expectUint halts _ _).bind_never fun _ =>
    (calm_expectUint halts _ _).bind_never fun _ => (calm_expectInt halts _ _).bind_never fun _ =>
    (calm_expectUint halts _ _).bind_never fun _ => (calm_expectInt halts _ _).bind_never fun _ =>
    (calm_expectUint halts _ _).bind_never fun _ => (calm_expectUint halts _ _).bind_never fun _ =>
    .pure _
  refine (calm_expectUint halts _ _).bind_never fun _ => (calm_expectUint halts _ _).bind_never fun _ =>
    (calm_uint halts).bind_never fun delta => ?_
  dsimp only
  split
  · exact hid
  · refine (calm_string halts).bind_never fun name => ?_
    split
    · exact (calm_fail halts _).bind_never fun _ => hid
    · exact (calm_expectUint halts _ _).bind_never fun _ => hid
  · exact (calm_fail halts _).bind_never fun _ => hid

/-- The definition stops where the negation of the announced id does. -/
theorem readTypeDefinition_stops {stops : Prop} {body : Bytes}
    (negation : ∀ announced, Raises (negate announced) fault (⨆ _ : announced = -2 ^ 63 ∧ stops, ⊤)) :
    readTypeDefinition body = .error fault ↔ body ∈ Grammar.int (-2 ^ 63) * ⊤ ∧ stops := by
  have hknown (typeId : Int) : Calm fault (if typeId ≠ mapTypeId ∧ typeId ≠ legacyMapTypeId then
      fail (.UnexpectedTypeId typeId) else readMapType typeId) := by
    split
    · exact calm_fail halts _
    · exact calm_mapType halts typeId
  have hnegative (announced : Int) : Raises (if 0 ≤ announced then
      fail (.Unexpected "first message is not a type definition")
      else do
        let typeId ← negate announced
        if typeId ≠ mapTypeId ∧ typeId ≠ legacyMapTypeId then fail (.UnexpectedTypeId typeId)
        else readMapType typeId) fault (⨆ _ : announced = -2 ^ 63 ∧ stops, ⊤) := by
    split
    · rename_i h
      refine (calm_fail halts _).congr (iSup_neg fun hmin => ?_).symm
      rw [hmin.1] at h
      exact absurd h (by decide)
    · exact (negation announced).bind_never hknown
  refine (((calm_int halts).after accepts_int hnegative).whole_error (halts _)).trans ?_
  simp only [Language.mem_iSup, Language.mem_mul, exists_prop]
  constructor
  · rintro ⟨_, front, hfront, back, ⟨⟨rfl, hstops⟩, _⟩, rfl⟩
    exact ⟨⟨front, hfront, back, trivial, rfl⟩, hstops⟩
  · rintro ⟨⟨front, hfront, back, _, rfl⟩, hstops⟩
    exact ⟨_, front, hfront, back, ⟨⟨rfl, hstops⟩, trivial⟩, rfl⟩

/-- The value stops where room for its pairs is refused. -/
theorem readMapValue_stops {withCapacity : Nat → Cursor Unit} {refused : Nat → Prop}
    (room : ∀ count, Raises (withCapacity count) fault (⨆ _ : refused count, ⊤)) {typeId : Int}
    {body : Bytes} : readMapValue withCapacity typeId body = .error fault ↔
      ∃ count, refused count ∧
        body ∈ Grammar.int typeId * (Grammar.uint 0 * (Grammar.uint count * ⊤)) := by
  have hentries (count : Nat) : Raises (withCapacity count >>= fun _ => readEntries count) fault
      (⨆ _ : refused count, ⊤) :=
    (room count).bind_never fun _ => calm_entries halts count
  refine (((calm_expectInt halts typeId _).after (accepts_expectInt typeId _) fun _ =>
    (calm_expectUint halts 0 _).after (accepts_expectUint 0 _) fun _ =>
    (calm_uint halts).after accepts_uint hentries).whole_error (halts _)).trans ?_
  simp only [iSup_const, Language.mul_iSup, Language.mem_iSup, exists_prop]

theorem decodeStringMap_stops {withCapacity : Nat → Cursor Unit} {stops : Prop} {refused : Nat → Prop}
    (negation : ∀ announced, Raises (negate announced) fault (⨆ _ : announced = -2 ^ 63 ∧ stops, ⊤))
    (room : ∀ count, Raises (withCapacity count) fault (⨆ _ : refused count, ⊤)) {stream : Bytes} :
    decodeStringMapWith withCapacity stream = .error fault ↔
      stream ∈ Grammar.leastTypeId ∧ stops ∨ ∃ count, refused count ∧ stream ∈ Grammar.announcing count := by
  refine (((calm_message halts).after accepts_message fun definition =>
    (Raises.lift (readTypeDefinition definition)).bind (Accepts.lift (readTypeDefinition definition))
      fun typeId => (calm_message halts).after accepts_message fun value =>
        Raises.lift (readMapValue withCapacity typeId value)).whole_error (halts _)).trans ?_
  simp only [Grammar.leastTypeId, Grammar.announcing, Grammar.message, readTypeDefinition_ok,
    readTypeDefinition_stops halts negation, readMapValue_stops halts room, mul_add, Language.mem_add,
    Language.mem_iSup, Language.mem_mul, Language.mem_one, exists_prop]
  constructor
  · rintro ⟨definition, h | h⟩
    · obtain ⟨front, hfront, back, ⟨⟨hleast, hstops⟩, _⟩, rfl⟩ := h
      exact .inl ⟨⟨front, ⟨definition, hleast, hfront⟩, back, trivial, rfl⟩, hstops⟩
    · obtain ⟨front, hfront, _, ⟨typeId, _, ⟨⟨known, hdefinition⟩, rfl⟩, _, ⟨value, mid, hmid, back,
        ⟨⟨count, hrefused, hvalue⟩, _⟩, rfl⟩, rfl⟩, rfl⟩ := h
      exact .inr ⟨count, hrefused, typeId, known, front, ⟨definition, hdefinition, hfront⟩, _,
        ⟨mid, ⟨value, hvalue, hmid⟩, back, trivial, rfl⟩, by simp⟩
  · rintro (h | h)
    · obtain ⟨⟨front, ⟨definition, hleast, hfront⟩, back, _, rfl⟩, hstops⟩ := h
      exact ⟨definition, .inl ⟨front, hfront, back, ⟨⟨hleast, hstops⟩, trivial⟩, rfl⟩⟩
    · obtain ⟨count, hrefused, typeId, known, front, ⟨definition, hdefinition, hfront⟩, _,
        ⟨mid, ⟨value, hvalue, hmid⟩, back, _, rfl⟩, rfl⟩ := h
      exact ⟨definition, .inr ⟨front, hfront, _, ⟨typeId, [], ⟨⟨known, hdefinition⟩, rfl⟩, _,
        ⟨value, mid, hmid, back, ⟨⟨count, hrefused, hvalue⟩, trivial⟩, rfl⟩, rfl⟩, by simp⟩⟩

theorem decodeTokenMap_stops {withCapacity : Nat → Cursor Unit} {stream : Bytes} :
    decodeTokenMapWith withCapacity stream = .error fault ↔
      decodeStringMapWith withCapacity stream = .error fault := by
  unfold decodeTokenMapWith
  cases decodeStringMapWith withCapacity stream with
  | error fault => simp [Bind.bind, Except.bind]
  | ok pairs =>
    simp only [Bind.bind, Except.bind, reduceCtorEq, iff_false]
    split <;> simp [Pure.pure, Except.pure, throw, throwThe, MonadExceptOf.throw, halts]

end Raises

theorem decodeTokenMap_panics {stream : Bytes} : decodeTokenMap stream = .error .panic ↔
    stream ∈ Grammar.leastTypeId ∨ ∃ count, ¬ Allocatable count ∧ stream ∈ Grammar.announcing count := by
  have halts : Halts .panic := fun _ => by simp
  have negation (announced : Int) : Raises (negate announced) .panic
      (⨆ _ : announced = -2 ^ 63 ∧ True, ⊤) := by
    unfold negate
    split
    · rename_i h
      exact (Raises.throw_same Fault.panic).congr (by rw [iSup_pos ⟨h, trivial⟩])
    · rename_i h
      exact (Raises.pure _).congr (iSup_neg fun hmin => h hmin.1).symm
  have room (count : Nat) : Raises (reserve count) .panic (⨆ _ : ¬ Allocatable count, ⊤) := by
    unfold reserve
    split
    · rename_i h
      exact (Raises.pure _).congr (iSup_neg (not_not.mpr h)).symm
    · rename_i h
      have hlarge : ¬ Allocatable count := h
      exact (Raises.throw_same Fault.panic).congr (by rw [iSup_pos hlarge])
  refine (decodeTokenMap_stops halts).trans ((decodeStringMap_stops halts negation room).trans ?_)
  rw [and_true]

/-- What the decoder asks room for is what the stream announces. -/
theorem reserved_iff {stream : Bytes} {count : Nat} :
    reserved stream = some count ↔ stream ∈ Grammar.announcing count := by
  have halts : Halts (.reserving count) := fun _ => by simp
  have negation (announced : Int) : Raises (negate announced) (.reserving count)
      (⨆ _ : announced = -2 ^ 63 ∧ False, ⊤) := by
    have never : Calm (.reserving count) (negate announced) := by
      unfold negate
      split
      · exact .throw_other (by simp)
      · exact .pure _
    exact never.congr (iSup_neg fun h => h.2).symm
  have room (asked : Nat) : Raises (throw (.reserving asked) : Cursor Unit) (.reserving count)
      (⨆ _ : asked = count, ⊤) := by
    by_cases h : asked = count
    · subst h
      exact (Raises.throw_same _).congr (by rw [iSup_pos rfl])
    · exact (Raises.throw_other (by simpa using h)).congr (iSup_neg h).symm
  have hstops : decodeTokenMapWith (fun asked => throw (.reserving asked)) stream =
      .error (.reserving count) ↔ stream ∈ Grammar.announcing count := by
    refine (decodeTokenMap_stops halts).trans ((decodeStringMap_stops halts negation room).trans ?_)
    simp only [and_false, false_or, exists_eq_left]
  rw [← hstops, reserved]
  split
  · rename_i asked h
    rw [h]
    simp
  · rename_i h
    exact iff_of_false (by simp) (h count)

/-- The decoder is safe exactly on the streams that announce neither the least type id nor a
count of pairs that the stream is too short for, or that no vector can hold. -/
theorem safe_iff (stream : Bytes) : Safe stream ↔ stream ∉ Grammar.leastTypeId ∧
    ∀ count, stream ∈ Grammar.announcing count → count ≤ stream.length ∧ Allocatable count := by
  constructor
  · intro safe
    have hcalm := safe.answers
    rw [Ne, decodeTokenMap_panics, not_or, not_exists] at hcalm
    refine ⟨hcalm.1, fun count hmem => ⟨safe.bounded count (reserved_iff.mpr hmem), ?_⟩⟩
    by_contra hlarge
    exact hcalm.2 count ⟨hlarge, hmem⟩
  · rintro ⟨hleast, hcounts⟩
    refine ⟨?_, fun count h => (hcounts count (reserved_iff.mp h)).1⟩
    rw [Ne, decodeTokenMap_panics, not_or, not_exists]
    exact ⟨hleast, fun count h => h.1 (hcounts count h.2).2⟩

/-- A first message with the least type id. -/
def leastId : Bytes := message (encodeInt (-2 ^ 63))

/-- A map of almost `2 ^ 64` pairs, with none of them. -/
def hugeMap : Bytes :=
  message (typeDefinition mapTypeId) ++
    message (encodeInt mapTypeId ++ (encodeUint 0 ++ encodeUint (2 ^ 64 - 1)))

theorem decoder_panics : decodeTokenMap leastId = .error .panic ∧ decodeTokenMap hugeMap = .error .panic ∧
    ¬ ∀ stream, Safe stream := by
  have hleast : decodeTokenMap leastId = .error .panic := by decide
  have hhuge : decodeTokenMap hugeMap = .error .panic := by decide
  exact ⟨hleast, hhuge, fun safe => (safe leastId).answers hleast⟩

end LakeFsAuth.Authn.Gob
