import LakeFsAuth.Core.Model
import LakeFsAuth.Library.Base64
import LakeFsAuth.Library.Decimal
import LakeFsAuth.Library.Fields
import Mathlib.Data.Set.Basic

/-! Signed session cookies: HMAC-SHA256, no encryption. Text stands as its UTF-8 bytes. -/
namespace LakeFsAuth.Authn.SecureCookie
open Library Core.Model

inductive CookieError where
  | TooLong
  | NotBase64
  | Malformed
  | BadSignature
  | BadTimestamp
  | Expired
  deriving DecidableEq, Repr

def defaultMaxLength : Nat := 4096

/-- 30 days in seconds. -/
def defaultMaxAge : Int := 86400 * 30

def macLen : Nat := 32

/-- The byte `|`. -/
def pipe : UInt8 := 124

/-- The range of an `i64`. -/
def InI64 (n : Int) : Prop := -2 ^ 63 ≤ n ∧ n < 2 ^ 63

instance (n : Int) : Decidable (InI64 n) := inferInstanceAs (Decidable (_ ∧ _))

/-- The difference of two `i64`, which wraps around. -/
def subI64 (a b : Int) : Int := (a - b).bmod (2 ^ 64)

theorem subI64_eq {a b : Int} (h : InI64 (a - b)) : subI64 a b = a - b :=
  Int.bmod_eq_of_le (by have := h.1; omega) (by have := h.2; omega)

/-- The seconds a `jiff::Timestamp` can hold. -/
def InClock (now : Int) : Prop := -377705023201 ≤ now ∧ now ≤ 253402207200

instance (now : Int) : Decidable (InClock now) := inferInstanceAs (Decidable (_ ∧ _))

/-- `i64::from_str`. -/
def parseI64 (text : Bytes) : Option Int :=
  (Decimal.read text).filter fun n => InI64 n

theorem parseI64_text {n : Int} (h : InI64 n) : parseI64 (Decimal.text n) = some n := by
  simp [parseI64, Decimal.read_text, h]

class HmacSha256 where
  mac : (key message : Bytes) → Bytes
  mac_length : ∀ key message, (mac key message).length = macLen

/-- A keyed codec. `0` disables the length check or the age check. The age leaves room in an
`i64` below every time of the clock. -/
structure CookieCodec where
  key : Bytes
  maxLength : Nat
  maxAge : Int
  maxAge_fits : ∀ now, InClock now → InI64 (now - maxAge)

namespace CookieCodec

/-- `CookieCodec::new`. -/
def new (hashKey : Bytes) : CookieCodec where
  key := hashKey
  maxLength := defaultMaxLength
  maxAge := defaultMaxAge
  maxAge_fits now h := by
    simp only [InClock, InI64, defaultMaxAge] at h ⊢
    omega

/-- `CookieCodec::with_max_length`. -/
def withMaxLength (self : CookieCodec) (maxLength : Nat) : CookieCodec :=
  { self with maxLength }

end CookieCodec

/-- What the tag of a cookie covers. -/
def signed (name timestamp encodedValue : Bytes) : Bytes :=
  name ++ pipe :: (timestamp ++ pipe :: encodedValue)

def base64 : Bytes → Bytes := Base64.urlSafe.encode true

theorem pipe_not_mem_base64 (bytes : Bytes) : pipe ∉ base64 bytes :=
  Base64.urlSafe.not_mem_encode (by decide) (by decide) true bytes

theorem pipe_not_mem_text (n : Int) : pipe ∉ Decimal.text n :=
  Decimal.not_mem_text (by decide) (by decide) n

section Codec
variable [HmacSha256] (self : CookieCodec)

/-- The cookie text of a signed message: the tag takes the place of the name. -/
def payload (key name timestamp encodedValue : Bytes) : Bytes :=
  let message := signed name timestamp encodedValue
  message.drop (name.length + 1) ++ pipe :: HmacSha256.mac key message

def CookieCodec.encodeAt (name value : Bytes) (timestamp : Int) : Except CookieError Bytes :=
  let out := base64 (payload self.key name (Decimal.text timestamp) (base64 value))
  if self.maxLength ≠ 0 ∧ self.maxLength < out.length then .error .TooLong else .ok out

def CookieCodec.decodeAt (name value : Bytes) (now : Int) : Except CookieError Bytes :=
  if self.maxLength ≠ 0 ∧ self.maxLength < value.length then .error .TooLong
  else
    match Base64.urlSafe.decode value with
    | none => .error .NotBase64
    | some raw =>
        match Fields.splitn pipe 3 raw with
        | [timestamp, encodedValue, mac] =>
            if HmacSha256.mac self.key (signed name timestamp encodedValue) ≠ mac then
              .error .BadSignature
            else
              match parseI64 timestamp with
              | none => .error .BadTimestamp
              | some issued =>
                  if self.maxAge ≠ 0 ∧ issued < subI64 now self.maxAge then .error .Expired
                  else
                    match Base64.urlSafe.decode encodedValue with
                    | none => .error .NotBase64
                    | some value => .ok value
        | _ => .error .Malformed

theorem payload_eq (key name timestamp encodedValue : Bytes) :
    payload key name timestamp encodedValue = timestamp ++ pipe :: (encodedValue ++
      pipe :: HmacSha256.mac key (signed name timestamp encodedValue)) := by
  have hdrop (rest : Bytes) : (name ++ pipe :: rest).drop (name.length + 1) = rest := by
    simp [← List.drop_drop]
  rw [payload, signed, hdrop]
  simp

/-- The pieces of what was sealed. -/
theorem splitn_payload {key name timestamp encodedValue : Bytes} (htimestamp : pipe ∉ timestamp)
    (hvalue : pipe ∉ encodedValue) :
    Fields.splitn pipe 3 (payload key name timestamp encodedValue) =
      [timestamp, encodedValue, HmacSha256.mac key (signed name timestamp encodedValue)] := by
  rw [payload_eq, Fields.splitn_field htimestamp, Fields.splitn_field hvalue]
  rfl

omit [HmacSha256] in
/-- A signed message is read from its end: only the name may hold the separator. -/
theorem signed_inj {name name' timestamp timestamp' encodedValue encodedValue' : Bytes}
    (htimestamp : pipe ∉ timestamp) (htimestamp' : pipe ∉ timestamp')
    (hvalue : pipe ∉ encodedValue) (hvalue' : pipe ∉ encodedValue')
    (heq : signed name timestamp encodedValue = signed name' timestamp' encodedValue') :
    name = name' ∧ timestamp = timestamp' ∧ encodedValue = encodedValue' := by
  have hlast : (name ++ pipe :: timestamp) ++ pipe :: encodedValue =
      (name' ++ pipe :: timestamp') ++ pipe :: encodedValue' := by
    simpa [signed] using heq
  obtain ⟨hrest, rfl⟩ := Fields.last_unique hvalue hvalue' hlast
  obtain ⟨rfl, rfl⟩ := Fields.last_unique htimestamp htimestamp' hrest
  exact ⟨rfl, rfl, rfl⟩

omit [HmacSha256] in
theorem base64_inj {bytes bytes' : Bytes} (h : base64 bytes = base64 bytes') : bytes = bytes' := by
  have hdecode := congrArg Base64.urlSafe.decode h
  simpa [base64, Base64.Alphabet.decode_encode] using hdecode

/-- A time that is not too old. -/
def CookieCodec.Fresh (now issued : Int) : Prop := self.maxAge = 0 ∨ now - self.maxAge ≤ issued

omit [HmacSha256] in
theorem fresh_iff {self : CookieCodec} {now issued : Int} (clock : InClock now) :
    self.Fresh now issued ↔ ¬ (self.maxAge ≠ 0 ∧ issued < subI64 now self.maxAge) := by
  rw [subI64_eq (self.maxAge_fits now clock), CookieCodec.Fresh]
  omega

theorem encodeAt_eq_ok {self : CookieCodec} {name value out : Bytes} {timestamp : Int} :
    self.encodeAt name value timestamp = .ok out ↔
      out = base64 (payload self.key name (Decimal.text timestamp) (base64 value)) ∧
        (self.maxLength = 0 ∨ out.length ≤ self.maxLength) := by
  unfold CookieCodec.encodeAt
  dsimp only
  constructor
  · intro h
    split_ifs at h with hlong
    cases h
    exact ⟨rfl, by omega⟩
  · rintro ⟨rfl, hshort⟩
    rw [if_neg (by omega)]

/-- What opens: a text of the codec's own key over some timestamp the reader takes. -/
theorem decodeAt_eq_ok {self : CookieCodec} {name text value : Bytes} {now : Int}
    (clock : InClock now) :
    self.decodeAt name text now = .ok value ↔
      (self.maxLength = 0 ∨ text.length ≤ self.maxLength) ∧
      ∃ timestamp issued, pipe ∉ timestamp ∧
        text = base64 (payload self.key name timestamp (base64 value)) ∧
        parseI64 timestamp = some issued ∧ self.Fresh now issued := by
  constructor
  · intro h
    unfold CookieCodec.decodeAt at h
    split_ifs at h with hlong
    refine ⟨by omega, ?_⟩
    split at h
    · cases h
    · rename_i raw hraw
      split at h
      · rename_i timestamp encodedValue mac hpieces
        split_ifs at h with hmac
        split at h
        · cases h
        · rename_i issued hissued
          split_ifs at h with hexpired
          split at h
          · cases h
          · rename_i opened hopened
            cases h
            obtain ⟨htimestamp, rest, rfl, hrest⟩ := Fields.splitn_cons hpieces
            obtain ⟨hencoded, last, rfl, hlast⟩ := Fields.splitn_cons hrest
            obtain rfl : last = mac := by simpa [Fields.splitn] using hlast
            refine ⟨timestamp, issued, htimestamp, ?_, hissued, (fresh_iff clock).mpr hexpired⟩
            have hvalue : base64 value = encodedValue := Base64.urlSafe.encode_of_decode hopened
            rw [← Base64.urlSafe.encode_of_decode hraw, hvalue, payload_eq, not_not.mp hmac]
            rfl
      · cases h
  · rintro ⟨hshort, timestamp, issued, htimestamp, htext, hissued, hage⟩
    have hraw : Base64.urlSafe.decode text =
        some (payload self.key name timestamp (base64 value)) := by
      rw [htext]
      exact Base64.urlSafe.decode_encode _
    have hopened : Base64.urlSafe.decode (base64 value) = some value :=
      Base64.urlSafe.decode_encode value
    unfold CookieCodec.decodeAt
    rw [if_neg (by omega), hraw]
    dsimp only
    rw [splitn_payload htimestamp (pipe_not_mem_base64 value)]
    dsimp only
    rw [if_neg (by simp), hissued]
    dsimp only
    rw [if_neg ((fresh_iff clock).mp hage), hopened]

/-- What a codec sealed opens under it, until it is too old. -/
theorem decodeAt_encodeAt {self : CookieCodec} {name value out : Bytes} {timestamp now : Int}
    (clock : InClock now) (range : InI64 timestamp)
    (sealed : self.encodeAt name value timestamp = .ok out) (age : self.Fresh now timestamp) :
    self.decodeAt name out now = .ok value := by
  obtain ⟨hout, hshort⟩ := encodeAt_eq_ok.mp sealed
  exact (decodeAt_eq_ok clock).mpr ⟨hshort, Decimal.text timestamp, timestamp,
    pipe_not_mem_text timestamp, hout, parseI64_text range, age⟩

/-! The tags the key holders have computed. -/

/-- A cookie that the holder of a key sealed. -/
structure Sealing where
  key : Bytes
  name : Bytes
  value : Bytes
  timestamp : Int
  range : InI64 timestamp

namespace Sealing
variable (sealing : Sealing)

def message : Bytes := signed sealing.name (Decimal.text sealing.timestamp) (base64 sealing.value)

def text : Bytes :=
  base64 (payload sealing.key sealing.name (Decimal.text sealing.timestamp) (base64 sealing.value))

end Sealing

/-- The tag a text carries is the tag of a message that its fields and the name make up. -/
def Verifies (key name text message : Bytes) : Prop :=
  ∃ timestamp encodedValue mac,
    (Base64.urlSafe.decode text).map (Fields.splitn pipe 3) =
      some [timestamp, encodedValue, mac] ∧
    message = signed name timestamp encodedValue ∧ HmacSha256.mac key message = mac

/-- An ideal HMAC, for the one tag a text carries: it verifies only for a message that the
holder of the key computed it for, and nobody computed it for anything else. -/
structure Ideal (sealings : Set Sealing) (key name text : Bytes) : Prop where
  computed : ∀ message, Verifies key name text message →
    ∃ sealing ∈ sealings, sealing.key = key ∧ sealing.message = message
  exact : ∀ sealing ∈ sealings, ∀ other ∈ sealings,
    HmacSha256.mac sealing.key sealing.message = HmacSha256.mac other.key other.message →
      sealing.key = other.key ∧ sealing.message = other.message

theorem verifies_payload {key name timestamp encodedValue : Bytes} (htimestamp : pipe ∉ timestamp)
    (hvalue : pipe ∉ encodedValue) :
    Verifies key name (base64 (payload key name timestamp encodedValue))
      (signed name timestamp encodedValue) := by
  refine ⟨timestamp, encodedValue, _, ?_, rfl, rfl⟩
  rw [← splitn_payload htimestamp hvalue, base64, Base64.Alphabet.decode_encode]
  rfl

/-- Under an ideal HMAC a text that opens was sealed, with the name and the value it opens to. -/
theorem sealing_of_decodeAt {self : CookieCodec} {sealings : Set Sealing} {name text value : Bytes}
    {now : Int} (clock : InClock now) (ideal : Ideal sealings self.key name text)
    (h : self.decodeAt name text now = .ok value) :
    ∃ sealing ∈ sealings, sealing.key = self.key ∧ sealing.name = name ∧ sealing.value = value ∧
      sealing.text = text ∧ self.Fresh now sealing.timestamp := by
  obtain ⟨hshort, timestamp, issued, htimestamp, rfl, hissued, hage⟩ := (decodeAt_eq_ok clock).mp h
  obtain ⟨sealing, hmem, hkey, hmessage⟩ :=
    ideal.computed _ (verifies_payload htimestamp (pipe_not_mem_base64 value))
  obtain ⟨hname, rfl, hvalue⟩ := signed_inj (pipe_not_mem_text sealing.timestamp) htimestamp
    (pipe_not_mem_base64 sealing.value) (pipe_not_mem_base64 value) hmessage
  rw [parseI64_text sealing.range] at hissued
  cases hissued
  refine ⟨sealing, hmem, hkey, hname, base64_inj hvalue, ?_, hage⟩
  rw [Sealing.text, hkey, hname, hvalue]

/-- The sealing a text carries the tag of is the one it was made from. -/
theorem sealing_text_inj {sealing other : Sealing}
    (exact : HmacSha256.mac sealing.key sealing.message = HmacSha256.mac other.key other.message →
      sealing.key = other.key ∧ sealing.message = other.message)
    (h : sealing.text = other.text) : sealing = other := by
  have hpieces := congrArg (Fields.splitn pipe 3) (base64_inj h)
  rw [splitn_payload (pipe_not_mem_text _) (pipe_not_mem_base64 _),
    splitn_payload (pipe_not_mem_text _) (pipe_not_mem_base64 _)] at hpieces
  have hmac : HmacSha256.mac sealing.key sealing.message =
      HmacSha256.mac other.key other.message := (List.cons.inj (List.cons.inj (List.cons.inj hpieces).2).2).1
  obtain ⟨hkey, hmessage⟩ := exact hmac
  obtain ⟨hname, htimestamp, hvalue⟩ := signed_inj (pipe_not_mem_text _) (pipe_not_mem_text _)
    (pipe_not_mem_base64 _) (pipe_not_mem_base64 _) hmessage
  have hissued := congrArg Decimal.read htimestamp
  rw [Decimal.read_text, Decimal.read_text] at hissued
  cases sealing
  cases other
  cases hkey
  cases hname
  cases base64_inj hvalue
  cases hissued
  rfl

/-- A text opens as a value exactly when the codec seals that value to it at a time that is
not too old, and a text that was sealed otherwise is refused. -/
theorem opens_only_what_was_sealed {codec : CookieCodec} {sealings : Set Sealing}
    {name text value : Bytes} {now : Int} (clock : InClock now)
    (ideal : Ideal sealings codec.key name text) :
    (codec.decodeAt name text now = .ok value ↔
      ∃ timestamp, InI64 timestamp ∧ codec.encodeAt name value timestamp = .ok text ∧
        codec.Fresh now timestamp) ∧
    ∀ sealing ∈ sealings, sealing.text = text → codec.decodeAt name text now = .ok value →
      sealing.key = codec.key ∧ sealing.name = name ∧ sealing.value = value ∧
        codec.Fresh now sealing.timestamp := by
  refine ⟨⟨fun h => ?_, fun ⟨timestamp, range, sealed, age⟩ =>
    decodeAt_encodeAt clock range sealed age⟩, fun sealing hmem htext h => ?_⟩
  · obtain ⟨sealing, hmem, hkey, rfl, rfl, htext, hage⟩ := sealing_of_decodeAt clock ideal h
    refine ⟨sealing.timestamp, sealing.range, encodeAt_eq_ok.mpr ⟨?_, ?_⟩, hage⟩
    · rw [← htext, Sealing.text, hkey]
    · exact ((decodeAt_eq_ok clock).mp h).1
  · obtain ⟨other, hother, hkey, hname, hvalue, hsame, hage⟩ := sealing_of_decodeAt clock ideal h
    obtain rfl := sealing_text_inj (ideal.exact sealing hmem other hother) (htext.trans hsame.symm)
    exact ⟨hkey, hname, hvalue, hage⟩

end Codec

section Once

/-- A tag that is the start of the key and the message. -/
@[reducible] def plainMac : HmacSha256 where
  mac key message := (key ++ message ++ List.replicate macLen 0).take macLen
  mac_length key message := by
    simp
    omega

attribute [local instance] plainMac

def sealedOnce : Sealing := ⟨[7], [110], [104, 105], 5, by decide⟩

theorem sealedOnce_ideal : Ideal {sealedOnce} [7] [110] sealedOnce.text where
  computed := by
    rintro _ ⟨timestamp, encodedValue, mac, hpieces, rfl, _⟩
    refine ⟨sealedOnce, rfl, rfl, ?_⟩
    have hsplit : (Base64.urlSafe.decode sealedOnce.text).map (Fields.splitn pipe 3) =
        some [[53], base64 [104, 105], plainMac.mac [7] sealedOnce.message] := by
      decide
    obtain ⟨rfl, rfl, _⟩ := by simpa using hsplit.symm.trans hpieces
    decide
  exact := by
    rintro sealing rfl other rfl _
    exact ⟨rfl, rfl⟩

theorem opens_only_what_was_sealed_once :
    (CookieCodec.new [7]).decodeAt [110] sealedOnce.text 6 = .ok [104, 105] := by
  refine (opens_only_what_was_sealed (by decide) sealedOnce_ideal).1.mpr ⟨5, by decide, ?_, ?_⟩
  · decide
  · exact .inr (by decide)

end Once

end LakeFsAuth.Authn.SecureCookie
