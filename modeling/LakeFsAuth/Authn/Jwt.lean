import LakeFsAuth.Authn.SecureCookie
import LakeFsAuth.Core.Json
import LakeFsAuth.Core.SecretBox
import LakeFsAuth.Core.Validate

/-! The login JWT lakeFS reads out of the browser session cookie. -/
namespace LakeFsAuth.Authn.Jwt
open Library Core.Model Core.Json Core.SecretBox SecureCookie

def loginIssuer : String := "auth"

def loginAudience : String := "login"

/-- Durations are in nanoseconds. -/
def asSecs (ttl : Nat) : Nat := ttl / 1000000000

/-- `i64::saturating_add`. -/
def saturatingAdd (a b : Int) : Int := max (-2 ^ 63) (min (2 ^ 63 - 1) (a + b))

/-- Where a token that lives for `ttl` expires. -/
def expiresAt (issuedAt : Int) (ttl : Nat) : Int :=
  saturatingAdd issuedAt (if asSecs ttl < 2 ^ 63 then asSecs ttl else (2 ^ 63 - 1) / 2)

/-- `Uuid::new_v4().to_string()`: hexadecimal digits and hyphens. -/
structure Uuid where
  text : String
  length_eq : text.length = 36
  digits : ∀ ch ∈ text.toList, ch = '-' ∨ '0' ≤ ch ∧ ch ≤ '9' ∨ 'a' ≤ ch ∧ ch ≤ 'f'

structure LoginClaims where
  jti : String
  iss : String
  sub : String
  aud : String
  iat : Int
  exp : Int

/-- `LoginClaims::new`. -/
def LoginClaims.new (jti : Uuid) (username : String) (issuedAt : Int) (ttl : Nat) : LoginClaims where
  jti := jti.text
  iss := loginIssuer
  sub := username
  aud := loginAudience
  iat := issuedAt
  exp := expiresAt issuedAt ttl

/-- Bytes below 128 as text. -/
def ascii (bytes : Bytes) : String := String.ofList (bytes.map fun byte => Char.ofNat byte.toNat)

def integer (n : Int) : Value := .number (ascii (Decimal.text n))

def LoginClaims.serialize (claims : LoginClaims) : Value :=
  .object [("jti", .string claims.jti), ("iss", .string claims.iss), ("sub", .string claims.sub),
    ("aud", .string claims.aud), ("iat", integer claims.iat), ("exp", integer claims.exp)]

def header : Value := .object [("typ", .string "JWT"), ("alg", .string "HS256")]

/-- `serde_json::to_vec`. -/
def toVec (value : Value) : Bytes := asBytes (String.ofList value.compact)

/-- The byte `.`. -/
def dot : UInt8 := 46

def base64Url : Bytes → Bytes := Base64.urlSafe.encode false

section Encode
variable [HmacSha256]

/-- `jsonwebtoken::encode`, HS256. -/
def encode (header claims : Value) (key : Bytes) : String :=
  let message := base64Url (toVec header) ++ dot :: base64Url (toVec claims)
  ascii (message ++ dot :: base64Url (HmacSha256.mac key message))

def mintLoginTokenAt (key : Bytes) (jti : Uuid) (username : String) (ttl : Nat) (issuedAt : Int) :
    String :=
  encode header (LoginClaims.new jti username issuedAt ttl).serialize key

end Encode

/-! How long a token is. -/

theorem toVec_length (value : Value) : (toVec value).length = byteSize value.compact := by
  rw [toVec, asBytes_length, utf8ByteSize_ofList]

theorem asBytes_ascii {bytes : Bytes} (h : ∀ byte ∈ bytes, byte < 128) :
    asBytes (ascii bytes) = bytes := by
  have hencode : ∀ n : Fin 128, String.utf8EncodeChar (Char.ofNat n.val) = [UInt8.ofNat n.val] := by
    decide
  have hflat : (bytes.map fun byte => Char.ofNat byte.toNat).flatMap String.utf8EncodeChar =
      bytes := by
    induction bytes with
    | nil => rfl
    | cons byte bytes ih =>
      have hbyte := hencode ⟨byte.toNat, UInt8.lt_iff_toNat_lt.mp (h byte List.mem_cons_self)⟩
      have hrest := ih fun other hother => h other (List.mem_cons_of_mem _ hother)
      rw [List.map_cons, List.flatMap_cons, hbyte, hrest, UInt8.ofNat_toNat]
      rfl
  rw [asBytes, ascii, String.toUTF8_eq_toByteArray, String.toByteArray_ofList, List.utf8Encode,
    hflat, List.toList_data_toByteArray]

theorem ascii_length {bytes : Bytes} (h : ∀ byte ∈ bytes, byte < 128) :
    (ascii bytes).utf8ByteSize = bytes.length := by
  rw [← asBytes_length, asBytes_ascii h]

theorem base64_ascii {padded : Bool} {bytes : Bytes} {byte : UInt8}
    (h : byte ∈ Base64.urlSafe.encode padded bytes) : byte < 128 := by
  have hsymbol : ∀ n, Base64.urlSafe.symbol n < 128 := by decide
  exact Base64.urlSafe.encode_all (P := (· < 128)) hsymbol (by decide) h

theorem base64Url_length (bytes : Bytes) : (base64Url bytes).length = (bytes.length * 4 + 2) / 3 := by
  simp [base64Url, Base64.Alphabet.encode_length]

theorem text_ascii {n : Int} {byte : UInt8} (h : byte ∈ Decimal.text n) : byte < 128 := by
  by_contra hlarge
  have hge : 128 ≤ byte.toNat := by simpa [UInt8.lt_iff_toNat_lt] using hlarge
  refine Decimal.not_mem_text (fun heq => ?_) ?_ n h
  · exact hlarge (heq ▸ by decide)
  · simp [Decimal.isDigit, UInt8.le_iff_toNat_le]
    omega

/-- An `i64` has at most a sign and 19 digits. -/
theorem text_length_le {n : Int} (h : InI64 n) : (Decimal.text n).length ≤ 20 :=
  Decimal.text_length_le (by decide) (by obtain ⟨hlow, hhigh⟩ := h; omega)

theorem integer_size_le {n : Int} (h : InI64 n) : byteSize (integer n).compact ≤ 20 := by
  rw [integer, Value.compact, byteSize_toList, ascii_length fun byte => text_ascii]
  exact text_length_le h

theorem inI64_expiresAt (issuedAt : Int) (ttl : Nat) : InI64 (expiresAt issuedAt ttl) := by
  simp only [expiresAt, saturatingAdd, InI64]
  omega

theorem Uuid.code (jti : Uuid) {ch : Char} (h : ch ∈ jti.text.toList) :
    45 ≤ ch.toNat ∧ ch.toNat ≤ 102 := by
  rcases jti.digits ch h with rfl | ⟨hlow, hhigh⟩ | ⟨hlow, hhigh⟩
  · decide
  all_goals
    simp only [Char.le_def, UInt32.le_iff_toNat_le] at hlow hhigh
    exact ⟨Nat.le_trans (by decide) hlow, Nat.le_trans hhigh (by decide)⟩

theorem Uuid.size_le (jti : Uuid) : byteSize (quote jti.text.toList) ≤ 74 := by
  have hcontrol : ∀ ch ∈ jti.text.toList, Core.Text.isControl ch = false := by
    intro ch hch
    have hcode := jti.code hch
    simp [Core.Text.isControl]
    omega
  have hsize : jti.text.toList.map Char.utf8Size = List.replicate jti.text.toList.length 1 := by
    refine List.map_eq_replicate_iff.mpr fun ch hch => ?_
    have hcode := (jti.code hch).2
    have hascii : ch.val ≤ 0x7f := by
      rw [UInt32.le_iff_toNat_le]
      exact Nat.le_trans hcode (by decide)
    simp [Char.utf8Size, hascii]
  have htext : byteSize jti.text.toList = 36 := by
    rw [byteSize, hsize, List.sum_replicate_nat, String.length_toList, jti.length_eq]
  have hquote := byteSize_quote_le hcontrol
  omega

theorem claims_size_le {kind username : String}
    (valid : Core.Validate.validateEntityId kind username = .ok ()) (jti : Uuid) {issuedAt : Int}
    (range : InI64 issuedAt) (ttl : Nat) :
    byteSize (LoginClaims.new jti username issuedAt ttl).serialize.compact ≤ 1196 := by
  have hvalid := (Core.Validate.validateEntityId_ok_iff kind username).mp valid
  have hcontrol : ∀ ch ∈ username.toList, Core.Text.isControl ch = false := by
    simpa using hvalid.noControl
  have hname := byteSize_quote_le hcontrol
  have hshort : username.utf8ByteSize ≤ 512 := hvalid.short
  have hjti := jti.size_le
  have hissued := integer_size_le range
  have hexpires := integer_size_le (inI64_expiresAt issuedAt ttl)
  have hkeys : byteSize (quote "jti".toList) = 5 ∧ byteSize (quote "iss".toList) = 5 ∧
      byteSize (quote "sub".toList) = 5 ∧ byteSize (quote "aud".toList) = 5 ∧
      byteSize (quote "iat".toList) = 5 ∧ byteSize (quote "exp".toList) = 5 ∧
      byteSize (quote loginIssuer.toList) = 6 ∧ byteSize (quote loginAudience.toList) = 7 := by
    decide
  have hmarks : ','.utf8Size = 1 ∧ ':'.utf8Size = 1 ∧ (Char.ofNat 123).utf8Size = 1 ∧
      (Char.ofNat 125).utf8Size = 1 := by decide
  rw [byteSize_toList] at hname
  simp only [LoginClaims.serialize, LoginClaims.new, Value.compact, Value.compactEntries,
    commaSeparated, byteSize_append, byteSize_cons, byteSize_nil, hkeys, hmarks]
  omega

section Token
variable [HmacSha256]

/-- The token is text, and its length is the one of its three parts. -/
theorem mintLoginTokenAt_length_le {kind username : String}
    (valid : Core.Validate.validateEntityId kind username = .ok ()) (key : Bytes) (jti : Uuid)
    {issuedAt : Int} (range : InI64 issuedAt) (ttl : Nat) :
    (asBytes (mintLoginTokenAt key jti username ttl issuedAt)).length ≤ 1676 := by
  have hclaims := claims_size_le valid jti range ttl
  have hheader : (toVec header).length = 27 := by
    rw [toVec_length]
    decide
  have hmac (message : Bytes) : (HmacSha256.mac key message).length = 32 :=
    HmacSha256.mac_length key message
  rw [asBytes_length, mintLoginTokenAt, encode, ascii_length]
  · simp only [List.length_append, List.length_cons, base64Url_length, hheader, hmac]
    rw [toVec_length]
    omega
  · intro byte hbyte
    have hdot : dot < 128 := by decide
    simp only [List.mem_append, List.mem_cons] at hbyte
    rcases hbyte with (h | rfl | h) | rfl | h
    · exact base64_ascii h
    · exact hdot
    · exact base64_ascii h
    · exact hdot
    · exact base64_ascii h

end Token

end LakeFsAuth.Authn.Jwt
