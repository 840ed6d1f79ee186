import LakeFsAuth.Core.Model

/-! Authenticated encryption of credential secrets under one server key. The cipher is a
parameter: a nonce and a plaintext give a ciphertext with its tag. -/
namespace LakeFsAuth.Core.SecretBox
open Model

inductive CryptoError where
  | TooShort
  | UnsupportedVersion (version : UInt8)
  | Decrypt
  | Encrypt
  | NotUtf8
  deriving DecidableEq, Repr

namespace CryptoError

def toString : CryptoError → String
  | TooShort => "ciphertext is too short"
  | UnsupportedVersion version => s!"unsupported ciphertext version {version}"
  | Decrypt => "decryption failed"
  | Encrypt => "encryption failed"
  | NotUtf8 => "decrypted value is not valid UTF-8"

instance : ToString CryptoError := ⟨toString⟩

end CryptoError

def version : UInt8 := 1

def nonceLen : Nat := 12

def tagLen : Nat := 16

/-- AES-256-GCM under the key of the server. -/
class Aes256Gcm where
  encrypt : (nonce plaintext : Bytes) → Option Bytes
  decrypt : (nonce ciphertext : Bytes) → Option Bytes

/-- What the cipher promises: a ciphertext carries a tag, and decrypts to what was
encrypted under its nonce. -/
class IdealCipher [Aes256Gcm] : Prop where
  overhead : ∀ {nonce plaintext ciphertext : Bytes},
    Aes256Gcm.encrypt nonce plaintext = some ciphertext →
      ciphertext.length = plaintext.length + tagLen
  decrypt_encrypt : ∀ {nonce plaintext ciphertext : Bytes},
    Aes256Gcm.encrypt nonce plaintext = some ciphertext →
      Aes256Gcm.decrypt nonce ciphertext = some plaintext

/-- What `rand` draws for one seal. -/
structure Nonce where
  bytes : Bytes
  length_eq : bytes.length = nonceLen

def Nonce.zero : Nonce := ⟨List.replicate nonceLen 0, List.length_replicate⟩

section Box
variable [Aes256Gcm]

/-- Blob layout: `0x01 || nonce || ciphertext || tag`. -/
def sealBytes (nonce : Nonce) (plaintext : Bytes) : Except CryptoError Bytes :=
  match Aes256Gcm.encrypt nonce.bytes plaintext with
  | none => .error .Encrypt
  | some ciphertext => .ok (version :: (nonce.bytes ++ ciphertext))

def openBytes (blob : Bytes) : Except CryptoError Bytes :=
  if blob.length < 1 + nonceLen + tagLen then .error .TooShort
  else
    match blob with
    | [] => .error .TooShort
    | first :: rest =>
        if first ≠ version then .error (.UnsupportedVersion first)
        else
          match Aes256Gcm.decrypt (rest.take nonceLen) (rest.drop nonceLen) with
          | none => .error .Decrypt
          | some plaintext => .ok plaintext

/-- `str::as_bytes`. -/
def asBytes (text : String) : Bytes := text.toUTF8.data.toList

/-- `String::from_utf8`. -/
def fromUtf8 (bytes : Bytes) : Option String := String.fromUTF8? ⟨bytes.toArray⟩

def sealStr (nonce : Nonce) (plaintext : String) : Except CryptoError Bytes :=
  sealBytes nonce (asBytes plaintext)

def openStr (blob : Bytes) : Except CryptoError String := do
  let plaintext ← openBytes blob
  match fromUtf8 plaintext with
  | some text => return text
  | none => throw .NotUtf8

omit [Aes256Gcm] in
theorem fromUtf8_asBytes (text : String) : fromUtf8 (asBytes text) = some text := by
  have hbytes : (⟨(asBytes text).toArray⟩ : ByteArray) = text.toUTF8 := by simp [asBytes]
  unfold fromUtf8 String.fromUTF8?
  rw [hbytes, String.toUTF8_eq_toByteArray, dif_pos text.isValidUTF8]
  rfl

omit [Aes256Gcm] in
theorem asBytes_eq (text : String) : asBytes text = text.toList.flatMap String.utf8EncodeChar := by
  unfold asBytes
  rw [String.toUTF8_eq_toByteArray, ← String.utf8Encode_toList]
  unfold List.utf8Encode
  simp

omit [Aes256Gcm] in
theorem asBytes_length (text : String) : (asBytes text).length = text.utf8ByteSize := by
  simp only [asBytes, Array.length_toList]
  rfl

omit [Aes256Gcm] in
theorem asBytes_inj {text other : String} : asBytes text = asBytes other ↔ text = other := by
  refine ⟨fun h => ?_, congrArg asBytes⟩
  have hread := congrArg fromUtf8 h
  simpa [fromUtf8_asBytes] using hread

theorem openBytes_sealBytes [IdealCipher] {nonce : Nonce} {plaintext blob : Bytes}
    (sealed : sealBytes nonce plaintext = .ok blob) : openBytes blob = .ok plaintext := by
  unfold sealBytes at sealed
  cases hencrypt : Aes256Gcm.encrypt nonce.bytes plaintext with
  | none =>
    rw [hencrypt] at sealed
    cases sealed
  | some ciphertext =>
    rw [hencrypt] at sealed
    cases sealed
    have hlong : ¬ (version :: (nonce.bytes ++ ciphertext)).length < 1 + nonceLen + tagLen := by
      have hlength := IdealCipher.overhead hencrypt
      have hnonce := nonce.length_eq
      simp only [List.length_cons, List.length_append]
      omega
    unfold openBytes
    rw [if_neg hlong]
    simp [← nonce.length_eq, IdealCipher.decrypt_encrypt hencrypt]

theorem openStr_sealStr [IdealCipher] {nonce : Nonce} {plaintext : String} {blob : Bytes}
    (sealed : sealStr nonce plaintext = .ok blob) : openStr blob = .ok plaintext := by
  unfold openStr
  rw [openBytes_sealBytes sealed]
  simp only [bind, Except.bind, fromUtf8_asBytes]
  rfl

end Box

/-- A cipher that hides nothing and appends an empty tag. -/
@[reducible] def plainCipher : Aes256Gcm where
  encrypt _ plaintext := some (plaintext ++ List.replicate tagLen 0)
  decrypt _ ciphertext := some (ciphertext.take (ciphertext.length - tagLen))

theorem plainCipher_ideal : @IdealCipher plainCipher := by
  refine @IdealCipher.mk plainCipher ?_ ?_
  · intro nonce plaintext ciphertext h
    cases h
    simp
  · intro nonce plaintext ciphertext h
    cases h
    change some ((plaintext ++ List.replicate tagLen 0).take _) = _
    simp

end LakeFsAuth.Core.SecretBox
