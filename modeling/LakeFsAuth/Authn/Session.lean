import LakeFsAuth.Authn.Gob
import LakeFsAuth.Authn.Jwt

/-! The cookies of the server: the session lakeFS reads, and the private ones of a browser
login. -/
namespace LakeFsAuth.Authn.Session
open Library Core.Model Core.SecretBox SecureCookie Jwt

def sessionCookie : String := "internal_auth_session"

/-- Private cookie holding the state, nonce, and PKCE verifier of a browser login. -/
def flowCookie : String := "lakefs_authn_flow"

/-- Private cookie holding the raw ID token. -/
def idTokenCookie : String := "lakefs_authn_idt"

def cookiePath : String := "/"

/-- How long a browser has to come back from the identity provider. -/
def flowTtl : Nat := secs 600

/-- The longest session the cookie format allows. -/
def maxSessionTtl : Nat := secs (30 * 24 * 3600)

/-- `Config::effective_session_ttl`. -/
def effectiveSessionTtl (sessionTtl : Nat) : Nat := min sessionTtl maxSessionTtl

/-- Largest raw ID token the ID token cookie stores. -/
def maxIdTokenBytes : Nat := 2800

inductive SessionError where
  | Cookie (error : CookieError)
  | Gob (fault : Gob.Fault)
  deriving DecidableEq, Repr

structure SessionOptions where
  secure : Bool
  domain : Option String
  ttl : Nat

inductive SameSite where
  | strict
  | lax
  | none
  deriving DecidableEq, Repr

structure Cookie where
  name : String
  value : String
  path : Option String
  httpOnly : Bool
  sameSite : Option SameSite
  secure : Bool
  maxAge : Option Nat
  domain : Option String
  deriving DecidableEq

structure SessionCookies where
  codec : CookieCodec
  options : SessionOptions

def baseCookie (name value : String) (secure : Bool) : Cookie where
  name := name
  value := value
  path := some cookiePath
  httpOnly := true
  sameSite := some .lax
  secure := secure
  maxAge := none
  domain := none

namespace SessionCookies

def new (secret : Bytes) (options : SessionOptions) : SessionCookies := ⟨.new secret, options⟩

variable (self : SessionCookies)

/-- The `Set-Cookie` that logs a browser into lakeFS, at the time of the clock. -/
def login [HmacSha256] (token : String) (now : Int) : Except SessionError Cookie :=
  match self.codec.encodeAt (asBytes sessionCookie) (Gob.encodeTokenMap token) now with
  | .error error => .error (.Cookie error)
  | .ok value => .ok { baseCookie sessionCookie (ascii value) self.options.secure with
      maxAge := some self.options.ttl, domain := self.options.domain }

/-- The `Set-Cookie` that logs a browser out. Path and domain must match `login`. -/
def clear : Cookie := { baseCookie sessionCookie "" self.options.secure with
  maxAge := some 0, domain := self.options.domain }

/-- Reads a cookie value back into the login token. -/
def read [HmacSha256] (value : String) (now : Int) : Except SessionError String :=
  match self.codec.decodeAt (asBytes sessionCookie) (asBytes value) now with
  | .error error => .error (.Cookie error)
  | .ok payload =>
      match Gob.decodeTokenMap payload with
      | .error fault => .error (.Gob fault)
      | .ok token => .ok token

def privateCookie (name value : String) (ttl : Nat) : Cookie :=
  { baseCookie name value self.options.secure with maxAge := some ttl }

/-- The short lived private cookie that carries the state of one browser login. -/
def flow (payload : String) : Cookie := self.privateCookie flowCookie payload flowTtl

/-- The private cookie that keeps the raw ID token, unless a browser would drop it. -/
def idToken (rawIdToken : String) : Option Cookie :=
  if maxIdTokenBytes < rawIdToken.utf8ByteSize then none
  else some (self.privateCookie idTokenCookie rawIdToken self.options.ttl)

/-- Removal cookie with the same path and flags as the private cookie it clears. -/
def removal (name : String) : Cookie :=
  { baseCookie name "" self.options.secure with maxAge := some 0 }

end SessionCookies

/-- Sealing adds a timestamp, two separators and a tag, all of it in base64 again. -/
theorem base64_payload_length_le [HmacSha256] (key name value : Bytes) {timestamp : Int}
    (range : InI64 timestamp) :
    (base64 (payload key name (Decimal.text timestamp) (base64 value))).length ≤
      (((value.length + 2) / 3 * 4 + 54) + 2) / 3 * 4 := by
  have htext := text_length_le range
  have hmac (message : Bytes) : (HmacSha256.mac key message).length = 32 :=
    HmacSha256.mac_length key message
  simp only [payload_eq, base64, Base64.Alphabet.encode_length, if_true, List.length_append,
    List.length_cons, hmac]
  omega

theorem inI64_of_inClock {now : Int} (clock : InClock now) : InI64 now := by
  simp only [InClock, InI64] at clock ⊢
  omega

/-- A session is not older than the cookie may be. -/
theorem expiresAt_le {issuedAt : Int} (clock : InClock issuedAt) (sessionTtl : Nat) :
    expiresAt issuedAt (effectiveSessionTtl sessionTtl) ≤ issuedAt + defaultMaxAge := by
  have hsecs : asSecs (effectiveSessionTtl sessionTtl) ≤ 2592000 := by
    simp only [asSecs, effectiveSessionTtl, maxSessionTtl, secs]
    omega
  simp only [InClock] at clock
  simp only [expiresAt, saturatingAdd, defaultMaxAge]
  rw [if_pos (by omega)]
  omega

/-- The token of a name the rules accept fits into the cookie, with room for the map around it. -/
theorem login_sealed [HmacSha256] {kind username : String}
    (valid : Core.Validate.validateEntityId kind username = .ok ()) (secret : Bytes)
    (options : SessionOptions) (ttl : Nat) (jti : Uuid) {issuedAt sealedAt : Int}
    (issued : InClock issuedAt) (sealed : InClock sealedAt) :
    let token := mintLoginTokenAt secret jti username ttl issuedAt
    ∃ value, (CookieCodec.new secret).encodeAt (asBytes sessionCookie) (Gob.encodeTokenMap token)
        sealedAt = .ok value ∧
      (SessionCookies.new secret options).login token sealedAt =
        .ok { baseCookie sessionCookie (ascii value) options.secure with
          maxAge := some options.ttl, domain := options.domain } ∧
      (asBytes token).length ≤ 1676 := by
  intro token
  have htoken : (asBytes token).length ≤ 1676 :=
    mintLoginTokenAt_length_le valid secret jti (inI64_of_inClock issued) ttl
  have hmap := Gob.encodeTokenMap_length_le token
  have hlength := base64_payload_length_le secret (asBytes sessionCookie) (Gob.encodeTokenMap token)
    (inI64_of_inClock sealed)
  have hencode : (CookieCodec.new secret).encodeAt (asBytes sessionCookie)
      (Gob.encodeTokenMap token) sealedAt = .ok (base64 (payload secret (asBytes sessionCookie)
        (Decimal.text sealedAt) (base64 (Gob.encodeTokenMap token)))) := by
    refine encodeAt_eq_ok.mpr ⟨rfl, .inr ?_⟩
    simp only [CookieCodec.new, defaultMaxLength]
    omega
  refine ⟨_, hencode, ?_, htoken⟩
  rw [SessionCookies.login, SessionCookies.new, hencode]

/-- For every name the rules accept, the session cookie of a login is sealed, and it opens to the
token of the login until that token expires. -/
theorem login_readable [HmacSha256] {kind username : String}
    (valid : Core.Validate.validateEntityId kind username = .ok ()) (secret : Bytes)
    (options : SessionOptions) (sessionTtl : Nat) (jti : Uuid) {issuedAt sealedAt : Int}
    (issued : InClock issuedAt) (sealed : InClock sealedAt) (later : issuedAt ≤ sealedAt) :
    ∃ cookie,
      (SessionCookies.new secret options).login
        (mintLoginTokenAt secret jti username (effectiveSessionTtl sessionTtl) issuedAt)
        sealedAt = .ok cookie ∧
      ∀ now, InClock now → now ≤ expiresAt issuedAt (effectiveSessionTtl sessionTtl) →
        (SessionCookies.new secret options).read cookie.value now =
          .ok (mintLoginTokenAt secret jti username (effectiveSessionTtl sessionTtl) issuedAt) := by
  obtain ⟨value, hencode, hlogin, htoken⟩ := login_sealed valid secret options
    (effectiveSessionTtl sessionTtl) jti issued sealed
  refine ⟨_, hlogin, fun now clock hnow => ?_⟩
  have hfresh : (CookieCodec.new secret).Fresh now sealedAt := by
    have hexpires := expiresAt_le issued sessionTtl
    right
    simp only [CookieCodec.new]
    omega
  have hbytes : asBytes (ascii value) = value := by
    have hvalue := (encodeAt_eq_ok.mp hencode).1
    exact asBytes_ascii fun byte hbyte => base64_ascii (hvalue ▸ hbyte)
  have hdecode := decodeAt_encodeAt clock (inI64_of_inClock sealed) hencode hfresh
  have hgob := Gob.decodeTokenMap_encodeTokenMap
    (mintLoginTokenAt secret jti username (effectiveSessionTtl sessionTtl) issuedAt) (by omega)
  simp only [SessionCookies.read, SessionCookies.new, baseCookie, hbytes, hdecode, hgob]

section Alice
attribute [local instance] plainMac

def nilUuid : Uuid where
  text := "00000000-0000-4000-8000-000000000000"
  length_eq := by decide
  digits := by
    have hall : "00000000-0000-4000-8000-000000000000".toList.all
        (fun ch => ch == '-' || ('0' ≤ ch && ch ≤ '9')) = true := by decide
    intro ch hch
    have hdigit := List.all_eq_true.mp hall ch hch
    simp only [Bool.or_eq_true, beq_iff_eq, Bool.and_eq_true, decide_eq_true_eq] at hdigit
    exact hdigit.imp_right .inl

/-- A token of an hour, minted and sealed at the first second. -/
def aliceToken : String := mintLoginTokenAt [7] nilUuid "alice" (effectiveSessionTtl (secs 3600)) 1

def aliceCookies : SessionCookies := .new [7] ⟨false, none, secs 3600⟩

theorem login_readable_alice :
    ∃ cookie, aliceCookies.login aliceToken 1 = .ok cookie ∧
      aliceCookies.read cookie.value 3601 = .ok aliceToken := by
  have valid : Core.Validate.validateEntityId "user" "alice" = .ok () := by decide
  obtain ⟨cookie, hlogin, hread⟩ := login_readable valid [7] ⟨false, none, secs 3600⟩ (secs 3600)
    nilUuid (by decide : InClock 1) (by decide : InClock 1) (by decide)
  exact ⟨cookie, hlogin, hread 3601 (by decide) (by decide)⟩

end Alice

end LakeFsAuth.Authn.Session
