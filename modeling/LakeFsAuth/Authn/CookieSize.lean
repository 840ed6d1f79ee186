import LakeFsAuth.Authn.Browser

/-! How large the private cookies are. A browser drops what is too large without a word. -/
namespace LakeFsAuth.Authn.CookieSize
open Core.Model Core.SecretBox Core.Json Core.Text Redirect Session Browser Library

/-- The largest name and value of a cookie that a browser keeps. -/
def browserLimit : Nat := 4096

/-- A symbol of a cookie value. -/
def encodeSymbol (symbol : UInt8) : Text :=
  Url.percentEncode (· ∈ ['+', '/', '=']) (Char.ofNat symbol.toNat)

/-- The text of bytes in a cookie value: base64 with padding, percent encoded. -/
def encodeValue (bytes : Bytes) : Text := (Base64.standard.encode true bytes).flatMap encodeSymbol

/-- What encryption may yield for a plaintext. -/
structure Sealed (plaintext : Bytes) where
  nonce : Nonce
  ciphertext : Bytes
  tag : Bytes
  sameLength : ciphertext.length = plaintext.length
  tagLength : tag.length = tagLen

def Sealed.value {plaintext : Bytes} (self : Sealed plaintext) : Text :=
  encodeValue (self.nonce.bytes ++ self.ciphertext ++ self.tag)

/-- A browser keeps the private cookie, whatever its encryption yields. -/
def Fits (cookie : Cookie) : Prop :=
  ∀ result : Sealed (asBytes cookie.value),
    cookie.name.utf8ByteSize + result.value.length ≤ browserLimit

/-! The size of encoded bytes. -/

theorem encodeSymbol_length (symbol : UInt8) : (encodeSymbol symbol).length ≤ 3 := by
  unfold encodeSymbol Url.percentEncode
  split
  · rename_i h
    simp only [List.mem_cons, List.not_mem_nil, or_false, decide_eq_true_eq] at h
    rcases h with h | h | h <;> rw [h] <;> decide
  · simp

/-- Only the last two symbols of the alphabet are encoded. -/
theorem encodeSymbol_low {n : Nat} (h : n % 64 < 62) :
    (encodeSymbol (Base64.standard.low n)).length = 1 := by
  have hall : ∀ k : Fin 64, k.val < 62 →
      (encodeSymbol (Base64.standard.symbol k)).length = 1 := by decide
  exact hall (Base64.sextet n) h

/-- The size of the longest text for a number of bytes. The symbol before padding has bits that
are zero, and is none of the last two. -/
def worstSize (count : Nat) : Nat := 12 * (count / 3) + if count % 3 = 0 then 0 else 10

theorem worstSize_add_three (count : Nat) : worstSize (count + 3) = 12 + worstSize count := by
  simp only [worstSize, Nat.add_mod_right, Nat.add_div_right count (by decide : 0 < 3)]
  omega

theorem encodeValue_length_le (bytes : Bytes) :
    (encodeValue bytes).length ≤ worstSize bytes.length := by
  have hpad : (encodeSymbol Base64.pad).length = 3 := by decide
  unfold encodeValue
  fun_induction Base64.Alphabet.encode Base64.standard true bytes with
  | case1 => simp
  | case2 a bits =>
    have hfirst := encodeSymbol_length (Base64.standard.low (bits / 64))
    have hlast := encodeSymbol_low (by omega : bits % 64 < 62)
    simp [hpad, hlast, worstSize]
    omega
  | case3 a b bits =>
    have hfirst := encodeSymbol_length (Base64.standard.low (bits / 4096))
    have hsecond := encodeSymbol_length (Base64.standard.low (bits / 64))
    have hlast := encodeSymbol_low (by omega : bits % 64 < 62)
    simp [hpad, hlast, worstSize]
    omega
  | case4 a b c rest bits ih =>
    have hfirst := encodeSymbol_length (Base64.standard.low (bits / 262144))
    have hsecond := encodeSymbol_length (Base64.standard.low (bits / 4096))
    have hthird := encodeSymbol_length (Base64.standard.low (bits / 64))
    have hfourth := encodeSymbol_length (Base64.standard.low bits)
    simp only [List.flatMap_cons, List.length_append, List.length_cons, worstSize_add_three]
    omega

/-- Bytes of ones are encoded to the longest text. -/
theorem encodeValue_ones : ∀ count : Nat,
    (encodeValue (List.replicate count 255)).length = worstSize count
  | 0 | 1 | 2 => by decide
  | count + 3 => by
    have hgroup : encodeValue (List.replicate (count + 3) 255) =
        encodeValue [255, 255, 255] ++ encodeValue (List.replicate count 255) := by
      simp [encodeValue, List.replicate_succ, Base64.Alphabet.encode]
    have hthree : (encodeValue [255, 255, 255]).length = 12 := by decide
    rw [hgroup, List.length_append, hthree, encodeValue_ones count, worstSize_add_three]

/-- A private cookie fits when its longest text does. -/
theorem fits_iff (cookie : Cookie) :
    Fits cookie ↔ cookie.name.utf8ByteSize + worstSize (cookie.value.utf8ByteSize + 28) ≤
      browserLimit := by
  have hsize (result : Sealed (asBytes cookie.value)) :
      (result.nonce.bytes ++ result.ciphertext ++ result.tag).length =
        cookie.value.utf8ByteSize + 28 := by
    simp only [List.length_append, result.nonce.length_eq, result.sameLength, result.tagLength,
      asBytes_length, nonceLen, tagLen]
    omega
  constructor
  · intro fits
    let ones : Sealed (asBytes cookie.value) :=
      { nonce := ⟨List.replicate nonceLen 255, List.length_replicate⟩
        ciphertext := List.replicate (asBytes cookie.value).length 255
        tag := List.replicate tagLen 255
        sameLength := List.length_replicate
        tagLength := List.length_replicate }
    have hones : ones.value.length = worstSize (cookie.value.utf8ByteSize + 28) := by
      rw [← hsize ones, ← encodeValue_ones]
      simp only [Sealed.value, ones, List.length_replicate, List.replicate_append_replicate]
    exact hones ▸ fits ones
  · intro hworst result
    have hle := encodeValue_length_le (result.nonce.bytes ++ result.ciphertext ++ result.tag)
    rw [hsize] at hle
    exact (Nat.add_le_add_left hle _).trans hworst

theorem fits_idToken_iff (session : SessionCookies) {raw : String} {cookie : Cookie}
    (stored : session.idToken raw = some cookie) : Fits cookie ↔ raw.utf8ByteSize ≤ 992 := by
  have hcookie : cookie.name = idTokenCookie ∧ cookie.value = raw := by
    unfold SessionCookies.idToken at stored
    split at stored
    · cases stored
    · cases stored
      exact ⟨rfl, rfl⟩
  have hname : idTokenCookie.utf8ByteSize = 16 := by decide
  rw [fits_iff, hcookie.1, hcookie.2, hname, browserLimit, worstSize]
  split <;> omega

theorem fits_flow_iff (session : SessionCookies) (payload : String) :
    Fits (session.flow payload) ↔ payload.utf8ByteSize ≤ 991 := by
  have hname : (session.flow payload).name.utf8ByteSize = 17 := by
    change flowCookie.utf8ByteSize = 17
    decide
  have hvalue : (session.flow payload).value = payload := rfl
  rw [fits_iff, hname, hvalue, browserLimit, worstSize]
  split <;> omega

/-- What the target of a login adds to its flow: a key, and the target as it is escaped. -/
def targetSize : Option String → Nat
  | none => 0
  | some next => byteSize (quote next.toList) + ",\"x\":".length

theorem flow_text_size (flow : FlowState) :
    flow.text.utf8ByteSize = { flow with next := none }.text.utf8ByteSize + targetSize flow.next := by
  cases hnext : flow.next with
  | none => simp [FlowState.text, FlowState.serialize, hnext, targetSize]
  | some next =>
    have hkey : byteSize (quote "x".toList) = 3 := by decide
    have hcomma : ','.utf8Size = 1 := rfl
    have hcolon : ':'.utf8Size = 1 := rfl
    simp only [FlowState.text, utf8ByteSize_ofList, FlowState.serialize, hnext, Option.elim_some,
      Option.elim_none, List.cons_append, List.nil_append, Value.compact, Value.compactEntries,
      commaSeparated, byteSize_cons, byteSize_append, targetSize, hkey, hcomma, hcolon]
    have hadded : ",\"x\":".length = 5 := by decide
    omega

/-- A private cookie fits unless its plaintext is too long: an ID token of the provider, or the
flow of a login with its escaped target. -/
theorem private_cookies_fit (session : SessionCookies) :
    (∀ (raw : String) (cookie : Cookie),
      session.idToken raw = some cookie → (Fits cookie ↔ raw.utf8ByteSize ≤ 992)) ∧
    ∀ flow : FlowState, Fits (session.flow flow.text) ↔
      { flow with next := none }.text.utf8ByteSize + targetSize flow.next ≤ 991 :=
  ⟨fun _ _ stored => fits_idToken_iff session stored, fun flow => by
    rw [fits_flow_iff, flow_text_size]⟩

def session : SessionCookies := .new [] ⟨true, none, secs 3600⟩

def flow : FlowState := ⟨"s1", "n1", "p1", some "/repositories", 1⟩

theorem private_cookies_fit_paths :
    (∃ cookie, session.idToken "h.p.s" = some cookie ∧ Fits cookie) ∧
      Fits (session.flow flow.text) := by
  have stored : (session.idToken "h.p.s").isSome := by decide
  obtain ⟨cookie, hcookie⟩ := Option.isSome_iff_exists.mp stored
  refine ⟨⟨cookie, hcookie, ?_⟩, ?_⟩
  · exact ((private_cookies_fit session).1 "h.p.s" cookie hcookie).mpr (by decide)
  · exact ((private_cookies_fit session).2 flow).mpr (by decide)

/-! Cookies that are dropped. -/

theorem byteSize_escapeChar_ge (ch : Char) : ch.utf8Size ≤ byteSize (escapeChar ch) := by
  -- A character that is escaped is one byte long, and its escape starts with a backslash.
  have hsmall (h : ch.toNat ≤ 127) : ch.utf8Size = 1 := by
    rw [Char.utf8Size_eq_one_iff]
    exact UInt32.le_iff_toNat_le.mpr h
  unfold escapeChar
  split
  case h_8 =>
    split
    · rw [hsmall (by omega)]
      simp only [byteSize_cons]
      have hpos := Char.utf8Size_pos '\\'
      omega
    · simp
  all_goals
    rw [hsmall (by omega)]
    simp only [byteSize_cons]
    have hpos := Char.utf8Size_pos '\\'
    omega

theorem byteSize_quote_ge (text : List Char) : byteSize text ≤ byteSize (quote text) := by
  have hescaped : byteSize text ≤ byteSize (text.flatMap escapeChar) := by
    induction text with
    | nil => simp
    | cons ch text ih =>
      have hch := byteSize_escapeChar_ge ch
      simp only [List.flatMap_cons, byteSize_append, byteSize_cons]
      omega
  simp only [quote, byteSize_cons, byteSize_append]
  omega

theorem next_le_text {flow : FlowState} {next : String} (h : flow.next = some next) :
    next.utf8ByteSize ≤ flow.text.utf8ByteSize := by
  have hquote := byteSize_quote_ge next.toList
  rw [byteSize_toList] at hquote
  rw [flow_text_size, h, targetSize]
  omega

/-- A path of that many letters. -/
def longPath (count : Nat) : String := String.ofList ('/' :: 'a' :: List.replicate count 'a')

theorem safeNext_longPath [Url.HostParser] (count : Nat) (allowedHosts : List String) :
    safeNext (longPath count) allowedHosts = .ok (longPath count) := by
  have hfilled : longPath count ≠ "" := by
    intro h
    have hlist := congrArg String.toList h
    simp [longPath] at hlist
  have hclean : (longPath count).toList.any isControl = false := by
    have hletter : isControl 'a' = false := by decide
    have hslash : isControl '/' = false := by decide
    simp [longPath, hletter, hslash]
  have hslash : startsWith (longPath count) "/" = true := by
    simp [startsWith, longPath]
  have hlower : (longPath count).toList.map Char.toLower = (longPath count).toList := by
    have hletter : 'a'.toLower = 'a' := by decide
    have hslash : '/'.toLower = '/' := by decide
    simp [longPath, hletter, hslash]
  have hrelative : isProtocolRelative (longPath count) = false := by
    unfold isProtocolRelative
    rw [hlower]
    simp [startsWith, longPath, List.isPrefixOf]
  unfold safeNext
  rw [if_neg hfilled, hclean, hslash, hrelative]
  rfl

theorem utf8ByteSize_longPath (count : Nat) : (longPath count).utf8ByteSize = count + 2 := by
  have hletters : byteSize (List.replicate count 'a') = count := by
    induction count with
    | zero => rfl
    | succ count ih =>
      rw [List.replicate_succ, byteSize_cons, ih, (by decide : 'a'.utf8Size = 1), Nat.add_comm]
  rw [longPath, utf8ByteSize_ofList, byteSize_cons, byteSize_cons, hletters,
    (by decide : 'a'.utf8Size = 1), (by decide : '/'.utf8Size = 1)]
  omega

/-- A path of 1000 letters is accepted, and its flow may be dropped. So may an ID token that is
stored. -/
theorem private_cookies_dropped :
    ((session.idToken (longPath 1000)).isSome ∧
      ∀ cookie, session.idToken (longPath 1000) = some cookie → ¬Fits cookie) ∧
    (@safeNext plainHosts (longPath 1000) [] = .ok (longPath 1000) ∧
      ∀ flow : FlowState, flow.next = some (longPath 1000) → ¬Fits (session.flow flow.text)) := by
  have hsize := utf8ByteSize_longPath 1000
  refine ⟨⟨?_, fun cookie stored fits => ?_⟩, @safeNext_longPath plainHosts 1000 [],
    fun flow hnext fits => ?_⟩
  · unfold SessionCookies.idToken
    rw [if_neg (by rw [hsize, maxIdTokenBytes]; omega)]
    rfl
  · have hraw := (fits_idToken_iff session stored).mp fits
    omega
  · have htext := next_le_text hnext
    have hpayload := (fits_flow_iff session flow.text).mp fits
    omega

end LakeFsAuth.Authn.CookieSize
