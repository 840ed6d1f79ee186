import LakeFsAuth.Library.UrlOrigin

/-! The segments a text adds to a path. Text that is percent-encoded stays in its segment and
decodes to what it was, unless it is a dot segment. -/
namespace LakeFsAuth.Library.Url

/-! Percent-decoding. -/

def hexValue (ch : Char) : Option Nat :=
  if 48 ≤ ch.toNat ∧ ch.toNat ≤ 57 then some (ch.toNat - 48)
  else if 65 ≤ ch.toNat ∧ ch.toNat ≤ 70 then some (ch.toNat - 55)
  else if 97 ≤ ch.toNat ∧ ch.toNat ≤ 102 then some (ch.toNat - 87)
  else none

def percentDecode : Text → List UInt8
  | [] => []
  | '%' :: high :: low :: rest =>
      match hexValue high, hexValue low with
      | some high, some low => UInt8.ofNat (16 * high + low) :: percentDecode rest
      | _, _ => 37 :: percentDecode (high :: low :: rest)
  | ch :: rest => String.utf8EncodeChar ch ++ percentDecode rest

theorem hexValue_hexDigit {n : Nat} (h : n < 16) : hexValue (hexDigit n) = some n := by
  have hall : ∀ n : Fin 16, hexValue (hexDigit n.val) = some n.val := by decide
  exact hall ⟨n, h⟩

theorem percentDecode_byte (byte : UInt8) (rest : Text) :
    percentDecode ('%' :: hexDigit (byte.toNat / 16) :: hexDigit (byte.toNat % 16) :: rest) =
      byte :: percentDecode rest := by
  have hbyte := byte.toNat_lt
  rw [percentDecode, hexValue_hexDigit (by omega), hexValue_hexDigit (by omega)]
  have hnat : 16 * (byte.toNat / 16) + byte.toNat % 16 = byte.toNat := by omega
  simp [hnat]

theorem percentDecode_plain {ch : Char} (h : ch ≠ '%') (rest : Text) :
    percentDecode (ch :: rest) = String.utf8EncodeChar ch ++ percentDecode rest := by
  rw [percentDecode]
  intro high low more heq
  exact absurd heq h

theorem percentDecode_encode {set : Char → Bool} (hset : set '%' = true) (text rest : Text) :
    percentDecode (text.flatMap (percentEncode set) ++ rest) =
      text.flatMap String.utf8EncodeChar ++ percentDecode rest := by
  have hbytes (bytes : List UInt8) (rest : Text) : percentDecode ((bytes.flatMap fun byte =>
      ['%', hexDigit (byte.toNat / 16), hexDigit (byte.toNat % 16)]) ++ rest) =
        bytes ++ percentDecode rest := by
    induction bytes with
    | nil => rfl
    | cons byte bytes ih => simp [percentDecode_byte, ih]
  induction text with
  | nil => rfl
  | cons ch text ih =>
    rw [List.flatMap_cons, List.flatMap_cons, List.append_assoc, List.append_assoc, ← ih,
      percentEncode]
    split
    · exact hbytes _ _
    · rename_i hplain
      refine percentDecode_plain ?_ _
      rintro rfl
      exact hplain hset

/-! Dot segments. -/

theorem toLower_cases (ch : Char) : ch.toLower = ch ∨ ch.toNat < 128 := by
  unfold Char.toLower
  split
  · rename_i h
    right
    have hle : ch.val.toNat ≤ 90 := UInt32.le_iff_toNat_le.mp h.2
    have hval : ch.val.toNat = ch.toNat := rfl
    omega
  · exact .inl rfl

theorem of_toLower {ch lower : Char} (h : ch.toLower = lower) :
    (lower = '.' → ch = '.') ∧ (lower = '%' → ch = '%') ∧ (lower = '2' → ch = '2') ∧
      (lower = 'e' → ch = 'e' ∨ ch = 'E') := by
  have hascii : ∀ n : Fin 128, ((Char.ofNat n.val).toLower = '.' → Char.ofNat n.val = '.') ∧
      ((Char.ofNat n.val).toLower = '%' → Char.ofNat n.val = '%') ∧
      ((Char.ofNat n.val).toLower = '2' → Char.ofNat n.val = '2') ∧
      ((Char.ofNat n.val).toLower = 'e' → Char.ofNat n.val = 'e' ∨ Char.ofNat n.val = 'E') := by
    decide
  subst h
  rcases toLower_cases ch with hsame | hcode
  · rw [hsame]
    exact ⟨id, id, id, .inl⟩
  · have hch : Char.ofNat ch.toNat = ch := Char.ofNat_toNat ch
    rw [← hch]
    exact hascii ⟨ch.toNat, hcode⟩

theorem percentDecode_dot {text : Text} (rest : Text) (h : text.map Char.toLower = ['.'] ∨
    text.map Char.toLower = ['%', '2', 'e']) :
    percentDecode (text ++ rest) = 46 :: percentDecode rest := by
  rcases h with h | h
  · obtain ⟨dot, _, rfl, hdot, hnil⟩ := List.map_eq_cons_iff.mp h
    obtain rfl := List.map_eq_nil_iff.mp hnil
    obtain rfl := (of_toLower hdot).1 rfl
    exact percentDecode_plain (by decide) rest
  · obtain ⟨mark, _, rfl, hmark, hmore⟩ := List.map_eq_cons_iff.mp h
    obtain ⟨high, _, rfl, hhigh, hmore⟩ := List.map_eq_cons_iff.mp hmore
    obtain ⟨low, _, rfl, hlow, hnil⟩ := List.map_eq_cons_iff.mp hmore
    obtain rfl := List.map_eq_nil_iff.mp hnil
    obtain rfl := (of_toLower hmark).2.1 rfl
    obtain rfl := (of_toLower hhigh).2.2.1 rfl
    obtain rfl | rfl := (of_toLower hlow).2.2.2 rfl <;> rfl

theorem percentDecode_singleDot {text : Text} (h : isSingleDot text = true) :
    percentDecode text = [46] := by
  have hcases := of_decide_eq_true h
  simp only [List.mem_cons, List.not_mem_nil, or_false] at hcases
  have hdecode := percentDecode_dot [] hcases
  rwa [List.append_nil] at hdecode

theorem percentDecode_doubleDot {text : Text} (h : isDoubleDot text = true) :
    percentDecode text = [46, 46] := by
  have hcases := of_decide_eq_true h
  simp only [List.mem_cons, List.not_mem_nil, or_false] at hcases
  have two {first second : Text} (hfirst : first = ['.'] ∨ first = ['%', '2', 'e'])
      (hsecond : second = ['.'] ∨ second = ['%', '2', 'e'])
      (hmap : text.map Char.toLower = first ++ second) : percentDecode text = [46, 46] := by
    obtain ⟨before, after, rfl, rfl, rfl⟩ := List.map_eq_append_iff.mp hmap
    rw [percentDecode_dot after hfirst, ← List.append_nil after, percentDecode_dot [] hsecond]
    rfl
  rcases hcases with h | h | h | h
  · exact two (.inl rfl) (.inl rfl) h
  · exact two (.inl rfl) (.inr rfl) h
  · exact two (.inr rfl) (.inl rfl) h
  · exact two (.inr rfl) (.inr rfl) h

/-! Text that stays in its segment. -/

def isUnreserved (ch : Char) : Bool :=
  ch.isAlphanum || ch == '-' || ch == '.' || ch == '_' || ch == '~'

/-- Characters that a path and a query keep as they are. -/
def PlainText (text : Text) : Prop := ∀ ch ∈ text, ch = '%' ∨ isUnreserved ch = true

theorem plainText_encode (text : Text) :
    PlainText (text.flatMap (percentEncode fun ch => !isUnreserved ch)) := by
  have hdigit : ∀ n : Fin 16, isUnreserved (hexDigit n.val) = true := by decide
  intro out hout
  obtain ⟨ch, _, hch⟩ := List.mem_flatMap.mp hout
  unfold percentEncode at hch
  split at hch
  · obtain ⟨byte, _, hbyte⟩ := List.mem_flatMap.mp hch
    have hlt := byte.toNat_lt
    simp only [List.mem_cons, List.not_mem_nil, or_false] at hbyte
    obtain rfl | rfl | rfl := hbyte
    · exact .inl rfl
    · exact .inr (hdigit ⟨byte.toNat / 16, by omega⟩)
    · exact .inr (hdigit ⟨byte.toNat % 16, by omega⟩)
  · rename_i hkept
    obtain rfl := List.mem_singleton.mp hch
    exact .inr (by simpa using hkept)

/-- What the parser does with a character it keeps. -/
structure Keeps (ch : Char) : Prop where
  path : pathSet ch = false
  query : specialQuerySet ch = false
  trimmed : isTrimmed ch = false
  tab : isTabOrNewline ch = false
  slash : ∀ special, isSlash special ch = false
  mark : ch ≠ '?' ∧ ch ≠ '#' ∧ ch ≠ ':'

theorem PlainText.keeps {text : Text} (plain : PlainText text) {ch : Char} (h : ch ∈ text) :
    Keeps ch := by
  have hascii : ∀ n : Fin 128, (Char.ofNat n.val = '%' ∨ isUnreserved (Char.ofNat n.val) = true) →
      pathSet (Char.ofNat n.val) = false ∧ specialQuerySet (Char.ofNat n.val) = false ∧
      isTrimmed (Char.ofNat n.val) = false ∧ isTabOrNewline (Char.ofNat n.val) = false ∧
      (∀ special, isSlash special (Char.ofNat n.val) = false) ∧ Char.ofNat n.val ≠ '?' ∧
      Char.ofNat n.val ≠ '#' ∧ Char.ofNat n.val ≠ ':' := by decide
  have hplain := plain ch h
  have hcode : ch.toNat < 128 := by
    obtain rfl | hkept := hplain
    · decide
    · simp only [isUnreserved, Bool.or_eq_true, beq_iff_eq] at hkept
      obtain (((hkept | rfl) | rfl) | rfl) | rfl := hkept
      · exact toNat_lt_of_isAlphanum hkept
      all_goals decide
  have hch : Char.ofNat ch.toNat = ch := Char.ofNat_toNat ch
  rw [← hch] at hplain ⊢
  obtain ⟨hpath, hquery, htrimmed, htab, hslash, hmark⟩ := hascii ⟨ch.toNat, hcode⟩ hplain
  exact ⟨hpath, hquery, htrimmed, htab, hslash, hmark⟩

/-- A segment the parser keeps. -/
structure Kept (segment : Text) : Prop where
  plain : PlainText segment
  single : isSingleDot segment = false
  double : isDoubleDot segment = false

section Segments
variable {scheme : String} {path : List Text}

theorem readSegments_plain {text : Text} (plain : PlainText text) (buffer tail : Text) :
    readSegments scheme path buffer (text ++ tail) =
      readSegments scheme path (buffer ++ text) tail := by
  induction text generalizing buffer with
  | nil => simp
  | cons ch text ih =>
    have keeps := plain.keeps List.mem_cons_self
    have hend : ¬(ch = '?' ∨ ch = '#') := by simp [keeps.mark.1, keeps.mark.2.1]
    rw [List.cons_append, readSegments, if_neg (by simp [keeps.slash]), if_neg hend,
      ih fun other hother => plain other (List.mem_cons_of_mem _ hother)]
    simp [percentEncode, keeps.path]

theorem addSegment_kept {segment : Text} (web : scheme ≠ "file") (kept : Kept segment)
    (slash : Bool) : addSegment scheme path segment slash = path ++ [segment] := by
  simp [addSegment, kept.single, kept.double, web]

theorem addSegment_nil : addSegment scheme path [] false = path ++ [[]] := by
  simp [addSegment, isDoubleDot, isSingleDot, isWindowsDrive]

theorem readSegments_slash (buffer text : Text) :
    readSegments scheme path buffer ('/' :: text) =
      readSegments scheme (addSegment scheme path buffer true) [] text := by
  rw [readSegments, if_pos (by simp [isSlash])]

/-- What ends a path. -/
def EndsPath (tail : Text) : Prop := tail = [] ∨ ∃ more, tail = '?' :: more

theorem readSegments_ends (special : isSpecial scheme = true) (buffer : Text) {tail : Text}
    (ends : EndsPath tail) :
    readSegments scheme path buffer tail = (addSegment scheme path buffer false, tail) := by
  obtain rfl | ⟨more, rfl⟩ := ends
  · rfl
  · rw [readSegments, special, if_neg (by decide), if_pos (.inl rfl)]

/-- Segments between slashes are added to the path. -/
theorem readSegments_list (special : isSpecial scheme = true) (web : scheme ≠ "file")
    {segments : List Text} (filled : segments ≠ []) (kept : ∀ segment ∈ segments, Kept segment)
    {tail : Text} (ends : EndsPath tail) :
    readSegments scheme path [] (['/'].intercalate segments ++ tail) = (path ++ segments, tail) := by
  induction segments generalizing path with
  | nil => exact absurd rfl filled
  | cons segment segments ih =>
    have hsegment := kept segment List.mem_cons_self
    cases segments with
    | nil =>
      rw [List.intercalate_singleton, readSegments_plain hsegment.plain, List.nil_append,
        readSegments_ends special _ ends, addSegment_kept web hsegment]
    | cons second segments =>
      rw [List.intercalate_cons_cons, List.append_assoc, List.append_assoc,
        readSegments_plain hsegment.plain, List.nil_append, List.singleton_append,
        readSegments_slash, addSegment_kept web hsegment,
        ih (by simp) fun other hother => kept other (List.mem_cons_of_mem _ hother)]
      simp

end Segments

/-! Texts that are longer. -/

section Stops
variable {p : Char → Bool} {ch : Char}

theorem takeWhile_append_stop (stop : p ch = false) (text more : Text) :
    (text ++ ch :: more).takeWhile p = text.takeWhile p := by
  induction text with
  | nil => simp [stop]
  | cons first text ih => simp only [List.cons_append, List.takeWhile_cons, ih]

theorem dropWhile_append_stop (stop : p ch = false) (text more : Text) :
    (text ++ ch :: more).dropWhile p = text.dropWhile p ++ ch :: more := by
  induction text with
  | nil => simp [stop]
  | cons first text ih =>
    simp only [List.cons_append, List.dropWhile_cons, ih]
    split <;> rfl

end Stops

/-- What comes before a character that stays is stripped on its own. -/
theorem strip_stop {ch : Char} (stays : isTrimmed ch = false) (text more : Text) :
    strip (text ++ ch :: more) =
      (text.dropWhile isTrimmed).filter (fun ch => !isTabOrNewline ch) ++ ch :: tidy more := by
  have htab : isTabOrNewline ch = false := by
    by_contra h
    simp [trimmed_of_tab (by simpa using h)] at stays
  change (((text ++ ch :: more).dropWhile isTrimmed).rdropWhile isTrimmed).filter _ = _
  rw [dropWhile_append_stop stays, rdropWhile_append stays, List.filter_append,
    List.filter_cons_of_pos (by simp [htab])]
  rfl

theorem tidy_self {text : Text} (h : ∀ ch ∈ text, isTrimmed ch = false) : tidy text = text := by
  have hkept : text.rdropWhile isTrimmed = text := by
    rw [List.rdropWhile_eq_self_iff]
    intro hne
    simp [h _ (List.getLast_mem hne)]
  rw [tidy, hkept, List.filter_eq_self]
  intro ch hch
  by_contra htab
  have htrimmed := trimmed_of_tab (by simpa using htab)
  simp [h ch hch] at htrimmed

theorem strip_self {text : Text} (h : ∀ ch ∈ text, isTrimmed ch = false) : strip text = text := by
  have hstart : text.dropWhile isTrimmed = text := by
    cases text with
    | nil => rfl
    | cons ch text => rw [List.dropWhile_cons_of_neg (by simp [h ch List.mem_cons_self])]
  change tidy (text.dropWhile isTrimmed) = text
  rw [hstart, tidy_self h]

theorem mem_intercalate {segments : List Text} {ch : Char} (h : ch ∈ ['/'].intercalate segments) :
    ch = '/' ∨ ∃ segment ∈ segments, ch ∈ segment := by
  induction segments with
  | nil => cases h
  | cons segment segments ih =>
    cases segments with
    | nil =>
      rw [List.intercalate_singleton] at h
      exact .inr ⟨segment, List.mem_cons_self, h⟩
    | cons second segments =>
      rw [List.intercalate_cons_cons, List.mem_append, List.mem_append, List.mem_singleton] at h
      rcases h with (h | h) | h
      · exact .inr ⟨segment, List.mem_cons_self, h⟩
      · exact .inl h
      · exact (ih h).imp_right fun ⟨other, hother, hmem⟩ =>
          ⟨other, List.mem_cons_of_mem _ hother, hmem⟩

/-- A scheme is read, or is missing, before the first slash. -/
theorem readScheme_slash (text : Text) :
    (∃ scheme rest, ∀ more, readScheme (text ++ '/' :: more) = some (scheme, rest ++ '/' :: more)) ∨
      ∀ more, readScheme (text ++ '/' :: more) = none := by
  have hslash : isSchemeChar '/' = false := by decide
  cases text with
  | nil =>
    right
    intro more
    rw [List.nil_append, readScheme, if_neg (by decide)]
  | cons ch text =>
    by_cases halpha : ch.isAlpha
    · cases hdrop : text.dropWhile isSchemeChar with
      | nil =>
        right
        intro more
        rw [List.cons_append, readScheme, if_pos halpha, dropWhile_append_stop hslash, hdrop]
        rfl
      | cons mark after =>
        by_cases hmark : mark = ':'
        · subst hmark
          refine .inl ⟨String.ofList ((ch :: text.takeWhile isSchemeChar).map Char.toLower), after,
            fun more => ?_⟩
          rw [List.cons_append, readScheme, if_pos halpha, dropWhile_append_stop hslash, hdrop,
            takeWhile_append_stop hslash]
          rfl
        · right
          intro more
          rw [List.cons_append, readScheme, if_pos halpha, dropWhile_append_stop hslash, hdrop]
          split
          · rename_i heq
            cases heq
            exact absurd rfl hmark
          · rfl
    · right
      intro more
      rw [List.cons_append, readScheme, if_neg halpha]

theorem readScheme_of_no_colon {text : Text} (h : ∀ ch ∈ text, ch ≠ ':') :
    readScheme text = none := by
  unfold readScheme
  split
  · rfl
  · rename_i ch rest
    split
    · split
      · rename_i after hdrop
        have hmem : ':' ∈ rest := (List.dropWhile_sublist _).subset (hdrop ▸ List.mem_cons_self)
        exact absurd rfl (h ':' (List.mem_cons_of_mem _ hmem))
      · rfl
    · rfl

/-- What is left of a path begins a query or a fragment. -/
theorem readSegments_rest (scheme : String) (path : List Text) (buffer text : Text) :
    (readSegments scheme path buffer text).2 = [] ∨
      ∃ ch more, (readSegments scheme path buffer text).2 = ch :: more ∧ (ch = '?' ∨ ch = '#') := by
  fun_induction readSegments scheme path buffer text with
  | case1 path buffer => exact .inl rfl
  | case2 path buffer ch rest hslash ih => exact ih
  | case3 path buffer ch rest hslash hend => exact .inr ⟨ch, rest, rfl, hend⟩
  | case4 path buffer ch rest hslash hend ih => exact ih

/-- A query or a fragment shows in the record. -/
theorem readTail_shows (url : Url) {ch : Char} (more : Text) (h : ch = '?' ∨ ch = '#') :
    (url.readTail (ch :: more)).query ≠ none ∨ (url.readTail (ch :: more)).fragment ≠ none := by
  obtain rfl | rfl := h
  · left
    change (url.readQuery more).query ≠ none
    unfold readQuery
    dsimp only
    split <;> simp [readFragment]
  · right
    simp [readTail, readFragment]

/-- A path that ends in a slash is the start of a longer one. -/
theorem readSegments_extend {scheme : String} {path : List Text} {buffer text : Text}
    (h : (readSegments scheme path buffer (text ++ ['/'])).2 = []) :
    ∃ list, (readSegments scheme path buffer (text ++ ['/'])).1 = list ++ [[]] ∧
      ∀ more, readSegments scheme path buffer (text ++ '/' :: more) =
        readSegments scheme list [] more := by
  induction text generalizing path buffer with
  | nil =>
    refine ⟨addSegment scheme path buffer true, ?_, fun more => readSegments_slash buffer more⟩
    rw [List.nil_append, readSegments_slash, readSegments, addSegment_nil]
  | cons ch text ih =>
    simp only [List.cons_append]
    by_cases hslash : isSlash (isSpecial scheme) ch = true
    · simp only [List.cons_append, readSegments, if_pos hslash] at h ⊢
      exact ih h
    · by_cases hend : ch = '?' ∨ ch = '#'
      · simp [readSegments, hslash, hend] at h
      · simp only [List.cons_append, readSegments, if_neg hslash, if_neg hend] at h ⊢
        exact ih h

/-- A record that shows neither a query nor a fragment. -/
def Bare (url : Url) : Prop := url.query = none ∧ url.fragment = none

theorem readPath_eq (url : Url) (path : List Text) (buffer text : Text) :
    url.readPath path buffer text =
      { url with path := .segments (readSegments url.scheme path buffer text).1 }.readTail
        (readSegments url.scheme path buffer text).2 := rfl

theorem readPath_nil (url : Url) (path : List Text) :
    url.readPath path [] [] = { url with path := .segments (path ++ [[]]) } := by
  rw [readPath_eq, readSegments, addSegment_nil]
  rfl

theorem readPath_extend {url : Url} {path : List Text} {buffer text : Text}
    (bare : Bare (url.readPath path buffer (text ++ ['/']))) :
    ∃ list, (url.readPath path buffer (text ++ ['/'])).path = .segments (list ++ [[]]) ∧
      ∀ more, url.readPath path buffer (text ++ '/' :: more) =
        (url.readPath path buffer (text ++ ['/'])).readPath list [] more := by
  have hrest : (readSegments url.scheme path buffer (text ++ ['/'])).2 = [] := by
    obtain hnil | ⟨ch, more, hcons, hmark⟩ :=
      readSegments_rest url.scheme path buffer (text ++ ['/'])
    · exact hnil
    · rw [Bare, readPath_eq, hcons] at bare
      obtain hquery | hfragment := readTail_shows _ more hmark
      · exact absurd bare.1 hquery
      · exact absurd bare.2 hfragment
  obtain ⟨list, hlist, hmore⟩ := readSegments_extend hrest
  have hread : url.readPath path buffer (text ++ ['/']) =
      { url with path := .segments (list ++ [[]]) } := by
    rw [readPath_eq, hrest, hlist]
    rfl
  refine ⟨list, by rw [hread], fun more => ?_⟩
  rw [hread, readPath_eq, readPath_eq, hmore more]

theorem pathStart_extend {url : Url} (special : isSpecial url.scheme = true) {text : Text}
    (bare : Bare (url.pathStart (text ++ ['/']))) :
    ∃ list, (url.pathStart (text ++ ['/'])).path = .segments (list ++ [[]]) ∧
      ∀ more, url.pathStart (text ++ '/' :: more) =
        (url.pathStart (text ++ ['/'])).readPath list [] more := by
  have hslash : isSlash true '/' = true := by decide
  cases text with
  | nil =>
    have hstart (more : Text) : url.pathStart ('/' :: more) = url.readPath [] [] more := by
      unfold pathStart
      rw [special]
      exact if_pos hslash
    refine ⟨[], ?_, fun more => ?_⟩
    · rw [List.nil_append, hstart, readPath_nil]
    · rw [List.nil_append, List.nil_append, hstart, hstart, readPath_nil]
      rfl
  | cons ch text =>
    by_cases hfirst : isSlash true ch = true
    · have hstart (more : Text) :
          url.pathStart (ch :: text ++ more) = url.readPath [] [] (text ++ more) := by
        unfold pathStart
        rw [special]
        exact if_pos hfirst
      simp only [hstart] at bare ⊢
      exact readPath_extend bare
    · have hstart (more : Text) :
          url.pathStart (ch :: text ++ more) = url.readPath [] [] (ch :: text ++ more) := by
        simp [pathStart, special, hfirst]
      simp only [hstart] at bare ⊢
      exact readPath_extend bare

section Parser
variable [HostParser]

theorem authorityState_nil {scheme : String} (special : isSpecial scheme = true) :
    (blank scheme).authorityState [] = none := by
  simp [authorityState, readAuthority, splitPort, blank, special]

theorem readAuthority_scheme {start url : Url} {text : Text}
    (h : start.readAuthority text = some url) : url.scheme = start.scheme := by
  unfold readAuthority at h
  dsimp only at h
  split at h
  · cases h
  · obtain ⟨host, _, hport⟩ := Option.bind_eq_some_iff.mp h
    obtain ⟨port, _, hurl⟩ := Option.bind_eq_some_iff.mp hport
    cases hurl
    rfl

theorem ignoreSlashes_extend {scheme : String} (special : isSpecial scheme = true) {text : Text}
    {base : Url} (h : (blank scheme).ignoreSlashes (text ++ ['/']) = some base) (bare : Bare base) :
    ∃ list, base.path = .segments (list ++ [[]]) ∧ ∀ more,
      (blank scheme).ignoreSlashes (text ++ '/' :: more) = some (base.readPath list [] more) := by
  have hslash : isSlash true '/' = true := by decide
  cases hdrop : text.dropWhile (isSlash true) with
  | nil =>
    unfold ignoreSlashes at h
    rw [List.dropWhile_append, hdrop] at h
    simp [hslash, authorityState_nil special] at h
  | cons first rest =>
    have hkept (more : Text) : (text ++ '/' :: more).dropWhile (isSlash true) =
        (first :: rest) ++ '/' :: more := by
      rw [List.dropWhile_append, hdrop]
      rfl
    have hends : (!endsAuthority (isSpecial (blank scheme).scheme) '/') = false := by
      simp [endsAuthority, isSlash]
    have htake (text more : Text) :
        (text ++ '/' :: more).takeWhile (!endsAuthority (isSpecial (blank scheme).scheme) ·) =
          text.takeWhile (!endsAuthority (isSpecial (blank scheme).scheme) ·) :=
      takeWhile_append_stop hends text more
    have hdropped (text more : Text) :
        (text ++ '/' :: more).dropWhile (!endsAuthority (isSpecial (blank scheme).scheme) ·) =
          text.dropWhile (!endsAuthority (isSpecial (blank scheme).scheme) ·) ++ '/' :: more :=
      dropWhile_append_stop hends text more
    simp only [ignoreSlashes, authorityState, hkept, htake, hdropped] at h ⊢
    obtain ⟨read, hread, hstart⟩ := Option.map_eq_some_iff.mp h
    have hscheme : read.scheme = scheme := readAuthority_scheme hread
    subst hstart
    obtain ⟨list, hlist, hmore⟩ := pathStart_extend (hscheme ▸ special) bare
    refine ⟨list, hlist, fun more => ?_⟩
    rw [hread, Option.map_some, hmore more]

/-- A base URL is the start of what is written after it. -/
theorem parse_extend {text : Text} {base : Url} (web : IsWeb base)
    (h : parse none (text ++ ['/']) = some base) (bare : Bare base) :
    ∃ list, base.path = .segments (list ++ [[]]) ∧
      ∀ more, (∀ ch ∈ more, isTrimmed ch = false) →
        parse none (text ++ '/' :: more) = some (base.readPath list [] more) := by
  have hslash : isTrimmed '/' = false := by decide
  obtain ⟨_, rest, hread, hafter⟩ := parse_none h
  rw [strip_stop hslash] at hread
  rcases readScheme_slash ((text.dropWhile isTrimmed).filter fun ch => !isTabOrNewline ch) with
    ⟨scheme, front, hscheme⟩ | hnone
  · have hfirst := (hscheme (tidy [])).symm.trans hread
    simp only [Option.some.injEq, Prod.mk.injEq] at hfirst
    obtain ⟨rfl, rfl⟩ := hfirst
    have hstate (more : Text) : afterScheme none base.scheme (front ++ '/' :: more) =
        (blank base.scheme).ignoreSlashes (front ++ '/' :: more) := by
      unfold afterScheme
      rw [if_neg web.2, if_pos web.1]
      exact specialAuthoritySlashes_eq _ _
    rw [hstate] at hafter
    obtain ⟨list, hlist, hmore⟩ := ignoreSlashes_extend web.1 hafter bare
    refine ⟨list, hlist, fun more hclean => ?_⟩
    unfold parse
    dsimp only
    rw [strip_stop hslash, tidy_self hclean, hscheme]
    exact (hstate more).trans (hmore more)
  · rw [hnone] at hread
    cases hread

/-- A relative reference by segments replaces what follows the last slash of its base. -/
theorem parse_join {base : Url} {list segments : List Text} (web : IsWeb base)
    (hbase : base.path = .segments (list ++ [[]])) (filled : segments ≠ [])
    (first : ∀ segment ∈ segments.head?, segment ≠ [])
    (kept : ∀ segment ∈ segments, Kept segment) :
    parse (some base) (['/'].intercalate segments) = some { base with
      path := .segments (list ++ segments), query := none, fragment := none } := by
  have hchars : ∀ ch ∈ ['/'].intercalate segments, isTrimmed ch = false ∧ ch ≠ ':' := by
    intro ch hch
    obtain rfl | ⟨segment, hsegment, hmem⟩ := mem_intercalate hch
    · decide
    · have keeps := (kept segment hsegment).plain.keeps hmem
      exact ⟨keeps.trimmed, keeps.mark.2.2⟩
  have hparse : parse (some base) (['/'].intercalate segments) =
      base.relativeState (['/'].intercalate segments) := by
    unfold parse
    dsimp only
    rw [strip_self fun ch hch => (hchars ch hch).1,
      readScheme_of_no_colon fun ch hch => (hchars ch hch).2]
    simp only [Option.bind_some, noScheme, hbase, if_neg web.2]
  have hshorten : shorten base.scheme (list ++ [[]]) = list := by
    unfold shorten
    split
    · rename_i segment heq
      obtain ⟨rfl, _⟩ := (List.append_eq_singleton_iff.mp heq).resolve_right (by simp)
      simp [web.2]
    · simp
  have hread := @readSegments_list _ list web.1 web.2 _ filled kept [] (.inl rfl)
  rw [List.append_nil] at hread
  rw [hparse]
  cases segments with
  | nil => exact absurd rfl filled
  | cons segment segments =>
    cases segment with
    | nil => exact absurd rfl (first [] rfl)
    | cons ch segment =>
      have keeps := (kept _ List.mem_cons_self).plain.keeps List.mem_cons_self
      obtain ⟨rest, hrest⟩ : ∃ rest, ['/'].intercalate ((ch :: segment) :: segments) = ch :: rest := by
        cases segments <;> exact ⟨_, rfl⟩
      rw [hrest] at hread ⊢
      unfold relativeState
      dsimp only
      rw [if_neg (by simp [keeps.slash]), if_neg (by simp [keeps.mark.1, keeps.mark.2.1]), hbase,
        pathSegments, hshorten, readPath_eq]
      dsimp only
      rw [hread]
      rfl

end Parser

end LakeFsAuth.Library.Url
