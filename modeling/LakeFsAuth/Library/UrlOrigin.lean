import LakeFsAuth.Library.Url

/-! Where a parsed URL points. A text that was serialised is parsed to the same place against
every web base, and a relative reference stays at the place of its base. -/
namespace LakeFsAuth.Library.Url

/-- The place of a URL, with the credentials for it. -/
def site (url : Url) : String × Text × Text × Option Text × Option Nat :=
  (url.scheme, url.username, url.password, url.host, url.port)

/-- The tuple of an origin. -/
def origin (url : Url) : String × Option Text × Option Nat := (url.scheme, url.host, url.port)

theorem origin_of_site {url other : Url} (h : url.site = other.site) : url.origin = other.origin := by
  simp only [site, Prod.mk.injEq] at h
  simp [origin, h]

/-! What follows the place leaves it alone. -/

@[simp] theorem readFragment_site (url : Url) (text : Text) :
    (url.readFragment text).site = url.site := rfl

@[simp] theorem readFragment_path (url : Url) (text : Text) :
    (url.readFragment text).path = url.path := rfl

@[simp] theorem readQuery_site (url : Url) (text : Text) : (url.readQuery text).site = url.site := by
  unfold readQuery
  dsimp only
  split <;> rfl

@[simp] theorem readQuery_path (url : Url) (text : Text) : (url.readQuery text).path = url.path := by
  unfold readQuery
  dsimp only
  split <;> rfl

@[simp] theorem readTail_site (url : Url) (text : Text) : (url.readTail text).site = url.site := by
  unfold readTail
  split <;> simp

@[simp] theorem readTail_path (url : Url) (text : Text) : (url.readTail text).path = url.path := by
  unfold readTail
  split <;> simp

@[simp] theorem readPath_site (url : Url) (path : List Text) (buffer text : Text) :
    (url.readPath path buffer text).site = url.site := by
  unfold readPath
  rw [readTail_site]
  rfl

theorem readPath_path (url : Url) (path : List Text) (buffer text : Text) :
    (url.readPath path buffer text).path =
      .segments (readSegments url.scheme path buffer text).1 := by
  unfold readPath
  rw [readTail_path]

@[simp] theorem pathStart_site (url : Url) (text : Text) : (url.pathStart text).site = url.site := by
  unfold pathStart
  split
  · split_ifs <;> simp
  · split_ifs <;> simp

/-! Percent-encoded text. -/

theorem toNat_lt_of_isAlphanum {ch : Char} (h : ch.isAlphanum) : ch.toNat < 128 := by
  unfold Char.isAlphanum Char.isAlpha Char.isUpper Char.isLower Char.isDigit at h
  simp only [Bool.or_eq_true, Bool.and_eq_true, decide_eq_true_eq, UInt32.le_iff_toNat_le] at h
  have hval : ch.val.toNat = ch.toNat := rfl
  simp [hval] at h
  omega

theorem userinfoSet_marks {ch : Char} (h : ch = '%' ∨ ch.isAlphanum) : userinfoSet ch = false := by
  have hascii : ∀ n : Fin 128, (Char.ofNat n.val = '%' ∨ (Char.ofNat n.val).isAlphanum) →
      userinfoSet (Char.ofNat n.val) = false := by decide
  have hcode : ch.toNat < 128 := by
    rcases h with rfl | h
    · decide
    · exact toNat_lt_of_isAlphanum h
  have hch : Char.ofNat ch.toNat = ch := Char.ofNat_toNat ch
  rw [← hch] at h ⊢
  exact hascii ⟨ch.toNat, hcode⟩ h

theorem percentEncode_safe {set safe : Char → Bool} (marks : ∀ ch, userinfoSet ch = false → safe ch)
    {ch : Char} (h : set ch = false → safe ch) : ∀ out ∈ percentEncode set ch, safe out := by
  intro out hout
  unfold percentEncode at hout
  split at hout
  · obtain ⟨byte, _, hout⟩ := List.mem_flatMap.mp hout
    have hdigit : ∀ n : Fin 16, (hexDigit n.val).isAlphanum := by decide
    have hlow : byte.toNat % 16 < 16 := Nat.mod_lt _ (by decide)
    have hhigh : byte.toNat / 16 < 16 := by
      have hbyte := byte.toNat_lt
      omega
    simp only [List.mem_cons, List.not_mem_nil, or_false] at hout
    rcases hout with rfl | rfl | rfl
    · exact marks _ (userinfoSet_marks (.inl rfl))
    · exact marks _ (userinfoSet_marks (.inr (hdigit ⟨_, hhigh⟩)))
    · exact marks _ (userinfoSet_marks (.inr (hdigit ⟨_, hlow⟩)))
  · rename_i hset
    obtain rfl := List.mem_singleton.mp hout
    exact h (by simpa using hset)

/-- A user name or a password. -/
theorem encode_userinfo (text : Text) :
    ∀ ch ∈ text.flatMap (percentEncode userinfoSet), userinfoSet ch = false := by
  intro ch hch
  obtain ⟨plain, _, hout⟩ := List.mem_flatMap.mp hch
  have hsafe : ∀ out ∈ percentEncode userinfoSet plain, (!userinfoSet out) = true :=
    percentEncode_safe (fun ch h => by simp [h]) (fun h => by simp [h])
  simpa using hsafe ch hout

/-! The segments of a path. -/

/-- What a character of a segment is. -/
def inSegment (ch : Char) : Bool := !pathSet ch && ch != '/'

def CleanSegment (segment : Text) : Prop := ∀ ch ∈ segment, inSegment ch = true

theorem inSegment_of_userinfo {ch : Char} (h : userinfoSet ch = false) : inSegment ch = true := by
  have hslash : ch ≠ '/' := fun heq => by simp [userinfoSet, heq] at h
  simp only [userinfoSet, Bool.or_eq_false_iff] at h
  simp [inSegment, h.1, hslash]

theorem cleanSegment_nil : CleanSegment [] := by simp [CleanSegment]

theorem CleanSegment.snoc {buffer : Text} (clean : CleanSegment buffer) {special : Bool} {ch : Char}
    (h : isSlash special ch = false) : CleanSegment (buffer ++ percentEncode pathSet ch) := by
  have hslash : ch ≠ '/' := fun heq => by simp [isSlash, heq] at h
  intro out hout
  rcases List.mem_append.mp hout with hold | hnew
  · exact clean out hold
  · exact percentEncode_safe (fun ch => inSegment_of_userinfo)
      (fun hset => by simp [inSegment, hset, hslash]) out hnew

theorem length_shorten_le (scheme : String) (path : List Text) :
    (shorten scheme path).length ≤ path.length := by
  unfold shorten
  split
  · split_ifs <;> simp
  · simp

theorem mem_shorten {scheme : String} {path : List Text} {segment : Text}
    (h : segment ∈ shorten scheme path) : segment ∈ path := by
  unfold shorten at h
  split at h
  · split_ifs at h
    · exact h
    · simp at h
  · exact (List.dropLast_sublist path).subset h

theorem addSegment_clean {scheme : String} {path : List Text} {buffer : Text} (slash : Bool)
    (hpath : ∀ segment ∈ path, CleanSegment segment) (hbuffer : CleanSegment buffer) :
    ∀ segment ∈ addSegment scheme path buffer slash, CleanSegment segment := by
  have hshort : ∀ segment ∈ shorten scheme path, CleanSegment segment :=
    fun segment h => hpath segment (mem_shorten h)
  have hdrive : CleanSegment (buffer.take 1 ++ [':']) := by
    intro ch hch
    rcases List.mem_append.mp hch with h | h
    · exact hbuffer ch (List.mem_of_mem_take h)
    · obtain rfl := List.mem_singleton.mp h
      decide
  have snoc {list : List Text} {last : Text} (h : ∀ segment ∈ list, CleanSegment segment)
      (hlast : CleanSegment last) : ∀ segment ∈ list ++ [last], CleanSegment segment :=
    List.forall_mem_append.mpr ⟨h, List.forall_mem_singleton.mpr hlast⟩
  unfold addSegment
  split_ifs
  · exact hshort
  · exact snoc hshort cleanSegment_nil
  · exact hpath
  · exact snoc hpath cleanSegment_nil
  · exact List.forall_mem_singleton.mpr hdrive
  · exact snoc hpath hbuffer

theorem addSegment_last_ne_nil (scheme : String) (path : List Text) (buffer : Text) :
    addSegment scheme path buffer false ≠ [] := by
  unfold addSegment
  split_ifs <;> simp_all

theorem readSegments_ne_nil (scheme : String) (path : List Text) (buffer text : Text) :
    (readSegments scheme path buffer text).1 ≠ [] := by
  fun_induction readSegments scheme path buffer text with
  | case1 path buffer => exact addSegment_last_ne_nil scheme path buffer
  | case2 path buffer ch rest hslash ih => exact ih
  | case3 path buffer ch rest hslash hend => exact addSegment_last_ne_nil scheme path buffer
  | case4 path buffer ch rest hslash hend ih => exact ih

theorem readSegments_clean {scheme : String} {path : List Text} {buffer : Text} (text : Text)
    (hpath : ∀ segment ∈ path, CleanSegment segment) (hbuffer : CleanSegment buffer) :
    ∀ segment ∈ (readSegments scheme path buffer text).1, CleanSegment segment := by
  fun_induction readSegments scheme path buffer text with
  | case1 path buffer => exact addSegment_clean false hpath hbuffer
  | case2 path buffer ch rest hslash ih =>
    exact ih (addSegment_clean true hpath hbuffer) cleanSegment_nil
  | case3 path buffer ch rest hslash hend => exact addSegment_clean false hpath hbuffer
  | case4 path buffer ch rest hslash hend ih =>
    exact ih hpath (hbuffer.snoc (by simpa using hslash))

/-! What is removed from the input. -/

/-- A character that is removed at the ends. -/
def isTrimmed (ch : Char) : Bool := isC0Control ch || ch == ' '

/-- What stays of the input after a character that stays. -/
def tidy (text : Text) : Text := (text.rdropWhile isTrimmed).filter fun ch => !isTabOrNewline ch

theorem trimmed_of_tab {ch : Char} (h : isTabOrNewline ch = true) : isTrimmed ch = true := by
  simp only [isTabOrNewline, Bool.or_eq_true, beq_iff_eq] at h
  rcases h with (rfl | rfl) | rfl <;> decide

theorem rdropWhile_append {before after : Text} {ch : Char} (h : isTrimmed ch = false) :
    (before ++ ch :: after).rdropWhile isTrimmed = before ++ ch :: after.rdropWhile isTrimmed := by
  have hreverse : (before ++ ch :: after).reverse = after.reverse ++ (ch :: before.reverse) := by simp
  rw [List.rdropWhile, List.rdropWhile, hreverse, List.dropWhile_append]
  split
  · rename_i hempty
    rw [List.isEmpty_iff.mp hempty, List.dropWhile_cons_of_neg (by simp [h])]
    simp
  · simp

theorem strip_append {before : Text} {ch : Char} (after : Text)
    (hhead : ∀ first ∈ (before ++ [ch]).head?, isTrimmed first = false)
    (hbefore : ∀ other ∈ before, isTabOrNewline other = false) (hch : isTrimmed ch = false) :
    strip (before ++ ch :: after) = before ++ ch :: tidy after := by
  have htab : isTabOrNewline ch = false := by
    by_contra h
    simp [trimmed_of_tab (by simpa using h)] at hch
  have hstart : (before ++ ch :: after).dropWhile isTrimmed = before ++ ch :: after := by
    cases before with
    | nil => exact List.dropWhile_cons_of_neg (by simp [hch])
    | cons first before =>
      have hfirst := hhead first (by simp)
      exact List.dropWhile_cons_of_neg (by simp [hfirst])
  have hfilter : before.filter (fun ch => !isTabOrNewline ch) = before :=
    List.filter_eq_self.mpr fun other hother => by simp [hbefore other hother]
  change ((List.dropWhile isTrimmed _).rdropWhile isTrimmed).filter _ = _
  rw [hstart, rdropWhile_append hch, List.filter_append, hfilter,
    List.filter_cons_of_pos (by simp [htab])]
  rfl

/-- Text that starts with a character that stays, starts with it after the removal. -/
theorem tidy_cons {ch : Char} (text : Text) (h : isTrimmed ch = false) :
    tidy (ch :: text) = ch :: tidy text := by
  have hkept := @rdropWhile_append [] text ch h
  have htab : isTabOrNewline ch = false := by
    by_contra htab
    simp [trimmed_of_tab (by simpa using htab)] at h
  simp only [List.nil_append] at hkept
  rw [tidy, hkept, List.filter_cons_of_pos (by simp [htab])]
  rfl

/-! The authority. -/

theorem forbidden_of_mem {ch : Char}
    (h : ch ∈ ['\t', '\n', '\r', ' ', '#', '/', ':', '<', '>', '?', '@', '[', '\\', ']', '^', '|']) :
    isForbiddenHost ch = true := by
  simp only [List.mem_cons, List.not_mem_nil, or_false] at h
  rcases h with rfl | rfl | rfl | rfl | rfl | rfl | rfl | rfl | rfl | rfl | rfl | rfl | rfl | rfl |
    rfl | rfl <;> decide

/-- The brackets around an address hide its colons. -/
theorem splitPort_address (address rest : Text)
    (h : ∀ ch ∈ address, ch = ':' ∨ isForbiddenHost ch = false) :
    splitPort true (address ++ ']' :: rest) =
      (address ++ ']' :: (splitPort false rest).1, (splitPort false rest).2) := by
  induction address with
  | nil => simp [splitPort]
  | cons ch address ih =>
    have hch := h ch List.mem_cons_self
    have hopen : ch ≠ '[' := by
      rintro rfl
      simp [forbidden_of_mem] at hch
    have hclose : ch ≠ ']' := by
      rintro rfl
      simp [forbidden_of_mem] at hch
    have hrest := ih fun other hother => h other (List.mem_cons_of_mem _ hother)
    simp [splitPort, hopen, hclose, hrest]

/-- No forbidden code point but the colons of an address in brackets. -/
def IsHost (host : Text) : Prop :=
  (∀ ch ∈ host, isForbiddenHost ch = false) ∨
    ∃ address, host = '[' :: (address ++ [']']) ∧
      ∀ ch ∈ address, ch = ':' ∨ isForbiddenHost ch = false

/-- A host is not split, and what follows it decides about the port. -/
theorem splitPort_isHost {host : Text} (isHost : IsHost host) (rest : Text) :
    splitPort false (host ++ rest) = (host ++ (splitPort false rest).1, (splitPort false rest).2) := by
  rcases isHost with hplain | ⟨address, rfl, haddress⟩
  · induction host with
    | nil => simp
    | cons ch host ih =>
      have hch := hplain ch List.mem_cons_self
      have hcolon : ch ≠ ':' := by
        rintro rfl
        simp [forbidden_of_mem] at hch
      have hopen : ch ≠ '[' := by
        rintro rfl
        simp [forbidden_of_mem] at hch
      have hclose : ch ≠ ']' := by
        rintro rfl
        simp [forbidden_of_mem] at hch
      have hrest := ih fun other hother => hplain other (List.mem_cons_of_mem _ hother)
      simp [splitPort, hcolon, hopen, hclose, hrest]
  · have hsplit := splitPort_address address rest haddress
    simp [splitPort, hsplit]

theorem splitPort_host [HostParser] {notSpecial : Bool} {text host : Text}
    (parsed : HostParser.parse notSpecial text = some host) (rest : Text) :
    splitPort false (host ++ rest) = (host ++ (splitPort false rest).1, (splitPort false rest).2) :=
  splitPort_isHost (HostParser.shape parsed) rest

/-- The characters of a host: no delimiters but the colons of an address. -/
theorem host_char [HostParser] {notSpecial : Bool} {text host : Text}
    (parsed : HostParser.parse notSpecial text = some host) {ch : Char} (h : ch ∈ host) :
    ch = ':' ∨ ch = '[' ∨ ch = ']' ∨ isForbiddenHost ch = false := by
  rcases HostParser.shape parsed with hplain | ⟨address, rfl, haddress⟩
  · exact .inr (.inr (.inr (hplain ch h)))
  · simp only [List.mem_cons, List.mem_append, List.not_mem_nil, or_false] at h
    rcases h with rfl | h | rfl
    · simp
    · rcases haddress ch h with rfl | hclean <;> simp [*]
    · simp

/-! Schemes. -/

theorem schemeChar_lower {ch : Char} (h : isSchemeChar ch = true) :
    isSchemeChar ch.toLower = true ∧ ch.toLower.toLower = ch.toLower ∧
      (ch.isAlpha → ch.toLower.isAlpha) ∧ isForbiddenHost ch.toLower = false ∧
      isC0Control ch.toLower = false := by
  have hascii : ∀ n : Fin 128, isSchemeChar (Char.ofNat n.val) = true →
      isSchemeChar (Char.ofNat n.val).toLower = true ∧
      (Char.ofNat n.val).toLower.toLower = (Char.ofNat n.val).toLower ∧
      ((Char.ofNat n.val).isAlpha → (Char.ofNat n.val).toLower.isAlpha) ∧
      isForbiddenHost (Char.ofNat n.val).toLower = false ∧
      isC0Control (Char.ofNat n.val).toLower = false := by decide
  have hcode : ch.toNat < 128 := by
    simp only [isSchemeChar, Bool.or_eq_true, beq_iff_eq] at h
    rcases h with ((h | rfl) | rfl) | rfl
    · exact toNat_lt_of_isAlphanum h
    all_goals decide
  have hch : Char.ofNat ch.toNat = ch := Char.ofNat_toNat ch
  rw [← hch] at h ⊢
  exact hascii ⟨ch.toNat, hcode⟩ h

/-- A scheme as its text is read. -/
structure IsScheme (scheme : String) : Prop where
  read : ∀ rest, readScheme (scheme.toList ++ ':' :: rest) = some (scheme, rest)
  filled : scheme.toList ≠ []
  clean : ∀ ch ∈ scheme.toList, isForbiddenHost ch = false ∧ isC0Control ch = false

theorem isScheme_of_read {text rest : Text} {scheme : String}
    (h : readScheme text = some (scheme, rest)) : IsScheme scheme := by
  cases text with
  | nil => cases h
  | cons ch text =>
    rw [readScheme] at h
    split_ifs at h with halpha
    split at h
    · simp only [Option.some.injEq, Prod.mk.injEq] at h
      obtain ⟨rfl, rfl⟩ := h
      have hhead : isSchemeChar ch = true := by simp [isSchemeChar, Char.isAlphanum, halpha]
      have htail : ∀ other ∈ text.takeWhile isSchemeChar, isSchemeChar other = true :=
        fun other hother => List.mem_takeWhile_imp hother
      have hlower : ∀ other ∈ (text.takeWhile isSchemeChar).map Char.toLower,
          isSchemeChar other = true := by
        intro other hother
        obtain ⟨plain, hplain, rfl⟩ := List.mem_map.mp hother
        exact (schemeChar_lower (htail plain hplain)).1
      have hagain : ((text.takeWhile isSchemeChar).map Char.toLower).map Char.toLower =
          (text.takeWhile isSchemeChar).map Char.toLower := by
        rw [List.map_map]
        exact List.map_congr_left fun other hother => (schemeChar_lower (htail other hother)).2.1
      have hcolon : isSchemeChar ':' = false := by decide
      refine ⟨fun rest => ?_, by simp, fun other hother => ?_⟩
      · simp only [String.toList_ofList, List.map_cons, List.cons_append, readScheme]
        rw [if_pos ((schemeChar_lower hhead).2.2.1 halpha),
          List.dropWhile_append_of_pos hlower, List.takeWhile_append_of_pos hlower]
        simp [hcolon, hagain, (schemeChar_lower hhead).2.1]
      · simp only [String.toList_ofList] at hother
        obtain ⟨plain, hplain, rfl⟩ := List.mem_map.mp hother
        rcases List.mem_cons.mp hplain with rfl | hplain
        · exact (schemeChar_lower hhead).2.2.2
        · exact (schemeChar_lower (htail plain hplain)).2.2.2
    · cases h

/-! Places. -/

section Places
variable [HostParser]

/-- What the parser leaves as the place of a URL. -/
structure Placed (url : Url) : Prop where
  scheme : IsScheme url.scheme
  login : ∀ ch ∈ url.username ++ url.password, userinfoSet ch = false
  port : ∀ port, url.port = some port → port ≤ 65535 ∧ defaultPort url.scheme ≠ some port
  bare : url.host.getD [] = [] → url.username = [] ∧ url.password = [] ∧ url.port = none
  hostless : url.host = none → isSpecial url.scheme = false
  host : ∀ host, url.host = some host → url.scheme = "file" ∧ host = [] ∨
    HostParser.parse (!isSpecial url.scheme) host = some host
  file : url.scheme = "file" → url.username = [] ∧ url.password = [] ∧ url.port = none ∧
    url.host ≠ some "localhost".toList

theorem Placed.of_site {url other : Url} (placed : Placed other) (h : url.site = other.site) :
    Placed url := by
  cases url
  cases other
  simp only [site, Prod.mk.injEq] at h
  obtain ⟨rfl, rfl, rfl, rfl, rfl⟩ := h
  exact ⟨placed.scheme, placed.login, placed.port, placed.bare, placed.hostless, placed.host,
    placed.file⟩

/-- A place of one scheme. -/
def PlacedIn (scheme : String) (url : Url) : Prop := Placed url ∧ url.scheme = scheme

theorem PlacedIn.of_site {scheme : String} {url other : Url} (placed : PlacedIn scheme other)
    (h : url.site = other.site) : PlacedIn scheme url :=
  ⟨placed.1.of_site h, (congrArg Prod.fst h).trans placed.2⟩

/-- A scheme without a host. -/
theorem placed_blank {scheme : String} (isScheme : IsScheme scheme)
    (special : isSpecial scheme = false) : Placed (blank scheme) where
  scheme := isScheme
  login := by simp [blank]
  port := by simp [blank]
  bare := by simp [blank]
  hostless := by simp [blank, special]
  host := by simp [blank]
  file := by simp [blank]

omit [HostParser] in
theorem readPort_bounds {scheme : String} {text : Text} {port : Option Nat} {number : Nat}
    (h : readPort scheme text = some port) (hport : port = some number) :
    number ≤ 65535 ∧ defaultPort scheme ≠ some number := by
  subst hport
  unfold readPort at h
  dsimp only at h
  split_ifs at h with hempty hdigits hlarge hdefault
  · simp at h
  · simp at h
  · simp only [Option.some.injEq] at h
    subst h
    exact ⟨by omega, hdefault⟩

omit [HostParser] in
theorem splitPort_nil {inside : Bool} {text : Text} (h : splitPort inside text = ([], none)) :
    text = [] := by
  cases text with
  | nil => rfl
  | cons ch rest =>
    rw [splitPort] at h
    split_ifs at h <;> simp at h

theorem readAuthority_placed {start url : Url} {text : Text} (isScheme : IsScheme start.scheme)
    (hfile : start.scheme ≠ "file") (h : start.readAuthority text = some url) :
    PlacedIn start.scheme url := by
  unfold readAuthority at h
  dsimp only at h
  generalize hsplit : splitPort false (text.rtakeWhile (· != '@')) = pieces at h
  split at h
  · cases h
  rename_i hmissing
  obtain ⟨host, hhost, hport⟩ := Option.bind_eq_some_iff.mp h
  obtain ⟨number, hnumber, hurl⟩ := Option.bind_eq_some_iff.mp hport
  simp only [Option.some.injEq] at hurl
  subst hurl
  refine ⟨⟨isScheme, ?_, fun port hport => readPort_bounds hnumber hport, fun hempty => ?_, by simp,
    fun other hother => ?_, fun heq => absurd heq hfile⟩, rfl⟩
  · intro ch hch
    rcases List.mem_append.mp hch with hch | hch
    · exact encode_userinfo _ ch hch
    · exact encode_userinfo _ ch hch
  · -- An empty host stands alone: no `@` and no port are next to it.
    obtain ⟨_, htext⟩ := (HostParser.filled hhost).mp hempty
    have hnone : pieces.2 = none := by
      rw [← Option.not_isSome_iff_eq_none]
      exact fun hsome => hmissing (.inr ⟨htext, .inl hsome⟩)
    have hhostPort : text.rtakeWhile (· != '@') = [] :=
      splitPort_nil (hsplit.trans (Prod.ext htext hnone))
    have hat : '@' ∉ text := fun hmem => hmissing (.inl ⟨hmem, hhostPort⟩)
    have hall : text.rdropWhile (· != '@') = [] := by
      rw [List.rdropWhile_eq_nil_iff]
      intro ch hch
      have hne : ch ≠ '@' := fun heq => hat (heq ▸ hch)
      simpa using hne
    rw [hnone] at hnumber
    have hblank : number = none := by simpa [readPort, eq_comm] using hnumber
    simp [hall, hblank]
  · cases hother
    exact .inr (HostParser.again hhost)

theorem authorityState_placed {start url : Url} {text : Text} (isScheme : IsScheme start.scheme)
    (hfile : start.scheme ≠ "file") (h : start.authorityState text = some url) :
    PlacedIn start.scheme url := by
  obtain ⟨read, hread, rfl⟩ := Option.map_eq_some_iff.mp h
  exact (readAuthority_placed isScheme hfile hread).of_site (pathStart_site _ _)

omit [HostParser] in
theorem isScheme_file : IsScheme "file" :=
  isScheme_of_read (by decide : readScheme "file:".toList = some ("file", []))

/-- A file without credentials and a port. -/
theorem placed_file {host : Text} (h : host = [] ∨ HostParser.parse false host = some host)
    (hlocal : host ≠ "localhost".toList) : Placed { blank "file" with host := some host } where
  scheme := isScheme_file
  login := by simp [blank]
  port := by simp [blank]
  bare := by simp [blank]
  hostless := by simp
  host other hother := by
    cases hother
    exact h.imp (fun hempty => ⟨rfl, hempty⟩) id
  file := by simpa [blank] using hlocal

theorem placedIn_file : PlacedIn "file" { blank "file" with host := some [] } :=
  ⟨placed_file (.inl rfl) (by decide), rfl⟩

theorem fileHost_placed {text : Text} {url : Url} (h : fileHost text = some url) :
    PlacedIn "file" url := by
  unfold fileHost at h
  dsimp only at h
  split at h
  · cases h
    exact placedIn_file.of_site (readPath_site _ _ _ _)
  · split at h
    · cases h
      exact placedIn_file.of_site (pathStart_site _ _)
    · obtain ⟨host, hhost, hurl⟩ := Option.bind_eq_some_iff.mp h
      cases hurl
      refine PlacedIn.of_site ?_ (pathStart_site _ _)
      split
      · exact placedIn_file
      · rename_i hlocal
        exact ⟨placed_file (.inr (HostParser.again hhost)) hlocal, rfl⟩

theorem fileState_placed {text : Text} {url : Url} (h : fileState none text = some url) :
    PlacedIn "file" url := by
  unfold fileState at h
  split at h
  · split at h
    · unfold fileSlash at h
      dsimp only at h
      split at h
      · split at h
        · exact fileHost_placed h
        · cases h
          exact placedIn_file.of_site (readPath_site _ _ _ _)
      · cases h
        exact placedIn_file.of_site (readPath_site _ _ _ _)
    · cases h
      exact placedIn_file.of_site (readPath_site _ _ _ _)
  · rename_i heq
    cases heq
  · cases h
    exact placedIn_file.of_site (readPath_site _ _ _ _)

theorem afterScheme_placed {scheme : String} {rest : Text} {url : Url} (isScheme : IsScheme scheme)
    (h : afterScheme none scheme rest = some url) : PlacedIn scheme url := by
  unfold afterScheme at h
  split_ifs at h with hfile hspecial
  · rw [hfile]
    exact fileState_placed h
  · dsimp only [Option.filter_none] at h
    unfold specialAuthoritySlashes at h
    split at h
    · exact @authorityState_placed _ (blank scheme) url _ isScheme hfile h
    · exact @authorityState_placed _ (blank scheme) url _ isScheme hfile h
  · have hblank : PlacedIn scheme (blank scheme) :=
      ⟨placed_blank isScheme (by simpa using hspecial), rfl⟩
    split at h
    · unfold pathOrAuthority at h
      split at h
      · exact @authorityState_placed _ (blank scheme) url _ isScheme hfile h
      · cases h
        exact hblank.of_site (readPath_site _ _ _ _)
    · cases h
      exact hblank.of_site (readTail_site _ _)

/-- What is parsed without a base has a scheme of its own. -/
theorem parse_none {text : Text} {url : Url} (h : parse none text = some url) :
    Placed url ∧ ∃ rest, readScheme (strip text) = some (url.scheme, rest) ∧
      afterScheme none url.scheme rest = some url := by
  unfold parse at h
  dsimp only at h
  split at h
  · rename_i scheme rest hread
    obtain ⟨placed, rfl⟩ := afterScheme_placed (isScheme_of_read hread) h
    exact ⟨placed, rest, hread, h⟩
  · cases h

/-! A serialised place is parsed to itself. -/

omit [HostParser] in
theorem rtakeWhile_after {before after : Text} (h : '@' ∉ after) :
    (before ++ '@' :: after).rtakeWhile (· != '@') = after := by
  have hall : ∀ ch ∈ after.reverse, (ch != '@') = true := by
    intro ch hch
    have hne : ch ≠ '@' := fun heq => h (heq ▸ List.mem_reverse.mp hch)
    simpa using hne
  simp [List.rtakeWhile, List.takeWhile_append_of_pos hall]

omit [HostParser] in
theorem rtakeWhile_all {text : Text} (h : '@' ∉ text) : text.rtakeWhile (· != '@') = text := by
  have hall : ∀ ch ∈ text.reverse, (ch != '@') = true := by
    intro ch hch
    have hne : ch ≠ '@' := fun heq => h (heq ▸ List.mem_reverse.mp hch)
    simpa using hne
  rw [List.rtakeWhile, List.takeWhile_eq_self_iff.mpr hall, List.reverse_reverse]

/-- The text of the authority. -/
def authorityText (url : Url) (host : Text) : Text := url.credentials ++ (host ++ url.portText)

omit [HostParser] in
theorem portText_char {url : Url} {ch : Char} (h : ch ∈ url.portText) :
    ch = ':' ∨ ch.isDigit = true := by
  unfold portText at h
  split at h
  · simp at h
  · rcases List.mem_cons.mp h with rfl | h
    · exact .inl rfl
    · exact .inr (Nat.isDigit_of_mem_toDigits (by decide) (by decide) h)

omit [HostParser] in
theorem readPort_digits {scheme : String} {port : Nat} (hport : port ≤ 65535)
    (hdefault : defaultPort scheme ≠ some port) :
    readPort scheme (digits port) = some (some port) := by
  have hall : (digits port).all Char.isDigit = true :=
    List.all_eq_true.mpr fun ch h => Nat.isDigit_of_mem_toDigits (by decide) (by decide) h
  have hnumber : Nat.ofDigitChars 10 (digits port) 0 = port := Nat.ofDigitChars_ten_toDigits
  have hfilled : digits port ≠ [] := Nat.toDigits_ne_nil
  unfold readPort
  rw [if_neg hfilled, if_pos hall]
  dsimp only
  rw [hnumber, if_neg (by omega), if_neg hdefault]

theorem readAuthority_text {url start : Url} {host : Text} (placed : Placed url)
    (hhost : url.host = some host) (hfile : url.scheme ≠ "file") (hstart : start.scheme = url.scheme) :
    ∃ read, start.readAuthority (url.authorityText host) = some read ∧ read.origin = url.origin := by
  have hparsed : HostParser.parse (!isSpecial url.scheme) host = some host :=
    (placed.host host hhost).resolve_left fun h => hfile h.1
  have hat : '@' ∉ host ++ url.portText := by
    intro hmem
    rcases List.mem_append.mp hmem with h | h
    · rcases host_char hparsed h with h | h | h | h <;> revert h <;> decide
    · rcases portText_char h with h | h <;> revert h <;> decide
  have hlast : (url.authorityText host).rtakeWhile (· != '@') = host ++ url.portText := by
    unfold authorityText credentials
    split
    · exact rtakeWhile_all hat
    · rw [List.append_assoc]
      exact rtakeWhile_after hat
  have hsplit : splitPort false (host ++ url.portText) = (host, url.port.map digits) := by
    rw [splitPort_host hparsed]
    unfold portText
    cases url.port <;> simp [splitPort]
  have hbare : host = [] → url.username = [] ∧ url.password = [] ∧ url.port = none := by
    intro hempty
    exact placed.bare (by simp [hhost, hempty])
  have hfilled := HostParser.filled hparsed
  have hport : readPort url.scheme ((url.port.map digits).getD []) = some url.port := by
    cases hnumber : url.port with
    | none => rfl
    | some port =>
      obtain ⟨hsmall, hdefault⟩ := placed.port port hnumber
      exact readPort_digits hsmall hdefault
  have hkept : ¬ ('@' ∈ url.authorityText host ∧ host ++ url.portText = [] ∨
      host = [] ∧ ((url.port.map digits).isSome ∨ isSpecial url.scheme)) := by
    rintro (⟨hmem, hempty⟩ | ⟨hempty, hsome | hspecial⟩)
    · obtain ⟨hhostEmpty, hportEmpty⟩ := List.append_eq_nil_iff.mp hempty
      obtain ⟨huser, hpassword, _⟩ := hbare hhostEmpty
      simp [authorityText, credentials, huser, hpassword, hempty] at hmem
    · simp [(hbare hempty).2.2] at hsome
    · have hplain := (hfilled.mp hempty).1
      simp [hspecial] at hplain
  unfold readAuthority
  dsimp only
  rw [hlast, hsplit, hstart]
  dsimp only
  rw [if_neg hkept, hparsed, Option.bind_eq_bind, Option.bind_some, hport]
  exact ⟨_, rfl, by simp [origin, hhost]⟩

/-- A character that stands in an authority. -/
def InAuthority (ch : Char) : Prop :=
  isForbiddenHost ch = false ∨ ch = ':' ∨ ch = '[' ∨ ch = ']' ∨ ch = '@'

omit [HostParser] in
theorem InAuthority.plain {ch : Char} (h : InAuthority ch) (special : Bool) :
    endsAuthority special ch = false ∧ isTabOrNewline ch = false := by
  have hne {other : Char} (hforbidden : isForbiddenHost other = true)
      (hother : other ∉ [':', '[', ']', '@']) : ch ≠ other := by
    rintro rfl
    rcases h with h | h
    · simp [hforbidden] at h
    · exact hother (by simpa using h)
  have hslash := hne (by decide : isForbiddenHost '/' = true) (by decide)
  have hback := hne (by decide : isForbiddenHost '\\' = true) (by decide)
  have hquestion := hne (by decide : isForbiddenHost '?' = true) (by decide)
  have hhash := hne (by decide : isForbiddenHost '#' = true) (by decide)
  have htab := hne (by decide : isForbiddenHost '\t' = true) (by decide)
  have hline := hne (by decide : isForbiddenHost '\n' = true) (by decide)
  have hreturn := hne (by decide : isForbiddenHost '\r' = true) (by decide)
  simp [endsAuthority, isSlash, isTabOrNewline, hslash, hback, hquestion, hhash, htab, hline, hreturn]

omit [HostParser] in
theorem inAuthority_of_userinfo {ch : Char} (h : userinfoSet ch = false) : InAuthority ch := by
  left
  by_contra hforbidden
  have htrue : isForbiddenHost ch = true := by simpa using hforbidden
  simp only [isForbiddenHost, isTabOrNewline, Bool.or_eq_true, beq_iff_eq, decide_eq_true_eq] at htrue
  rcases htrue with (((rfl | rfl) | rfl) | hzero) | hmem
  · revert h; decide
  · revert h; decide
  · revert h; decide
  · have hch : ch = Char.ofNat 0 := by rw [← hzero, Char.ofNat_toNat]
    rw [hch] at h
    revert h
    decide
  · simp only [List.mem_cons, List.not_mem_nil, or_false] at hmem
    rcases hmem with rfl | rfl | rfl | rfl | rfl | rfl | rfl | rfl | rfl | rfl | rfl | rfl | rfl <;>
      revert h <;> decide

theorem authorityText_char {url : Url} {host : Text} (placed : Placed url)
    (hhost : ∀ ch ∈ host, InAuthority ch) {ch : Char} (h : ch ∈ url.authorityText host) :
    InAuthority ch := by
  have hlogin : ∀ ch ∈ url.credentials, InAuthority ch := by
    intro ch hch
    unfold credentials at hch
    split at hch
    · simp at hch
    · simp only [List.mem_append, List.mem_singleton] at hch
      rcases hch with (hch | hch) | rfl
      · exact inAuthority_of_userinfo (placed.login ch (List.mem_append_left _ hch))
      · split at hch
        · simp at hch
        · rcases List.mem_cons.mp hch with rfl | hch
          · exact .inr (.inl rfl)
          · exact inAuthority_of_userinfo (placed.login ch (List.mem_append_right _ hch))
      · simp [InAuthority]
  simp only [authorityText, List.mem_append] at h
  rcases h with h | h | h
  · exact hlogin ch h
  · exact hhost ch h
  · rcases portText_char h with rfl | hdigit
    · exact .inr (.inl rfl)
    · exact inAuthority_of_userinfo (userinfoSet_marks (.inr (by simp [Char.isAlphanum, hdigit])))

theorem host_inAuthority {notSpecial : Bool} {text host : Text}
    (parsed : HostParser.parse notSpecial text = some host) : ∀ ch ∈ host, InAuthority ch := by
  intro ch hch
  rcases host_char parsed hch with h | h | h | h
  · exact .inr (.inl h)
  · exact .inr (.inr (.inl h))
  · exact .inr (.inr (.inr (.inl h)))
  · exact .inl h

omit [HostParser] in
/-- An authority ends at the slash after it. -/
theorem span_authority {text more : Text} (h : ∀ ch ∈ text, InAuthority ch) (special : Bool) :
    (text ++ '/' :: more).takeWhile (!endsAuthority special ·) = text ∧
      (text ++ '/' :: more).dropWhile (!endsAuthority special ·) = '/' :: more := by
  have hall : ∀ ch ∈ text, (!endsAuthority special ch) = true := by
    intro ch hch
    simp [((h ch hch).plain special).1]
  have hslash : endsAuthority special '/' = true := by simp [endsAuthority, isSlash]
  rw [List.takeWhile_append_of_pos hall, List.dropWhile_append_of_pos hall]
  simp [hslash]

theorem authorityState_text {url start : Url} {host : Text} (placed : Placed url)
    (hhost : url.host = some host) (hfile : url.scheme ≠ "file") (hstart : start.scheme = url.scheme)
    (more : Text) :
    ∃ read, start.authorityState (url.authorityText host ++ '/' :: more) = some read ∧
      read.origin = url.origin := by
  have hparsed : HostParser.parse (!isSpecial url.scheme) host = some host :=
    (placed.host host hhost).resolve_left fun h => hfile h.1
  have hchars : ∀ ch ∈ url.authorityText host, InAuthority ch :=
    fun ch => authorityText_char placed (host_inAuthority hparsed)
  obtain ⟨read, hread, horigin⟩ := readAuthority_text placed hhost hfile hstart
  obtain ⟨htake, hdrop⟩ := @span_authority _ more hchars (isSpecial start.scheme)
  refine ⟨read.pathStart ('/' :: more), ?_, (origin_of_site (pathStart_site _ _)).trans horigin⟩
  unfold authorityState
  dsimp only
  rw [htake, hdrop, hread]
  rfl

/-- The slashes before an authority that is not empty. -/
theorem ignoreSlashes_text {url start : Url} {host : Text} (placed : Placed url)
    (hhost : url.host = some host) (hfile : url.scheme ≠ "file") (hspecial : isSpecial url.scheme)
    (hstart : start.scheme = url.scheme) (more : Text) :
    ∃ read, start.ignoreSlashes (url.authorityText host ++ '/' :: more) = some read ∧
      read.origin = url.origin := by
  have hparsed : HostParser.parse (!isSpecial url.scheme) host = some host :=
    (placed.host host hhost).resolve_left fun h => hfile h.1
  have hfilled : host ≠ [] := fun h => by simpa [hspecial] using ((HostParser.filled hparsed).mp h).1
  have hchars : ∀ ch ∈ url.authorityText host, InAuthority ch :=
    fun ch => authorityText_char placed (host_inAuthority hparsed)
  have hkept : (url.authorityText host ++ '/' :: more).dropWhile (isSlash true) =
      url.authorityText host ++ '/' :: more := by
    cases htext : url.authorityText host with
    | nil => simp [authorityText, hfilled] at htext
    | cons ch text =>
      have hch := ((hchars ch (htext ▸ List.mem_cons_self)).plain true).1
      have hslash : isSlash true ch = false := by
        simp only [endsAuthority, Bool.or_eq_false_iff] at hch
        exact hch.1.1
      exact List.dropWhile_cons_of_neg (by simp [hslash])
  unfold ignoreSlashes
  rw [hkept]
  exact authorityState_text placed hhost hfile hstart more

/-- A base of the web: special, and no file. -/
def IsWeb (url : Url) : Prop := isSpecial url.scheme = true ∧ url.scheme ≠ "file"

omit [HostParser] in
theorem isWeb_of_http {url : Url} (h : url.scheme = "http" ∨ url.scheme = "https") : url.IsWeb := by
  rcases h with h | h <;> rw [IsWeb, h] <;> decide

theorem not_drive {host : Text} (parsed : HostParser.parse false host = some host) :
    isWindowsDrive host = false := by
  by_contra hdrive
  unfold isWindowsDrive at hdrive
  split at hdrive
  · rename_i letter mark
    simp only [Bool.and_eq_true, Bool.or_eq_true, beq_iff_eq, Bool.not_eq_false] at hdrive
    rcases HostParser.shape parsed with hplain | ⟨address, haddress, _⟩
    · have hmark := hplain mark (by simp)
      rcases hdrive.2 with rfl | rfl <;> revert hmark <;> decide
    · obtain ⟨rfl, _⟩ := List.cons.inj haddress
      exact absurd hdrive.1 (by decide)
  · simp at hdrive

theorem fileHost_text {url : Url} {host : Text} (placed : Placed url) (hhost : url.host = some host)
    (hfile : url.scheme = "file") (more : Text) :
    ∃ read, fileHost (url.authorityText host ++ '/' :: more) = some read ∧
      read.origin = url.origin := by
  obtain ⟨huser, hpassword, hport, hlocal⟩ := placed.file hfile
  have htext : url.authorityText host = host := by
    simp [authorityText, credentials, portText, huser, hpassword, hport]
  have hspecial : isSpecial url.scheme = true := by rw [hfile]; decide
  have hparsed : host = [] ∨ HostParser.parse false host = some host := by
    have h := placed.host host hhost
    rw [hspecial] at h
    exact h.imp (fun h => h.2) id
  have horigin : ({ blank "file" with host := some host } : Url).origin = url.origin := by
    simp [origin, blank, hfile, hhost, hport]
  rw [htext]
  rcases hparsed with rfl | hparsed
  · exact ⟨_, rfl, (origin_of_site (pathStart_site _ _)).trans horigin⟩
  · have hne : host ≠ [] := fun h => by simpa using ((HostParser.filled hparsed).mp h).1
    have hname : host ≠ "localhost".toList := fun h => hlocal (by rw [hhost, h])
    obtain ⟨htake, hdrop⟩ := @span_authority _ more (host_inAuthority hparsed) true
    refine ⟨_, ?_, (origin_of_site (pathStart_site _ ('/' :: more))).trans horigin⟩
    unfold fileHost
    dsimp only
    rw [htake, hdrop, if_neg (by simp [not_drive hparsed]), if_neg hne, hparsed,
      Option.bind_eq_bind, Option.bind_some, if_neg hname]

omit [HostParser] in
/-- The head of a serialised URL survives the removal of white space. -/
theorem strip_scheme {scheme : String} (isScheme : IsScheme scheme) {middle : Text} {ch : Char}
    (hmiddle : ∀ ch ∈ middle, isTabOrNewline ch = false) (hch : isTrimmed ch = false) (after : Text) :
    strip (scheme.toList ++ ':' :: (middle ++ ch :: after)) =
      scheme.toList ++ ':' :: (middle ++ ch :: tidy after) := by
  have happend : scheme.toList ++ ':' :: (middle ++ ch :: after) =
      (scheme.toList ++ ':' :: middle) ++ ch :: after := by simp
  have hclean {other : Char} (h : isForbiddenHost other = false) : isTabOrNewline other = false := by
    simp only [isForbiddenHost, Bool.or_eq_false_iff] at h
    exact h.1.1
  rw [happend, strip_append]
  · simp
  · cases hscheme : scheme.toList with
    | nil => exact absurd hscheme isScheme.filled
    | cons first rest =>
      obtain ⟨hfirst, hcontrol⟩ := isScheme.clean first (hscheme ▸ List.mem_cons_self)
      have hspace : first ≠ ' ' := by
        rintro rfl
        revert hfirst
        decide
      simp [isTrimmed, hcontrol, hspace]
  · intro other hother
    simp only [List.mem_append, List.mem_cons] at hother
    rcases hother with h | rfl | h
    · exact hclean (isScheme.clean other h).1
    · decide
    · exact hmiddle other h
  · exact hch

theorem parse_serialize_host {server url : Url} {host : Text} {list : List Text}
    (web : IsWeb server) (placed : Placed url) (hhost : url.host = some host)
    (hpath : url.path = .segments list) (hne : list ≠ []) :
    ∃ read, parse (some server) url.serialize = some read ∧ read.origin = url.origin := by
  obtain ⟨more, hmore⟩ : ∃ more, pathText url.path ++ url.tailText = '/' :: more := by
    cases list with
    | nil => exact absurd rfl hne
    | cons first rest => exact ⟨_, by rw [hpath, pathText]; rfl⟩
  have hchars : ∀ ch ∈ url.authorityText host, InAuthority ch := by
    refine fun ch => authorityText_char placed ?_
    rcases placed.host host hhost with ⟨_, rfl⟩ | hparsed
    · simp
    · exact host_inAuthority hparsed
  have htext : url.serialize = url.scheme.toList ++
      ':' :: (('/' :: '/' :: url.authorityText host) ++ '/' :: more) := by
    simp [serialize, hhost, hmore, authorityText]
  have hstrip : strip url.serialize = url.scheme.toList ++
      ':' :: (('/' :: '/' :: url.authorityText host) ++ '/' :: tidy more) := by
    rw [htext]
    refine strip_scheme placed.scheme (fun ch hch => ?_) (by decide) more
    simp only [List.mem_cons] at hch
    rcases hch with rfl | rfl | hch
    · decide
    · decide
    · exact ((hchars ch hch).plain true).2
  unfold parse
  dsimp only
  rw [hstrip, placed.scheme.read]
  dsimp only
  unfold afterScheme
  by_cases hfile : url.scheme = "file"
  · rw [if_pos hfile]
    have hbase : (some server).filter (·.scheme = "file") = none := by simp [web.2]
    rw [hbase]
    exact fileHost_text placed hhost hfile _
  · rw [if_neg hfile]
    split
    · rename_i hspecial
      split
      · rename_i base hbase
        have hscheme : base.scheme = url.scheme := by simpa using Option.filter_eq_some_iff.mp hbase |>.2
        exact @ignoreSlashes_text _ url (blank base.scheme) host placed hhost hfile hspecial hscheme _
      · exact @ignoreSlashes_text _ url (blank url.scheme) host placed hhost hfile hspecial rfl _
    · exact @authorityState_text _ url (blank url.scheme) host placed hhost hfile rfl _

omit [HostParser] in
theorem strip_hostless {url : Url} {list : List Text} (isScheme : IsScheme url.scheme)
    (hhost : url.host = none) (hpath : url.path = .segments list) (hne : list ≠ [])
    (hclean : ∀ segment ∈ list, CleanSegment segment) :
    ∃ rest, strip url.serialize = url.scheme.toList ++ ':' :: '/' :: rest ∧
      rest.head? ≠ some '/' := by
  have hslash : ∀ ch ∈ ['/'], isTabOrNewline ch = false := by simp [isTabOrNewline]
  cases list with
  | nil => exact absurd rfl hne
  | cons first others =>
    cases first with
    | cons ch segment =>
      have hch := hclean (ch :: segment) List.mem_cons_self ch List.mem_cons_self
      simp only [inSegment, pathSet, querySet, c0ControlSet, Bool.and_eq_true,
        Bool.not_eq_true', Bool.or_eq_false_iff, bne_iff_ne] at hch
      have hspace : ch ≠ ' ' := by
        rintro rfl
        simp at hch
      have htrimmed : isTrimmed ch = false := by simp [isTrimmed, hch.1.1.1.1, hspace]
      have hstrip := strip_scheme isScheme hslash htrimmed
        (segment ++ (pathText (.segments others) ++ url.tailText))
      refine ⟨ch :: tidy _, Eq.trans ?_ hstrip, by simp [hch.2]⟩
      simp [serialize, hhost, hpath, pathPrefix, pathText]
    | nil =>
      cases others with
      | cons second others =>
        have hdot : ∀ ch ∈ ['/', '.'], isTabOrNewline ch = false := by simp [isTabOrNewline]
        have hstrip := strip_scheme isScheme hdot (by decide : isTrimmed '/' = false)
          (pathText (.segments (second :: others)) ++ url.tailText)
        refine ⟨'.' :: '/' :: tidy _, Eq.trans ?_ hstrip, by simp⟩
        simp [serialize, hhost, hpath, pathPrefix, pathText]
      | nil =>
        have hnone : ∀ ch ∈ ([] : Text), isTabOrNewline ch = false := by simp
        have hstrip := strip_scheme isScheme hnone (by decide : isTrimmed '/' = false) url.tailText
        refine ⟨tidy url.tailText, Eq.trans ?_ hstrip, ?_⟩
        · simp [serialize, hhost, hpath, pathPrefix, pathText]
        · unfold tailText
          cases url.query with
          | some query =>
            simp [tidy_cons _ (by decide : isTrimmed '?' = false)]
          | none =>
            cases url.fragment with
            | some fragment => simp [tidy_cons _ (by decide : isTrimmed '#' = false)]
            | none => simp [tidy]

theorem parse_serialize_hostless {server url : Url} {list : List Text} (placed : Placed url)
    (hhost : url.host = none) (hpath : url.path = .segments list) (hne : list ≠ [])
    (hclean : ∀ segment ∈ list, CleanSegment segment) :
    ∃ read, parse (some server) url.serialize = some read ∧ read.origin = url.origin := by
  have hspecial := placed.hostless hhost
  obtain ⟨_, _, hport⟩ := placed.bare (by simp [hhost])
  have hfile : url.scheme ≠ "file" := by
    intro h
    rw [h] at hspecial
    revert hspecial
    decide
  -- What follows the scheme starts with one slash, and no second one.
  obtain ⟨rest, hstrip, hrest⟩ := strip_hostless placed.scheme hhost hpath hne hclean
  have horigin : ((blank url.scheme).readPath [] [] rest).origin = url.origin := by
    refine (origin_of_site (readPath_site _ _ _ _)).trans ?_
    simp [origin, blank, hhost, hport]
  refine ⟨_, ?_, horigin⟩
  unfold parse
  dsimp only
  rw [hstrip, placed.scheme.read]
  dsimp only
  rw [afterScheme, if_neg hfile, if_neg (by simp [hspecial])]
  unfold pathOrAuthority
  split
  · simp at hrest
  · rfl

/-- A URL is parsed back to the place it was serialised from, against every base of the web. -/
theorem parse_serialize {server url : Url} {list : List Text} (web : IsWeb server)
    (placed : Placed url) (hpath : url.path = .segments list) (hne : list ≠ [])
    (hclean : url.host = none → ∀ segment ∈ list, CleanSegment segment) :
    ∃ read, parse (some server) url.serialize = some read ∧ read.origin = url.origin := by
  cases hhost : url.host with
  | some host => exact parse_serialize_host web placed hhost hpath hne
  | none => exact parse_serialize_hostless placed hhost hpath hne (hclean hhost)

/-! References. -/

/-- A reference to a path: one slash, and neither a second one nor a backslash after it. -/
def IsPathReference (text : Text) : Prop :=
  ∃ rest, text = '/' :: rest ∧ rest.head? ≠ some '/' ∧ rest.head? ≠ some '\\' ∧
    ∀ ch ∈ rest, isTabOrNewline ch = false

omit [HostParser] in
theorem tidy_head {text : Text} (h : ∀ ch ∈ text, isTabOrNewline ch = false) {ch : Char}
    (hhead : (tidy text).head? = some ch) : text.head? = some ch := by
  have hstart := List.rdropWhile_prefix isTrimmed (l := text)
  have hall : (text.rdropWhile isTrimmed).filter (fun ch => !isTabOrNewline ch) =
      text.rdropWhile isTrimmed :=
    List.filter_eq_self.mpr fun other hother => by simp [h other (hstart.subset hother)]
  rw [tidy, hall] at hhead
  obtain ⟨rest, hrest⟩ := hstart
  rw [← hrest, List.head?_append, hhead]
  rfl

omit [HostParser] in
/-- What the parser sees of a reference to a path. -/
theorem IsPathReference.stripped {text : Text} (reference : IsPathReference text) :
    ∃ rest, strip text = '/' :: rest ∧ rest.head? ≠ some '/' ∧ rest.head? ≠ some '\\' ∧
      readScheme ('/' :: rest) = none := by
  obtain ⟨rest, rfl, hslash, hback, htab⟩ := reference
  refine ⟨tidy rest, ?_, fun h => hslash (tidy_head htab h), fun h => hback (tidy_head htab h), ?_⟩
  · have htrim : isTrimmed '/' = false := by decide
    exact @strip_append [] '/' rest (by simp [htrim]) (by simp) htrim
  · rw [readScheme, if_neg (by decide)]

theorem parse_reference_none {text : Text} (reference : IsPathReference text) :
    parse none text = none := by
  obtain ⟨rest, hstrip, _, _, hscheme⟩ := reference.stripped
  unfold parse
  dsimp only
  rw [hstrip, hscheme]
  rfl

/-- An opaque path is no base for a path. -/
theorem path_of_reference {base url : Url} {text : Text} (reference : IsPathReference text)
    (h : parse (some base) text = some url) : ∃ segments, base.path = .segments segments := by
  obtain ⟨rest, hstrip, _, _, hscheme⟩ := reference.stripped
  unfold parse at h
  dsimp only at h
  rw [hstrip, hscheme] at h
  cases hpath : base.path with
  | segments list => exact ⟨list, rfl⟩
  | opaquePath _ => simp [noScheme, hpath] at h

theorem relativeSlash_reference (base : Url) {rest : Text} (hslash : rest.head? ≠ some '/')
    (hback : rest.head? ≠ some '\\') :
    ∃ url list, base.relativeSlash rest = some url ∧ url.site = base.site ∧
      url.path = .segments list ∧ list ≠ [] ∧ ∀ segment ∈ list, CleanSegment segment := by
  have hread : base.relativeSlash rest = some ({ blank base.scheme with
      username := base.username, password := base.password, host := base.host,
      port := base.port }.readPath [] [] rest) := by
    unfold relativeSlash
    cases rest with
    | nil => rfl
    | cons ch rest =>
      have hne : ch ≠ '/' := by simpa using hslash
      have hne' : ch ≠ '\\' := by simpa using hback
      simp [isSlash, hne, hne']
  refine ⟨_, _, hread, readPath_site _ _ _ _, readPath_path _ _ _ _, readSegments_ne_nil _ _ _ _, ?_⟩
  exact readSegments_clean rest (by simp) cleanSegment_nil

theorem fileState_reference (base : Url) {rest : Text} (hslash : rest.head? ≠ some '/')
    (hback : rest.head? ≠ some '\\') :
    ∃ drive, fileState (some base) ('/' :: rest) =
      some ({ blank "file" with host := base.host }.readPath drive [] rest) := by
  have hstate : fileState (some base) ('/' :: rest) = fileSlash (some base) rest := by
    simp [fileState, isSlash]
  rw [hstate]
  unfold fileSlash
  cases rest with
  | nil => exact ⟨_, rfl⟩
  | cons ch rest =>
    have hne : ch ≠ '/' := by simpa using hslash
    have hne' : ch ≠ '\\' := by simpa using hback
    have hkept : isSlash true ch = false := by simp [isSlash, hne, hne']
    dsimp only
    rw [hkept]
    exact ⟨_, rfl⟩

/-- A reference to a path stays at the place of its base. -/
theorem parse_reference {base : Url} {text : Text} {segments : List Text}
    (reference : IsPathReference text) (placed : Placed base) (hbase : base.path = .segments segments) :
    ∃ url list, parse (some base) text = some url ∧ url.site = base.site ∧
      url.path = .segments list ∧ list ≠ [] ∧
        (url.host = none → ∀ segment ∈ list, CleanSegment segment) := by
  obtain ⟨rest, hstrip, hslash, hback, hscheme⟩ := reference.stripped
  have hparse : parse (some base) text = base.noScheme ('/' :: rest) := by
    unfold parse
    dsimp only
    rw [hstrip, hscheme]
    rfl
  rw [hparse]
  unfold noScheme
  rw [hbase]
  dsimp only
  split
  · rename_i hfile
    obtain ⟨huser, hpassword, hport, _⟩ := placed.file hfile
    have hsite : ({ blank "file" with host := base.host } : Url).site = base.site := by
      simp [site, blank, hfile, huser, hpassword, hport]
    have hhost : base.host ≠ none := by
      intro h
      have hspecial := placed.hostless h
      rw [hfile] at hspecial
      revert hspecial
      decide
    obtain ⟨drive, hread⟩ := fileState_reference base hslash hback
    refine ⟨_, _, hread, (readPath_site _ _ _ _).trans hsite, readPath_path _ _ _ _,
      readSegments_ne_nil _ _ _ _, fun h => absurd ?_ hhost⟩
    have hkept := (readPath_site { blank "file" with host := base.host } drive [] rest).trans hsite
    simp only [site, Prod.mk.injEq] at hkept
    rw [← hkept.2.2.2.1, h]
  · have hrelative : base.relativeState ('/' :: rest) = base.relativeSlash rest := by
      simp [relativeState, isSlash]
    obtain ⟨url, list, hread, hsite, hpath, hne, hclean⟩ := relativeSlash_reference base hslash hback
    exact ⟨url, list, hrelative.trans hread, hsite, hpath, hne, fun _ => hclean⟩

theorem ignoreSlashes_cons (url : Url) {ch : Char} (rest : Text) (h : isSlash true ch = true) :
    url.ignoreSlashes (ch :: rest) = url.ignoreSlashes rest := by
  rw [ignoreSlashes, List.dropWhile_cons_of_pos h]
  rfl

theorem specialAuthoritySlashes_eq (url : Url) (text : Text) :
    url.specialAuthoritySlashes text = url.ignoreSlashes text := by
  unfold specialAuthoritySlashes
  split
  · rw [ignoreSlashes_cons _ _ (by decide), ignoreSlashes_cons _ _ (by decide)]
  · rfl

omit [HostParser] in
theorem blank_inherited_origin (base : Url) :
    ({ blank base.scheme with
      username := base.username, password := base.password, host := base.host,
      port := base.port } : Url).origin = base.origin := rfl

/-- Behind the scheme of the base there are two slashes, and the text is the one it is without a
base, or less, and the text is relative. -/
theorem relativeState_absolute {server url : Url} {text : Text} (special : isSpecial server.scheme)
    (h : (blank server.scheme).ignoreSlashes text = some url) :
    ∃ read, server.relativeState text = some read ∧
      (read = url ∨ read.origin = server.origin) := by
  have hstays {other : Url} (path : List Text) (buffer rest : Text)
      (horigin : other.origin = server.origin) :
      (other.readPath path buffer rest).origin = server.origin :=
    (origin_of_site (readPath_site _ _ _ _)).trans horigin
  unfold relativeState
  cases text with
  | nil => exact ⟨_, rfl, .inr rfl⟩
  | cons ch rest =>
    dsimp only
    rw [special]
    by_cases hslash : isSlash true ch = true
    · rw [if_pos hslash]
      rw [ignoreSlashes_cons _ _ hslash] at h
      unfold relativeSlash
      cases rest with
      | nil => exact ⟨_, rfl, .inr (hstays _ _ _ (blank_inherited_origin server))⟩
      | cons second rest =>
        dsimp only
        rw [special]
        by_cases hsecond : isSlash true second = true
        · rw [ignoreSlashes_cons _ _ hsecond] at h
          exact ⟨url, by simpa [hsecond] using h, .inl rfl⟩
        · have hne : second ≠ '/' := by
            rintro rfl
            exact hsecond (by decide)
          rw [if_neg (by simpa using hsecond), if_neg hne]
          exact ⟨_, rfl, .inr (hstays _ _ _ (blank_inherited_origin server))⟩
    · rw [if_neg hslash]
      split
      · exact ⟨_, rfl, .inr (origin_of_site (readTail_site _ _))⟩
      · exact ⟨_, rfl, .inr (hstays _ _ _ rfl)⟩

/-- The scheme of the base in front: an authority after two slashes, and otherwise a reference. -/
theorem specialRelative_absolute {server url : Url} {rest : Text} (special : isSpecial server.scheme)
    (h : (blank server.scheme).specialAuthoritySlashes rest = some url) :
    ∃ read, server.specialRelativeOrAuthority rest = some read ∧
      (read = url ∨ read.origin = server.origin) := by
  rw [specialAuthoritySlashes_eq] at h
  unfold specialRelativeOrAuthority
  split
  · rw [ignoreSlashes_cons _ _ (by decide), ignoreSlashes_cons _ _ (by decide)] at h
    exact ⟨url, h, .inl rfl⟩
  · exact relativeState_absolute special h

omit [HostParser] in
theorem pathStart_path {url : Url} (special : isSpecial url.scheme) (text : Text) :
    ∃ list, (url.pathStart text).path = .segments list := by
  unfold pathStart
  cases text with
  | nil => exact ⟨_, by rw [if_pos special, readPath_path]⟩
  | cons ch rest =>
    dsimp only
    by_cases hslash : isSlash (isSpecial url.scheme) ch = true
    · exact ⟨_, by rw [if_pos hslash, readPath_path]⟩
    · exact ⟨_, by rw [if_neg hslash, if_neg (by simp [special]), readPath_path]⟩

/-- A URL of the web has no opaque path. -/
theorem path_of_web {url : Url} {text : Text} (web : IsWeb url) (h : parse none text = some url) :
    ∃ list, url.path = .segments list := by
  obtain ⟨_, rest, _, hafter⟩ := parse_none h
  unfold afterScheme at hafter
  rw [if_neg web.2, if_pos web.1] at hafter
  have hslashes : (blank url.scheme).ignoreSlashes rest = some url :=
    (specialAuthoritySlashes_eq _ _).symm.trans hafter
  unfold ignoreSlashes authorityState at hslashes
  obtain ⟨read, hread, hurl⟩ := Option.map_eq_some_iff.mp hslashes
  have hscheme : read.scheme = url.scheme := by
    rw [← hurl]
    exact (congrArg Prod.fst (pathStart_site _ _)).symm
  rw [← hurl]
  exact pathStart_path (by rw [hscheme, web.1]) _

/-- A URL of the web is parsed to itself against a base of the web, or it is a reference that
stays at the place of the base. -/
theorem parse_absolute {server url : Url} {text : Text} (hserver : IsWeb server) (hurl : IsWeb url)
    (h : parse none text = some url) :
    ∃ read, parse (some server) text = some read ∧ (read = url ∨ read.origin = server.origin) := by
  obtain ⟨_, rest, hread, hafter⟩ := parse_none h
  unfold afterScheme at hafter
  rw [if_neg hurl.2, if_pos hurl.1] at hafter
  unfold parse
  dsimp only
  rw [hread]
  dsimp only
  unfold afterScheme
  rw [if_neg hurl.2, if_pos hurl.1]
  by_cases hscheme : server.scheme = url.scheme
  · have hbase : (some server).filter (·.scheme = url.scheme) = some server := by simp [hscheme]
    rw [hbase]
    rw [← hscheme] at hafter
    exact specialRelative_absolute hserver.1 hafter
  · have hbase : (some server).filter (·.scheme = url.scheme) = none := by simp [hscheme]
    rw [hbase]
    exact ⟨url, hafter, .inl rfl⟩

end Places

end LakeFsAuth.Library.Url
