import LakeFsAuth.Authn.Claims
import LakeFsAuth.Library.UrlOrigin

/-! Open-redirect protection for the `next` parameter of `/oidc/login`. -/
namespace LakeFsAuth.Authn.Redirect
open Library Core.Text

inductive RedirectError where
  | Empty
  | ControlCharacter
  | ProtocolRelative
  | NotAUrl
  | BadScheme
  | HostNotAllowed
  deriving DecidableEq

def RedirectError.message : RedirectError → String
  | Empty => "redirect target is empty"
  | ControlCharacter => "redirect target contains control characters"
  | ProtocolRelative => "redirect target is protocol relative"
  | NotAUrl => "redirect target is not a valid URL"
  | BadScheme => "redirect target uses an unsupported scheme"
  | HostNotAllowed => "redirect target host is not allowed"

/-- `str::split_once`, for a mark that is not empty. -/
def splitOnce (mark : Text) : Text → Option (Text × Text)
  | [] => none
  | ch :: rest =>
      if mark.isPrefixOf (ch :: rest) then some ([], (ch :: rest).drop mark.length)
      else (splitOnce mark rest).map fun (before, after) => (ch :: before, after)

/-- True for `//host`, `/\host`, and the percent encoded spellings that a
normalizing proxy can turn back into a second slash or a backslash. -/
def isProtocolRelative (next : String) : Bool :=
  let lowered := String.ofList (next.toList.map Char.toLower)
  startsWith next "/\\" || ["//", "/%2f", "/%5c"].any (startsWith lowered ·)

/-- The host, and the port unless it is the default one. -/
def authority (host : Text) (port : Option Nat) : String :=
  match port with
  | some port => String.ofList (host ++ ':' :: Url.digits port)
  | none => String.ofList host

/-- Whether an entry of the allow list stands for a scheme and an authority. -/
def allows (scheme authority entry : String) : Bool :=
  match splitOnce "://".toList entry.toList with
  | some (pinned, rest) => eqIgnoreAsciiCase (String.ofList pinned) scheme &&
      eqIgnoreAsciiCase (String.ofList (rest.rdropWhile (· == '/'))) authority
  | none => eqIgnoreAsciiCase entry authority

section Check
variable [Url.HostParser]

/-- Accepts a relative path, or an absolute URL whose origin is explicitly allowed. -/
def safeNext (next : String) (allowedHosts : List String) : Except RedirectError String :=
  if next = "" then .error .Empty
  else if next.toList.any isControl then .error .ControlCharacter
  else if startsWith next "/" then
    if isProtocolRelative next then .error .ProtocolRelative else .ok next
  else
    match Url.parse none next.toList with
    | none => .error .NotAUrl
    | some url =>
        if url.scheme ≠ "http" ∧ url.scheme ≠ "https" then .error .BadScheme
        else
          match url.host with
          | none => .error .HostNotAllowed
          | some host =>
              if allowedHosts.any (allows url.scheme (authority host url.port)) then .ok next
              else .error .HostNotAllowed

/-- Where the browser goes after login: `next` resolved against the post-login URL. -/
def resolveNext (postLoginUrl : String) : Option String → String
  | none => postLoginUrl
  | some next =>
      if (Url.parse none next.toList).isSome then next
      else
        match Url.parse none postLoginUrl.toList with
        | some base =>
            match Url.parse (some base) next.toList with
            | some url => String.ofList url.serialize
            | none => next
        | none => next

/-- An entry of the allow list names the host and the port of a URL, with or without its scheme. -/
def Names (entry : String) (url : Url) : Prop :=
  ∃ host name, url.host = some host ∧ eqIgnoreAsciiCase name (authority host url.port) = true ∧
    (entry = name ∨ ∃ scheme slashes, eqIgnoreAsciiCase scheme url.scheme = true ∧
      (∀ ch ∈ slashes, ch = '/') ∧
      entry = String.ofList (scheme.toList ++ "://".toList ++ name.toList ++ slashes))

omit [Url.HostParser] in
theorem splitOnce_some {mark text before after : Text}
    (h : splitOnce mark text = some (before, after)) : text = before ++ mark ++ after := by
  induction text generalizing before with
  | nil => cases h
  | cons ch rest ih =>
    rw [splitOnce] at h
    split_ifs at h with hmark
    · simp only [Option.some.injEq, Prod.mk.injEq] at h
      obtain ⟨rfl, rfl⟩ := h
      obtain ⟨tail, htail⟩ := List.isPrefixOf_iff_prefix.mp hmark
      simp [← htail]
    · obtain ⟨⟨front, back⟩, hrest, hpair⟩ := Option.map_eq_some_iff.mp h
      simp only [Prod.mk.injEq] at hpair
      obtain ⟨rfl, rfl⟩ := hpair
      simp [ih hrest]

omit [Url.HostParser] in
theorem splitOnce_none {mark text : Text} {ch : Char} (hmark : ch ∈ mark) (h : ch ∉ text) :
    splitOnce mark text = none := by
  cases hsplit : splitOnce mark text with
  | none => rfl
  | some pieces =>
    rw [splitOnce_some hsplit] at h
    simp [hmark] at h

omit [Url.HostParser] in
theorem splitOnce_first {first : Char} {mark before : Text} (h : first ∉ before) (after : Text) :
    splitOnce (first :: mark) (before ++ first :: (mark ++ after)) = some (before, after) := by
  induction before with
  | nil => simp [splitOnce]
  | cons ch before ih =>
    rw [List.mem_cons, not_or] at h
    rw [List.cons_append, splitOnce, if_neg (by simp [h.1]), ih h.2]
    rfl

omit [Url.HostParser] in
theorem names_of_allows {entry : String} {url : Url} {host : Text} (hhost : url.host = some host)
    (h : allows url.scheme (authority host url.port) entry = true) : Names entry url := by
  unfold allows at h
  split at h
  · rename_i pinned rest hsplit
    rw [Bool.and_eq_true] at h
    refine ⟨host, _, hhost, h.2, .inr ⟨_, rest.rtakeWhile (· == '/'), h.1, fun ch hch => ?_, ?_⟩⟩
    · simpa using List.mem_rtakeWhile_imp hch
    · have htext := splitOnce_some hsplit
      apply String.toList_inj.mp
      simp [htext, List.rdropWhile_append_rtakeWhile]
  · exact ⟨host, entry, hhost, h, .inl rfl⟩

/-- What `safeNext` accepts. -/
inductive Accepts (allowedHosts : List String) (next : String) : Prop where
  | path (reference : Url.IsPathReference next.toList)
  | url (url : Url) (parsed : Url.parse none next.toList = some url) (web : url.IsWeb)
      (named : ∃ entry ∈ allowedHosts, Names entry url)

omit [Url.HostParser] in
theorem isPathReference {next : String} (clean : next.toList.any isControl = false)
    (slash : startsWith next "/" = true) (h : isProtocolRelative next = false) :
    Url.IsPathReference next.toList := by
  obtain ⟨rest, hrest⟩ := (startsWith_iff next "/").mp slash
  have hnext : next.toList = '/' :: rest := hrest.symm
  have hcontrol : ∀ ch ∈ next.toList, isControl ch = false := by simpa using clean
  refine ⟨rest, hnext, ?_, ?_, fun ch hch => ?_⟩
  · intro hhead
    obtain ⟨more, rfl⟩ := List.head?_eq_some_iff.mp hhead
    simp [isProtocolRelative, startsWith, hnext] at h
  · intro hhead
    obtain ⟨more, rfl⟩ := List.head?_eq_some_iff.mp hhead
    simp [isProtocolRelative, startsWith, hnext] at h
  · have hplain := hcontrol ch (by simp [hnext, hch])
    have hne {mark : Char} (hmark : isControl mark = true) : ch ≠ mark := by
      rintro rfl
      simp [hmark] at hplain
    simp [Url.isTabOrNewline, hne (by decide : isControl '\t' = true),
      hne (by decide : isControl '\n' = true), hne (by decide : isControl '\r' = true)]

theorem accepts_of_ok {next accepted : String} {allowedHosts : List String}
    (h : safeNext next allowedHosts = .ok accepted) : accepted = next ∧ Accepts allowedHosts next := by
  unfold safeNext at h
  split at h
  · cases h
  split at h
  · cases h
  rename_i hclean
  split at h
  · rename_i hslash
    split at h
    · cases h
    · rename_i hrelative
      cases h
      exact ⟨rfl, .path (isPathReference (by simpa using hclean) hslash (by simpa using hrelative))⟩
  · split at h
    · cases h
    rename_i url hparsed
    split at h
    · cases h
    rename_i hweb
    split at h
    · cases h
    rename_i host hhost
    split at h
    · rename_i hallowed
      cases h
      obtain ⟨entry, hentry, hnames⟩ := List.any_eq_true.mp hallowed
      have web : url.scheme = "http" ∨ url.scheme = "https" := by
        by_contra hneither
        exact hweb (not_or.mp hneither)
      exact ⟨rfl, .url url hparsed (Url.isWeb_of_http web) ⟨entry, hentry, names_of_allows hhost hnames⟩⟩
    · cases h

/-- Where a browser on this server may end up: here, at the post-login URL, or at an entry. -/
def Stays (server : Url) (postLoginUrl : String) (allowedHosts : List String) (url : Url) : Prop :=
  url.origin = server.origin ∨
    (∃ base, Url.parse none postLoginUrl.toList = some base ∧ url.origin = base.origin) ∨
    ∃ entry ∈ allowedHosts, Names entry url

theorem resolve_path {next postLoginUrl : String} {allowedHosts : List String} {server : Url}
    {list : List Text} (reference : Url.IsPathReference next.toList) (placed : Url.Placed server)
    (web : server.IsWeb) (hpath : server.path = .segments list) :
    ∃ url, Url.parse (some server) (resolveNext postLoginUrl (some next)).toList = some url ∧
      Stays server postLoginUrl allowedHosts url := by
  have hnone := Url.parse_reference_none reference
  -- Without a base of its own the reference is read on this server.
  have here : ∃ url, Url.parse (some server) next.toList = some url ∧
      Stays server postLoginUrl allowedHosts url := by
    obtain ⟨url, _, hparse, hsite, _⟩ := Url.parse_reference reference placed hpath
    exact ⟨url, hparse, .inl (Url.origin_of_site hsite)⟩
  simp only [resolveNext, hnone, Option.isSome_none, Bool.false_eq_true, if_false]
  split
  · rename_i base hbase
    split
    · rename_i joined hjoined
      obtain ⟨hplaced, _⟩ := Url.parse_none hbase
      obtain ⟨segments, hsegments⟩ : ∃ segments, base.path = .segments segments :=
        Url.path_of_reference reference hjoined
      obtain ⟨url, path, hparse, hsite, hurl, hne, hclean⟩ :=
        Url.parse_reference reference hplaced hsegments
      obtain rfl : joined = url := Option.some.inj (hjoined.symm.trans hparse)
      obtain ⟨read, hread, horigin⟩ :=
        Url.parse_serialize web (hplaced.of_site hsite) hurl hne hclean
      refine ⟨read, by rw [String.toList_ofList, hread], .inr (.inl ⟨base, hbase, ?_⟩)⟩
      exact horigin.trans (Url.origin_of_site hsite)
    · exact here
  · exact here

/-- What is accepted leads to this server, to the post-login URL, or to an allowed host. -/
theorem accepted_next_stays {next accepted postLoginUrl : String} {allowedHosts : List String}
    {address : Text} {server : Url} (parsed : Url.parse none address = some server)
    (web : server.scheme = "http" ∨ server.scheme = "https")
    (ok : safeNext next allowedHosts = .ok accepted) :
    ∃ url, Url.parse (some server) (resolveNext postLoginUrl (some accepted)).toList = some url ∧
      Stays server postLoginUrl allowedHosts url := by
  obtain ⟨rfl, accepts⟩ := accepts_of_ok ok
  have hserver := Url.isWeb_of_http web
  cases accepts with
  | path reference =>
    obtain ⟨list, hpath⟩ := Url.path_of_web hserver parsed
    exact resolve_path reference (Url.parse_none parsed).1 hserver hpath
  | url url hurl hweb named =>
    have hkept : resolveNext postLoginUrl (some accepted) = accepted := by
      simp [resolveNext, hurl]
    obtain ⟨read, hread, hplace⟩ := Url.parse_absolute hserver hweb hurl
    rw [hkept]
    rcases hplace with rfl | horigin
    · exact ⟨read, hread, .inr (.inr named)⟩
    · exact ⟨read, hread, .inl horigin⟩

end Check

/-! Hosts of small letters, digits, dots and hyphens, which are parsed to themselves. -/

section Plain

def isPlain (ch : Char) : Bool :=
  (ch.isLower || ch.isDigit || ch == '.' || ch == '-') && !Url.isForbiddenHost ch

def plainHost (notSpecial : Bool) (text : Text) : Option Text :=
  if text.all isPlain && (notSpecial || text != []) then some text else none

theorem plainHost_some {notSpecial : Bool} {text host : Text} (h : plainHost notSpecial text = some host) :
    host = text ∧ (∀ ch ∈ text, isPlain ch = true) ∧ (notSpecial = true ∨ text ≠ []) := by
  unfold plainHost at h
  split at h
  · rename_i hplain
    cases h
    simpa using hplain
  · cases h

@[reducible] def plainHosts : Url.HostParser where
  parse := plainHost
  shape h := by
    obtain ⟨rfl, hplain, _⟩ := plainHost_some h
    left
    intro ch hch
    have hclean := hplain ch hch
    simp only [isPlain, Bool.and_eq_true, Bool.not_eq_true'] at hclean
    exact hclean.2
  again h := by
    obtain ⟨rfl, _, _⟩ := plainHost_some h
    exact h
  filled h := by
    obtain ⟨rfl, _, hfilled⟩ := plainHost_some h
    rcases hfilled with hhostless | hne
    · simp [hhostless]
    · simp [hne]

attribute [local instance] plainHosts

def server : Url :=
  { Url.blank "https" with host := some "auth.example.com".toList, path := .segments ["oidc".toList] }

/-- A path that is joined with a post-login URL on another host. -/
theorem accepted_next_stays_joined :
    ∃ url, Url.parse (some server) (resolveNext "https://data.example.com/lakefs"
        (some "/a/../b?c")).toList = some url ∧
      Stays server "https://data.example.com/lakefs" ["data.example.com:8000"] url := by
  have parsed : Url.parse none "https://auth.example.com/oidc".toList = some server := by
    decide
  have ok : safeNext "/a/../b?c" ["data.example.com:8000"] = .ok "/a/../b?c" := by decide
  exact accepted_next_stays parsed (.inr rfl) ok

end Plain

end LakeFsAuth.Authn.Redirect
