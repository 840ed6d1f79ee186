import LakeFsAuth.Authn.Redirect
import LakeFsAuth.Library.UrlPort
import LakeFsAuth.Library.UrlSegments

/-! The allow list for the `next` parameter, with its entries as they are documented. -/
namespace LakeFsAuth.Authn.Redirect
open Library Core.Text

/-- An entry: `host`, `host:port`, or `scheme://host[:port]`. -/
structure AllowEntry where
  scheme : Option Text
  host : Text
  port : Option Text
  schemeChars : ∀ text ∈ scheme, ∀ ch ∈ text, Url.isSchemeChar ch = true
  isHost : Url.IsHost host
  filled : host ≠ []
  digits : ∀ text ∈ port, text ≠ [] ∧ text.all Char.isDigit = true

def portSuffix (port : Option Text) : Text := port.elim [] (':' :: ·)

namespace AllowEntry

def authorityText (entry : AllowEntry) : Text := entry.host ++ portSuffix entry.port

/-- The entry as it is written. -/
def text (entry : AllowEntry) : String :=
  String.ofList (entry.scheme.elim [] (· ++ "://".toList) ++ entry.authorityText)

/-- The entry names the authority of a URL. A port that is not written is the default one. -/
structure NamesAuthority (entry : AllowEntry) (url : Url) : Prop where
  scheme : ∀ text ∈ entry.scheme, eqIgnoreAsciiCase (String.ofList text) url.scheme = true
  host : ∃ host, url.host = some host ∧
    eqIgnoreAsciiCase (String.ofList entry.host) (String.ofList host) = true
  port : (entry.port.map Url.portNumber).or (Url.defaultPort url.scheme) =
    url.port.or (Url.defaultPort url.scheme)

/-- A port is written in the entry as in the URL: it is not the default one, and does not start
with a zero. -/
def WritesPortOf (entry : AllowEntry) (url : Url) : Prop :=
  ∀ port ∈ entry.port, url.port.map Url.digits = some port

end AllowEntry

/-! The texts of entries. -/

theorem forbidden_toLower (ch : Char) : Url.isForbiddenHost ch.toLower = Url.isForbiddenHost ch := by
  have hascii : ∀ n : Fin 128, Url.isForbiddenHost (Char.ofNat n.val).toLower =
      Url.isForbiddenHost (Char.ofNat n.val) := by decide
  rcases Url.toLower_cases ch with h | h
  · rw [h]
  · have hch := hascii ⟨ch.toNat, h⟩
    simpa using hch

theorem isHost_lower {host : Text} (h : Url.IsHost host) : Url.IsHost (host.map Char.toLower) := by
  rcases h with hplain | ⟨address, rfl, haddress⟩
  · left
    simpa [forbidden_toLower] using hplain
  · right
    refine ⟨address.map Char.toLower, by simp, fun ch hch => ?_⟩
    obtain ⟨before, hmem, rfl⟩ := List.mem_map.mp hch
    rcases haddress before hmem with rfl | hclean
    · exact .inl (by decide)
    · exact .inr ((forbidden_toLower before).trans hclean)

/-- A host and a port are told apart. -/
theorem authority_inj {host other : Text} {port otherPort : Option Text} (isHost : Url.IsHost host)
    (isOther : Url.IsHost other) (h : host ++ portSuffix port = other ++ portSuffix otherPort) :
    host = other ∧ port = otherPort := by
  have split (port : Option Text) : Url.splitPort false (portSuffix port) = ([], port) := by
    cases port <;> simp [portSuffix, Url.splitPort]
  have hsplit := congrArg (Url.splitPort false) h
  rw [Url.splitPort_isHost isHost, Url.splitPort_isHost isOther, split, split] at hsplit
  simpa using hsplit

theorem toLower_digit {ch : Char} (h : ch.isDigit = true) : ch.toLower = ch := by
  have hascii : ∀ n : Fin 128, (Char.ofNat n.val).isDigit = true →
      (Char.ofNat n.val).toLower = Char.ofNat n.val := by decide
  have hcode : ch.toNat ≤ 57 := (Char.isDigit_iff_toNat.mp h).2
  have hch : Char.ofNat ch.toNat = ch := Char.ofNat_toNat ch
  rw [← hch] at h ⊢
  exact hascii ⟨ch.toNat, by omega⟩ h

theorem lower_digits {text : Text} (h : text.all Char.isDigit = true) :
    text.map Char.toLower = text := by
  induction text with
  | nil => rfl
  | cons ch text ih =>
    rw [List.all_cons, Bool.and_eq_true] at h
    rw [List.map_cons, toLower_digit h.1, ih h.2]

theorem digits_all (port : Nat) : (Url.digits port).all Char.isDigit = true :=
  List.all_eq_true.mpr fun _ h => Nat.isDigit_of_mem_toDigits (by decide) (by decide) h

namespace AllowEntry

theorem slash_not_mem (entry : AllowEntry) : '/' ∉ entry.authorityText := by
  intro h
  rcases List.mem_append.mp h with hhost | hport
  · rcases entry.isHost with hplain | ⟨address, heq, haddress⟩
    · have hforbidden := hplain '/' hhost
      simp [Url.isForbiddenHost] at hforbidden
    · have hmem : '/' ∈ address := by simpa [heq] using hhost
      have hforbidden := haddress '/' hmem
      simp [Url.isForbiddenHost] at hforbidden
  · cases hwritten : entry.port with
    | none => simp [hwritten, portSuffix] at hport
    | some digits =>
      rw [hwritten, portSuffix, Option.elim_some, List.mem_cons] at hport
      have hdigits := (entry.digits digits hwritten).2
      rw [List.all_eq_true] at hdigits
      rcases hport with heq | hmem
      · cases heq
      · exact absurd (hdigits '/' hmem) (by decide)

/-- An authority is written as an entry when the hosts are the same and so are the ports. -/
theorem sameAuthority_iff (entry : AllowEntry) {host : Text} (isHost : Url.IsHost host)
    (port : Option Nat) :
    eqIgnoreAsciiCase (String.ofList entry.authorityText) (authority host port) = true ↔
      eqIgnoreAsciiCase (String.ofList entry.host) (String.ofList host) = true ∧
        entry.port = port.map Url.digits := by
  have lower (other : Option Text) (h : ∀ text ∈ other, text.all Char.isDigit = true) :
      (portSuffix other).map Char.toLower = portSuffix other := by
    cases other with
    | none => rfl
    | some digits => simp [portSuffix, lower_digits (h digits rfl), (by decide : ':'.toLower = ':')]
  have hentry := lower entry.port fun text htext => (entry.digits text htext).2
  have hport : (portSuffix (port.map Url.digits)).map Char.toLower =
      portSuffix (port.map Url.digits) := by
    cases port with
    | none => rfl
    | some number => exact lower _ fun text htext => Option.some.inj htext ▸ digits_all number
  have hauthority : (authority host port).toList = host ++ portSuffix (port.map Url.digits) := by
    cases port <;> simp [authority, portSuffix]
  unfold eqIgnoreAsciiCase
  rw [hauthority, String.toList_ofList, String.toList_ofList, String.toList_ofList, authorityText,
    List.map_append, List.map_append, hentry, hport, beq_iff_eq, beq_iff_eq]
  constructor
  · exact authority_inj (isHost_lower entry.isHost) (isHost_lower isHost)
  · rintro ⟨hhost, heq⟩
    rw [hhost, heq]

theorem allows_iff (entry : AllowEntry) (scheme : String) {host : Text} (isHost : Url.IsHost host)
    (port : Option Nat) :
    allows scheme (authority host port) entry.text = true ↔
      (∀ text ∈ entry.scheme, eqIgnoreAsciiCase (String.ofList text) scheme = true) ∧
      eqIgnoreAsciiCase (String.ofList entry.host) (String.ofList host) = true ∧
        entry.port = port.map Url.digits := by
  unfold allows
  cases hscheme : entry.scheme with
  | none =>
    have hsplit := splitOnce_none (by decide : '/' ∈ "://".toList) entry.slash_not_mem
    have htext : entry.text = String.ofList entry.authorityText := by simp [text, hscheme]
    have hsplitText : splitOnce "://".toList entry.text.toList = none := by
      rw [htext]
      simpa using hsplit
    rw [hsplitText, htext]
    simp [sameAuthority_iff entry isHost]
  | some pinned =>
    have hcolon : ':' ∉ pinned := by
      intro hmem
      exact absurd (entry.schemeChars pinned hscheme ':' hmem) (by decide)
    have hkept : entry.authorityText.rdropWhile (· == '/') = entry.authorityText := by
      rw [List.rdropWhile_eq_self_iff]
      intro hne hlast
      exact entry.slash_not_mem ((beq_iff_eq.mp hlast) ▸ List.getLast_mem hne)
    have htext : entry.text.toList = pinned ++ "://".toList ++ entry.authorityText := by
      simp [text, hscheme]
    have hsplit : splitOnce "://".toList entry.text.toList =
        some (pinned, entry.authorityText) := by
      rw [htext, List.append_assoc]
      exact splitOnce_first hcolon entry.authorityText
    rw [hsplit]
    dsimp only
    rw [hkept, Bool.and_eq_true, sameAuthority_iff entry isHost]
    simp

section Parser
variable [Url.HostParser]

/-- An entry that names an authority, and writes its port as the URL does, is one that matches. -/
theorem allows_names_iff (entry : AllowEntry) {url : Url} {host : Text} (placed : Url.Placed url)
    (hfile : url.scheme ≠ "file") (hhost : url.host = some host) :
    allows url.scheme (authority host url.port) entry.text = true ↔
      entry.NamesAuthority url ∧ entry.WritesPortOf url := by
  have isHost : Url.IsHost host := by
    obtain ⟨habsurd, _⟩ | hparsed := placed.host host hhost
    · exact absurd habsurd hfile
    · exact Url.HostParser.shape hparsed
  rw [allows_iff entry url.scheme isHost]
  constructor
  · rintro ⟨hscheme, hsame, hport⟩
    refine ⟨⟨hscheme, ⟨host, hhost, hsame⟩, ?_⟩, ?_⟩
    · rw [hport]
      cases url.port <;> simp [Url.portNumber, Url.digits, Nat.ofDigitChars_ten_toDigits]
    · rintro port hwritten
      rw [← hport, hwritten]
  · rintro ⟨names, writes⟩
    obtain ⟨other, hother, hsame⟩ := names.host
    obtain rfl : host = other := Option.some.inj (hhost.symm.trans hother)
    refine ⟨names.scheme, hsame, ?_⟩
    cases hwritten : entry.port with
    | some port => exact (writes port hwritten).symm
    | none =>
      have hport := names.port
      rw [hwritten, Option.map_none, Option.none_or] at hport
      cases hurl : url.port with
      | none => rfl
      | some port =>
        rw [hurl, Option.some_or] at hport
        exact absurd hport (placed.port port hurl).2

end Parser

end AllowEntry

section Check
variable [Url.HostParser]

/-- An absolute URL is accepted when an entry matches its authority. -/
theorem safeNext_absolute {next : String} {url : Url} {host : Text}
    (parsed : Url.parse none next.toList = some url)
    (web : url.scheme = "http" ∨ url.scheme = "https") (clean : next.toList.any isControl = false)
    (hhost : url.host = some host) (allowedHosts : List String) :
    safeNext next allowedHosts = .ok next ↔
      allowedHosts.any (allows url.scheme (authority host url.port)) = true := by
  have hfilled : next ≠ "" := by
    rintro rfl
    cases parsed
  have hstart : startsWith next "/" = false := by
    by_contra hslash
    obtain ⟨rest, hrest⟩ := (startsWith_iff next "/").mp (by simpa using hslash)
    have hnext : next.toList = '/' :: rest := hrest.symm
    have hstrip := Url.strip_stop (by decide : Url.isTrimmed '/' = false) [] rest
    obtain ⟨_, after, hread, _⟩ := Url.parse_none parsed
    rw [hnext] at hread
    rw [List.nil_append] at hstrip
    rw [hstrip] at hread
    cases hread
  have hscheme : ¬(url.scheme ≠ "http" ∧ url.scheme ≠ "https") := by tauto
  unfold safeNext
  rw [if_neg hfilled, if_neg (by simp [clean]), hstart, parsed]
  simp only [Bool.false_eq_true, if_false, if_neg hscheme, hhost]
  split <;> simp [*]

theorem safeNext_control {next accepted : String} {allowedHosts : List String}
    (h : safeNext next allowedHosts = .ok accepted) : next.toList.any isControl = false := by
  unfold safeNext at h
  split_ifs at h with hempty hcontrol <;> simpa using hcontrol

/-- A URL without control characters is accepted when an entry names its authority, if one of those
that do writes its port as the URL does. -/
theorem safeNext_iff_named {next : String} {url : Url} {entries : List AllowEntry}
    (parsed : Url.parse none next.toList = some url)
    (web : url.scheme = "http" ∨ url.scheme = "https")
    (written : (∃ entry ∈ entries, entry.NamesAuthority url) →
      ∃ entry ∈ entries, entry.NamesAuthority url ∧ entry.WritesPortOf url) :
    safeNext next (entries.map AllowEntry.text) = .ok next ↔
      next.toList.any isControl = false ∧ ∃ entry ∈ entries, entry.NamesAuthority url := by
  by_cases clean : next.toList.any isControl = false
  swap
  · exact iff_of_false (fun h => clean (safeNext_control h)) fun h => clean h.1
  obtain ⟨placed, _⟩ := Url.parse_none parsed
  have hweb := Url.isWeb_of_http web
  cases hhost : url.host with
  | none => exact absurd (placed.hostless hhost) (by simp [hweb.1])
  | some host =>
    rw [safeNext_absolute parsed web clean hhost, List.any_map, List.any_eq_true,
      and_iff_right clean]
    simp only [Function.comp_apply, AllowEntry.allows_names_iff _ placed hweb.2 hhost]
    constructor
    · rintro ⟨entry, hentry, names, _⟩
      exact ⟨entry, hentry, names⟩
    · exact written

end Check

section Plain
attribute [local instance] plainHosts

def lakeFsHost : AllowEntry where
  scheme := none
  host := "LakeFS.example.com".toList
  port := none
  schemeChars := by simp
  isHost := .inl (Url.forall_of_all (by decide))
  filled := by decide
  digits := by simp

/-- The default port of `https` is written out. -/
def lakeFsHttps : AllowEntry :=
  { lakeFsHost with port := some "443".toList, digits := by simp }

def lakeFsUrl (path : Text) : Url :=
  { Url.blank "https" with host := some "lakefs.example.com".toList, path := .segments [path] }

theorem lakeFsHost_names (path : Text) : lakeFsHost.NamesAuthority (lakeFsUrl path) where
  scheme := by simp [lakeFsHost]
  host := ⟨_, rfl, by decide⟩
  port := rfl

/-- Two entries name the host in another case, and only the first writes the default port. -/
theorem safeNext_iff_named_case :
    safeNext "https://lakefs.example.com/x" ([lakeFsHttps, lakeFsHost].map AllowEntry.text) =
      .ok "https://lakefs.example.com/x" := by
  have parsed : Url.parse none "https://lakefs.example.com/x".toList = some (lakeFsUrl ['x']) := by
    decide
  have listed : lakeFsHost ∈ [lakeFsHttps, lakeFsHost] := by simp
  have writes : lakeFsHost.WritesPortOf (lakeFsUrl ['x']) := nofun
  refine (safeNext_iff_named parsed (.inr rfl) fun _ => ?_).mpr ⟨by decide, lakeFsHost, listed, ?_⟩
  · exact ⟨lakeFsHost, listed, lakeFsHost_names ['x'], writes⟩
  · exact lakeFsHost_names ['x']

/-- A default port that is written out matches nothing, and a control character is refused. -/
theorem named_not_accepted :
    (Url.parse none "https://lakefs.example.com/x".toList = some (lakeFsUrl ['x']) ∧
      lakeFsHttps.NamesAuthority (lakeFsUrl ['x']) ∧
      safeNext "https://lakefs.example.com/x" [lakeFsHttps.text] = .error .HostNotAllowed) ∧
    (Url.parse none "https://lakefs.example.com/\x01x".toList = some (lakeFsUrl "%01x".toList) ∧
      lakeFsHost.NamesAuthority (lakeFsUrl "%01x".toList) ∧
      safeNext "https://lakefs.example.com/\x01x" [lakeFsHost.text] = .error .ControlCharacter) := by
  have names : lakeFsHttps.NamesAuthority (lakeFsUrl ['x']) :=
    ⟨by simp [lakeFsHttps, lakeFsHost], ⟨_, rfl, by decide⟩, by decide⟩
  exact ⟨⟨by decide, names, by decide⟩, by decide, lakeFsHost_names _, by decide⟩

end Plain

end LakeFsAuth.Authn.Redirect
