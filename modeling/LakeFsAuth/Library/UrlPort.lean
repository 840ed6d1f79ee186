import LakeFsAuth.Library.UrlOrigin

/-! The port a URL is written with. The parser drops it when it is the default one of the scheme. -/
namespace LakeFsAuth.Library.Url

/-- The text of the authority, for a scheme that may have a port. -/
def writtenAuthority (input : Text) : Option Text :=
  match readScheme (strip input) with
  | none => none
  | some (scheme, rest) =>
      if scheme = "file" then none
      else if isSpecial scheme then
        some ((rest.dropWhile (isSlash true)).takeWhile (!endsAuthority true ·))
      else
        match rest with
        | '/' :: '/' :: rest => some (rest.takeWhile (!endsAuthority false ·))
        | _ => none

/-- The text of the port. A colon alone writes none. -/
def writtenPort (input : Text) : Option Text :=
  ((writtenAuthority input).bind fun authority =>
    (splitPort false (authority.rtakeWhile (· != '@'))).2).filter (· ≠ [])

theorem writtenPort_ne_nil {input port : Text} (h : writtenPort input = some port) : port ≠ [] := by
  have hfilter := (Option.filter_eq_some_iff.mp h).2
  simpa using hfilter

/-- The number that digits stand for. -/
def portNumber (text : Text) : Nat := Nat.ofDigitChars 10 text 0

theorem port_of_site {url other : Url} (h : url.site = other.site) : url.port = other.port :=
  congrArg (·.2.2.2.2) h

/-- Digits are dropped when they are the default port. -/
theorem readPort_some {scheme : String} {text : Text} {port : Option Nat} (filled : text ≠ [])
    (h : readPort scheme text = some port) :
    text.all Char.isDigit = true ∧
      port = if defaultPort scheme = some (portNumber text) then none else some (portNumber text) := by
  unfold readPort at h
  rw [if_neg filled] at h
  dsimp only at h
  split at h
  · rename_i hdigits
    refine ⟨hdigits, ?_⟩
    split at h
    · cases h
    · exact (Option.some.inj h).symm
  · cases h

section Parser
variable [HostParser]

theorem readAuthority_port {start url : Url} {text : Text} (h : start.readAuthority text = some url) :
    readPort start.scheme ((splitPort false (text.rtakeWhile (· != '@'))).2.getD []) =
      some url.port := by
  unfold readAuthority at h
  dsimp only at h
  split at h
  · cases h
  · obtain ⟨host, _, hport⟩ := Option.bind_eq_some_iff.mp h
    obtain ⟨port, hread, hurl⟩ := Option.bind_eq_some_iff.mp hport
    cases hurl
    exact hread

theorem authorityState_port {start url : Url} {text : Text}
    (h : start.authorityState text = some url) :
    readPort start.scheme ((splitPort false ((text.takeWhile
      (!endsAuthority (isSpecial start.scheme) ·)).rtakeWhile (· != '@'))).2.getD []) =
        some url.port := by
  obtain ⟨read, hread, rfl⟩ := Option.map_eq_some_iff.mp h
  rw [port_of_site (pathStart_site _ _)]
  exact readAuthority_port hread

omit [HostParser] in
theorem getD_filter (port : Option Text) : (port.filter (· ≠ [])).getD [] = port.getD [] := by
  cases port with
  | none => rfl
  | some text => cases text <;> rfl

/-- The port of a URL is the one it is written with, unless that is the default one. -/
theorem parse_port {input : Text} {url : Url} (h : parse none input = some url) :
    readPort url.scheme ((writtenPort input).getD []) = some url.port := by
  obtain ⟨placed, rest, hread, hafter⟩ := parse_none h
  unfold writtenPort
  rw [getD_filter, writtenAuthority, hread]
  dsimp only
  unfold afterScheme at hafter
  by_cases hfile : url.scheme = "file"
  · rw [if_pos hfile, (placed.file hfile).2.2.1]
    rfl
  rw [if_neg hfile] at hafter ⊢
  by_cases special : isSpecial url.scheme = true
  · rw [if_pos special] at hafter ⊢
    have hslashes : (blank url.scheme).authorityState (rest.dropWhile (isSlash true)) = some url :=
      (specialAuthoritySlashes_eq _ _).symm.trans hafter
    have hport := authorityState_port hslashes
    simp only [blank, special] at hport
    exact hport
  · rw [if_neg special] at hafter ⊢
    have hplain : isSpecial url.scheme = false := by simpa using special
    split
    · rename_i rest
      have hport := @authorityState_port _ (blank url.scheme) _ _ hafter
      simp only [blank, hplain] at hport
      exact hport
    · rename_i hslashes
      split at hafter
      · rename_i rest
        unfold pathOrAuthority at hafter
        split at hafter
        · exact absurd rfl (hslashes _)
        · have hport : (readPath (blank url.scheme) [] [] rest).port = none :=
            port_of_site (readPath_site _ _ _ _)
          rw [← Option.some.inj hafter, hport]
          rfl
      · have hport : ((blank url.scheme).opaquePathState rest).port = none :=
          port_of_site (readTail_site _ _)
        rw [← Option.some.inj hafter, hport]
        rfl

end Parser

end LakeFsAuth.Library.Url
