import LakeFsAuth.Authn.Redirect
import LakeFsAuth.Library.UrlPort

/-! The allow list for the `redirect_uri` of the SDK token login. -/
namespace LakeFsAuth.Authn.Sts
open Library Core.Text

def loopbackHosts : List Text := ["127.0.0.1".toList, "localhost".toList, "[::1]".toList]

section Check
variable [Url.HostParser]

def loopbackMatches (entry candidate : String) : Bool :=
  match Url.parse none entry.toList, Url.parse none candidate.toList with
  | some entry, some candidate =>
      entry.host.any loopbackHosts.contains && entry.port.isNone && entry.scheme == candidate.scheme &&
        entry.host == candidate.host &&
        Url.pathText entry.path == Url.pathText candidate.path && entry.query == candidate.query
  | _, _ => false

/-- True when the candidate is on the allow list. An entry matches exactly, except that a loopback
entry without a port matches the same scheme, host, path, and query on any port. -/
def redirectUriAllowed (allowed : List String) (candidate : String) : Bool :=
  allowed.any fun entry => entry == candidate || loopbackMatches entry candidate

/-- A loopback entry, and a candidate that is the same but for its port. -/
structure AnyPort (entry candidate : String) (loopback url : Url) : Prop where
  entry : Url.parse none entry.toList = some loopback
  candidate : Url.parse none candidate.toList = some url
  host : ∃ host ∈ loopbackHosts, loopback.host = some host ∧ url.host = some host
  scheme : loopback.scheme = url.scheme
  path : Url.pathText loopback.path = Url.pathText url.path
  query : loopback.query = url.query

/-- The candidate is the same as the entry, on any port. -/
def MatchesAnyPort (entry candidate : String) : Prop :=
  ∃ loopback url, AnyPort entry candidate loopback url

/-- The port of the entry is written out, and it is the default one of its scheme. -/
def WritesDefaultPort (entry : String) : Prop :=
  ∃ url port, Url.parse none entry.toList = some url ∧ Url.writtenPort entry.toList = some port ∧
    Url.defaultPort url.scheme = some (Url.portNumber port)

/-- What the allow list is for. -/
structure Guards (allowed : List String) (candidate : String) : Prop where
  list : redirectUriAllowed allowed candidate = true ↔ candidate ∈ allowed ∨
    ∃ entry ∈ allowed, Url.writtenPort entry.toList = none ∧ MatchesAnyPort entry candidate
  exact : ∀ entry ∈ allowed, (Url.writtenPort entry.toList).isSome →
    redirectUriAllowed [entry] candidate = true → candidate = entry

/-- A port is not there when none is written, or when the default one is. -/
theorem port_none_iff {entry : String} {url : Url} (h : Url.parse none entry.toList = some url) :
    url.port = none ↔ Url.writtenPort entry.toList = none ∨ WritesDefaultPort entry := by
  have hport := Url.parse_port h
  cases hwritten : Url.writtenPort entry.toList with
  | none =>
    rw [hwritten] at hport
    have hnone : url.port = none := (Option.some.inj hport).symm
    simp [hnone]
  | some port =>
    rw [hwritten] at hport
    obtain ⟨_, hread⟩ := Url.readPort_some (Url.writtenPort_ne_nil hwritten) hport
    rw [hread]
    constructor
    · intro hnone
      refine .inr ⟨url, port, h, hwritten, ?_⟩
      by_contra hother
      simp [hother] at hnone
    · rintro (hnone | ⟨other, digits, hother, hdigits, hdefault⟩)
      · cases hnone
      · obtain rfl : url = other := Option.some.inj (h.symm.trans hother)
        obtain rfl : port = digits := Option.some.inj (hwritten.symm.trans hdigits)
        simp [hdefault]

theorem loopbackMatches_iff (entry candidate : String) :
    loopbackMatches entry candidate = true ↔ MatchesAnyPort entry candidate ∧
      (Url.writtenPort entry.toList = none ∨ WritesDefaultPort entry) := by
  unfold loopbackMatches
  constructor
  · intro h
    split at h
    · rename_i loopback url hentry hcandidate
      simp only [Bool.and_eq_true, beq_iff_eq, Option.any_eq_true, List.contains_iff_mem,
        Option.isNone_iff_eq_none] at h
      obtain ⟨⟨⟨⟨⟨⟨host, hhost, hloopback⟩, hport⟩, hscheme⟩, hsame⟩, hpath⟩, hquery⟩ := h
      exact ⟨⟨loopback, url, hentry, hcandidate, ⟨host, hloopback, hhost, hsame ▸ hhost⟩, hscheme,
        hpath, hquery⟩, (port_none_iff hentry).mp hport⟩
    · cases h
  · rintro ⟨⟨loopback, url, same⟩, hwritten⟩
    obtain ⟨host, hloopback, hhost, hsame⟩ := same.host
    rw [same.entry, same.candidate]
    simp [hhost, hsame, hloopback, same.scheme, same.path, same.query,
      (port_none_iff same.entry).mpr hwritten]

theorem redirectUriAllowed_iff (allowed : List String) (candidate : String) :
    redirectUriAllowed allowed candidate = true ↔
      ∃ entry ∈ allowed, entry = candidate ∨ MatchesAnyPort entry candidate ∧
        (Url.writtenPort entry.toList = none ∨ WritesDefaultPort entry) := by
  simp only [redirectUriAllowed, List.any_eq_true, Bool.or_eq_true, beq_iff_eq, loopbackMatches_iff]

/-- The list does what it is for, unless a loopback entry writes the default port. -/
theorem guards_iff (allowed : List String) (candidate : String) :
    Guards allowed candidate ↔ ∀ entry ∈ allowed, MatchesAnyPort entry candidate →
      WritesDefaultPort entry → candidate = entry := by
  constructor
  · intro guards entry hentry same hdefault
    obtain ⟨_, port, _, hwritten, _⟩ := id hdefault
    apply guards.exact entry hentry
    · simp [hwritten]
    · rw [redirectUriAllowed_iff]
      exact ⟨entry, by simp, .inr ⟨same, .inr hdefault⟩⟩
  · intro h
    constructor
    · rw [redirectUriAllowed_iff]
      constructor
      · rintro ⟨entry, hentry, rfl | ⟨same, hnone | hdefault⟩⟩
        · exact .inl hentry
        · exact .inr ⟨entry, hentry, hnone, same⟩
        · exact .inl (h entry hentry same hdefault ▸ hentry)
      · rintro (hmem | ⟨entry, hentry, hnone, same⟩)
        · exact ⟨candidate, hmem, .inl rfl⟩
        · exact ⟨entry, hentry, .inr ⟨same, .inl hnone⟩⟩
    · intro entry hentry hsome ok
      obtain ⟨other, hother, hmatch⟩ := (redirectUriAllowed_iff _ _).mp ok
      obtain rfl : other = entry := by simpa using hother
      rcases hmatch with rfl | ⟨same, hnone | hdefault⟩
      · rfl
      · simp [hnone] at hsome
      · exact h other hentry same hdefault

end Check

section Plain
attribute [local instance] Redirect.plainHosts

/-- The default port of the entry is written out, and any port is accepted. -/
theorem default_port_matches_any :
    redirectUriAllowed ["http://localhost:80/cb"] "http://localhost:9999/cb" = true ∧
      ¬Guards ["http://localhost:80/cb"] "http://localhost:9999/cb" := by
  have ok : redirectUriAllowed ["http://localhost:80/cb"] "http://localhost:9999/cb" = true := by
    decide
  refine ⟨ok, fun guards => ?_⟩
  have same := guards.exact "http://localhost:80/cb" (by simp) (by decide) ok
  exact absurd same (by decide)

end Plain

end LakeFsAuth.Authn.Sts
