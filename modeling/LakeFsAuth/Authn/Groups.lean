import LakeFsAuth.Authn.Provision
import LakeFsAuth.Library.Enumerate
import Mathlib.Data.String.Basic

/-! Which groups a new user joins. -/
namespace LakeFsAuth.Authn
open Library Core.Json Core.Text

/-- A list of strings, or a string. -/
inductive Readable : Value → Prop where
  | list (items : List String) : Readable (.array (items.map .string))
  | text (text : String) : Readable (.string text)

/-- What a claim lists: its items, or what stands between the commas of its text. -/
def pieces : Value → Set String
  | .array items => {piece | .string piece ∈ items}
  | .string text => {piece | piece.toList ∈ text.toList.splitOn ','}
  | _ => ∅

/-- The names of a claim, trimmed, without the blank ones. -/
def namesOf (value : Value) : Set String := {name | name ≠ "" ∧ ∃ piece ∈ pieces value, trim piece = name}

namespace ProvisionSettings
variable (settings : ProvisionSettings)

/-- The image of the names under the group map. A name the map lacks is dropped in strict mode,
and kept otherwise. -/
def image (value : Value) : Set String := {group | ∃ name ∈ namesOf value,
  settings.groupMap[name]? = some group ∨
    settings.groupMap[name]? = none ∧ settings.groupMapStrict = false ∧ group = name}

/-- The claim that is read for the groups. -/
def Reads (claims : Claims) (value : Value) : Prop :=
  ∃ name, settings.groupsClaim = some name ∧ claims.lookup name = some value

end ProvisionSettings

theorem asStrings_some {items : List Value} {texts : List String} :
    asStrings items = some texts ↔ items = texts.map .string := by
  induction items generalizing texts with
  | nil => cases texts <;> simp [asStrings]
  | cons item items ih =>
    cases item <;> cases texts <;> simp [asStrings, asStr, Option.bind_eq_some_iff, ih, and_comm]

theorem readable_of_deserialize {value : Value} {parsed : GroupsClaim}
    (h : GroupsClaim.deserialize value = some parsed) : Readable value := by
  cases value with
  | array items =>
    obtain ⟨texts, htexts, _⟩ := Option.map_eq_some_iff.mp h
    rw [asStrings_some.mp htexts]
    exact .list texts
  | string text => exact .text text
  | null | bool flag | number text | object entries => cases h

theorem mem_namesOf {value : Value} {name : String} :
    name ∈ namesOf value ↔ ∃ piece ∈ pieces value, nonBlank piece = some name := by
  constructor
  · rintro ⟨hne, piece, hpiece, rfl⟩
    exact ⟨piece, hpiece, nonBlank_of_trim_ne piece hne⟩
  · rintro ⟨piece, hpiece, hname⟩
    obtain ⟨rfl, hne⟩ := nonBlank_some hname
    exact ⟨hne, piece, hpiece, rfl⟩

/-- A claim that is read gives its names. -/
theorem deserialize_readable {value : Value} (readable : Readable value) :
    ∃ parsed, GroupsClaim.deserialize value = some parsed ∧
      ∀ name, name ∈ parsed.values ↔ name ∈ namesOf value := by
  cases readable with
  | list items =>
    refine ⟨.list items, ?_, fun name => ?_⟩
    · rw [GroupsClaim.deserialize, asStrings_some.mpr rfl]
      rfl
    · simp [GroupsClaim.values, mem_namesOf, pieces]
  | text text =>
    refine ⟨.text text, rfl, fun name => ?_⟩
    simp only [GroupsClaim.values, commaList, List.mem_filterMap, mem_namesOf, pieces]
    constructor
    · rintro ⟨piece, hpiece, hname⟩
      exact ⟨String.ofList piece, by simpa using hpiece, hname⟩
    · rintro ⟨piece, hpiece, hname⟩
      exact ⟨piece.toList, hpiece, by simpa using hname⟩

/-- A list of names without commas, and the text that joins them, have the same names. -/
theorem namesOf_intercalate {items : List String} (h : ∀ item ∈ items, ',' ∉ item.toList) :
    namesOf (.string (",".intercalate items)) = namesOf (.array (items.map .string)) := by
  ext name
  rw [mem_namesOf, mem_namesOf]
  cases items with
  | nil =>
    have hblank : nonBlank "" = none := rfl
    simp [pieces, hblank]
  | cons first rest =>
    have hsplit : (",".intercalate (first :: rest)).toList.splitOn ',' =
        (first :: rest).map String.toList := by
      rw [String.toList_intercalate]
      exact List.splitOn_intercalate ',' (by simpa using h) (by simp)
    simp only [pieces, hsplit]
    simp [String.toList_inj]

namespace ProvisionSettings
variable {settings : ProvisionSettings} {claims : Claims}

theorem mem_image {value : Value} {group : String} :
    group ∈ settings.image value ↔ ∃ name ∈ namesOf value, settings.mapGroup name = some group := by
  refine exists_congr fun name => and_congr_right fun _ => ?_
  unfold mapGroup
  cases hmapped : settings.groupMap[name]? with
  | some mapped => simp
  | none => cases settings.groupMapStrict <;> simp [eq_comm]

/-- What is made of a claim that is read. -/
theorem resolveGroups_readable {name : String} {value : Value}
    (configured : settings.groupsClaim = some name) (hclaim : claims.lookup name = some value)
    (readable : Readable value) : ∃ groups, Enumerates groups (settings.image value) ∧
      settings.resolveGroups claims =
        if groups = [] ∧ settings.groupMapStrict = false then settings.initialGroups else groups := by
  obtain ⟨parsed, hparsed, hnames⟩ := deserialize_readable readable
  have henumerates := enumerates_sorted (parsed.values.filterMap settings.mapGroup)
  refine ⟨_, ⟨henumerates.ascending, fun group => ?_⟩, ?_⟩
  · rw [henumerates.mem_iff, mem_image]
    simp [hnames]
  · simp only [resolveGroups, configured, hclaim, hparsed, Option.bind_some]
    split <;> cases settings.groupMapStrict <;> simp_all

theorem resolveGroups_unreadable {name : String} (configured : settings.groupsClaim = some name)
    (h : ∀ value, claims.lookup name = some value → ¬ Readable value) :
    settings.resolveGroups claims = settings.initialGroups := by
  have hnone : (claims.lookup name).bind GroupsClaim.deserialize = none := by
    by_contra hsome
    obtain ⟨parsed, hparsed⟩ := Option.ne_none_iff_exists'.mp hsome
    obtain ⟨value, hvalue, hread⟩ := Option.bind_eq_some_iff.mp hparsed
    exact h value hvalue (readable_of_deserialize hread)
  simp only [resolveGroups, configured, Option.bind_some, hnone]

/-- Two claims with the same names give the same groups. -/
theorem resolveGroups_congr {claims' : Claims} {name : String} {value value' : Value}
    (configured : settings.groupsClaim = some name) (hclaim : claims.lookup name = some value)
    (hclaim' : claims'.lookup name = some value') (readable : Readable value)
    (readable' : Readable value') (same : namesOf value = namesOf value') :
    settings.resolveGroups claims = settings.resolveGroups claims' := by
  obtain ⟨groups, henumerates, hgroups⟩ := resolveGroups_readable configured hclaim readable
  obtain ⟨groups', henumerates', hgroups'⟩ := resolveGroups_readable configured hclaim' readable'
  have himage : settings.image value = settings.image value' := by rw [image, same, image]
  rw [hgroups, hgroups', henumerates.unique (himage ▸ henumerates')]

/-- The groups of a new user are the image of the names its claim lists, in order and each once.
In lenient mode an empty image gives the initial groups, in strict mode only a claim that is absent
or cannot be read does. How the names are written makes no difference. -/
theorem groups_resolved {name : String} (configured : settings.groupsClaim = some name) :
    (∀ claims value, claims.lookup name = some value → Readable value →
      (settings.groupMapStrict = true ∨ settings.image value ≠ ∅ →
        Enumerates (settings.resolveGroups claims) (settings.image value)) ∧
      (settings.groupMapStrict = false → settings.image value = ∅ →
        settings.resolveGroups claims = settings.initialGroups) ∧
      (settings.groupMapStrict = true →
        (∀ group ∈ settings.resolveGroups claims, ∃ key : String, settings.groupMap[key]? = some group) ∧
        ∀ initialGroups, { settings with initialGroups }.resolveGroups claims =
          settings.resolveGroups claims)) ∧
    (∀ claims claims' (items items' : List String), claims.lookup name = some (.array (items.map .string)) →
      claims'.lookup name = some (.array (items'.map .string)) → (∀ item, item ∈ items ↔ item ∈ items') →
        settings.resolveGroups claims = settings.resolveGroups claims') ∧
    (∀ claims claims' (items : List String), claims.lookup name = some (.array (items.map .string)) →
      claims'.lookup name = some (.string (",".intercalate items)) → (∀ item ∈ items, ',' ∉ item.toList) →
        settings.resolveGroups claims = settings.resolveGroups claims') ∧
    ∀ claims, (∀ value, claims.lookup name = some value → ¬ Readable value) →
      settings.resolveGroups claims = settings.initialGroups := by
  refine ⟨fun claims value hclaim readable => ?_, fun claims claims' items items' hclaim hclaim' same => ?_,
    fun claims claims' items hclaim hclaim' hcomma => ?_, fun claims => resolveGroups_unreadable configured⟩
  · obtain ⟨groups, henumerates, hgroups⟩ := resolveGroups_readable configured hclaim readable
    have hnil := henumerates.eq_nil_iff
    refine ⟨fun hkept => ?_, fun hlenient hempty => ?_, fun hstrict => ⟨fun group hgroup => ?_,
        fun initialGroups => ?_⟩⟩
    · have hkeep : ¬ (groups = [] ∧ settings.groupMapStrict = false) := by
        rintro ⟨hgroups, hlenient⟩
        rcases hkept with hstrict | himage
        · simp [hlenient] at hstrict
        · exact himage (hnil.mp hgroups)
      rw [hgroups, if_neg hkeep]
      exact henumerates
    · rw [hgroups, if_pos ⟨hnil.mpr hempty, hlenient⟩]
    · rw [hgroups, if_neg (by simp [hstrict]), henumerates.mem_iff] at hgroup
      obtain ⟨key, _, hmapped | ⟨_, hlenient, _⟩⟩ := hgroup
      · exact ⟨key, hmapped⟩
      · simp [hlenient] at hstrict
    · obtain ⟨others, hothers, hresult⟩ := @resolveGroups_readable { settings with initialGroups } claims
        name value configured hclaim readable
      have hsame : others = groups := hothers.unique henumerates
      rw [hresult, hgroups, hsame, if_neg (by simp [hstrict]), if_neg (by simp [hstrict])]
  · refine resolveGroups_congr configured hclaim hclaim' (.list items) (.list items') ?_
    ext name
    simp [mem_namesOf, pieces, same]
  · exact resolveGroups_congr configured hclaim hclaim' (.list items) (.text _) (namesOf_intercalate hcomma).symm

/-- Engineers are developers here, and nobody else is anything. -/
def engineering : ProvisionSettings where
  usernameClaims := ["preferred_username"]
  friendlyNameClaim := "name"
  persistFriendlyName := true
  initialGroups := ["Everyone"]
  groupsClaim := some "groups"
  groupMap := (∅ : Std.ExtTreeMap String String).insert "eng" "Developers"
  groupMapStrict := true
  source := "oidc"
  autoProvision := true

theorem groups_resolved_engineering :
    engineering.resolveGroups [("groups", .array (["eng", "qa"].map .string))] =
      engineering.resolveGroups [("groups", .string "eng,qa")] ∧
    Enumerates (engineering.resolveGroups [("groups", .string "eng,qa")])
      (engineering.image (.string "eng,qa")) := by
  have hresolved := @groups_resolved engineering "groups" rfl
  have hjoined : ",".intercalate ["eng", "qa"] = "eng,qa" := by decide
  refine ⟨hresolved.2.2.1 _ _ ["eng", "qa"] rfl (hjoined ▸ rfl) (by simp), ?_⟩
  exact (hresolved.1 _ _ rfl (.text _)).1 (.inl rfl)

end ProvisionSettings

end LakeFsAuth.Authn
