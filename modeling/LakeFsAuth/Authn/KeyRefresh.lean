import LakeFsAuth.Library.Trace
import Mathlib.Logic.Function.Basic

/-! Refreshes of the provider metadata after an unknown signing key. Callers share one
asynchronous lock, and each of them can be dropped while it waits. -/
namespace LakeFsAuth.Authn.Oidc
open Library

/-- Durations, and instants of the monotonic clock, are in nanoseconds. -/
structure OidcSettings where
  /-- Shortest gap between two successful refreshes. -/
  minRefreshInterval : Nat
  /-- Gap after a refresh that failed. -/
  failedRefreshCooldown : Nat

/-- One refresh triggered by an unknown key id, and how it went. -/
structure KeyRefresh where
  «at» : Nat
  succeeded : Bool
  deriving DecidableEq

/-- The discovered client, and the value behind the lock. -/
structure OidcProvider (Discovered : Type) where
  current : Option Discovered
  lastKeyRefresh : Option KeyRefresh

/-- How long a refresh holds the next one off. -/
def OidcSettings.hold (settings : OidcSettings) (succeeded : Bool) : Nat :=
  if succeeded then settings.minRefreshInterval
  else min settings.failedRefreshCooldown settings.minRefreshInterval

/-- What a caller does with the lock: it answers at once, or it starts a fetch. -/
inductive Decision (Discovered : Type) where
  | answer (result : Option Discovered)
  | fetch

section Provider
variable {Discovered : Type} (self : OidcProvider Discovered)

/-- `OidcProvider::new`. -/
def OidcProvider.new : OidcProvider Discovered := ⟨none, none⟩

/-- `refresh_for_key_error`, from the grant of the lock to the fetch. -/
def OidcProvider.decide (settings : OidcSettings) (now : Nat) : Decision Discovered :=
  match self.lastKeyRefresh with
  | some previous =>
      if now - previous.at < settings.hold previous.succeeded then
        .answer (if previous.succeeded then self.current else none)
      else .fetch
  | none => .fetch

/-- `discover`, after its requests: a success is published. -/
def OidcProvider.discover (fetched : Except String Discovered) : OidcProvider Discovered :=
  match fetched with
  | .ok discovered => { self with current := some discovered }
  | .error _ => self

@[simp] theorem OidcProvider.discover_last (fetched : Except String Discovered) :
    (self.discover fetched).lastKeyRefresh = self.lastKeyRefresh := by
  cases fetched <;> rfl

/-- `refresh_for_key_error`, from the end of the fetch: what is left behind the lock, and the
answer. -/
def OidcProvider.record (now : Nat) (fetched : Except String Discovered) :
    OidcProvider Discovered × Option Discovered :=
  match fetched with
  | .ok discovered =>
      ({ self.discover fetched with lastKeyRefresh := some ⟨now, true⟩ }, some discovered)
  | .error _ => ({ self.discover fetched with lastKeyRefresh := some ⟨now, false⟩ }, none)

@[simp] theorem OidcProvider.record_last (now : Nat) (fetched : Except String Discovered) :
    (self.record now fetched).1.lastKeyRefresh = some ⟨now, fetched.isOk⟩ := by
  cases fetched <;> rfl

end Provider

/-- Where a call stands. It can be dropped where it waits: for the lock, or for its fetch. -/
inductive Phase (Discovered : Type) where
  | idle
  | waiting
  | fetching
  | returned (result : Option Discovered)
  | dropped

structure World (ι Discovered : Type) where
  now : Nat
  provider : OidcProvider Discovered
  guard : Option ι
  calls : ι → Phase Discovered

inductive Event (ι Discovered : Type) where
  | passed (time : Nat)
  | called (caller : ι)
  /-- The lock is granted. -/
  | entered (caller : ι)
  | fetched (caller : ι) (result : Except String Discovered)
  /-- The request of the caller timed out, or its browser went away. -/
  | dropped (caller : ι)
  /-- The scheduled refresh, which takes no lock. -/
  | scheduled (result : Except String Discovered)

section Steps
variable {ι Discovered : Type} [DecidableEq ι] (settings : OidcSettings)

def World.set (w : World ι Discovered) (caller : ι) (phase : Phase Discovered) :
    World ι Discovered :=
  { w with calls := Function.update w.calls caller phase }

@[simp] theorem World.set_now (w : World ι Discovered) (caller : ι) (phase : Phase Discovered) :
    (w.set caller phase).now = w.now := rfl

@[simp] theorem World.set_provider (w : World ι Discovered) (caller : ι)
    (phase : Phase Discovered) : (w.set caller phase).provider = w.provider := rfl

@[simp] theorem World.set_guard (w : World ι Discovered) (caller : ι) (phase : Phase Discovered) :
    (w.set caller phase).guard = w.guard := rfl

@[simp] theorem World.set_calls (w : World ι Discovered) (caller : ι) (phase : Phase Discovered) :
    (w.set caller phase).calls = Function.update w.calls caller phase := rfl

/-- One step. A dropped caller releases the lock and records nothing. -/
def step (w : World ι Discovered) : Event ι Discovered → Option (World ι Discovered)
  | .passed time => some { w with now := w.now + time }
  | .called caller =>
      match w.calls caller with
      | .idle => some (w.set caller .waiting)
      | _ => none
  | .entered caller =>
      match w.calls caller, w.guard with
      | .waiting, none =>
          match w.provider.decide settings w.now with
          | .answer result => some (w.set caller (.returned result))
          | .fetch => some { w.set caller .fetching with guard := some caller }
      | _, _ => none
  | .fetched caller result =>
      match w.calls caller with
      | .fetching =>
          let (provider, answer) := w.provider.record w.now result
          some { w.set caller (.returned answer) with provider, guard := none }
      | _ => none
  | .dropped caller =>
      match w.calls caller with
      | .waiting => some (w.set caller .dropped)
      | .fetching => some { w.set caller .dropped with guard := none }
      | _ => none
  | .scheduled result => some { w with provider := w.provider.discover result }

abbrev Steps := StepsOf (@step ι Discovered _ settings)

/-- Before the first call. -/
def World.initial (now : Nat) : World ι Discovered :=
  ⟨now, .new, none, fun _ => .idle⟩

variable {settings}

/-- What a step does, case by case. -/
inductive Does (settings : OidcSettings) (w : World ι Discovered) :
    Event ι Discovered → World ι Discovered → Prop where
  | passed (time : Nat) : Does settings w (.passed time) { w with now := w.now + time }
  | called (caller : ι) (idle : w.calls caller = .idle) :
      Does settings w (.called caller) (w.set caller .waiting)
  | answered (caller : ι) (result : Option Discovered) (waiting : w.calls caller = .waiting)
      (free : w.guard = none) (decided : w.provider.decide settings w.now = .answer result) :
      Does settings w (.entered caller) (w.set caller (.returned result))
  | started (caller : ι) (waiting : w.calls caller = .waiting) (free : w.guard = none)
      (decided : w.provider.decide settings w.now = .fetch) :
      Does settings w (.entered caller) { w.set caller .fetching with guard := some caller }
  | fetched (caller : ι) (result : Except String Discovered)
      (fetching : w.calls caller = .fetching) :
      Does settings w (.fetched caller result)
        { w.set caller (.returned (w.provider.record w.now result).2) with
          provider := (w.provider.record w.now result).1, guard := none }
  | left (caller : ι) (waiting : w.calls caller = .waiting) :
      Does settings w (.dropped caller) (w.set caller .dropped)
  | abandoned (caller : ι) (fetching : w.calls caller = .fetching) :
      Does settings w (.dropped caller) { w.set caller .dropped with guard := none }
  | scheduled (result : Except String Discovered) :
      Does settings w (.scheduled result) { w with provider := w.provider.discover result }

theorem does_of_step {w w' : World ι Discovered} {event : Event ι Discovered}
    (h : step settings w event = some w') : Does settings w event w' := by
  cases event with
  | passed time =>
    cases h
    exact .passed time
  | called caller =>
    simp only [step] at h
    split at h
    · cases h
      exact .called caller ‹_›
    · cases h
  | entered caller =>
    simp only [step] at h
    split at h
    · split at h
      · cases h
        exact .answered caller _ ‹_› ‹_› ‹_›
      · cases h
        exact .started caller ‹_› ‹_› ‹_›
    · cases h
  | fetched caller result =>
    simp only [step] at h
    split at h
    · cases h
      exact .fetched caller result ‹_›
    · cases h
  | dropped caller =>
    simp only [step] at h
    split at h
    · cases h
      exact .left caller ‹_›
    · cases h
      exact .abandoned caller ‹_›
    · cases h
  | scheduled result =>
    cases h
    exact .scheduled result

/-- The lock is with the caller that fetches, and the last refresh is in the past. -/
structure Serial (w : World ι Discovered) : Prop where
  guard : ∀ caller, w.calls caller = .fetching ↔ w.guard = some caller
  past : ∀ previous, w.provider.lastKeyRefresh = some previous → previous.at ≤ w.now

omit [DecidableEq ι] in
theorem serial_initial (now : Nat) : Serial (.initial now : World ι Discovered) := by
  constructor <;> simp [World.initial, OidcProvider.new]

/-- A call that has no fetch before and after leaves the lock where it is. -/
theorem Serial.set {w : World ι Discovered} (serial : Serial w) {caller : ι}
    {phase : Phase Discovered} (before : w.calls caller ≠ .fetching) (after : phase ≠ .fetching) :
    Serial (w.set caller phase) where
  guard other := by
    by_cases hother : other = caller
    · subst hother
      have hguard := (serial.guard other).not.mp before
      simp [after, hguard]
    · simp [hother, serial.guard other]
  past := serial.past

/-- The call that fetches gives the lock back. -/
theorem Serial.release {w : World ι Discovered} (serial : Serial w) {caller : ι}
    {phase : Phase Discovered} (fetching : w.calls caller = .fetching) (after : phase ≠ .fetching)
    {provider : OidcProvider Discovered}
    (past : ∀ previous, provider.lastKeyRefresh = some previous → previous.at ≤ w.now) :
    Serial { w.set caller phase with provider, guard := none } where
  guard other := by
    by_cases hother : other = caller
    · subst hother
      simp [after]
    · have hguard := (serial.guard caller).mp fetching
      have hidle : w.calls other ≠ .fetching := by
        rw [Ne, serial.guard other, hguard]
        simpa using Ne.symm hother
      simp [hother, hidle]
  past := past

theorem Does.serial {w w' : World ι Discovered} {event : Event ι Discovered}
    (does : Does settings w event w') (serial : Serial w) : Serial w' := by
  cases does with
  | passed time =>
    exact ⟨serial.guard, fun previous h => Nat.le_add_right_of_le (serial.past previous h)⟩
  | called caller idle => exact serial.set (by simp [idle]) (by simp)
  | answered caller result waiting free decided => exact serial.set (by simp [waiting]) (by simp)
  | started caller waiting free decided =>
    refine ⟨fun other => ?_, serial.past⟩
    by_cases hother : other = caller
    · simp [hother]
    · have hidle := (serial.guard other).not.mpr (by simp [free])
      simp [hother, Ne.symm hother, hidle]
  | fetched caller result fetching =>
    apply serial.release fetching (by simp)
    intro previous h
    rw [OidcProvider.record_last] at h
    cases h
    exact Nat.le_refl _
  | left caller waiting => exact serial.set (by simp [waiting]) (by simp)
  | abandoned caller fetching => exact serial.release fetching (by simp) serial.past
  | scheduled result =>
    refine ⟨serial.guard, fun previous h => serial.past previous ?_⟩
    simpa using h

theorem Does.now_le {w w' : World ι Discovered} {event : Event ι Discovered}
    (does : Does settings w event w') : w.now ≤ w'.now := by
  cases does <;> simp

/-! What a run shows. -/

/-- A caller got the lock and started a fetch. -/
def Starts (move : Move (Event ι Discovered) (World ι Discovered)) (caller : ι) : Prop :=
  move.label = .entered caller ∧ move.after.calls caller = .fetching

/-- A caller was dropped while its fetch ran. -/
def Abandons (move : Move (Event ι Discovered) (World ι Discovered)) : Prop :=
  ∃ caller, move.label = .dropped caller ∧ move.before.calls caller = .fetching

/-- The fetch of a caller succeeded. -/
def Succeeded (log : List (Move (Event ι Discovered) (World ι Discovered))) (caller : ι) : Prop :=
  ∃ move ∈ log, ∃ discovered, move.label = .fetched caller (.ok discovered)

/-- Consecutive fetches are at least the hold apart. -/
def Limited (settings : OidcSettings)
    (log : List (Move (Event ι Discovered) (World ι Discovered))) : Prop :=
  ∀ earlier first between second later, log = earlier ++ first :: (between ++ second :: later) →
    ∀ caller next, Starts first caller → Starts second next →
      (∀ move ∈ between, ∀ other, ¬ Starts move other) →
      (Succeeded between caller →
        first.before.now + settings.hold true ≤ second.before.now) ∧
      (¬ Succeeded between caller →
        first.before.now + settings.hold false ≤ second.before.now)

/-- How the fetch of a caller stands, since it started and before the next one. -/
inductive Stage (settings : OidcSettings) (caller : ι) (since : Nat)
    (log : List (Move (Event ι Discovered) (World ι Discovered))) (w : World ι Discovered) :
    Prop where
  | running (guard : w.guard = some caller) (pending : ¬ Succeeded log caller)
  | ended (free : w.guard = none) (refresh : KeyRefresh)
      (last : w.provider.lastKeyRefresh = some refresh) (later : since ≤ refresh.at)
      (outcome : refresh.succeeded = true ↔ Succeeded log caller)
  | abandoned (free : w.guard = none) (abandons : ∃ move ∈ log, Abandons move)
      (pending : ¬ Succeeded log caller)

section Log
variable {log : List (Move (Event ι Discovered) (World ι Discovered))} {caller : ι}

omit [DecidableEq ι] in
theorem succeeded_snoc {w w' : World ι Discovered} {event : Event ι Discovered} :
    Succeeded (log ++ [⟨w, event, w'⟩]) caller ↔
      Succeeded log caller ∨ ∃ discovered, event = .fetched caller (.ok discovered) := by
  simp [Succeeded, or_and_right, exists_or]

omit [DecidableEq ι] in
/-- A step that ends no fetch of the caller and leaves the lock and its value alone. -/
theorem Stage.quiet {since : Nat} {w w' : World ι Discovered} {event : Event ι Discovered}
    (stage : Stage settings caller since log w)
    (silent : ∀ discovered, event ≠ .fetched caller (.ok discovered)) (guard : w'.guard = w.guard)
    (last : w'.provider.lastKeyRefresh = w.provider.lastKeyRefresh) :
    Stage settings caller since (log ++ [⟨w, event, w'⟩]) w' := by
  have hsame : Succeeded (log ++ [⟨w, event, w'⟩]) caller ↔ Succeeded log caller := by
    rw [succeeded_snoc]
    exact or_iff_left fun ⟨discovered, h⟩ => silent discovered h
  cases stage with
  | running held pending => exact .running (guard.trans held) (hsame.not.mpr pending)
  | ended free refresh recorded later outcome =>
    exact .ended (guard.trans free) refresh (last.trans recorded) later (outcome.trans hsame.symm)
  | abandoned free abandons pending =>
    refine .abandoned (guard.trans free) ?_ (hsame.not.mpr pending)
    exact abandons.imp fun move h => ⟨List.mem_append_left _ h.1, h.2⟩

omit [DecidableEq ι] in
/-- The lock is held exactly while the fetch runs. -/
theorem Stage.of_fetching {since : Nat} {w : World ι Discovered} {other : ι}
    (stage : Stage settings caller since log w) (serial : Serial w)
    (fetching : w.calls other = .fetching) : other = caller ∧ ¬ Succeeded log caller := by
  have hguard := (serial.guard other).mp fetching
  cases stage with
  | running held pending =>
    rw [held] at hguard
    exact ⟨(Option.some.inj hguard).symm, pending⟩
  | ended free refresh last later outcome =>
    rw [free] at hguard
    cases hguard
  | abandoned free abandons pending =>
    rw [free] at hguard
    cases hguard

theorem Stage.step {since : Nat} {w w' : World ι Discovered} {event : Event ι Discovered}
    (stage : Stage settings caller since log w) (does : Does settings w event w')
    (serial : Serial w) (later : since ≤ w.now)
    (quiet : ∀ other, ¬ Starts ⟨w, event, w'⟩ other) :
    Stage settings caller since (log ++ [⟨w, event, w'⟩]) w' := by
  cases does with
  | passed time => exact stage.quiet (by simp) rfl rfl
  | called other idle => exact stage.quiet (by simp) rfl rfl
  | answered other result waiting free decided => exact stage.quiet (by simp) rfl rfl
  | started other waiting free decided => exact absurd ⟨rfl, by simp⟩ (quiet other)
  | fetched other result fetching =>
    obtain ⟨rfl, pending⟩ := stage.of_fetching serial fetching
    refine .ended rfl ⟨w.now, result.isOk⟩ (OidcProvider.record_last _ _ _) later ?_
    rw [succeeded_snoc, or_iff_right pending]
    cases result <;> simp [Except.isOk, Except.toBool]
  | left other waiting => exact stage.quiet (by simp) rfl rfl
  | abandoned other fetching =>
    obtain ⟨rfl, pending⟩ := stage.of_fetching serial fetching
    refine .abandoned rfl ⟨_, List.mem_append_right _ (List.mem_singleton_self _), other, rfl, fetching⟩ ?_
    rw [succeeded_snoc]
    simpa using pending
  | scheduled result => exact stage.quiet (by simp) rfl (OidcProvider.discover_last _ _)

end Log

/-- A fetch under way, and what follows before the next one. -/
theorem stage_of_running {log : List (Move (Event ι Discovered) (World ι Discovered))}
    {w w' : World ι Discovered} {caller : ι} (trace : Trace (Steps settings) w log w')
    (serial : Serial w) (guard : w.guard = some caller)
    (quiet : ∀ move ∈ log, ∀ other, ¬ Starts move other) :
    Stage settings caller w.now log w' ∧ Serial w' ∧ w.now ≤ w'.now := by
  induction trace with
  | nil => exact ⟨.running guard (by simp [Succeeded]), serial, Nat.le_refl _⟩
  | @snoc log event mid w' trace step ih =>
    obtain ⟨stage, serial', later⟩ := ih fun move hmove => quiet move (List.mem_append_left _ hmove)
    have does := does_of_step step
    have hquiet := quiet ⟨mid, event, w'⟩ (List.mem_append_right _ (List.mem_singleton_self _))
    exact ⟨stage.step does serial' later hquiet, does.serial serial', Nat.le_trans later does.now_le⟩

/-- What a start of a fetch is. -/
theorem Does.start {w w' : World ι Discovered} {event : Event ι Discovered} {caller : ι}
    (does : Does settings w event w') (starts : Starts ⟨w, event, w'⟩ caller) :
    w.guard = none ∧ w.provider.decide settings w.now = .fetch ∧ w'.guard = some caller ∧
      w'.now = w.now := by
  obtain ⟨rfl, fetching⟩ := starts
  cases does with
  | answered _ result waiting free decided => simp at fetching
  | started _ waiting free decided => exact ⟨free, decided, rfl, rfl⟩

theorem hold_le_of_fetch {provider : OidcProvider Discovered} {now : Nat} {refresh : KeyRefresh}
    (decided : provider.decide settings now = .fetch)
    (last : provider.lastKeyRefresh = some refresh) :
    settings.hold refresh.succeeded ≤ now - refresh.at := by
  unfold OidcProvider.decide at decided
  rw [last] at decided
  dsimp only at decided
  split at decided
  · cases decided
  · omega

/-- Along every run in which a caller is dropped during its fetch only where an abandoned
fetch holds nothing off, consecutive fetches are at least the hold apart. -/
theorem refreshes_limited {settings : OidcSettings} {now : Nat}
    {log : List (Move (Event ι Discovered) (World ι Discovered))} {w : World ι Discovered}
    (trace : Trace (Steps settings) (.initial now) log w)
    (kept : ∀ move ∈ log, Abandons move → settings.hold false = 0) : Limited settings log := by
  intro earlier first between second later hlog caller next hfirst hsecond quiet
  have trace' := hlog ▸ trace
  obtain ⟨hearlier, hstep, hrest⟩ := trace'.cut rfl
  obtain ⟨hbetween, hstep', _⟩ := hrest.cut rfl
  have serial : Serial first.before := hearlier.keeps
    (fun _ _ _ step serial => (does_of_step step).serial serial) (serial_initial now)
  obtain ⟨_, _, guard, hnow⟩ := (does_of_step hstep).start hfirst
  obtain ⟨stage, serial', hle⟩ :=
    stage_of_running hbetween ((does_of_step hstep).serial serial) guard quiet
  obtain ⟨hfree, decided, _, _⟩ := (does_of_step hstep').start hsecond
  rw [hnow] at stage hle
  cases stage with
  | running held pending =>
    rw [hfree] at held
    cases held
  | ended free refresh last recorded outcome =>
    have hhold := hold_le_of_fetch decided last
    have hpast := serial'.past refresh last
    have happart : first.before.now + settings.hold refresh.succeeded ≤ second.before.now := by
      omega
    cases hsucceeded : refresh.succeeded with
    | true =>
      rw [hsucceeded] at happart outcome
      exact ⟨fun _ => happart, fun h => absurd (outcome.mp rfl) h⟩
    | false =>
      rw [hsucceeded] at happart outcome
      exact ⟨fun h => absurd (outcome.mpr h) (by simp), fun _ => happart⟩
  | abandoned free abandons pending =>
    obtain ⟨move, hmove, habandons⟩ := abandons
    have hzero := kept move (by simp [hlog, hmove]) habandons
    refine ⟨fun h => absurd h pending, fun _ => ?_⟩
    omega

/-! Callers that get nothing. Each caller comes with the metadata its verification failed with. -/

/-- A refresh that failed holds the next one off. -/
def Cooling (settings : OidcSettings) (w : World ι Discovered) : Prop :=
  ∃ previous, w.provider.lastKeyRefresh = some previous ∧ previous.succeeded = false ∧
    w.now - previous.at < settings.hold false

/-- A call returns nothing. -/
def GivesUp (move : Move (Event ι Discovered) (World ι Discovered)) (caller : ι) : Prop :=
  move.before.calls caller ≠ .returned none ∧ move.after.calls caller = .returned none

/-- A call returns nothing only after a fetch of its own that failed, or when the metadata
published is what its verification failed with. -/
def Justified (tried : ι → Discovered)
    (log : List (Move (Event ι Discovered) (World ι Discovered))) : Prop :=
  ∀ move ∈ log, ∀ caller, GivesUp move caller →
    (∃ error, move.label = .fetched caller (.error error)) ∨
      move.before.provider.current = some (tried caller)

/-- A refresh that succeeded left its metadata. -/
def Published (w : World ι Discovered) : Prop :=
  ∀ previous, w.provider.lastKeyRefresh = some previous → previous.succeeded = true →
    w.provider.current.isSome = true

omit [DecidableEq ι] in
theorem published_initial (now : Nat) : Published (.initial now : World ι Discovered) := by
  simp [Published, World.initial, OidcProvider.new]

theorem Does.published {w w' : World ι Discovered} {event : Event ι Discovered}
    (does : Does settings w event w') (published : Published w) : Published w' := by
  cases does with
  | fetched caller result fetching =>
    cases result with
    | ok discovered =>
      intro previous hlast hsucceeded
      rfl
    | error error =>
      intro previous hlast hsucceeded
      cases hlast
      cases hsucceeded
  | scheduled result =>
    cases result with
    | ok discovered =>
      intro previous hlast hsucceeded
      rfl
    | error error => exact published
  | _ => exact published

/-- What a caller is told at once, with a refresh behind it that holds the next one off. -/
theorem decide_none {provider : OidcProvider Discovered} {now : Nat}
    (h : provider.decide settings now = .answer none) : ∃ previous,
      provider.lastKeyRefresh = some previous ∧ now - previous.at < settings.hold previous.succeeded ∧
        (previous.succeeded = true → provider.current = none) := by
  unfold OidcProvider.decide at h
  split at h
  · rename_i previous hlast
    split at h
    · rename_i hheld
      refine ⟨previous, hlast, hheld, fun hsucceeded => ?_⟩
      simpa [hsucceeded] using h
    · cases h
  · cases h

omit [DecidableEq ι] in
theorem Cooling.decide {w : World ι Discovered} (cooling : Cooling settings w) :
    w.provider.decide settings w.now = .answer none := by
  obtain ⟨previous, hlast, hfailed, hheld⟩ := cooling
  simp [OidcProvider.decide, hlast, hfailed, hheld]

/-- The two ways to get nothing. -/
theorem Does.givesUp {w w' : World ι Discovered} {event : Event ι Discovered}
    (does : Does settings w event w') (published : Published w) {caller : ι}
    (givesUp : GivesUp ⟨w, event, w'⟩ caller) :
    (∃ error, event = .fetched caller (.error error)) ∨
      event = .entered caller ∧ Cooling settings w := by
  obtain ⟨before, after⟩ := givesUp
  have hcaller {other : ι} {phase : Phase Discovered}
      (h : (w.set other phase).calls caller = .returned none) : caller = other ∧ phase = .returned none := by
    by_cases hother : caller = other
    · subst hother
      simpa using h
    · exact absurd (by simpa [hother] using h) before
  cases does with
  | passed time => exact absurd after before
  | scheduled result => exact absurd after before
  | called other idle => cases (hcaller after).2
  | started other waiting free decided => cases (hcaller after).2
  | left other waiting => cases (hcaller after).2
  | abandoned other fetching => cases (hcaller after).2
  | fetched other result fetching =>
    obtain ⟨rfl, hphase⟩ := hcaller after
    cases result with
    | ok discovered => cases hphase
    | error error => exact .inl ⟨error, rfl⟩
  | answered other result waiting free decided =>
    obtain ⟨rfl, hphase⟩ := hcaller after
    cases hphase
    obtain ⟨previous, hlast, hheld, hnone⟩ := decide_none decided
    have hfailed : previous.succeeded = false := by
      by_contra hsucceeded
      have hcurrent := published previous hlast (by simpa using hsucceeded)
      rw [hnone (by simpa using hsucceeded)] at hcurrent
      cases hcurrent
    exact .inr ⟨rfl, previous, hlast, hfailed, hfailed ▸ hheld⟩

/-- Along every run, callers get nothing only when nothing new can be tried, exactly when each
caller that is let in while a failed refresh holds the next one off has tried what is published. -/
theorem refusals_justified {settings : OidcSettings} {now : Nat}
    {log : List (Move (Event ι Discovered) (World ι Discovered))} {w : World ι Discovered}
    (trace : Trace (Steps settings) (.initial now) log w) (tried : ι → Discovered) :
    Justified tried log ↔ ∀ move ∈ log, ∀ caller, move.label = .entered caller →
      Cooling settings move.before → move.before.provider.current = some (tried caller) := by
  have hstep : ∀ move ∈ log, Published move.before ∧ Does settings move.before move.label move.after := by
    intro move hmove
    obtain ⟨earlier, later, hlog⟩ := List.append_of_mem hmove
    obtain ⟨hearlier, hstep, _⟩ := trace.cut hlog
    exact ⟨hearlier.keeps (fun _ _ _ step => (does_of_step step).published) (published_initial now),
      does_of_step hstep⟩
  constructor
  · intro justified move hmove caller hlabel cooling
    have does := (hstep move hmove).2
    have givesUp : GivesUp move caller := by
      generalize hevent : move.label = event at does
      generalize hafter : move.after = after at does
      rw [hlabel] at hevent
      subst hevent
      rw [GivesUp, hafter]
      cases does with
      | answered _ result waiting free decided =>
        rw [cooling.decide] at decided
        cases decided
        simp [waiting]
      | started _ waiting free decided =>
        rw [cooling.decide] at decided
        cases decided
    rcases justified move hmove caller givesUp with ⟨error, hfetched⟩ | hcurrent
    · rw [hlabel] at hfetched
      cases hfetched
    · exact hcurrent
  · intro current move hmove caller givesUp
    obtain ⟨published, does⟩ := hstep move hmove
    rcases does.givesUp published givesUp with hfetched | ⟨hlabel, cooling⟩
    · exact .inl hfetched
    · exact .inr (current move hmove caller hlabel cooling)

end Steps

/-- A minute after a success, five seconds after a failure. -/
def minute : OidcSettings := ⟨60000000000, 5000000000⟩

def runOf (events : List (Event Nat Unit)) :
    List (Move (Event Nat Unit) (World Nat Unit)) × World Nat Unit :=
  play (step minute) (.initial 0) events

/-- The first fetch fails, the second caller waits for the cooldown to pass, and a third one
leaves the queue. -/
def cooled : List (Event Nat Unit) :=
  [.called 0, .called 1, .called 2, .entered 0, .fetched 0 (.error "unreachable"),
    .passed 5000000000, .dropped 2, .entered 1, .fetched 1 (.ok ())]

theorem refreshes_limited_cooled : Limited minute (runOf cooled).1 := by
  refine refreshes_limited (play_trace (step minute) (.initial 0) cooled) ?_
  have waits : ∀ move ∈ (runOf cooled).1, ∀ caller, move.label = .dropped caller →
      caller = 2 ∧ move.before.calls 2 = .waiting := by
    simp [runOf, cooled, play, step, World.set, World.initial, OidcProvider.new, OidcProvider.decide,
      OidcProvider.record, OidcProvider.discover, OidcSettings.hold, minute]
  rintro move hmove ⟨caller, hlabel, hfetching⟩
  obtain ⟨rfl, hwaiting⟩ := waits move hmove caller hlabel
  rw [hwaiting] at hfetching
  cases hfetching

/-- The first caller is dropped during its fetch, and the second one starts a fetch at the
same instant. -/
def hurried : List (Event Nat Unit) :=
  [.called 0, .called 1, .entered 0, .dropped 0, .entered 1]

/-- The world after some of the events. -/
def hurriedAt (count : Nat) : World Nat Unit := (runOf (hurried.take count)).2

theorem abandoned_fetch_holds_nothing_off :
    ∃ log w, Trace (Steps minute) (.initial 0 : World Nat Unit) log w ∧ ¬ Limited minute log := by
  refine ⟨_, _, play_trace (step minute) (.initial 0) hurried, fun limited => ?_⟩
  have pair := limited (runOf (hurried.take 2)).1 ⟨hurriedAt 2, .entered 0, hurriedAt 3⟩
    [⟨hurriedAt 3, .dropped 0, hurriedAt 4⟩] ⟨hurriedAt 4, .entered 1, hurriedAt 5⟩ [] rfl 0 1
    ⟨rfl, rfl⟩ ⟨rfl, rfl⟩ (by simp [Starts])
  have hapart : 0 + minute.hold false ≤ 0 := pair.2 (by simp [Succeeded])
  exact absurd hapart (by decide)

/-- The first caller's fetch fails, the schedule publishes new metadata a second later, and a
second caller that tried the old ones is let in during the cooldown. -/
def overtaken : List (Event Nat Nat) :=
  [.scheduled (.ok 0), .called 0, .called 1, .entered 0, .fetched 0 (.error "unreachable"),
    .passed 1000000000, .scheduled (.ok 1), .entered 1]

def numbered (events : List (Event Nat Nat)) :
    List (Move (Event Nat Nat) (World Nat Nat)) × World Nat Nat :=
  play (step minute) (.initial 0) events

/-- Without the news, everyone has tried what is published. -/
theorem refusals_justified_stale :
    Justified (fun _ => 0) (numbered (overtaken.take 6 ++ [.entered 1])).1 := by
  refine (refusals_justified (play_trace (step minute) (.initial 0) _) _).mpr ?_
  simp [overtaken, play, step, World.set, World.initial, OidcProvider.new, OidcProvider.decide,
    OidcProvider.record, OidcProvider.discover, OidcSettings.hold, minute]

/-- The world after some of the events. -/
def overtakenAt (count : Nat) : World Nat Nat := (numbered (overtaken.take count)).2

theorem published_metadata_not_tried :
    ¬ ∀ (log : List (Move (Event Nat Nat) (World Nat Nat))) (w : World Nat Nat),
      Trace (Steps minute) (.initial 0) log w → Justified (fun _ => 0) log := by
  intro claim
  have justified := claim (numbered overtaken).1 (numbered overtaken).2
    (play_trace (step minute) (.initial 0) overtaken)
  have hmem : ⟨overtakenAt 7, .entered 1, overtakenAt 8⟩ ∈ (numbered overtaken).1 :=
    List.mem_of_getElem? (i := 7) rfl
  rcases justified _ hmem 1 ⟨nofun, rfl⟩ with ⟨error, hlabel⟩ | hcurrent
  · cases hlabel
  · exact absurd hcurrent (by decide)

end LakeFsAuth.Authn.Oidc
