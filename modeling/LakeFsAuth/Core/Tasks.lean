import LakeFsAuth.Core.Model
import LakeFsAuth.Library.Backoff
import LakeFsAuth.Library.Trace

/-! Supervision of background tasks that must run forever. Durations, and instants of the monotonic
clock, are in nanoseconds. -/
namespace LakeFsAuth.Core.Tasks
open Library Model

def initialRestartDelay : Nat := secs 1

def maxRestartDelay : Nat := secs 30

/-- What a join handle says of a task that ended. -/
inductive Outcome where
  | returned
  | panicked
  | cancelled
  deriving DecidableEq, Repr

inductive Status where
  | running
  /-- It was asked to abort, and stops where it yields next. -/
  | aborting
  | ended (outcome : Outcome)
  deriving DecidableEq, Repr

def Status.live : Status → Bool
  | .ended _ => false
  | _ => true

/-- `AbortHandle::abort`. -/
def Status.abort : Status → Status
  | .running => .aborting
  | status => status

theorem Status.abort_ne_running (status : Status) : status.abort ≠ .running := by
  cases status <;> simp [abort]

/-- One run of the supervised task. -/
structure Run (τ : Type) where
  started : Nat
  status : Status
  state : τ

def Run.abort {τ : Type} (run : Run τ) : Run τ := { run with status := run.status.abort }

/-- Where the supervisor stands. -/
inductive Phase where
  | awaiting (started delay : Nat)
  | sleeping (deadline delay : Nat)
  /-- It returned, or it was dropped. -/
  | stopped
  deriving DecidableEq, Repr

/-- The runs are in the order of their starts, the latest first. -/
structure World (τ : Type) where
  now : Nat
  phase : Phase
  runs : List (Run τ)

/-- Runs are counted back from the latest one. -/
inductive Event (τ : Type) where
  | passed (time : Nat)
  | worked (run : Nat) (state : τ)
  /-- A run returned or panicked. -/
  | ended (run : Nat) (panicked : Bool)
  /-- A run stopped because it was asked to, or because the runtime shuts down. -/
  | cancelled (run : Nat)
  /-- The supervisor sees how the run it awaits ended. -/
  | joined
  /-- The sleep of the supervisor is over. -/
  | woke
  /-- The supervisor is aborted. -/
  | dropped

section Steps
variable {τ : Type} (factory : τ)

/-- `factory()` as a task. -/
def spawn (now : Nat) : Run τ := ⟨now, .running, factory⟩

/-- The first poll of the supervisor. -/
def World.initial (now : Nat) : World τ :=
  ⟨now, .awaiting now initialRestartDelay, [spawn factory now]⟩

def World.update (w : World τ) (i : Nat) (change : Run τ → Run τ) : World τ :=
  { w with runs := w.runs.modify i change }

/-- The run at a place, as long as it lives. -/
def World.live (w : World τ) (i : Nat) : Option (Run τ) :=
  (w.runs[i]?).filter fun run => run.status.live

/-- The delay after a run that ended. -/
def delayAfter (started delay now : Nat) : Nat :=
  if maxRestartDelay < now - started then initialRestartDelay else delay

/-- `drop` of the future of the supervisor: the guard aborts the run it awaits. -/
def World.drop (w : World τ) : World τ :=
  match w.phase with
  | .awaiting _ _ => { w.update 0 Run.abort with phase := .stopped }
  | _ => { w with phase := .stopped }

/-- One step of `supervise`, of its runs, or of the clock. -/
def step (w : World τ) : Event τ → Option (World τ)
  | .passed time => some { w with now := w.now + time }
  | .worked i state => (w.live i).map fun _ => w.update i fun run => { run with state := state }
  | .ended i panicked => (w.live i).map fun _ =>
      w.update i fun run => { run with status := .ended (if panicked then .panicked else .returned) }
  | .cancelled i => (w.live i).map fun _ =>
      w.update i fun run => { run with status := .ended .cancelled }
  | .joined =>
      match w.phase, w.runs.head?.map Run.status with
      | .awaiting started delay, some (.ended outcome) =>
          match outcome with
          | .cancelled => some { w with phase := .stopped }
          | _ =>
              let delay := delayAfter started delay w.now
              some { w with phase := .sleeping (w.now + delay) delay }
      | _, _ => none
  | .woke =>
      match w.phase with
      | .sleeping deadline delay =>
          if deadline ≤ w.now then
            some { w with
              phase := .awaiting w.now (Backoff.next maxRestartDelay delay)
              runs := spawn factory w.now :: w.runs }
          else none
      | _ => none
  | .dropped =>
      match w.phase with
      | .stopped => none
      | _ => some w.drop

abbrev Steps := StepsOf (step factory)

variable {factory}

/-- What a step does, case by case. -/
inductive Does (factory : τ) (w : World τ) : Event τ → World τ → Prop where
  | passed (time : Nat) : Does factory w (.passed time) { w with now := w.now + time }
  | worked (i : Nat) (state : τ) :
      Does factory w (.worked i state) (w.update i fun run => { run with state := state })
  | ended (i : Nat) (panicked : Bool) (outcome : Outcome) :
      Does factory w (.ended i panicked) (w.update i fun run => { run with status := .ended outcome })
  | cancelled (i : Nat) :
      Does factory w (.cancelled i) (w.update i fun run => { run with status := .ended .cancelled })
  | shutDown (run : Run τ) (rest : List (Run τ)) (started delay : Nat)
      (awaiting : w.phase = .awaiting started delay) (runs : w.runs = run :: rest)
      (cancelled : run.status = .ended .cancelled) :
      Does factory w .joined { w with phase := .stopped }
  | joined (run : Run τ) (rest : List (Run τ)) (started delay : Nat)
      (awaiting : w.phase = .awaiting started delay) (runs : w.runs = run :: rest)
      (ended : run.status.live = false) :
      Does factory w .joined { w with
        phase := .sleeping (w.now + delayAfter started delay w.now) (delayAfter started delay w.now) }
  | woke (deadline delay : Nat) (sleeping : w.phase = .sleeping deadline delay)
      (due : deadline ≤ w.now) :
      Does factory w .woke { w with
        phase := .awaiting w.now (Backoff.next maxRestartDelay delay)
        runs := spawn factory w.now :: w.runs }
  | dropped (going : w.phase ≠ .stopped) : Does factory w .dropped w.drop

theorem does_of_step {w w' : World τ} {event : Event τ} (h : step factory w event = some w') :
    Does factory w event w' := by
  cases event with
  | passed time =>
    cases h
    exact .passed time
  | worked i state =>
    obtain ⟨_, _, rfl⟩ := Option.map_eq_some_iff.mp h
    exact .worked i state
  | ended i panicked =>
    obtain ⟨_, _, rfl⟩ := Option.map_eq_some_iff.mp h
    exact .ended i panicked _
  | cancelled i =>
    obtain ⟨_, _, rfl⟩ := Option.map_eq_some_iff.mp h
    exact .cancelled i
  | joined =>
    simp only [step] at h
    split at h
    · rename_i started delay outcome hphase hstatus
      obtain ⟨run, hrun, hended⟩ := Option.map_eq_some_iff.mp hstatus
      obtain ⟨rest, hruns⟩ := List.head?_eq_some_iff.mp hrun
      split at h
      · cases h
        exact .shutDown run rest started delay hphase hruns hended
      · cases h
        exact .joined run rest started delay hphase hruns (by rw [hended]; rfl)
    · cases h
  | woke =>
    simp only [step] at h
    split at h
    · split at h
      · cases h
        exact .woke _ _ ‹_› ‹_›
      · cases h
    · cases h
  | dropped =>
    simp only [step] at h
    split at h
    · cases h
    · cases h
      exact .dropped ‹_›

end Steps

/-! How often a run starts. -/

/-- What one more run costs. -/
def rate : Nat := secs 11

def slack : Nat := secs 29

/-- What short runs may still draw on after some restarts. -/
def credit : Nat → Nat
  | 0 => secs 29
  | 1 => secs 19
  | 2 => secs 10
  | 3 => secs 3
  | _ => 0

/-- The delay after some restarts. -/
def delayOf (restarts : Nat) : Nat := Backoff.wait initialRestartDelay maxRestartDelay restarts

theorem initial_le_max : initialRestartDelay ≤ maxRestartDelay := by decide

theorem credit_le (restarts : Nat) : credit restarts ≤ slack := by
  match restarts with
  | 0 | 1 | 2 | 3 => decide
  | _ + 4 => exact Nat.zero_le _

theorem delayOf_late (restarts : Nat) : delayOf (restarts + 5) = maxRestartDelay :=
  Backoff.wait_eq_cap initial_le_max (by decide : maxRestartDelay ≤ initialRestartDelay * 2 ^ 5)
    (Nat.le_add_left _ _)

/-- A short run and its delay pay for the next one. -/
theorem short_pays (restarts : Nat) :
    rate + credit (restarts + 1) ≤ credit restarts + delayOf restarts := by
  match restarts with
  | 0 | 1 | 2 | 3 | 4 => decide
  | restarts + 5 =>
    rw [delayOf_late]
    simp only [credit]
    decide

/-- So does a long one. -/
theorem long_pays (restarts : Nat) :
    rate + credit 1 ≤ credit restarts + maxRestartDelay + delayOf 0 := by
  have h : rate + credit 1 ≤ maxRestartDelay + delayOf 0 := by decide
  omega

section Runs
variable {τ : Type} {factory : τ}

def World.starts (w : World τ) : List Nat := w.runs.map Run.started

/-- Where a supervisor stands after some restarts since the last long run. -/
inductive Stands (w : World τ) (restarts : Nat) : Prop where
  | awaiting (run : Run τ) (latest : w.runs[0]? = some run)
      (phase : w.phase = .awaiting run.started (delayOf restarts))
      (unasked : run.status ≠ .aborting) (past : run.started ≤ w.now)
      (alone : ∀ (i : Nat) (run : Run τ), w.runs[i]? = some run → run.status.live = true → i = 0)
      (spaced : Backoff.Spaced rate slack (credit restarts) run.started w.starts)
  | sleeping (deadline : Nat) (phase : w.phase = .sleeping deadline (delayOf restarts))
      (soon : deadline ≤ w.now + delayOf restarts)
      (alone : ∀ (i : Nat) (run : Run τ), w.runs[i]? = some run → run.status.live = false)
      (spaced : Backoff.Spaced rate slack (rate + credit (restarts + 1)) deadline w.starts)
  | stopped (phase : w.phase = .stopped)
      (alone : ∀ (i : Nat) (run : Run τ), w.runs[i]? = some run →
        run.status ≠ .running ∧ (run.status.live = true → i = 0))
      (spaced : ∃ credit now, Backoff.Spaced rate slack credit now w.starts)

/-- A run that lasted longer than any delay resets the delay. -/
def World.overlong (w : World τ) : Bool :=
  match w.phase with
  | .awaiting started _ => maxRestartDelay < w.now - started
  | _ => false

def countRestart (count : Nat) (move : Move (Event τ) (World τ)) : Nat :=
  match move.label with
  | .joined => if move.before.overlong then 0 else count
  | .woke => count + 1
  | _ => count

/-- Restarts since the last long run. -/
def restarts (log : List (Move (Event τ) (World τ))) : Nat := log.foldl countRestart 0

theorem stands_initial (now : Nat) : Stands (.initial factory now) 0 := by
  refine .awaiting (spawn factory now) rfl rfl (by simp [spawn]) (Nat.le_refl _) ?_
    (.start (credit_le 0))
  intro i run hrun _
  cases i with
  | zero => rfl
  | succ i => simp [World.initial] at hrun

/-- A run that was changed where it lives, or has ended. -/
structure Tame (change : Run τ → Run τ) : Prop where
  started : ∀ run, (change run).started = run.started
  status : ∀ run, (change run).status = run.status ∨ (change run).status.live = false

theorem starts_update {change : Run τ → Run τ} (started : ∀ run, (change run).started = run.started)
    (w : World τ) (i : Nat) : (w.update i change).starts = w.starts := by
  apply List.ext_getElem?
  intro j
  simp only [World.starts, World.update, List.getElem?_map, List.getElem?_modify]
  split
  · cases w.runs[j]? <;> simp [started]
  · simp

theorem Tame.get {change : Run τ → Run τ} (tame : Tame change) {w : World τ} {i j : Nat}
    {run : Run τ} (h : (w.update i change).runs[j]? = some run) :
    ∃ run', w.runs[j]? = some run' ∧ run.started = run'.started ∧
      (run.status = run'.status ∨ run.status.live = false) := by
  simp only [World.update, List.getElem?_modify, Option.map_eq_map, Option.map_eq_some_iff] at h
  obtain ⟨run', hget, rfl⟩ := h
  refine ⟨run', hget, ?_⟩
  split
  · exact ⟨tame.started run', tame.status run'⟩
  · exact ⟨rfl, .inl rfl⟩

theorem Tame.latest {change : Run τ → Run τ} (tame : Tame change) {w : World τ} {i : Nat}
    {run : Run τ} (h : w.runs[0]? = some run) : ∃ run', (w.update i change).runs[0]? = some run' ∧
      run'.started = run.started ∧ (run'.status = run.status ∨ run'.status.live = false) := by
  have hget : ∃ run', (w.update i change).runs[0]? = some run' := by
    simp [World.update, List.getElem?_modify, h]
  obtain ⟨run', hrun'⟩ := hget
  obtain ⟨_, hsame, hrest⟩ := tame.get hrun'
  obtain rfl := Option.some.inj (h.symm.trans hsame)
  exact ⟨run', hrun', hrest⟩

theorem Stands.update {w : World τ} {restarts : Nat} (stands : Stands w restarts) (i : Nat)
    {change : Run τ → Run τ} (tame : Tame change) : Stands (w.update i change) restarts := by
  have hstarts := starts_update tame.started w i
  cases stands with
  | awaiting run latest phase unasked past alone spaced =>
    obtain ⟨run', hlatest, hstarted, hstatus⟩ := tame.latest (i := i) latest
    refine .awaiting run' hlatest (by rw [hstarted]; exact phase) ?_ (by rw [hstarted]; exact past)
      ?_ (by rw [hstarts, hstarted]; exact spaced)
    · rintro hasked
      rcases hstatus with hsame | hended
      · exact unasked (hsame ▸ hasked)
      · rw [hasked] at hended
        cases hended
    · intro j other hother hlive
      obtain ⟨old, hold, _, hsame | hended⟩ := tame.get hother
      · exact alone j old hold (hsame ▸ hlive)
      · rw [hended] at hlive
        cases hlive
  | sleeping deadline phase soon alone spaced =>
    refine .sleeping deadline phase soon ?_ (hstarts.symm ▸ spaced)
    intro j other hother
    obtain ⟨old, hold, _, hsame | hended⟩ := tame.get hother
    · rw [hsame]
      exact alone j old hold
    · exact hended
  | stopped phase alone spaced =>
    refine .stopped phase ?_ (hstarts.symm ▸ spaced)
    intro j other hother
    obtain ⟨old, hold, _, hsame | hended⟩ := tame.get hother
    · rw [hsame]
      exact alone j old hold
    · rw [hended]
      refine ⟨fun hrunning => ?_, by simp⟩
      rw [hrunning] at hended
      cases hended

theorem Stands.spaced {w : World τ} {count : Nat} (stands : Stands w count) :
    ∃ credit now, Backoff.Spaced rate slack credit now w.starts := by
  cases stands with
  | awaiting run latest phase unasked past alone spaced => exact ⟨_, _, spaced⟩
  | sleeping deadline phase soon alone spaced => exact ⟨_, _, spaced⟩
  | stopped phase alone spaced => exact spaced

theorem live_eq_some {w : World τ} {i : Nat} {run : Run τ} :
    w.live i = some run ↔ w.runs[i]? = some run ∧ run.status.live = true := by
  simp [World.live, Option.filter_eq_some_iff]

theorem Does.stands {w w' : World τ} {event : Event τ} {count : Nat}
    (does : Does factory w event w') (stands : Stands w count) :
    Stands w' (countRestart count ⟨w, event, w'⟩) := by
  cases does with
  | passed time =>
    cases stands with
    | awaiting run latest phase unasked past alone spaced =>
      exact .awaiting run latest phase unasked (Nat.le_add_right_of_le past) alone spaced
    | sleeping deadline phase soon alone spaced =>
      exact .sleeping deadline phase (by simp only [countRestart]; omega) alone spaced
    | stopped phase alone spaced => exact .stopped phase alone spaced
  | worked i state => exact stands.update i ⟨fun _ => rfl, fun _ => .inl rfl⟩
  | ended i panicked outcome => exact stands.update i ⟨fun _ => rfl, fun _ => .inr rfl⟩
  | cancelled i => exact stands.update i ⟨fun _ => rfl, fun _ => .inr rfl⟩
  | shutDown run rest started delay awaiting runs cancelled =>
    cases stands with
    | awaiting run' latest phase unasked past alone spaced =>
      refine .stopped rfl (fun i other hother => ⟨fun hrunning => ?_, alone i other hother⟩) ⟨_, _, spaced⟩
      obtain rfl := alone i other hother (by rw [hrunning]; rfl)
      obtain rfl : run = other := by simpa [runs] using hother
      rw [cancelled] at hrunning
      cases hrunning
    | sleeping deadline phase => simp [awaiting] at phase
    | stopped phase => simp [awaiting] at phase
  | joined run rest started delay awaiting runs ended =>
    cases stands with
    | awaiting run' latest phase unasked past alone spaced =>
      obtain rfl : run = run' := by simpa [runs] using latest
      obtain ⟨rfl, rfl⟩ : started = run.started ∧ delay = delayOf count := by
        simpa [awaiting] using phase
      have hdead (i : Nat) (other : Run τ) (hother : w.runs[i]? = some other) :
          other.status.live = false := by
        by_contra hlive
        obtain rfl := alone i other hother (by simpa using hlive)
        obtain rfl : run = other := by simpa [runs] using hother
        exact hlive ended
      have hlong : w.overlong = decide (maxRestartDelay < w.now - run.started) := by
        simp only [World.overlong, awaiting]
      by_cases long : maxRestartDelay < w.now - run.started
      · have hpays : rate + credit (0 + 1) ≤ credit count + maxRestartDelay + delayOf 0 :=
          long_pays count
        have hdelay : delayAfter run.started (delayOf count) w.now = delayOf 0 := if_pos long
        have hcount : countRestart count ⟨w, .joined, { w with
            phase := .sleeping (w.now + delayOf 0) (delayOf 0) }⟩ = 0 := by
          simp [countRestart, hlong, long]
        rw [hdelay, hcount]
        exact .sleeping _ rfl (Nat.le_refl _) hdead (spaced.later (by omega) (by omega))
      · have hdelay : delayAfter run.started (delayOf count) w.now = delayOf count := if_neg long
        have hcount : countRestart count ⟨w, .joined, { w with
            phase := .sleeping (w.now + delayOf count) (delayOf count) }⟩ = count := by
          simp [countRestart, hlong, long]
        have hpays := short_pays count
        rw [hdelay, hcount]
        exact .sleeping _ rfl (Nat.le_refl _) hdead (spaced.later (by omega) (by omega))
    | sleeping deadline phase => simp [awaiting] at phase
    | stopped phase => simp [awaiting] at phase
  | woke deadline delay sleeping due =>
    cases stands with
    | sleeping deadline' phase soon alone spaced =>
      obtain ⟨rfl, rfl⟩ : deadline = deadline' ∧ delay = delayOf count := by
        simpa [sleeping] using phase
      have hspaced : Backoff.Spaced rate slack (credit (count + 1)) w.now (w.now :: w.starts) :=
        (spaced.later due (Nat.le_add_right _ _)).push (Nat.le_refl _) (credit_le _)
      refine .awaiting (spawn factory w.now) rfl rfl (by simp [spawn]) (Nat.le_refl _) ?_ hspaced
      intro i other hother hlive
      cases i with
      | zero => rfl
      | succ i =>
        rw [alone i other (by simpa using hother)] at hlive
        cases hlive
    | awaiting run latest phase => simp [sleeping] at phase
    | stopped phase => simp [sleeping] at phase
  | dropped going =>
    cases stands with
    | awaiting run latest phase unasked past alone spaced =>
      have hdrop : w.drop = { w.update 0 Run.abort with phase := .stopped } := by
        rw [World.drop, phase]
      rw [hdrop]
      have hstarts : (w.update 0 Run.abort).starts = w.starts :=
        starts_update (by intro run; rfl) w 0
      refine .stopped rfl (fun i other hother => ?_) ⟨_, _, hstarts ▸ spaced⟩
      cases i with
      | zero =>
        obtain rfl : run.abort = other := by
          simpa [World.update, List.getElem?_modify, latest] using hother
        exact ⟨run.status.abort_ne_running, fun _ => rfl⟩
      | succ i =>
        have hold : w.runs[i + 1]? = some other := by
          simpa [World.update, List.getElem?_modify] using hother
        have hdead : other.status.live ≠ true := fun hlive => by simpa using alone _ other hold hlive
        exact ⟨fun hrunning => hdead (by rw [hrunning]; rfl), fun hlive => absurd hlive hdead⟩
    | sleeping deadline phase soon alone spaced =>
      have hdrop : w.drop = { w with phase := .stopped } := by
        rw [World.drop, phase]
      rw [hdrop]
      refine .stopped rfl (fun i other hother => ⟨fun hrunning => ?_, fun hlive => ?_⟩) ⟨_, _, spaced⟩
      · have hdead := alone i other hother
        rw [hrunning] at hdead
        cases hdead
      · rw [alone i other hother] at hlive
        cases hlive
    | stopped phase => exact absurd phase going

theorem stands_of_trace {now : Nat} {log : List (Move (Event τ) (World τ))} {w : World τ}
    (trace : Trace (Steps factory) (.initial factory now) log w) : Stands w (restarts log) := by
  induction trace with
  | nil => exact stands_initial now
  | snoc trace step ih =>
    have hstands := (does_of_step step).stands ih
    simpa [restarts] using hstands

/-- Nothing starts once the supervisor has stopped. -/
theorem Does.stopped {w w' : World τ} {event : Event τ} (does : Does factory w event w')
    (stopped : w.phase = .stopped) : w'.phase = .stopped ∧ w'.starts = w.starts := by
  cases does with
  | passed time => exact ⟨stopped, rfl⟩
  | worked i state => exact ⟨stopped, starts_update (by intro run; rfl) w i⟩
  | ended i panicked outcome => exact ⟨stopped, starts_update (by intro run; rfl) w i⟩
  | cancelled i => exact ⟨stopped, starts_update (by intro run; rfl) w i⟩
  | shutDown run rest started delay awaiting => exact absurd stopped (by simp [awaiting])
  | joined run rest started delay awaiting => exact absurd stopped (by simp [awaiting])
  | woke deadline delay sleeping => exact absurd stopped (by simp [sleeping])
  | dropped going => exact absurd stopped going

theorem stopped_of_trace {w w' : World τ} {log : List (Move (Event τ) (World τ))}
    (trace : Trace (Steps factory) w log w') (stopped : w.phase = .stopped) :
    w'.phase = .stopped ∧ w'.starts = w.starts := by
  induction trace with
  | nil => exact ⟨stopped, rfl⟩
  | snoc trace step ih =>
    obtain ⟨hphase, hstarts⟩ := (does_of_step step).stopped ih.1
    exact ⟨hphase, hstarts.trans ih.2⟩

/-- What a supervisor guarantees, whatever its runs do. -/
structure Supervised (factory : τ) (log : List (Move (Event τ) (World τ))) (w : World τ) : Prop where
  /-- Only the latest run lives. -/
  alone : ∀ (i : Nat) (run : Run τ), w.runs[i]? = some run → run.status.live = true → i = 0
  /-- In any stretch of time a run starts at most once each eleven seconds, but for a slack. -/
  spaced : ∀ (i j : Nat) (later earlier : Run τ), i ≤ j → w.runs[i]? = some later →
    w.runs[j]? = some earlier → secs 11 * (j - i) ≤ (later.started - earlier.started) + secs 29
  doubling : ∀ deadline delay, w.phase = .sleeping deadline delay →
    delay = min (secs 1 * 2 ^ restarts log) (secs 30) ∧ deadline ≤ w.now + delay
  /-- Until it is stopped, a run lives, or is about to be replaced within the delay. -/
  tireless : w.phase = .stopped ∨ (∃ run, w.runs[0]? = some run ∧ run.status.live = true) ∨
    (step factory w .joined).isSome = true ∨
      ∃ time, time ≤ secs 30 ∧ (step factory { w with now := w.now + time } .woke).isSome = true
  /-- Once it is stopped no run goes on unasked, and none starts again. -/
  stopped : w.phase = .stopped → (∀ run ∈ w.runs, run.status ≠ .running) ∧
    ∀ later w', Trace (Steps factory) w later w' → w'.phase = .stopped ∧ w'.starts = w.starts

theorem Stands.alone {w : World τ} {count : Nat} (stands : Stands w count) {i : Nat} {run : Run τ}
    (hrun : w.runs[i]? = some run) (hlive : run.status.live = true) : i = 0 := by
  cases stands with
  | awaiting _ _ _ _ _ alone _ => exact alone i run hrun hlive
  | sleeping _ _ _ alone _ =>
    rw [alone i run hrun] at hlive
    cases hlive
  | stopped _ alone _ => exact (alone i run hrun).2 hlive

/-- The latest run is new, was worked on, or is as it was. -/
theorem Does.latest {w w' : World τ} {event : Event τ} (does : Does factory w event w') {run : Run τ}
    (h : w'.live 0 = some run) :
    (event = .woke ∧ run.state = factory) ∨ (∃ i state, event = .worked i state) ∨
      ∃ old, w.live 0 = some old ∧ run.state = old.state := by
  obtain ⟨hrun, hlive⟩ := live_eq_some.mp h
  have unchanged (hsame : w'.runs = w.runs) : ∃ old, w.live 0 = some old ∧ run.state = old.state :=
    ⟨run, live_eq_some.mpr ⟨hsame ▸ hrun, hlive⟩, rfl⟩
  have ended {i : Nat} {outcome : Outcome}
      (hget : (w.update i fun run => { run with status := .ended outcome }).runs[0]? = some run) :
      ∃ old, w.live 0 = some old ∧ run.state = old.state := by
    simp only [World.update, List.getElem?_modify, Option.map_eq_map, Option.map_eq_some_iff] at hget
    obtain ⟨old, hold, rfl⟩ := hget
    split at hlive
    · cases hlive
    · rename_i hi
      rw [if_neg hi]
      exact ⟨old, live_eq_some.mpr ⟨hold, hlive⟩, rfl⟩
  cases does with
  | passed time => exact .inr (.inr (unchanged rfl))
  | worked i state => exact .inr (.inl ⟨i, state, rfl⟩)
  | ended i panicked outcome => exact .inr (.inr (ended hrun))
  | cancelled i => exact .inr (.inr (ended hrun))
  | shutDown => exact .inr (.inr (unchanged rfl))
  | joined => exact .inr (.inr (unchanged rfl))
  | woke deadline delay sleeping due =>
    obtain rfl : spawn factory w.now = run := by simpa using hrun
    exact .inl ⟨rfl, rfl⟩
  | dropped going =>
    refine .inr (.inr ?_)
    unfold World.drop at hrun
    split at hrun
    · simp only [World.update, List.getElem?_modify, Option.map_eq_map, Option.map_eq_some_iff] at hrun
      obtain ⟨old, hold, rfl⟩ := hrun
      refine ⟨old, live_eq_some.mpr ⟨hold, ?_⟩, rfl⟩
      rcases hstatus : old.status with _ | _ | outcome
      · rfl
      · rfl
      · simp [Run.abort, Status.abort, hstatus, Status.live] at hlive
    · exact ⟨run, live_eq_some.mpr ⟨hrun, hlive⟩, rfl⟩

variable (factory) in
theorem Stands.tireless {w : World τ} {count : Nat} (stands : Stands w count) :
    w.phase = .stopped ∨ (∃ run, w.runs[0]? = some run ∧ run.status.live = true) ∨
      (step factory w .joined).isSome = true ∨
        ∃ time, time ≤ secs 30 ∧ (step factory { w with now := w.now + time } .woke).isSome = true := by
  cases stands with
  | awaiting run latest phase unasked past alone spaced =>
    cases hstatus : run.status with
    | running => exact .inr (.inl ⟨run, latest, by rw [hstatus]; rfl⟩)
    | aborting => exact absurd hstatus unasked
    | ended outcome =>
      refine .inr (.inr (.inl ?_))
      cases outcome <;> simp [step, phase, List.head?_eq_getElem?, latest, hstatus]
  | sleeping deadline phase soon alone spaced =>
    have hdelay : delayOf count ≤ secs 30 := Backoff.wait_le initial_le_max count
    have hover : deadline ≤ w.now + delayOf count := soon
    refine .inr (.inr (.inr ⟨delayOf count, hdelay, ?_⟩))
    simp [step, phase, hover]
  | stopped phase => exact .inl phase

/-- However its runs return, panic and are cancelled, a supervisor keeps one of them going. It
waits longer and longer for the next one, and aborts the last one when it is aborted itself. -/
theorem one_run_is_kept_going {now : Nat} {log : List (Move (Event τ) (World τ))} {w : World τ}
    (trace : Trace (Steps factory) (.initial factory now) log w) : Supervised factory log w := by
  have stands := stands_of_trace trace
  refine ⟨fun i run => stands.alone, ?_, ?_, stands.tireless factory, ?_⟩
  · intro i j later earlier hle hlater hearlier
    obtain ⟨_, _, spaced⟩ := stands.spaced
    exact spaced.window i j _ _ hle (by simp [World.starts, hlater]) (by simp [World.starts, hearlier])
  · intro deadline delay hphase
    cases stands with
    | awaiting _ _ phase => simp [hphase] at phase
    | sleeping deadline' phase soon alone spaced =>
      obtain ⟨rfl, rfl⟩ : deadline = deadline' ∧ delay = delayOf (restarts log) := by
        simpa [hphase] using phase
      exact ⟨Backoff.wait_eq initial_le_max _, soon⟩
    | stopped phase => simp [hphase] at phase
  · intro hphase
    refine ⟨fun run hrun => ?_, fun later w' rest => stopped_of_trace rest hphase⟩
    cases stands with
    | awaiting _ _ phase => simp [hphase] at phase
    | sleeping _ phase => simp [hphase] at phase
    | stopped phase alone spaced =>
      obtain ⟨i, hi⟩ := List.mem_iff_getElem?.mp hrun
      exact (alone i run hi).1

end Runs

/-- A task that panics at once, comes back after a second, runs on for forty and returns; its
supervisor is aborted while the next run is due. -/
def crashing : List (Event Unit) :=
  [.ended 0 true, .joined, .passed (secs 1), .woke, .passed (secs 40), .ended 0 false, .joined,
    .passed (secs 1), .woke, .worked 0 (), .dropped, .cancelled 0]

def crashed : List (Move (Event Unit) (World Unit)) × World Unit :=
  play (step ()) (.initial () 0) crashing

theorem one_run_is_kept_going_crashed : Supervised () crashed.1 crashed.2 ∧
    crashed.2.phase = .stopped ∧ crashed.2.starts = [secs 42, secs 1, 0] :=
  ⟨one_run_is_kept_going (play_trace (step ()) (.initial () 0) crashing), by decide, by decide⟩

end LakeFsAuth.Core.Tasks
