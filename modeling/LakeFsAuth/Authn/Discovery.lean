import LakeFsAuth.Authn.KeyRefresh
import LakeFsAuth.Core.Tasks

/-! The discovery of the identity provider: the loop that runs under a supervisor, and the callers
that refresh for an unknown signing key beside it. -/
namespace LakeFsAuth.Authn.Discovery
open Library LakeFsAuth.Core
open Core.Model (secs)

def initialBackoff : Nat := secs 1

def maxBackoff : Nat := secs 30

structure Settings where
  keys : Oidc.OidcSettings
  refreshInterval : Nat

/-- Where `OidcProvider::run` stands. -/
inductive Loop where
  /-- A task that was not polled yet. -/
  | spawned
  | discovering (backoff : Nat)
  | retrying (deadline backoff : Nat)
  | waiting (deadline : Nat)
  | refreshing
  deriving DecidableEq, Repr

/-- What `run` goes on with. -/
inductive Signal (Discovered : Type) where
  | polled
  | fetched (result : Except String Discovered)
  | resumed

/-- `OidcProvider::run`, from one await to the next. -/
def Loop.next {Discovered : Type} (settings : Settings) (now : Nat) :
    Loop → Signal Discovered → Option Loop
  | .spawned, .polled => some (.discovering initialBackoff)
  | .discovering backoff, .fetched (.error _) => some (.retrying (now + backoff) backoff)
  | .discovering _, .fetched (.ok _) => some (.waiting (now + settings.refreshInterval))
  | .retrying deadline backoff, .resumed =>
      if deadline ≤ now then some (.discovering (Backoff.next maxBackoff backoff)) else none
  | .waiting deadline, .resumed => if deadline ≤ now then some .refreshing else none
  | .refreshing, .fetched _ => some (.waiting (now + settings.refreshInterval))
  | _, _ => none

/-- A fetch is under way. -/
def Loop.fetching : Loop → Bool
  | .discovering _ => true
  | .refreshing => true
  | _ => false

structure World (ι Discovered : Type) where
  oidc : Oidc.World ι Discovered
  tasks : Tasks.World Loop

/-- The clock moves both parts, and the work of a task is the loop's. -/
def ofSupervisor : Tasks.Event Loop → Bool
  | .passed _ => false
  | .worked _ _ => false
  | _ => true

/-- The clock moves both parts, and the loop does the scheduled refreshes. -/
def ofCaller {ι Discovered : Type} : Oidc.Event ι Discovered → Bool
  | .passed _ => false
  | .scheduled _ => false
  | _ => true

inductive Event (ι Discovered : Type) where
  | passed (time : Nat)
  | caller (event : Oidc.Event ι Discovered)
  | supervisor (event : Tasks.Event Loop)
  | loop (run : Nat) (signal : Signal Discovered)

section Steps
variable {ι Discovered : Type} [DecidableEq ι] (settings : Settings)

/-- Before the first request, with the loop just spawned. -/
def World.initial (now : Nat) : World ι Discovered := ⟨.initial now, .initial .spawned now⟩

/-- `discover` publishes what it fetched. -/
def Signal.publish (provider : Oidc.OidcProvider Discovered) :
    Signal Discovered → Oidc.OidcProvider Discovered
  | .fetched result => provider.discover result
  | _ => provider

def Loop.put (state : Loop) (run : Tasks.Run Loop) : Tasks.Run Loop := { run with state := state }

def World.later (w : World ι Discovered) (time : Nat) : World ι Discovered where
  oidc := { w.oidc with now := w.oidc.now + time }
  tasks := { w.tasks with now := w.tasks.now + time }

def step (w : World ι Discovered) : Event ι Discovered → Option (World ι Discovered)
  | .passed time => some (w.later time)
  | .caller event =>
      if ofCaller event then
        (Oidc.step settings.keys w.oidc event).map fun oidc => { w with oidc := oidc }
      else none
  | .supervisor event =>
      if ofSupervisor event then
        (Tasks.step .spawned w.tasks event).map fun tasks => { w with tasks := tasks }
      else none
  | .loop i signal =>
      (w.tasks.live i).bind fun run => (run.state.next settings w.tasks.now signal).map fun state => {
        oidc := { w.oidc with provider := signal.publish w.oidc.provider }
        tasks := w.tasks.update i state.put }

abbrev Steps := StepsOf (@step ι Discovered _ settings)

variable {settings}

/-- What a step does, case by case. -/
inductive Does (settings : Settings) (w : World ι Discovered) :
    Event ι Discovered → World ι Discovered → Prop where
  | passed (time : Nat) : Does settings w (.passed time) (w.later time)
  | caller (event : Oidc.Event ι Discovered) (oidc : Oidc.World ι Discovered)
      (own : ofCaller event = true) (moves : Oidc.step settings.keys w.oidc event = some oidc) :
      Does settings w (.caller event) { w with oidc := oidc }
  | supervisor (event : Tasks.Event Loop) (tasks : Tasks.World Loop)
      (own : ofSupervisor event = true) (moves : Tasks.step .spawned w.tasks event = some tasks) :
      Does settings w (.supervisor event) { w with tasks := tasks }
  | loop (i : Nat) (signal : Signal Discovered) (run : Tasks.Run Loop) (state : Loop)
      (live : w.tasks.live i = some run)
      (goes : run.state.next settings w.tasks.now signal = some state) :
      Does settings w (.loop i signal)
        ⟨{ w.oidc with provider := signal.publish w.oidc.provider }, w.tasks.update i state.put⟩

theorem does_of_step {w w' : World ι Discovered} {event : Event ι Discovered}
    (h : step settings w event = some w') : Does settings w event w' := by
  cases event with
  | passed time =>
    cases h
    exact .passed time
  | caller event =>
    simp only [step] at h
    split at h
    · obtain ⟨oidc, hoidc, rfl⟩ := Option.map_eq_some_iff.mp h
      exact .caller event oidc ‹_› hoidc
    · cases h
  | supervisor event =>
    simp only [step] at h
    split at h
    · obtain ⟨tasks, htasks, rfl⟩ := Option.map_eq_some_iff.mp h
      exact .supervisor event tasks ‹_› htasks
    · cases h
  | loop i signal =>
    obtain ⟨run, hrun, hgoes⟩ := Option.bind_eq_some_iff.mp h
    obtain ⟨state, hstate, rfl⟩ := Option.map_eq_some_iff.mp hgoes
    exact .loop i signal run state hrun hstate

/-! The loop and its supervisor, and the callers, each as a system of its own. -/

/-- A step as the supervisor sees it. -/
def toTasks (move : Move (Event ι Discovered) (World ι Discovered)) :
    Option (Move (Tasks.Event Loop) (Tasks.World Loop)) :=
  match move.label with
  | .passed time => some ⟨move.before.tasks, .passed time, move.after.tasks⟩
  | .caller _ => none
  | .supervisor event => some ⟨move.before.tasks, event, move.after.tasks⟩
  | .loop i _ => (move.after.tasks.runs[i]?).map fun run =>
      ⟨move.before.tasks, .worked i run.state, move.after.tasks⟩

/-- A step as the callers see it. -/
def toOidc (move : Move (Event ι Discovered) (World ι Discovered)) :
    Option (Move (Oidc.Event ι Discovered) (Oidc.World ι Discovered)) :=
  match move.label with
  | .passed time => some ⟨move.before.oidc, .passed time, move.after.oidc⟩
  | .caller event => some ⟨move.before.oidc, event, move.after.oidc⟩
  | .supervisor _ => none
  | .loop _ (.fetched result) => some ⟨move.before.oidc, .scheduled result, move.after.oidc⟩
  | .loop _ _ => none

section Parts
variable {now : Nat} {log : List (Move (Event ι Discovered) (World ι Discovered))}
  {w : World ι Discovered}

theorem supervisor_trace (trace : Trace (Steps settings) (.initial now) log w) :
    Trace (Tasks.Steps .spawned) (.initial .spawned now) (log.filterMap toTasks) w.tasks := by
  refine trace.project World.tasks toTasks fun move step => ?_
  obtain ⟨before, event, after⟩ := move
  have does : Does settings before event after := does_of_step step
  cases does with
  | passed time => exact .inr ⟨_, rfl, rfl⟩
  | caller event oidc own moves => exact .inl ⟨rfl, rfl⟩
  | supervisor event tasks own moves => exact .inr ⟨_, rfl, moves⟩
  | loop i signal run state live goes =>
    obtain ⟨hrun, _⟩ := Tasks.live_eq_some.mp live
    have hput : (before.tasks.update i state.put).runs[i]? = some (state.put run) := by
      simp [Tasks.World.update, hrun]
    refine .inr ⟨.worked i state, by simp [toTasks, hput, Loop.put], ?_⟩
    show Tasks.step _ _ _ = _
    simp only [Tasks.step, live, Option.map_some]
    rfl

theorem caller_trace (trace : Trace (Steps settings) (.initial now) log w) :
    Trace (Oidc.Steps settings.keys) (.initial now) (log.filterMap toOidc) w.oidc := by
  refine trace.project World.oidc toOidc fun move step => ?_
  obtain ⟨before, event, after⟩ := move
  have does : Does settings before event after := does_of_step step
  cases does with
  | passed time => exact .inr ⟨_, rfl, rfl⟩
  | caller event oidc own moves => exact .inr ⟨_, rfl, moves⟩
  | supervisor event tasks own moves => exact .inl ⟨rfl, rfl⟩
  | loop i signal run state live goes =>
    cases signal with
    | polled => exact .inl ⟨rfl, rfl⟩
    | fetched result => exact .inr ⟨_, rfl, rfl⟩
    | resumed => exact .inl ⟨rfl, rfl⟩

end Parts

/-! What is published, and when the loop fetches. -/

/-- The metadata a step publishes. -/
def Event.published : Event ι Discovered → Option Discovered
  | .caller (.fetched _ (.ok discovered)) => some discovered
  | .loop _ (.fetched (.ok discovered)) => some discovered
  | _ => none

/-- What was published last. -/
def published (log : List (Move (Event ι Discovered) (World ι Discovered))) : Option Discovered :=
  (log.filterMap fun move => move.label.published).getLast?

/-- A fetch of the loop begins. -/
def Event.fetches : Event ι Discovered → Bool
  | .loop _ .polled => true
  | .loop _ .resumed => true
  | _ => false

def Signal.count (count : Nat) : Signal Discovered → Nat
  | .polled => 0
  | .resumed => count + 1
  | .fetched _ => count

def countRetry (count : Nat) : Event ι Discovered → Nat
  | .loop _ signal => signal.count count
  | _ => count

/-- How often the loop went on since its task was polled first. -/
def retries (log : List (Move (Event ι Discovered) (World ι Discovered))) : Nat :=
  log.foldl (fun count move => countRetry count move.label) 0

end Steps

def backoffOf (retries : Nat) : Nat := Backoff.wait initialBackoff maxBackoff retries

theorem initial_le_max : initialBackoff ≤ maxBackoff := by decide

/-- Where the loop stands after some retries. -/
inductive Loop.Stands (settings : Settings) (now count : Nat) : Loop → Prop where
  | spawned : Stands settings now count .spawned
  | discovering : Stands settings now count (.discovering (backoffOf count))
  | retrying (deadline : Nat) (soon : deadline ≤ now + backoffOf count) :
      Stands settings now count (.retrying deadline (backoffOf count))
  | waiting (deadline : Nat) (soon : deadline ≤ now + settings.refreshInterval) :
      Stands settings now count (.waiting deadline)
  | refreshing : Stands settings now count .refreshing

theorem Loop.Stands.later {settings : Settings} {now now' count : Nat} {state : Loop}
    (stands : state.Stands settings now count) (passed : now ≤ now') :
    state.Stands settings now' count := by
  cases stands with
  | spawned => exact .spawned
  | discovering => exact .discovering
  | retrying deadline soon => exact .retrying deadline (by omega)
  | waiting deadline soon => exact .waiting deadline (by omega)
  | refreshing => exact .refreshing

/-- The shortest time between two fetches of the loop. -/
def Settings.gap (settings : Settings) : Nat := min (secs 1) settings.refreshInterval

/-- The earliest instant of the next fetch. -/
def Loop.notBefore (gap now : Nat) : Loop → Nat
  | .spawned => now
  | .retrying deadline _ => deadline
  | .waiting deadline => deadline
  | _ => now + gap

section Loops
variable {Discovered : Type} {settings : Settings} {now count : Nat} {state state' : Loop}
  {signal : Signal Discovered}

theorem Loop.Stands.next (stands : state.Stands settings now count)
    (goes : state.next settings now signal = some state') :
    state'.Stands settings now (signal.count count) := by
  unfold Loop.next at goes
  split at goes
  · cases goes
    exact .discovering
  · cases goes
    cases stands with
    | discovering => exact .retrying _ (Nat.le_refl _)
  · cases goes
    exact .waiting _ (Nat.le_refl _)
  · split at goes
    · cases goes
      cases stands with
      | retrying deadline soon => exact .discovering
    · cases goes
  · split at goes
    · cases goes
      exact .refreshing
    · cases goes
  · cases goes
    exact .waiting _ (Nat.le_refl _)
  · cases goes

/-- A fetch has begun, or is at least the gap away. -/
theorem Loop.Stands.rests (stands : state.Stands settings now count)
    (goes : state.next settings now signal = some state') :
    now + settings.gap ≤ state'.notBefore settings.gap now := by
  unfold Loop.next at goes
  split at goes
  · cases goes
    exact Nat.le_refl _
  · cases goes
    cases stands with
    | discovering =>
      have hwait := Backoff.le_wait initial_le_max count
      exact Nat.add_le_add_left (Nat.le_trans (Nat.min_le_left _ _) hwait) _
  · cases goes
    exact Nat.add_le_add_left (Nat.min_le_right _ _) _
  · split at goes
    · cases goes
      exact Nat.le_refl _
    · cases goes
  · split at goes
    · cases goes
      exact Nat.le_refl _
    · cases goes
  · cases goes
    exact Nat.add_le_add_left (Nat.min_le_right _ _) _
  · cases goes

/-- No fetch begins too early. -/
theorem notBefore_le (goes : state.next settings now signal = some state')
    (fetches : ∀ result, signal ≠ .fetched result) (gap : Nat) : state.notBefore gap now ≤ now := by
  unfold Loop.next at goes
  split at goes
  · exact Nat.le_refl _
  · exact absurd rfl (fetches _)
  · exact absurd rfl (fetches _)
  · split at goes
    · assumption
    · cases goes
  · split at goes
    · assumption
    · cases goes
  · exact absurd rfl (fetches _)
  · cases goes

end Loops

section Runs
variable {ι Discovered : Type} [DecidableEq ι] {settings : Settings} {w w' : World ι Discovered}
  {event : Event ι Discovered} {count : Nat}

/-- One clock, one loop under its supervisor, one caller at a time. -/
structure Sound (settings : Settings) (w : World ι Discovered) (count : Nat) : Prop where
  clock : w.oidc.now = w.tasks.now
  tasks : ∃ restarts, Tasks.Stands w.tasks restarts
  serial : Oidc.Serial w.oidc
  loop : ∀ run, w.tasks.live 0 = some run → run.state.Stands settings w.tasks.now count

omit [DecidableEq ι] in
theorem sound_initial (now : Nat) : Sound settings (.initial now : World ι Discovered) 0 where
  clock := rfl
  tasks := ⟨0, Tasks.stands_initial now⟩
  serial := Oidc.serial_initial now
  loop := by
    intro run hrun
    obtain rfl : Tasks.spawn .spawned now = run := by
      simpa [World.initial, Tasks.World.initial] using (Tasks.live_eq_some.mp hrun).1
    exact .spawned

omit [DecidableEq ι] in
theorem Sound.latest (sound : Sound settings w count) {i : Nat} {run : Tasks.Run Loop}
    (live : w.tasks.live i = some run) : i = 0 := by
  obtain ⟨_, stands⟩ := sound.tasks
  obtain ⟨hrun, hlive⟩ := Tasks.live_eq_some.mp live
  exact stands.alone hrun hlive

theorem live_put {tasks : Tasks.World Loop} {run run' : Tasks.Run Loop} {state : Loop}
    (live : tasks.live 0 = some run) (h : (tasks.update 0 state.put).live 0 = some run') :
    run'.state = state := by
  obtain ⟨hrun, _⟩ := Tasks.live_eq_some.mp live
  have hput := (Tasks.live_eq_some.mp h).1
  obtain rfl : state.put run = run' := by simpa [Tasks.World.update, hrun] using hput
  rfl

theorem now_of_supervisor {tasks tasks' : Tasks.World Loop} {event : Tasks.Event Loop}
    (own : ofSupervisor event = true) (does : Tasks.Does .spawned tasks event tasks') :
    tasks'.now = tasks.now := by
  cases does with
  | passed => cases own
  | worked => cases own
  | dropped going =>
    unfold Tasks.World.drop
    split <;> rfl
  | _ => rfl

theorem now_of_caller {oidc oidc' : Oidc.World ι Discovered} {event : Oidc.Event ι Discovered}
    (own : ofCaller event = true) (does : Oidc.Does settings.keys oidc event oidc') :
    oidc'.now = oidc.now := by
  cases does with
  | passed => cases own
  | _ => rfl

theorem Does.sound (does : Does settings w event w') (sound : Sound settings w count) :
    Sound settings w' (countRetry count event) := by
  obtain ⟨restarts, stands⟩ := sound.tasks
  cases does with
  | passed time =>
    have htasks : Tasks.Does Loop.spawned w.tasks (.passed time) _ := .passed time
    have hoidc : Oidc.Does settings.keys w.oidc (.passed time) _ := .passed time
    refine ⟨congrArg (· + time) sound.clock, ⟨_, htasks.stands stands⟩, hoidc.serial sound.serial,
      fun run hrun => ?_⟩
    exact (sound.loop run hrun).later (Nat.le_add_right _ _)
  | caller event oidc own moves =>
    have hdoes := Oidc.does_of_step moves
    exact ⟨(now_of_caller own hdoes).trans sound.clock, sound.tasks, hdoes.serial sound.serial,
      sound.loop⟩
  | supervisor event tasks own moves =>
    have hdoes := Tasks.does_of_step moves
    have hnow := now_of_supervisor own hdoes
    refine ⟨sound.clock.trans hnow.symm, ⟨_, hdoes.stands stands⟩, sound.serial, fun run hrun => ?_⟩
    rcases hdoes.latest hrun with ⟨_, hstate⟩ | ⟨i, state, rfl⟩ | ⟨old, hold, hstate⟩
    · rw [hstate]
      exact .spawned
    · cases own
    · rw [hstate]
      exact hnow ▸ sound.loop old hold
  | loop i signal run state live goes =>
    obtain rfl := sound.latest live
    have hloop := (sound.loop run live).next goes
    refine ⟨sound.clock, ⟨restarts, stands.update 0 ⟨by intro run; rfl, by intro run; exact .inl rfl⟩⟩,
      ?_, fun run' hrun' => ?_⟩
    · exact ⟨sound.serial.guard, fun previous h => sound.serial.past previous (by
        cases signal <;> simpa [Signal.publish] using h)⟩
    · rw [live_put live hrun']
      exact hloop

/-- The loop has not fetched since an instant, and does not for the gap. -/
structure Rests (gap since : Nat) (tasks : Tasks.World Loop) : Prop where
  past : since ≤ tasks.now
  sleeping : ∀ deadline delay, tasks.phase = .sleeping deadline delay → since + gap ≤ deadline
  loop : ∀ run, tasks.live 0 = some run → since + gap ≤ run.state.notBefore gap tasks.now

theorem notBefore_mono {gap now now' : Nat} (state : Loop) (h : now ≤ now') :
    state.notBefore gap now ≤ state.notBefore gap now' := by
  cases state <;> simp only [Loop.notBefore] <;> omega

/-- A supervisor that sleeps after its step slept before, or has seen a run end. -/
theorem sleeping_of_does {tasks tasks' : Tasks.World Loop} {event : Tasks.Event Loop}
    {deadline delay restarts : Nat} (does : Tasks.Does .spawned tasks event tasks')
    (stands : Tasks.Stands tasks restarts) (h : tasks'.phase = .sleeping deadline delay) :
    tasks.phase = .sleeping deadline delay ∨ tasks.now + secs 1 ≤ deadline := by
  cases does with
  | joined run rest started delay' awaiting runs ended =>
    right
    obtain ⟨rfl, rfl⟩ : tasks.now + Tasks.delayAfter started delay' tasks.now = deadline ∧
        Tasks.delayAfter started delay' tasks.now = delay := by simpa using h
    cases stands with
    | awaiting run' latest phase =>
      obtain ⟨rfl, rfl⟩ : started = run'.started ∧ delay' = Tasks.delayOf restarts := by
        simpa [awaiting] using phase
      have hle : secs 1 ≤ Tasks.delayOf restarts :=
        Backoff.le_wait Tasks.initial_le_max restarts
      unfold Tasks.delayAfter
      split
      · exact Nat.le_refl _
      · exact Nat.add_le_add_left hle _
    | sleeping _ phase => simp [awaiting] at phase
    | stopped phase => simp [awaiting] at phase
  | shutDown => cases h
  | woke => cases h
  | dropped going =>
    unfold Tasks.World.drop at h
    split at h <;> cases h
  | _ => exact .inl h

theorem Does.rests {since : Nat} (does : Does settings w event w') (sound : Sound settings w count)
    (rests : Rests settings.gap since w.tasks) : Rests settings.gap since w'.tasks := by
  obtain ⟨restarts, stands⟩ := sound.tasks
  cases does with
  | passed time =>
    refine ⟨Nat.le_add_right_of_le rests.past, rests.sleeping, fun run hrun => ?_⟩
    exact Nat.le_trans (rests.loop run hrun) (notBefore_mono _ (Nat.le_add_right _ _))
  | caller event oidc own moves => exact rests
  | supervisor event tasks own moves =>
    have hdoes := Tasks.does_of_step moves
    have hnow := now_of_supervisor own hdoes
    refine ⟨hnow ▸ rests.past, fun deadline delay h => ?_, fun run hrun => ?_⟩
    · rcases sleeping_of_does hdoes stands h with hsame | hlater
      · exact rests.sleeping deadline delay hsame
      · have hgap : settings.gap ≤ secs 1 := Nat.min_le_left _ _
        have hpast := rests.past
        omega
    · rcases hdoes.latest hrun with ⟨rfl, hstate⟩ | ⟨i, state, rfl⟩ | ⟨old, hold, hstate⟩
      · cases hdoes with
        | woke deadline delay sleeping due =>
          rw [hstate]
          exact Nat.le_trans (rests.sleeping deadline delay sleeping) due
      · cases own
      · rw [hstate]
        exact Nat.le_trans (rests.loop old hold) (notBefore_mono _ (Nat.le_of_eq hnow.symm))
  | loop i signal run state live goes =>
    obtain rfl := sound.latest live
    refine ⟨rests.past, rests.sleeping, fun run' hrun' => ?_⟩
    rw [live_put live hrun']
    have hrests := (sound.loop run live).rests goes
    have hpast := rests.past
    exact Nat.le_trans (Nat.add_le_add_right hpast _) hrests

/-- Where the loop fetches, it was due, and it rests from then on. -/
theorem Does.fetch (does : Does settings w event w') (sound : Sound settings w count)
    (fetches : event.fetches = true) :
    (∀ since, Rests settings.gap since w.tasks → since + settings.gap ≤ w.tasks.now) ∧
      Rests settings.gap w.tasks.now w'.tasks := by
  obtain ⟨restarts, stands⟩ := sound.tasks
  cases does with
  | loop i signal run state live goes =>
    obtain rfl := sound.latest live
    refine ⟨fun since rests => ?_, ⟨Nat.le_refl _, fun deadline delay h => ?_, fun run' hrun' => ?_⟩⟩
    · have hdue := notBefore_le goes (by rintro result rfl; cases fetches) settings.gap
      exact Nat.le_trans (rests.loop run live) hdue
    · cases stands with
      | awaiting _ _ phase => cases phase.symm.trans h
      | sleeping _ _ _ alone =>
        obtain ⟨hrun, hlive⟩ := Tasks.live_eq_some.mp live
        rw [alone 0 run hrun] at hlive
        cases hlive
      | stopped phase => cases phase.symm.trans h
    · rw [live_put live hrun']
      exact (sound.loop run live).rests goes
  | _ => cases fetches

variable {now : Nat} {log : List (Move (Event ι Discovered) (World ι Discovered))}

theorem sound_of_trace (trace : Trace (Steps settings) (.initial now) log w) :
    Sound settings w (retries log) := by
  induction trace with
  | nil => exact sound_initial now
  | snoc trace step ih =>
    have hsound := (does_of_step step).sound ih
    simpa [retries] using hsound

theorem current_of_trace (trace : Trace (Steps settings) (.initial now) log w) :
    w.oidc.provider.current = published log := by
  induction trace with
  | nil => rfl
  | @snoc log event w w' trace step ih =>
    have hsnoc : published (log ++ [⟨w, event, w'⟩]) = event.published.or (published log) := by
      cases hevent : event.published <;> simp [published, hevent]
    rw [hsnoc, ← ih]
    cases does_of_step step with
    | passed time => rfl
    | supervisor event tasks own moves => rfl
    | caller event oidc own moves =>
      cases Oidc.does_of_step moves with
      | fetched caller result fetching => cases result <;> rfl
      | scheduled => cases own
      | _ => rfl
    | loop i signal run state live goes =>
      cases signal with
      | fetched result => cases result <;> rfl
      | _ => rfl

theorem rests_of_trace {since : Nat} {w w' : World ι Discovered}
    (trace : Trace (Steps settings) w log w') (sound : Sound settings w count)
    (rests : Rests settings.gap since w.tasks) :
    (∃ count, Sound settings w' count) ∧ Rests settings.gap since w'.tasks := by
  induction trace with
  | nil => exact ⟨⟨count, sound⟩, rests⟩
  | snoc trace step ih =>
    obtain ⟨⟨count, sound⟩, rests⟩ := ih
    have does := does_of_step step
    exact ⟨⟨_, does.sound sound⟩, does.rests sound rests⟩

/-- The loop is going to fetch: it does, or goes on within the time, by itself or by its supervisor. -/
inductive Goes (settings : Settings) (w : World ι Discovered) : Prop where
  | fetching (run : Tasks.Run Loop) (live : w.tasks.live 0 = some run)
      (fetching : run.state.fetching = true)
  | due (event : Event ι Discovered) (time : Nat)
      (own : event ∈ [.supervisor .joined, .supervisor .woke, .loop 0 .polled, .loop 0 .resumed])
      (soon : time ≤ max (secs 30) settings.refreshInterval)
      (enabled : (step settings (w.later time) event).isSome = true)

theorem enabled_loop {run : Tasks.Run Loop} {time : Nat} {signal : Signal Discovered}
    (live : w.tasks.live 0 = some run)
    (goes : (run.state.next settings (w.tasks.now + time) signal).isSome = true) :
    (step settings (w.later time) (.loop 0 signal)).isSome = true := by
  have hlive : (w.later time).tasks.live 0 = some run := live
  have hnow : (w.later time).tasks.now = w.tasks.now + time := rfl
  simpa [step, hlive, hnow] using goes

theorem Sound.goes (sound : Sound settings w count) :
    w.tasks.phase = .stopped ∨ Goes settings w := by
  obtain ⟨restarts, stands⟩ := sound.tasks
  rcases stands.tireless .spawned with hstopped | ⟨run, hrun, hlive⟩ | hjoined | ⟨time, hle, hwoke⟩
  · exact .inl hstopped
  · right
    have live := Tasks.live_eq_some.mpr ⟨hrun, hlive⟩
    have hloop := sound.loop run live
    generalize hstate : run.state = state at hloop
    cases hloop with
    | spawned =>
      refine .due (.loop 0 .polled) 0 (by simp) (Nat.zero_le _)
        (enabled_loop live (by rw [hstate]; rfl))
    | discovering => exact .fetching run live (by rw [hstate]; rfl)
    | retrying deadline soon =>
      have hle : backoffOf count ≤ secs 30 := Backoff.wait_le initial_le_max count
      refine .due (.loop 0 .resumed) (backoffOf count) (by simp)
        (Nat.le_trans hle (Nat.le_max_left _ _)) (enabled_loop live ?_)
      simp [hstate, Loop.next, soon]
    | waiting deadline soon =>
      refine .due (.loop 0 .resumed) settings.refreshInterval (by simp) (Nat.le_max_right _ _)
        (enabled_loop live ?_)
      simp [hstate, Loop.next, soon]
    | refreshing => exact .fetching run live (by rw [hstate]; rfl)
  · refine .inr (.due (.supervisor .joined) 0 (by simp) (Nat.zero_le _) ?_)
    have hlater : (w.later 0).tasks = w.tasks := rfl
    simpa [step, ofSupervisor, hlater] using hjoined
  · refine .inr (.due (.supervisor .woke) time (by simp) (Nat.le_trans hle (Nat.le_max_left _ _)) ?_)
    have hlater : (w.later time).tasks = { w.tasks with now := w.tasks.now + time } := rfl
    simpa [step, ofSupervisor, hlater] using hwoke

/-- What the server knows of its identity provider, and how it asks. -/
structure Discovers (settings : Settings) (log : List (Move (Event ι Discovered) (World ι Discovered)))
    (w : World ι Discovered) : Prop where
  /-- Logins use the metadata of the last discovery that succeeded, and wait for the first one. -/
  current : w.oidc.provider.current = published log
  supervised : Tasks.Supervised .spawned (log.filterMap toTasks) w.tasks
  /-- One caller fetches, and one loop. -/
  callers : ∀ caller other, w.oidc.calls caller = .fetching → w.oidc.calls other = .fetching →
    caller = other
  loops : ∀ i j run other, w.tasks.live i = some run → w.tasks.live j = some other → i = j
  apart : ∀ earlier first between second later, log = earlier ++ first :: (between ++ second :: later) →
    first.label.fetches = true → second.label.fetches = true →
      first.before.tasks.now + settings.gap ≤ second.before.tasks.now
  doubling : ∀ run deadline backoff, w.tasks.live 0 = some run →
    run.state = .retrying deadline backoff →
      backoff = min (secs 1 * 2 ^ retries log) (secs 30) ∧
        deadline ≤ w.tasks.now + backoff
  tireless : w.tasks.phase = .stopped ∨ Goes settings w

/-- However the provider answers, the loop panics and is started again, and callers refresh and are
dropped beside it, discovery goes on, and never in haste. -/
theorem discovery_goes_on (trace : Trace (Steps settings) (.initial now) log w) :
    Discovers settings log w := by
  have sound := sound_of_trace trace
  refine ⟨current_of_trace trace, Tasks.one_run_is_kept_going (supervisor_trace trace), ?_, ?_, ?_,
    ?_, sound.goes⟩
  · intro caller other hcaller hother
    have hguard := (sound.serial.guard caller).mp hcaller
    rw [(sound.serial.guard other).mp hother] at hguard
    exact (Option.some.inj hguard).symm
  · intro i j run other hrun hother
    rw [sound.latest hrun, sound.latest hother]
  · intro earlier first between second later hlog hfirst hsecond
    have trace' := hlog ▸ trace
    obtain ⟨hearlier, hstep, hrest⟩ := trace'.cut rfl
    obtain ⟨hbetween, hstep', _⟩ := hrest.cut rfl
    have hsound := sound_of_trace hearlier
    have does := does_of_step hstep
    obtain ⟨_, hrests⟩ := does.fetch hsound hfirst
    obtain ⟨⟨count, hsound'⟩, hrests'⟩ := rests_of_trace hbetween (does.sound hsound) hrests
    exact ((does_of_step hstep').fetch hsound' hsecond).1 _ hrests'
  · intro run deadline backoff hrun hstate
    have hloop := sound.loop run hrun
    rw [hstate] at hloop
    cases hloop with
    | retrying _ soon => exact ⟨Backoff.wait_eq initial_le_max _, soon⟩

end Runs

def hourly : Settings := ⟨Oidc.minute, secs 3600⟩

/-- The provider refuses, the loop panics as it tries again and succeeds in its second run. A caller
finds newer keys, which a refresh an hour later keeps. -/
def rotated : List (Event Nat Nat) :=
  [.loop 0 .polled, .loop 0 (.fetched (.error "refused")), .passed (secs 1), .loop 0 .resumed,
    .supervisor (.ended 0 true), .supervisor .joined, .passed (secs 1), .supervisor .woke,
    .loop 0 .polled, .loop 0 (.fetched (.ok 1)), .caller (.called 0), .caller (.entered 0),
    .caller (.fetched 0 (.ok 2)), .passed (secs 3600), .loop 0 .resumed,
    .loop 0 (.fetched (.error "timeout"))]

def rotatedRun : List (Move (Event Nat Nat) (World Nat Nat)) × World Nat Nat :=
  play (step hourly) (.initial 0) rotated

theorem discovery_goes_on_rotated : Discovers hourly rotatedRun.1 rotatedRun.2 ∧
    rotatedRun.1.length = 16 ∧ rotatedRun.2.oidc.provider.current = some 2 :=
  ⟨discovery_goes_on (play_trace (step hourly) (.initial 0) rotated), by decide, by decide⟩

end LakeFsAuth.Authn.Discovery
