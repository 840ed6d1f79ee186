import LakeFsAuth.Library.Trace
import Mathlib.Algebra.BigOperators.Group.List.Basic
import Mathlib.Algebra.Ring.Int.Defs

/-! The HTTP metrics of both servers. An update of a metric is one step, and those of different
requests come in any order. Instants are in nanoseconds. -/
namespace LakeFsAuth.Core.Metrics
open Library

def UNMATCHED : String := "<unmatched>"

def OTHER_METHOD : String := "<other>"

/-- Status label of a request whose future was dropped before a response existed. -/
def CANCELLED : String := "cancelled"

def standardMethods : List String :=
  ["GET", "HEAD", "POST", "PUT", "DELETE", "OPTIONS", "PATCH", "TRACE", "CONNECT"]

def methodLabel (method : String) : String :=
  if method ∈ standardMethods then method else OTHER_METHOD

/-- An update of the gauge, of the counters or of the histograms. -/
inductive Update where
  | inc
  | dec
  | count (method route status : String)
  | observe (method route : String) (started : Nat)
  deriving DecidableEq

/-- One request in progress. -/
structure InFlight where
  method : String
  /-- The matched pattern. -/
  route : Option String
  started : Nat
  finished : Bool

namespace InFlight

def start (method : String) (route : Option String) (now : Nat) : InFlight :=
  ⟨method, route, now, false⟩

/-- The route label. -/
def label (self : InFlight) : String := self.route.getD UNMATCHED

def record (self : InFlight) (status : String) : List Update :=
  [.count self.method self.label status, .observe self.method self.label self.started]

def drop (self : InFlight) : List Update :=
  .dec :: if self.finished then [] else self.record CANCELLED

/-- The guard is dropped where `finish` ends. -/
def finish (self : InFlight) (status : String) : List Update :=
  let self := { self with finished := true }
  self.record status ++ self.drop

end InFlight

structure Registry where
  inFlight : Int
  requests : (method route status : String) → Nat
  /-- What was observed, the latest first. -/
  durations : (method route : String) → List Nat

namespace Registry

def new : Registry := ⟨0, fun _ _ _ => 0, fun _ _ => []⟩

def apply (self : Registry) (now : Nat) : Update → Registry
  | .inc => { self with inFlight := self.inFlight + 1 }
  | .dec => { self with inFlight := self.inFlight - 1 }
  | .count method route status => { self with
      requests := fun method' route' status' =>
        if (method', route', status') = (method, route, status) then
          self.requests method route status + 1
        else self.requests method' route' status' }
  | .observe method route started => { self with
      durations := fun method' route' =>
        if (method', route') = (method, route) then
          (now - started) :: self.durations method route
        else self.durations method' route' }

end Registry

/-- How the future of a request ends. -/
inductive Outcome where
  | answered (status : String)
  /-- It was dropped, or the handler panicked. -/
  | dropped

def Outcome.status : Outcome → String
  | .answered status => status
  | .dropped => CANCELLED

def Outcome.updates (guard : InFlight) : Outcome → List Update
  | .answered status => guard.finish status
  | .dropped => guard.drop

theorem updates_answered (guard : InFlight) (status : String) :
    (Outcome.answered status).updates guard =
      [.count guard.method guard.label status, .observe guard.method guard.label guard.started, .dec] :=
  rfl

theorem updates_dropped {guard : InFlight} (h : guard.finished = false) :
    Outcome.dropped.updates guard = [.dec, .count guard.method guard.label CANCELLED,
      .observe guard.method guard.label guard.started] := by
  simp [Outcome.updates, InFlight.drop, InFlight.record, h]

inductive Stage where
  | handling
  /-- Its guard goes, with some updates still to come. -/
  | closing (outcome : Outcome) (pending : List Update)

structure Request where
  guard : InFlight
  stage : Stage

structure World where
  now : Nat
  registry : Registry
  requests : List Request

inductive Event where
  | passed (time : Nat)
  | arrived (method : String) (route : Option String)
  | ended (i : Nat) (outcome : Outcome)
  /-- The guard of a request makes its next update. -/
  | updated (i : Nat)

def World.initial (now : Nat) : World := ⟨now, .new, []⟩

/-- One step of `track_http`, or of the clock. -/
def step (w : World) : Event → Option World
  | .passed time => some { w with now := w.now + time }
  | .arrived method route => some { w with
      registry := w.registry.apply w.now .inc
      requests := w.requests ++ [⟨.start (methodLabel method) route w.now, .handling⟩] }
  | .ended i outcome =>
      match w.requests[i]? with
      | some ⟨guard, .handling⟩ => some { w with
          requests := w.requests.set i ⟨guard, .closing outcome (outcome.updates guard)⟩ }
      | _ => none
  | .updated i =>
      match w.requests[i]? with
      | some ⟨guard, .closing outcome (update :: rest)⟩ => some { w with
          registry := w.registry.apply w.now update
          requests := w.requests.set i ⟨guard, .closing outcome rest⟩ }
      | _ => none

abbrev Steps := StepsOf step

/-- What a step does, case by case. -/
inductive Does (w : World) : Event → World → Prop where
  | passed (time : Nat) : Does w (.passed time) { w with now := w.now + time }
  | arrived (method : String) (route : Option String) : Does w (.arrived method route) { w with
      registry := w.registry.apply w.now .inc
      requests := w.requests ++ [⟨.start (methodLabel method) route w.now, .handling⟩] }
  | ended (i : Nat) (guard : InFlight) (outcome : Outcome)
      (handled : w.requests[i]? = some ⟨guard, .handling⟩) : Does w (.ended i outcome) { w with
        requests := w.requests.set i ⟨guard, .closing outcome (outcome.updates guard)⟩ }
  | updated (i : Nat) (guard : InFlight) (outcome : Outcome) (update : Update) (rest : List Update)
      (closing : w.requests[i]? = some ⟨guard, .closing outcome (update :: rest)⟩) :
      Does w (.updated i) { w with
        registry := w.registry.apply w.now update
        requests := w.requests.set i ⟨guard, .closing outcome rest⟩ }

theorem does_of_step {w w' : World} {event : Event} (h : step w event = some w') : Does w event w' := by
  cases event with
  | passed time =>
    cases h
    exact .passed time
  | arrived method route =>
    cases h
    exact .arrived method route
  | ended i outcome =>
    simp only [step] at h
    split at h
    · cases h
      exact .ended i _ outcome ‹_›
    · cases h
  | updated i =>
    simp only [step] at h
    split at h
    · cases h
      exact .updated i _ _ _ _ ‹_›
    · cases h

/-! What a metric shows is the sum of what the requests have done to it. -/

/-- A number that is read off the metrics, and what an update adds to it. -/
structure Reads (reading : Registry → Int) (weight : Update → Int) : Prop where
  new : reading .new = 0
  apply : ∀ registry now update, reading (registry.apply now update) = reading registry + weight update

/-- What a request has added so far. -/
def Request.added (weight : Update → Int) (request : Request) : Int :=
  match request.stage with
  | .handling => weight .inc
  | .closing outcome pending =>
      weight .inc + ((outcome.updates request.guard).map weight).sum - (pending.map weight).sum

/-- A request that is tracked as it should be. -/
structure Request.Tracked (request : Request) : Prop where
  unfinished : request.guard.finished = false
  method : ∃ method, request.guard.method = methodLabel method
  pending : ∀ outcome pending, request.stage = .closing outcome pending →
    pending <:+ outcome.updates request.guard

structure Balanced (w : World) : Prop where
  tracked : ∀ request ∈ w.requests, request.Tracked
  sum : ∀ {reading weight}, Reads reading weight →
    reading w.registry = (w.requests.map (Request.added weight)).sum

theorem sum_set {f : Request → Int} {requests : List Request} {i : Nat} {old : Request}
    (h : requests[i]? = some old) (new : Request) :
    ((requests.set i new).map f).sum = (requests.map f).sum + (f new - f old) := by
  obtain ⟨hi, rfl⟩ := List.getElem?_eq_some_iff.mp h
  have hi' : i < (requests.map f).length := by simpa using hi
  rw [List.map_set, List.sum_set', dif_pos hi', List.getElem_map, neg_add_eq_sub]

theorem balanced_initial (now : Nat) : Balanced (.initial now) where
  tracked := by simp [World.initial]
  sum reads := by simpa [World.initial] using reads.new

theorem Does.balanced {w w' : World} {event : Event} (does : Does w event w') (balanced : Balanced w) :
    Balanced w' := by
  obtain ⟨tracked, sum⟩ := balanced
  cases does with
  | passed time => exact ⟨tracked, sum⟩
  | arrived method route =>
    refine ⟨fun request hrequest => ?_, fun reads => ?_⟩
    · rcases List.mem_append.mp hrequest with hold | hnew
      · exact tracked request hold
      · rw [List.mem_singleton.mp hnew]
        exact ⟨rfl, ⟨method, rfl⟩, fun _ _ h => nomatch h⟩
    · simp [reads.apply, sum reads, Request.added]
  | ended i guard outcome handled =>
    have old := tracked _ (List.mem_of_getElem? handled)
    refine ⟨fun request hrequest => ?_, fun reads => ?_⟩
    · rcases List.mem_or_eq_of_mem_set hrequest with hold | rfl
      · exact tracked request hold
      · refine ⟨old.unfinished, old.method, fun outcome' pending h => ?_⟩
        cases h
        exact List.suffix_rfl
    · rw [sum_set handled, sum reads]
      simp [Request.added]
  | updated i guard outcome update rest closing =>
    have old := tracked _ (List.mem_of_getElem? closing)
    refine ⟨fun request hrequest => ?_, fun reads => ?_⟩
    · rcases List.mem_or_eq_of_mem_set hrequest with hold | rfl
      · exact tracked request hold
      · refine ⟨old.unfinished, old.method, fun outcome' pending h => ?_⟩
        cases h
        exact (List.suffix_cons update rest).trans (old.pending _ _ rfl)
    · rw [sum_set closing, reads.apply, sum reads]
      simp only [Request.added, List.map_cons, List.sum_cons]
      omega

theorem balanced_of_trace {now : Nat} {log : List (Move Event World)} {w : World}
    (trace : Trace Steps (.initial now) log w) : Balanced w := by
  induction trace with
  | nil => exact balanced_initial now
  | snoc trace step ih => exact (does_of_step step).balanced ih

/-! What the metrics show. -/

def gaugeWeight : Update → Int
  | .inc => 1
  | .dec => -1
  | _ => 0

def countWeight (method route status : String) : Update → Int
  | .count method' route' status' =>
      if (method, route, status) = (method', route', status') then 1 else 0
  | _ => 0

def observeWeight (method route : String) : Update → Int
  | .observe method' route' _ => if (method, route) = (method', route') then 1 else 0
  | _ => 0

theorem gauge_reads : Reads Registry.inFlight gaugeWeight where
  new := rfl
  apply registry now update := by cases update <;> simp [Registry.apply, gaugeWeight, sub_eq_add_neg]

theorem count_reads (method route status : String) :
    Reads (fun registry => registry.requests method route status) (countWeight method route status) where
  new := rfl
  apply registry now update := by
    cases update with
    | count method' route' status' =>
      simp only [Registry.apply, countWeight]
      split
      · rename_i heq
        cases heq
        simp
      · simp
    | _ => simp [Registry.apply, countWeight]

theorem observe_reads (method route : String) :
    Reads (fun registry => (registry.durations method route).length) (observeWeight method route) where
  new := rfl
  apply registry now update := by
    cases update with
    | observe method' route' started =>
      simp only [Registry.apply, observeWeight]
      split
      · rename_i heq
        cases heq
        simp
      · simp
    | _ => simp [Registry.apply, observeWeight]

namespace Request
variable (method route status : String) (request : Request)

/-- Its guard has still to lower the gauge. -/
def raised : Bool :=
  match request.stage with
  | .handling => true
  | .closing _ pending => decide (.dec ∈ pending)

/-- It ended under these labels. -/
def endedAs : Bool :=
  match request.stage with
  | .handling => false
  | .closing outcome _ =>
      decide ((method, route, status) = (request.guard.method, request.guard.label, outcome.status))

/-- So it did, and its guard has counted it. -/
def counted : Bool :=
  match request.stage with
  | .handling => false
  | .closing _ pending =>
      request.endedAs method route status && decide (.count method route status ∉ pending)

/-- Its guard has observed how long it took. -/
def observed : Bool :=
  match request.stage with
  | .handling => false
  | .closing _ pending =>
      decide ((method, route) = (request.guard.method, request.guard.label)) &&
        decide (.observe method route request.guard.started ∉ pending)

/-- All is said of it. -/
def Over : Prop := ∃ outcome, request.stage = .closing outcome []

variable {method route status request}

/-- What a guard has still to do after an answer. -/
theorem Tracked.left_answered (tracked : request.Tracked) {pending : List Update}
    (h : request.stage = .closing (.answered status) pending) :
    pending = [.count request.guard.method request.guard.label status,
      .observe request.guard.method request.guard.label request.guard.started, .dec] ∨
    pending = [.observe request.guard.method request.guard.label request.guard.started, .dec] ∨
    pending = [.dec] ∨ pending = [] := by
  have hpending := tracked.pending _ _ h
  simpa only [updates_answered, List.suffix_cons_iff, List.suffix_nil] using hpending

/-- And what without one. -/
theorem Tracked.left_dropped (tracked : request.Tracked) {pending : List Update}
    (h : request.stage = .closing .dropped pending) :
    pending = [.dec, .count request.guard.method request.guard.label CANCELLED,
      .observe request.guard.method request.guard.label request.guard.started] ∨
    pending = [.count request.guard.method request.guard.label CANCELLED,
      .observe request.guard.method request.guard.label request.guard.started] ∨
    pending = [.observe request.guard.method request.guard.label request.guard.started] ∨
    pending = [] := by
  have hpending := tracked.pending _ _ h
  simpa only [updates_dropped tracked.unfinished, List.suffix_cons_iff, List.suffix_nil] using hpending

/-- Each update of a guard is made once, or has still to be. -/
theorem Tracked.added_closing (tracked : request.Tracked) (weight : Update → Int) {outcome : Outcome}
    {pending : List Update} (h : request.stage = .closing outcome pending) :
    request.added weight = weight .inc +
      ((if .dec ∈ pending then 0 else weight .dec) +
        ((if .count request.guard.method request.guard.label outcome.status ∈ pending then 0 else
            weight (.count request.guard.method request.guard.label outcome.status)) +
          if .observe request.guard.method request.guard.label request.guard.started ∈ pending then 0
            else weight (.observe request.guard.method request.guard.label request.guard.started))) := by
  simp only [added, h]
  cases outcome with
  | answered status =>
    have hupdates := updates_answered request.guard status
    rcases tracked.left_answered h with rfl | rfl | rfl | rfl <;>
      simp [hupdates, Outcome.status] <;> omega
  | dropped =>
    have hupdates := updates_dropped tracked.unfinished
    rcases tracked.left_dropped h with rfl | rfl | rfl | rfl <;>
      simp [hupdates, Outcome.status] <;> omega

theorem Tracked.added_gauge (tracked : request.Tracked) :
    request.added gaugeWeight = if request.raised then 1 else 0 := by
  cases hstage : request.stage with
  | handling => simp [added, raised, hstage, gaugeWeight]
  | closing outcome pending =>
    rw [tracked.added_closing gaugeWeight hstage]
    by_cases hdec : Update.dec ∈ pending <;> simp [raised, hstage, gaugeWeight, hdec]

theorem Tracked.added_count (tracked : request.Tracked) :
    request.added (countWeight method route status) =
      if request.counted method route status then 1 else 0 := by
  cases hstage : request.stage with
  | handling => simp [added, counted, hstage, countWeight]
  | closing outcome pending =>
    rw [tracked.added_closing _ hstage]
    by_cases hsame : (method, route, status) = (request.guard.method, request.guard.label, outcome.status)
    · cases hsame
      simp [counted, endedAs, hstage, countWeight]
    · simp only [counted, endedAs, hstage, countWeight, hsame]
      simp

theorem Tracked.added_observe (tracked : request.Tracked) :
    request.added (observeWeight method route) = if request.observed method route then 1 else 0 := by
  cases hstage : request.stage with
  | handling => simp [added, observed, hstage, observeWeight]
  | closing outcome pending =>
    rw [tracked.added_closing _ hstage]
    by_cases hsame : (method, route) = (request.guard.method, request.guard.label)
    · cases hsame
      simp [observed, hstage, observeWeight]
    · simp only [observed, hstage, observeWeight, hsame]
      simp

/-- A request is counted under its own method. -/
theorem counted_method (h : request.counted method route status = true) :
    method = request.guard.method := by
  unfold counted endedAs at h
  cases hstage : request.stage with
  | handling => simp [hstage] at h
  | closing outcome pending =>
    simp only [hstage, Bool.and_eq_true, decide_eq_true_eq, Prod.mk.injEq] at h
    exact h.1.1

theorem observed_method (h : request.observed method route = true) : method = request.guard.method := by
  unfold observed at h
  cases hstage : request.stage with
  | handling => simp [hstage] at h
  | closing outcome pending =>
    simp only [hstage, Bool.and_eq_true, decide_eq_true_eq, Prod.mk.injEq] at h
    exact h.1.1

end Request

theorem methodLabel_mem (method : String) : methodLabel method ∈ OTHER_METHOD :: standardMethods := by
  unfold methodLabel
  split
  · exact List.mem_cons_of_mem _ ‹_›
  · exact List.mem_cons_self

/-- A label that some request is counted under is one of the few. -/
theorem Balanced.bounded {w : World} (balanced : Balanced w) {p : Request → Bool} {method : String}
    (some : w.requests.countP p ≠ 0)
    (own : ∀ request, p request = true → method = request.guard.method) :
    method ∈ OTHER_METHOD :: standardMethods := by
  obtain ⟨request, hrequest, hcounted⟩ := List.countP_pos_iff.mp (Nat.pos_of_ne_zero some)
  obtain ⟨asked, hasked⟩ := (balanced.tracked request hrequest).method
  rw [own request hcounted, hasked]
  exact methodLabel_mem asked

theorem sum_ite {α : Type} (p : α → Bool) (items : List α) :
    (items.map fun item => if p item then (1 : Int) else 0).sum = items.countP p := by
  induction items with
  | nil => rfl
  | cons item items ih =>
    rw [List.map_cons, List.sum_cons, ih, List.countP_cons]
    split <;> simp [*, add_comm]

theorem Balanced.reads {w : World} (balanced : Balanced w) {reading : Registry → Int}
    {weight : Update → Int} (reads : Reads reading weight) {p : Request → Bool}
    (adds : ∀ request, request.Tracked → request.added weight = if p request then 1 else 0) :
    reading w.registry = w.requests.countP p := by
  rw [balanced.sum reads, ← sum_ite]
  refine congrArg List.sum (List.map_congr_left fun request hrequest => ?_)
  exact adds request (balanced.tracked request hrequest)

/-- What the metrics say of the requests of a server. -/
structure Counts (w : World) : Prop where
  /-- The gauge is at the requests that are handled, and those whose guard has still to lower it. -/
  gauge : w.registry.inFlight = w.requests.countP Request.raised
  /-- A series counts the requests that ended so, each once. -/
  counter : ∀ method route status, w.registry.requests method route status =
    w.requests.countP (Request.counted method route status)
  histogram : ∀ method route, (w.registry.durations method route).length =
    w.requests.countP (Request.observed method route)
  /-- The method labels are bounded. -/
  bounded : ∀ method route status, w.registry.requests method route status ≠ 0 →
    method ∈ OTHER_METHOD :: standardMethods
  timed : ∀ method route, w.registry.durations method route ≠ [] →
    method ∈ OTHER_METHOD :: standardMethods
  /-- Once all requests are over. -/
  quiet : (∀ request ∈ w.requests, request.Over) → w.registry.inFlight = 0 ∧
    ∀ method route status, w.registry.requests method route status =
      w.requests.countP (Request.endedAs method route status)

/-- However requests are answered or dropped, and their updates interleave, every request is in
flight until its guard goes, and is counted once, for how it ended. -/
theorem requests_are_counted_once {now : Nat} {log : List (Move Event World)} {w : World}
    (trace : Trace Steps (.initial now) log w) : Counts w := by
  have balanced := balanced_of_trace trace
  have hgauge : w.registry.inFlight = w.requests.countP Request.raised :=
    balanced.reads gauge_reads fun _ tracked => tracked.added_gauge
  have hcounter (method route status : String) : w.registry.requests method route status =
      w.requests.countP (Request.counted method route status) :=
    Int.ofNat.inj (balanced.reads (count_reads method route status)
      fun _ tracked => tracked.added_count)
  have hhistogram (method route : String) : (w.registry.durations method route).length =
      w.requests.countP (Request.observed method route) :=
    Int.ofNat.inj (balanced.reads (observe_reads method route)
      fun _ tracked => tracked.added_observe)
  refine ⟨hgauge, hcounter, hhistogram, fun method route status hsome => ?_,
    fun method route hsome => ?_, fun ended => ?_⟩
  · exact balanced.bounded (hcounter method route status ▸ hsome) fun _ => Request.counted_method
  · have hlength : (w.registry.durations method route).length ≠ 0 :=
      mt List.eq_nil_of_length_eq_zero hsome
    exact balanced.bounded (hhistogram method route ▸ hlength) fun _ => Request.observed_method
  · refine ⟨?_, fun method route status => ?_⟩
    · rw [hgauge, List.countP_eq_zero.mpr]
      · rfl
      · intro request hrequest
        obtain ⟨outcome, hstage⟩ := ended request hrequest
        simp [Request.raised, hstage]
    · rw [hcounter]
      refine List.countP_congr fun request hrequest => ?_
      obtain ⟨outcome, hstage⟩ := ended request hrequest
      simp [Request.counted, hstage]

/-- A request is answered while another, of an odd method, is dropped. -/
def served : List (Move Event World) × World :=
  play step (.initial 0) [.arrived "GET" (some "/healthcheck"), .arrived "BREW" none,
    .ended 0 (.answered "204"), .updated 0, .ended 1 .dropped, .updated 1, .passed 5, .updated 0,
    .updated 1, .updated 0, .updated 1]

theorem requests_are_counted_once_dropped : Counts served.2 ∧ served.2.registry.inFlight = 0 ∧
    served.2.registry.requests "GET" "/healthcheck" "204" = 1 ∧
      served.2.registry.requests OTHER_METHOD UNMATCHED CANCELLED = 1 :=
  ⟨requests_are_counted_once (play_trace step (.initial 0) _), by decide, by decide, by decide⟩

end LakeFsAuth.Core.Metrics
