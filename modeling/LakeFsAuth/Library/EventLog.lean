import Mathlib.Data.List.Basic

/-! Facts that events start and end. A fact is live in a log when some event
started it and no later one ended it; a state tracks its log when the facts it
holds are the live ones. -/
namespace LakeFsAuth.Library.EventLog

/-- Where an entry of a log stands: it is the last one, or it was there before. -/
theorem snoc_split {log earlier later : List α} {last entry : α}
    (h : log ++ [last] = earlier ++ entry :: later) :
    (later = [] ∧ log = earlier ∧ last = entry) ∨
      ∃ later', later = later' ++ [last] ∧ log = earlier ++ entry :: later' := by
  rcases List.eq_nil_or_concat later with rfl | ⟨front, final, rfl⟩
  · obtain ⟨hlog, hlast⟩ := List.append_inj' h rfl
    exact .inl ⟨rfl, hlog, by simpa using hlast⟩
  · have h' : log ++ [last] = (earlier ++ entry :: front) ++ [final] := by simpa using h
    obtain ⟨hlog, hlast⟩ := List.append_inj' h' rfl
    obtain rfl : last = final := by simpa using hlast
    exact .inr ⟨front, by simp, hlog⟩

/-- Of two entries of a log one comes first. -/
theorem split_two {log : List α} {a b : α} (ha : a ∈ log) (hb : b ∈ log) (hne : a ≠ b) :
    ∃ earlier between later, log = earlier ++ a :: (between ++ b :: later) ∨
      log = earlier ++ b :: (between ++ a :: later) := by
  obtain ⟨front, back, rfl⟩ := List.append_of_mem ha
  rcases List.mem_append.mp hb with hfront | hback
  · obtain ⟨front', between, rfl⟩ := List.append_of_mem hfront
    exact ⟨front', between, back, .inr (by simp)⟩
  · rcases List.mem_cons.mp hback with rfl | hback
    · exact absurd rfl hne
    · obtain ⟨between, back', rfl⟩ := List.append_of_mem hback
      exact ⟨front, between, back', .inl rfl⟩

/-- Where an item stands in what the entries of a log yield. -/
theorem split_flatMap {f : α → List β} {log : List α} {before after : List β} {item : β}
    (h : log.flatMap f = before ++ item :: after) :
    ∃ earlier entry later back, log = earlier ++ entry :: later ∧ item ∈ f entry ∧
      after = back ++ later.flatMap f := by
  induction log generalizing before with
  | nil => simp at h
  | cons entry rest ih =>
    rw [List.flatMap_cons] at h
    rcases List.append_eq_append_iff.mp h with ⟨middle, rfl, hrest⟩ | ⟨middle, hentry, hafter⟩
    · obtain ⟨earlier, other, later, back, rfl, hitem, rfl⟩ := ih hrest
      exact ⟨entry :: earlier, other, later, back, rfl, hitem, rfl⟩
    · cases middle with
      | nil =>
        have hrest : rest.flatMap f = [] ++ item :: after := hafter.symm
        obtain ⟨earlier, other, later, back, rfl, hitem, hback⟩ := ih hrest
        exact ⟨entry :: earlier, other, later, back, rfl, hitem, hback⟩
      | cons first back =>
        obtain ⟨rfl, rfl⟩ : item = first ∧ after = back ++ rest.flatMap f := by simpa using hafter
        exact ⟨[], entry, rest, back, rfl, by rw [hentry]; simp, rfl⟩

/-- Events over facts: which event starts a fact, and which facts one ends. -/
class Events (Fact : Type u) (Event : Type v) where
  starts : Fact → Event
  Ends : Event → Fact → Prop

variable {Fact : Type u} {Event : Type v} [Events Fact Event]
open Events

def Live (log : List Event) (fact : Fact) : Prop :=
  ∃ earlier later, log = earlier ++ starts fact :: later ∧ ∀ event ∈ later, ¬ Ends event fact

theorem not_live_nil (fact : Fact) : ¬ Live ([] : List Event) fact := by
  rintro ⟨earlier, later, h, _⟩
  simp at h

/-- One more event: it starts the fact, or the fact was live and survives it. -/
theorem live_snoc (log : List Event) (event : Event) (fact : Fact) :
    Live (log ++ [event]) fact ↔
      event = starts fact ∨ (Live log fact ∧ ¬ Ends event fact) := by
  constructor
  · rintro ⟨earlier, later, h, hlater⟩
    rcases snoc_split h with ⟨_, _, hevent⟩ | ⟨front, rfl, hlog⟩
    · exact .inl hevent
    · exact .inr ⟨⟨earlier, front, hlog, fun e he => hlater e (by simp [he])⟩,
        hlater event (by simp)⟩
  · rintro (rfl | ⟨⟨earlier, later, rfl, hlater⟩, hends⟩)
    · exact ⟨log, [], rfl, by simp⟩
    · refine ⟨earlier, later ++ [event], by simp, ?_⟩
      intro e he
      rcases List.mem_append.mp he with he | he
      · exact hlater e he
      · rw [List.mem_singleton.mp he]
        exact hends

/-- More events that only start facts. -/
theorem live_append_starts {log events : List Event}
    (starting : ∀ event ∈ events, ∀ fact : Fact, ¬ Ends event fact) (fact : Fact) :
    Live (log ++ events) fact ↔ starts fact ∈ events ∨ Live log fact := by
  induction events generalizing log with
  | nil => simp
  | cons event events ih =>
    have hends := starting event List.mem_cons_self fact
    have hlog : log ++ event :: events = (log ++ [event]) ++ events := by simp
    rw [hlog, ih fun later hmem => starting later (List.mem_cons_of_mem event hmem), live_snoc,
      List.mem_cons]
    simp only [hends, not_false_eq_true, and_true]
    rw [@eq_comm _ event]
    tauto

/-- The facts that hold are the live ones. -/
def Tracks (Holds : Fact → Prop) (log : List Event) : Prop :=
  ∀ fact, Holds fact ↔ Live log fact

theorem Tracks.snoc {Holds Holds' : Fact → Prop} {log : List Event} (tracks : Tracks Holds log)
    (event : Event)
    (step : ∀ fact, Holds' fact ↔ event = starts fact ∨ (Holds fact ∧ ¬ Ends event fact)) :
    Tracks Holds' (log ++ [event]) := by
  intro fact
  rw [step fact, live_snoc, tracks fact]

/-- Several events that only start facts. -/
theorem Tracks.starts {Holds Holds' : Fact → Prop} {log events : List Event}
    (tracks : Tracks Holds log) (starting : ∀ event ∈ events, ∀ fact : Fact, ¬ Ends event fact)
    (step : ∀ fact, Holds' fact ↔ starts fact ∈ events ∨ Holds fact) :
    Tracks Holds' (log ++ events) := by
  intro fact
  rw [step fact, live_append_starts starting, tracks fact]

end LakeFsAuth.Library.EventLog
