import LakeFsAuth.Library.EventLog

/-! Runs of a system that takes one labelled step after another. -/
namespace LakeFsAuth.Library

variable {Label σ : Type}

/-- A step of a run, with the states around it. -/
structure Move (Label σ : Type) where
  before : σ
  label : Label
  after : σ

inductive Trace (Step : σ → Label → σ → Prop) (start : σ) : List (Move Label σ) → σ → Prop where
  | nil : Trace Step start [] start
  | snoc {log : List (Move Label σ)} {label : Label} {s s' : σ} (trace : Trace Step start log s)
      (step : Step s label s') : Trace Step start (log ++ [⟨s, label, s'⟩]) s'

namespace Trace
variable {Step : σ → Label → σ → Prop} {start s : σ} {log : List (Move Label σ)}

theorem cons {label : Label} {mid : σ} (step : Step start label mid) (trace : Trace Step mid log s) :
    Trace Step start (⟨start, label, mid⟩ :: log) s := by
  induction trace with
  | nil => exact .snoc .nil step
  | snoc trace last ih => exact .snoc ih last

/-- Where a run is cut in two. -/
theorem append {more : List (Move Label σ)} (trace : Trace Step start (log ++ more) s) :
    ∃ mid, Trace Step start log mid ∧ Trace Step mid more s := by
  generalize hall : log ++ more = all at trace
  induction trace generalizing more with
  | nil =>
    obtain ⟨rfl, rfl⟩ := List.append_eq_nil_iff.mp hall
    exact ⟨start, .nil, .nil⟩
  | @snoc front label s s' trace step ih =>
    cases more with
    | nil =>
      rw [List.append_nil] at hall
      subst hall
      exact ⟨s', .snoc trace step, .nil⟩
    | cons move rest =>
      rcases EventLog.snoc_split hall.symm with ⟨rfl, hfront, rfl⟩ | ⟨rest', rfl, hfront⟩
      · subst hfront
        exact ⟨s, trace, .snoc .nil step⟩
      · obtain ⟨mid, hlog, hmore⟩ := ih hfront.symm
        exact ⟨mid, hlog, .snoc hmore step⟩

theorem of_nil (trace : Trace Step start [] s) : s = start := by
  generalize hall : ([] : List (Move Label σ)) = all at trace
  cases trace with
  | nil => rfl
  | snoc trace step => simp at hall

theorem head {move : Move Label σ} (trace : Trace Step start (move :: log) s) :
    move.before = start ∧ Step move.before move.label move.after ∧
      Trace Step move.after log s := by
  generalize hall : move :: log = all at trace
  induction trace generalizing log with
  | nil => cases hall
  | @snoc front label mid last trace step ih =>
    cases front with
    | nil =>
      obtain ⟨rfl, rfl⟩ : move = ⟨mid, label, last⟩ ∧ log = [] := by simpa using hall
      obtain rfl := trace.of_nil
      exact ⟨rfl, step, .nil⟩
    | cons first rest =>
      obtain ⟨rfl, rfl⟩ : move = first ∧ log = rest ++ [⟨mid, label, last⟩] := by simpa using hall
      obtain ⟨hbefore, hstep, hrest⟩ := ih rfl
      exact ⟨hbefore, hstep, .snoc hrest step⟩

/-- A step of a run: how its state was reached, what it did, and what came after. -/
theorem cut (trace : Trace Step start log s) {earlier later : List (Move Label σ)}
    {move : Move Label σ} (hlog : log = earlier ++ move :: later) :
    Trace Step start earlier move.before ∧ Step move.before move.label move.after ∧
      Trace Step move.after later s := by
  subst hlog
  obtain ⟨mid, hearlier, hrest⟩ := trace.append
  obtain ⟨rfl, hstep, hlater⟩ := hrest.head
  exact ⟨hearlier, hstep, hlater⟩

/-- What every step keeps holds at the end. -/
theorem keeps {P : σ → Prop} (trace : Trace Step start log s)
    (step : ∀ s label s', Step s label s' → P s → P s') (h : P start) : P s := by
  induction trace with
  | nil => exact h
  | snoc trace last ih => exact step _ _ _ last ih

/-- A run of fewer steps is a run. -/
theorem mono {Step' : σ → Label → σ → Prop} (trace : Trace Step start log s)
    (more : ∀ {s label s'}, Step s label s' → Step' s label s') : Trace Step' start log s := by
  induction trace with
  | nil => exact .nil
  | snoc trace last ih => exact .snoc ih (more last)

end Trace

/-- A run of a system seen as a run of one of its parts, which moves along or stands still. -/
theorem Trace.project {Label' σ' : Type} {Step : σ → Label → σ → Prop}
    {Step' : σ' → Label' → σ' → Prop} {start s : σ} {log : List (Move Label σ)} (view : σ → σ')
    (translate : Move Label σ → Option (Move Label' σ'))
    (moves : ∀ move : Move Label σ, Step move.before move.label move.after →
      (translate move = none ∧ view move.after = view move.before) ∨
        ∃ label, translate move = some ⟨view move.before, label, view move.after⟩ ∧
          Step' (view move.before) label (view move.after))
    (trace : Trace Step start log s) :
    Trace Step' (view start) (log.filterMap translate) (view s) := by
  induction trace with
  | nil => exact .nil
  | @snoc log label s s' trace step ih =>
    rw [List.filterMap_append, List.filterMap_cons, List.filterMap_nil]
    rcases moves ⟨s, label, s'⟩ step with ⟨hnone, hstill⟩ | ⟨label', hsome, hstep⟩
    · rw [hnone, List.append_nil]
      exact hstill ▸ ih
    · rw [hsome]
      exact .snoc ih hstep

/-- The steps of a partial function. -/
def StepsOf (step : σ → Label → Option σ) (s : σ) (label : Label) (s' : σ) : Prop :=
  step s label = some s'

/-- The run along some labels, up to the first that is not possible. -/
def play (step : σ → Label → Option σ) (s : σ) : List Label → List (Move Label σ) × σ
  | [] => ([], s)
  | label :: rest =>
      match step s label with
      | none => ([], s)
      | some s' =>
          let (log, last) := play step s' rest
          (⟨s, label, s'⟩ :: log, last)

theorem mem_play {step : σ → Label → Option σ} {s : σ} {labels : List Label} {move : Move Label σ}
    (h : move ∈ (play step s labels).1) : move.label ∈ labels := by
  induction labels generalizing s with
  | nil => cases h
  | cons label rest ih =>
    unfold play at h
    split at h
    · cases h
    · rcases List.mem_cons.mp h with rfl | hrest
      · exact List.mem_cons_self
      · exact List.mem_cons_of_mem _ (ih hrest)

theorem play_trace (step : σ → Label → Option σ) (s : σ) (labels : List Label) :
    Trace (StepsOf step) s (play step s labels).1 (play step s labels).2 := by
  induction labels generalizing s with
  | nil => exact .nil
  | cons label rest ih =>
    unfold play
    split
    · exact .nil
    · rename_i s' hstep
      exact .cons hstep (ih s')

end LakeFsAuth.Library
