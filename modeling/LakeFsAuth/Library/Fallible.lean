import Mathlib.Data.List.Forall2
import Mathlib.Logic.Relation

/-! Steps that may fail and keep their state when they do: `&mut` code with an
early return. The rules below say what a sequence and a loop of such steps do,
from what each of them does. -/
namespace LakeFsAuth.Library.Fallible

abbrev Step (ε σ α : Type) := ExceptT ε (StateM σ) α

variable {ε σ α β γ : Type}

def exec (x : Step ε σ α) (s : σ) : Except ε α × σ := x.run.run s

@[simp] theorem exec_pure (a : α) (s : σ) :
    exec (pure a : Step ε σ α) s = (.ok a, s) := rfl

@[simp] theorem exec_throw (e : ε) (s : σ) :
    exec (throw e : Step ε σ α) s = (.error e, s) := rfl

theorem exec_bind (x : Step ε σ α) (f : α → Step ε σ β) (s : σ) :
    exec (x >>= f) s =
      match exec x s with
      | (.ok a, s') => exec (f a) s'
      | (.error e, s') => (.error e, s') := by
  change (match x s with
    | (a, s') => (ExceptT.bindCont f a : StateM σ (Except ε β)) s') = _
  change _ = match x s with
    | (.ok a, s') => exec (f a) s'
    | (.error e, s') => (.error e, s')
  rcases x s with ⟨_ | _, _⟩ <;> rfl

theorem exec_bind_ok {x : Step ε σ α} {f : α → Step ε σ β} {s s' : σ} {b : β}
    (h : exec (x >>= f) s = (.ok b, s')) :
    ∃ a mid, exec x s = (.ok a, mid) ∧ exec (f a) mid = (.ok b, s') := by
  rw [exec_bind] at h
  cases hx : exec x s with
  | mk result mid =>
    rw [hx] at h
    cases result with
    | ok a => exact ⟨a, mid, rfl, h⟩
    | error e => cases h

section Guarantee

/-- Whatever the outcome, the step moves the state along `R`. -/
def Guarantees (R : σ → σ → Prop) (x : Step ε σ α) : Prop :=
  ∀ s, R s (exec x s).2

variable {R : σ → σ → Prop}

theorem Guarantees.pure [Std.Refl R] (a : α) : Guarantees R (pure a : Step ε σ α) :=
  fun s => Std.Refl.refl s

theorem Guarantees.bind [IsTrans σ R] {x : Step ε σ α} {f : α → Step ε σ β}
    (hx : Guarantees R x) (hf : ∀ a, Guarantees R (f a)) : Guarantees R (x >>= f) := by
  intro s
  have hfirst := hx s
  rw [exec_bind]
  cases h : exec x s with
  | mk result mid =>
    rw [h] at hfirst
    cases result with
    | ok a => exact IsTrans.trans _ _ _ hfirst (hf a mid)
    | error e => exact hfirst

theorem Guarantees.foldlM [Std.Refl R] [IsTrans σ R] {f : β → α → Step ε σ β} {entries : List α}
    (hf : ∀ acc, ∀ a ∈ entries, Guarantees R (f acc a)) (acc : β) :
    Guarantees R (entries.foldlM f acc) := by
  induction entries generalizing acc with
  | nil => exact Guarantees.pure acc
  | cons a rest ih =>
    rw [List.foldlM_cons]
    refine (hf acc a List.mem_cons_self).bind fun acc' => ?_
    exact ih (fun acc b hb => hf acc b (List.mem_cons_of_mem a hb)) acc'

end Guarantee

section InStep
variable {ε' τ α' β' γ' : Type}

/-- Two outcomes of one kind, with values or errors that are related. -/
def Matches (E : ε → ε' → Prop) (V : α → α' → Prop) : Except ε α → Except ε' α' → Prop
  | .ok a, .ok a' => V a a'
  | .error e, .error e' => E e e'
  | _, _ => False

/-- From related states, two steps over different stores come out alike and in related
states, whether they fail or not. -/
def InStep (R : σ → τ → Prop) (E : ε → ε' → Prop) (V : α → α' → Prop)
    (x : Step ε σ α) (y : Step ε' τ α') : Prop :=
  ∀ s t, R s t → Matches E V (exec x s).1 (exec y t).1 ∧ R (exec x s).2 (exec y t).2

variable {R : σ → τ → Prop} {E : ε → ε' → Prop} {V : α → α' → Prop} {W : β → β' → Prop}

theorem InStep.pure {a : α} {a' : α'} (h : V a a') :
    InStep R E V (Pure.pure a : Step ε σ α) (Pure.pure a' : Step ε' τ α') :=
  fun _ _ hR => ⟨h, hR⟩

theorem InStep.throw {e : ε} {e' : ε'} (h : E e e') :
    InStep R E V (MonadExcept.throw e : Step ε σ α) (MonadExcept.throw e' : Step ε' τ α') :=
  fun _ _ hR => ⟨h, hR⟩

theorem InStep.bind {x : Step ε σ α} {y : Step ε' τ α'} {f : α → Step ε σ β}
    {g : α' → Step ε' τ β'} (hx : InStep R E V x y)
    (hf : ∀ a a', V a a' → InStep R E W (f a) (g a')) : InStep R E W (x >>= f) (y >>= g) := by
  intro s t hR
  obtain ⟨hsame, hmid⟩ := hx s t hR
  rw [exec_bind, exec_bind]
  rcases hxs : exec x s with ⟨_ | a, mid⟩ <;> rcases hyt : exec y t with ⟨_ | a', mid'⟩ <;>
    rw [hxs, hyt] at hsame hmid
  · exact ⟨hsame, hmid⟩
  · exact hsame.elim
  · exact hsame.elim
  · exact hf a a' hsame mid mid' hmid

theorem InStep.foldlM {f : β → γ → Step ε σ β} {g : β' → γ → Step ε' τ β'}
    (hf : ∀ acc acc' entry, W acc acc' → InStep R E W (f acc entry) (g acc' entry))
    (entries : List γ) {acc : β} {acc' : β'} (h : W acc acc') :
    InStep R E W (entries.foldlM f acc) (entries.foldlM g acc') := by
  induction entries generalizing acc acc' with
  | nil => exact InStep.pure h
  | cons entry rest ih =>
    rw [List.foldlM_cons, List.foldlM_cons]
    exact (hf acc acc' entry h).bind fun _ _ h => ih h

end InStep

/-- A loop that succeeds: when every round moves the state along `R` and settles
its entry for good, the loop does so for all of its entries. -/
theorem foldlM_settles {R : σ → σ → Prop} [Std.Refl R] [IsTrans σ R]
    {f : β → α → Step ε σ β} {S : α → σ → Prop}
    (hf : ∀ acc a s acc' s', exec (f acc a) s = (.ok acc', s') →
      R s s' ∧ ∀ later, R s' later → S a later)
    {entries : List α} {acc acc' : β} {s s' : σ}
    (h : exec (entries.foldlM f acc) s = (.ok acc', s')) :
    R s s' ∧ ∀ a ∈ entries, ∀ later, R s' later → S a later := by
  induction entries generalizing acc s with
  | nil =>
    rw [List.foldlM_nil, exec_pure] at h
    cases h
    exact ⟨Std.Refl.refl _, by simp⟩
  | cons a rest ih =>
    rw [List.foldlM_cons] at h
    obtain ⟨mid, s₁, hhead, htail⟩ := exec_bind_ok h
    obtain ⟨hR, hsettled⟩ := hf acc a s mid s₁ hhead
    obtain ⟨hRest, hall⟩ := ih htail
    refine ⟨IsTrans.trans _ _ _ hR hRest, ?_⟩
    intro b hb later hlater
    rcases List.mem_cons.mp hb with rfl | hb
    · exact hsettled later (IsTrans.trans _ _ _ hRest hlater)
    · exact hall b hb later hlater

/-- A loop that succeeds and keeps notes: the state stays in step with the notes
of the entries it went through. -/
theorem foldlM_notes {ν : Type} {R : σ → List ν → Prop} {f : β → α → Step ε σ β}
    {note : α → List ν}
    (hf : ∀ acc a s acc' s' notes, exec (f acc a) s = (.ok acc', s') → R s notes →
      R s' (notes ++ note a))
    {entries : List α} {acc acc' : β} {s s' : σ} {notes : List ν}
    (h : exec (entries.foldlM f acc) s = (.ok acc', s')) (start : R s notes) :
    R s' (notes ++ entries.flatMap note) := by
  induction entries generalizing acc s notes with
  | nil =>
    rw [List.foldlM_nil, exec_pure] at h
    cases h
    simpa using start
  | cons a rest ih =>
    rw [List.foldlM_cons] at h
    obtain ⟨mid, s₁, hhead, htail⟩ := exec_bind_ok h
    have hrest := ih htail (hf acc a s mid s₁ notes hhead start)
    rwa [List.flatMap_cons, ← List.append_assoc]

/-- A loop whose rounds neither fail nor move the state only accumulates. -/
theorem foldlM_stays {f : β → α → Step ε σ β} {g : β → α → β} {s : σ}
    {entries : List α} (acc : β)
    (h : ∀ a ∈ entries, ∀ acc, exec (f acc a) s = (.ok (g acc a), s)) :
    exec (entries.foldlM f acc) s = (.ok (entries.foldl g acc), s) := by
  induction entries generalizing acc with
  | nil => rfl
  | cons a rest ih =>
    rw [List.foldlM_cons, exec_bind, h a List.mem_cons_self acc]
    exact ih (g acc a) fun b hb => h b (List.mem_cons_of_mem a hb)

/-! The same for a computation without a state. -/

theorem bind_ok {x : Except ε α} {f : α → Except ε β} {b : β} (h : (x >>= f) = .ok b) :
    ∃ a, x = .ok a ∧ f a = .ok b := by
  cases x with
  | error e => cases h
  | ok a => exact ⟨a, rfl, h⟩

theorem map_ok {x : Except ε α} {f : α → β} {b : β} (h : x.map f = .ok b) :
    ∃ a, x = .ok a ∧ f a = b := by
  cases x with
  | error e => cases h
  | ok a => exact ⟨a, rfl, Except.ok.inj h⟩

/-- A list whose entries all succeed. -/
theorem mapM_ok {f : α → Except ε β} {xs : List α} {ys : List β} (h : xs.mapM f = .ok ys) :
    List.Forall₂ (fun x y => f x = .ok y) xs ys := by
  induction xs generalizing ys with
  | nil =>
    cases h
    exact .nil
  | cons x xs ih =>
    rw [List.mapM_cons] at h
    obtain ⟨y, hy, hrest⟩ := bind_ok h
    obtain ⟨rest, hxs, hys⟩ := bind_ok hrest
    cases hys
    exact .cons hy (ih hxs)

theorem mapError_ok {x : Except ε α} {f : ε → γ} {a : α} (h : x.mapError f = .ok a) :
    x = .ok a := by
  cases x with
  | error e => cases h
  | ok b => exact congrArg Except.ok (Except.ok.inj h)

/-- A fold that succeeds: when every round moves the accumulator along `R` and settles its
entry for good, the fold does so for all of its entries. -/
theorem foldlM_ok_settles {R : β → β → Prop} [Std.Refl R] [IsTrans β R] {f : β → α → Except ε β}
    {S : α → β → Prop}
    (hf : ∀ acc a acc', f acc a = .ok acc' → R acc acc' ∧ ∀ later, R acc' later → S a later)
    {entries : List α} {acc acc' : β} (h : entries.foldlM f acc = .ok acc') :
    R acc acc' ∧ ∀ a ∈ entries, ∀ later, R acc' later → S a later := by
  induction entries generalizing acc with
  | nil =>
    cases h
    exact ⟨Std.Refl.refl _, by simp⟩
  | cons a rest ih =>
    rw [List.foldlM_cons] at h
    obtain ⟨mid, hhead, htail⟩ := bind_ok h
    obtain ⟨hR, hsettled⟩ := hf acc a mid hhead
    obtain ⟨hRest, hall⟩ := ih htail
    refine ⟨IsTrans.trans _ _ _ hR hRest, ?_⟩
    intro b hb later hlater
    rcases List.mem_cons.mp hb with rfl | hb
    · exact hsettled later (IsTrans.trans _ _ _ hRest hlater)
    · exact hall b hb later hlater

/-- A fold that succeeds and keeps notes: the accumulator stays in step with the notes of the
entries it went through. -/
theorem foldlM_ok_notes {ν : Type} (R : List ν → β → Prop) (note : α → List ν)
    {f : β → α → Except ε β}
    (hf : ∀ notes acc a acc', f acc a = .ok acc' → R notes acc → R (notes ++ note a) acc')
    {entries : List α} {acc acc' : β} {notes : List ν} (h : entries.foldlM f acc = .ok acc')
    (start : R notes acc) : R (notes ++ entries.flatMap note) acc' := by
  induction entries generalizing acc notes with
  | nil =>
    cases h
    simpa using start
  | cons a rest ih =>
    rw [List.foldlM_cons] at h
    obtain ⟨mid, hhead, htail⟩ := bind_ok h
    rw [List.flatMap_cons, ← List.append_assoc]
    exact ih htail (hf notes acc a mid hhead start)

end LakeFsAuth.Library.Fallible
