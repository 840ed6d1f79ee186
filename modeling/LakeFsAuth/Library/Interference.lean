import LakeFsAuth.Library.Program

/-! Programs that share a state others move too. A program is judged against every move
the others may make before each of its calls and after its answer, and each of its own calls
has to be such a move. -/
namespace LakeFsAuth.Library.Program

variable {Op : Type} {Reply : Op → Type} {α β σ ι : Type}

/-- Whatever the others do in between, every call is a move the others allow for, and the
answer is good. -/
def Withstands (Exec : (op : Op) → σ → Reply op → σ → Prop) (Rely : σ → σ → Prop)
    (Post : σ → α → Prop) : Program Op Reply α → σ → Prop
  | done value, s => ∀ s', Rely s s' → Post s' value
  | call op next, s => ∀ s', Rely s s' → ∀ reply s'', Exec op s' reply s'' →
      Rely s' s'' ∧ Withstands Exec Rely Post (next reply) s''

section Rules
variable {Exec : (op : Op) → σ → Reply op → σ → Prop} {Rely : σ → σ → Prop}
  {Post : σ → α → Prop}

/-- A judgement holds on after moves of the others. -/
theorem Withstands.later [IsTrans σ Rely] {p : Program Op Reply α} {s s' : σ}
    (h : Withstands Exec Rely Post p s) (moved : Rely s s') : Withstands Exec Rely Post p s' := by
  cases p with
  | done value => exact fun s'' moves => h s'' (IsTrans.trans _ _ _ moved moves)
  | call op next => exact fun s'' moves => h s'' (IsTrans.trans _ _ _ moved moves)

theorem Withstands.answer {value : α} {s : σ} (stable : ∀ s', Rely s s' → Post s' value) :
    Withstands Exec Rely Post (pure value) s := stable

theorem Withstands.perform_bind {op : Op} {f : Reply op → Program Op Reply α} {s : σ}
    (h : ∀ s', Rely s s' → ∀ reply s'', Exec op s' reply s'' →
      Rely s' s'' ∧ Withstands Exec Rely Post (f reply) s'') :
    Withstands Exec Rely Post (perform op >>= f) s := h

/-- The answer of the first part stays good while the second runs. -/
theorem Withstands.bind [Std.Refl Rely] [IsTrans σ Rely] {Mid : σ → β → Prop}
    {p : Program Op Reply β} {f : β → Program Op Reply α} {s : σ}
    (hp : Withstands Exec Rely Mid p s)
    (hf : ∀ s' value, Rely s s' → (∀ later, Rely s' later → Mid later value) →
      Withstands Exec Rely Post (f value) s') :
    Withstands Exec Rely Post (p >>= f) s := by
  induction p generalizing s with
  | done value => exact hf s value (refl s) hp
  | call op next ih =>
    intro s' moves reply s'' exec
    obtain ⟨own, hnext⟩ := hp s' moves reply s'' exec
    refine ⟨own, ih reply hnext fun later value moves' => ?_⟩
    exact hf later value (IsTrans.trans _ _ _ (IsTrans.trans _ _ _ moves own) moves')

/-- What stays true whatever the others do is true at the end too. -/
theorem Withstands.frame [IsTrans σ Rely] {Q : σ → Prop} {p : Program Op Reply α} {s : σ}
    (h : Withstands Exec Rely Post p s) (stable : ∀ s', Rely s s' → Q s') :
    Withstands Exec Rely (fun s value => Post s value ∧ Q s) p s := by
  induction p generalizing s with
  | done value => exact fun s' moves => ⟨h s' moves, stable s' moves⟩
  | call op next ih =>
    intro s' moves reply s'' exec
    obtain ⟨own, hnext⟩ := h s' moves reply s'' exec
    refine ⟨own, ih reply hnext fun later moves' => stable later ?_⟩
    exact IsTrans.trans _ _ _ (IsTrans.trans _ _ _ moves own) moves'

theorem Withstands.mono {Post' : σ → α → Prop} {p : Program Op Reply α} {s : σ}
    (h : Withstands Exec Rely Post p s) (weaker : ∀ s value, Post s value → Post' s value) :
    Withstands Exec Rely Post' p s := by
  induction p generalizing s with
  | done value => exact fun s' moves => weaker s' value (h s' moves)
  | call op next ih =>
    intro s' moves reply s'' exec
    obtain ⟨own, hnext⟩ := h s' moves reply s'' exec
    exact ⟨own, ih reply hnext⟩

end Rules

section Pools
variable [DecidableEq ι] {Exec : (op : Op) → σ → Reply op → σ → Prop} {Rely : σ → σ → Prop}
  {Post : ι → σ → α → Prop} {Others : Op → Prop} {start now : ι → Program Op Reply α} {s₀ s : σ}
  {log : List (Record Reply σ ι)}

/-- Programs that withstand each other keep their judgements in a pool. -/
theorem Pool.withstands [Std.Refl Rely] [IsTrans σ Rely]
    (pool : Pool Exec Others start s₀ log now s)
    (others : ∀ op s reply s', Others op → Exec op s reply s' → Rely s s')
    (h : ∀ i, Withstands Exec Rely (Post i) (start i) s₀) :
    Rely s₀ s ∧ ∀ i, Withstands Exec Rely (Post i) (now i) s := by
  induction pool with
  | start => exact ⟨refl s₀, h⟩
  | @own log now s s' i op next reply pool turn exec ih =>
    have hown := ih.2 i
    rw [turn] at hown
    obtain ⟨moved, hnext⟩ := hown s (refl s) reply s' exec
    refine ⟨IsTrans.trans _ _ _ ih.1 moved, fun j => ?_⟩
    by_cases hij : j = i
    · subst hij
      rw [Function.update_self]
      exact hnext
    · rw [Function.update_of_ne hij]
      exact (ih.2 j).later moved
  | @other log now s s' op reply pool allowed exec ih =>
    have moved := others op s reply s' allowed exec
    exact ⟨IsTrans.trans _ _ _ ih.1 moved, fun j => (ih.2 j).later moved⟩

/-- Where every call is answered, a program of a pool can be run to its end. -/
theorem Pool.finishes (total : ∀ op s, ∃ reply s', Exec op s reply s')
    (pool : Pool Exec Others start s₀ log now s) (i : ι) :
    ∃ more now' s' value, Pool Exec Others start s₀ (log ++ more) now' s' ∧
      now' i = .done value := by
  generalize hnow : now i = p
  induction p generalizing log now s with
  | done value => exact ⟨[], now, s, value, by rwa [List.append_nil], hnow⟩
  | call op next ih =>
    obtain ⟨reply, s', exec⟩ := total op s
    obtain ⟨more, now', s'', value, pool', finished⟩ :=
      ih reply (.own pool hnow exec) (Function.update_self i (next reply) now)
    rw [List.append_assoc] at pool'
    exact ⟨_, now', s'', value, pool', finished⟩

end Pools

end LakeFsAuth.Library.Program
