import LakeFsAuth.Library.Program

/-! Two runs at once, over states that differ in what cannot be seen. Whatever one run does the
other can do as well, and programs that are answered alike answer alike. -/
namespace LakeFsAuth.Library.Program

section Twins
variable {Op : Type} {Reply : Op → Type} {α β σ ι : Type} {Plain : Op → Prop}
  {Alike : (op : Op) → Reply op → Reply op → Prop}

/-- Two programs that make the same calls, as long as the replies are alike, and end in values
that are related. -/
inductive Twin (Plain : Op → Prop) (Alike : (op : Op) → Reply op → Reply op → Prop)
    (Post : α → α → Prop) : Program Op Reply α → Program Op Reply α → Prop where
  | done {value value' : α} (h : Post value value') : Twin Plain Alike Post (.done value) (.done value')
  | call {op : Op} {next next' : Reply op → Program Op Reply α} (plain : Plain op)
      (h : ∀ reply reply', Alike op reply reply' → Twin Plain Alike Post (next reply) (next' reply')) :
      Twin Plain Alike Post (.call op next) (.call op next')

theorem Twin.bind {Post : α → α → Prop} {Post' : β → β → Prop} {p p' : Program Op Reply α}
    {f f' : α → Program Op Reply β} (twin : Twin Plain Alike Post p p')
    (h : ∀ value value', Post value value' → Twin Plain Alike Post' (f value) (f' value')) :
    Twin Plain Alike Post' (p >>= f) (p' >>= f') := by
  induction twin with
  | done related => exact h _ _ related
  | call plain _ ih => exact .call plain ih

/-- A program that sees nothing of the difference is its own twin. -/
theorem Twin.of_only {p : Program Op Reply α}
    (only : Only (fun op => Plain op ∧ ∀ reply reply', Alike op reply reply' → reply = reply') p) :
    Twin Plain Alike (· = ·) p p := by
  induction p with
  | done value => exact .done rfl
  | call op next ih =>
    refine .call only.1.1 fun reply reply' alike => ?_
    rw [only.1.2 reply reply' alike]
    exact ih reply' (only.2 reply')

theorem Twin.of_done {Post : α → α → Prop} {value : α} {p : Program Op Reply α}
    (twin : Twin Plain Alike Post (.done value) p) : ∃ value', p = .done value' ∧ Post value value' := by
  cases twin with
  | done h => exact ⟨_, rfl, h⟩

/-- No call is left. -/
def Ends : Program Op Reply α → Prop
  | .done _ => True
  | .call _ _ => False

theorem Twin.of_ends {p p' : Program Op Reply α} (h : Ends p) (h' : Ends p') :
    Twin Plain Alike (fun _ _ => True) p p' := by
  cases p with
  | done value =>
    cases p' with
    | done value' => exact .done trivial
    | call op next => exact h'.elim
  | call op next => exact h.elim

section Pool
variable [DecidableEq ι] {Exec : (op : Op) → σ → Reply op → σ → Prop} {R : σ → σ → Prop}
  {Others : Op → Prop} {start start' now : ι → Program Op Reply α} {Post : ι → α → α → Prop}
  {s₀ s t₀ : σ} {log : List (Record Reply σ ι)}

/-- Who called what, and nothing of the replies. -/
def schedule (log : List (Record Reply σ ι)) : List (Option ι × Op) :=
  log.map fun record => (record.who, record.entry.1)

/-- States that cannot be told apart stay so, and a call is answered alike in both. -/
def Indistinct (Exec : (op : Op) → σ → Reply op → σ → Prop) (Plain : Op → Prop)
    (Alike : (op : Op) → Reply op → Reply op → Prop) (R : σ → σ → Prop) : Prop :=
  ∀ {op s reply s' t}, Plain op → R s t → Exec op s reply s' →
    ∃ reply' t', Exec op t reply' t' ∧ Alike op reply reply' ∧ R s' t'

/-- A run over one of two states has a twin over the other, with the same schedule. -/
theorem Pool.twin (pool : Pool Exec Others start s₀ log now s)
    (indistinct : Indistinct Exec Plain Alike R) (others : ∀ op, Others op → Plain op)
    (init : R s₀ t₀) (h : ∀ i, Twin Plain Alike (Post i) (start i) (start' i)) :
    ∃ log' now' t, Pool Exec Others start' t₀ log' now' t ∧ R s t ∧
      schedule log' = schedule log ∧ ∀ i, Twin Plain Alike (Post i) (now i) (now' i) := by
  induction pool with
  | start => exact ⟨[], start', t₀, .start, init, rfl, h⟩
  | @own log now s s' i op next reply pool turn exec ih =>
    obtain ⟨log', now', t, pool', related, hschedule, twins⟩ := ih
    have htwin := twins i
    rw [turn] at htwin
    generalize hprogram : now' i = program at htwin
    cases htwin with
    | @call _ _ next' plain hnext =>
      obtain ⟨reply', t', exec', alike, related'⟩ := indistinct plain related exec
      refine ⟨_, _, t', .own pool' hprogram exec', related', ?_, fun j => ?_⟩
      · simp only [schedule, List.map_append, List.map_cons, List.map_nil] at hschedule ⊢
        rw [hschedule]
      · by_cases hij : j = i
        · subst hij
          rw [Function.update_self, Function.update_self]
          exact hnext reply reply' alike
        · rw [Function.update_of_ne hij, Function.update_of_ne hij]
          exact twins j
  | @other log now s s' op reply pool allowed exec ih =>
    obtain ⟨log', now', t, pool', related, hschedule, twins⟩ := ih
    obtain ⟨reply', t', exec', _, related'⟩ := indistinct (others op allowed) related exec
    refine ⟨_, now', t', .other pool' allowed exec', related', ?_, twins⟩
    simp only [schedule, List.map_append, List.map_cons, List.map_nil] at hschedule ⊢
    rw [hschedule]

end Pool

end Twins

end LakeFsAuth.Library.Program
