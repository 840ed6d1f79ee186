import LakeFsAuth.Library.Program

/-! Programs against answers that are given in advance. A program can be dropped at a call,
before the answer. -/
namespace LakeFsAuth.Library.Program
variable {Op Op' : Type} {Reply : Op → Type} {Reply' : Op' → Type} {α β : Type}

/-- What becomes of a program. -/
inductive Outcome (Op α : Type) where
  | finished (value : α)
  | dropped (op : Op)

/-- A program against the answers to its calls, counted from `n`. -/
def serve (answer : Nat → (op : Op) → Reply op) (drops : Nat → Op → Bool) (n : Nat) :
    Program Op Reply α → List (Entry Reply) × Outcome Op α
  | done value => ([], .finished value)
  | call op next =>
      if drops n op then ([], .dropped op)
      else
        let (log, outcome) := serve answer drops (n + 1) (next (answer n op))
        (⟨op, answer n op⟩ :: log, outcome)

/-- The calls a program made to its end, and its answer. -/
inductive Returns : Program Op Reply α → List (Entry Reply) → α → Prop where
  | done (value : α) : Returns (.done value) [] value
  | call {op : Op} {next : Reply op → Program Op Reply α} {reply : Reply op}
      {log : List (Entry Reply)} {value : α} (rest : Returns (next reply) log value) :
      Returns (.call op next) (⟨op, reply⟩ :: log) value

theorem returns_of_serve {answer : Nat → (op : Op) → Reply op} {drops : Nat → Op → Bool} {n : Nat}
    {p : Program Op Reply α} {log : List (Entry Reply)} {value : α}
    (h : p.serve answer drops n = (log, .finished value)) : Returns p log value := by
  induction p generalizing n log with
  | done value =>
    cases h
    exact .done _
  | call op next ih =>
    rw [serve] at h
    split at h
    · cases h
    · obtain ⟨hlog, houtcome⟩ := Prod.mk.inj h
      rw [← hlog]
      exact .call (ih _ (Prod.ext rfl houtcome))

/-- A program that is never dropped comes to its end. -/
theorem serve_finishes {answer : Nat → (op : Op) → Reply op} {drops : Nat → Op → Bool}
    (keeps : ∀ n op, drops n op = false) (p : Program Op Reply α) (n : Nat) :
    ∃ log value, p.serve answer drops n = (log, .finished value) := by
  induction p generalizing n with
  | done value => exact ⟨[], value, rfl⟩
  | call op next ih =>
    obtain ⟨log, value, hserve⟩ := ih (answer n op) (n + 1)
    exact ⟨_, value, by rw [serve, keeps, hserve]; rfl⟩

theorem Returns.of_done {value result : α} {log : List (Entry Reply)}
    (h : Returns (pure value : Program Op Reply α) log result) : log = [] ∧ result = value := by
  cases h
  exact ⟨rfl, rfl⟩

theorem Returns.of_perform {op : Op} {log : List (Entry Reply)} {reply : Reply op}
    (h : Returns (perform op) log reply) : log = [⟨op, reply⟩] := by
  cases h with
  | call rest =>
    cases rest
    rfl

/-- The calls of two programs, one after the other. -/
theorem Returns.of_bind {p : Program Op Reply α} {f : α → Program Op Reply β}
    {log : List (Entry Reply)} {result : β} (h : Returns (p >>= f) log result) :
    ∃ first rest value, log = first ++ rest ∧ Returns p first value ∧
      Returns (f value) rest result := by
  induction p generalizing log with
  | done value => exact ⟨[], log, value, rfl, .done value, h⟩
  | call op next ih =>
    cases h with
    | call rest =>
      obtain ⟨first, later, value, rfl, hfirst, hlater⟩ := ih _ rest
      exact ⟨_ :: first, later, value, rfl, .call hfirst, hlater⟩

/-! A program of some of the calls, among the others. -/

abbrev Either (Reply : Op → Type) (Reply' : Op' → Type) : Op ⊕ Op' → Type :=
  Sum.elim Reply Reply'

def right : Program Op' Reply' α → Program (Op ⊕ Op') (Either Reply Reply') α
  | done value => done value
  | call op next => call (.inr op) fun reply => (next reply).right

def Entry.right (entry : Entry Reply') : Entry (Either Reply Reply') := ⟨.inr entry.1, entry.2⟩

theorem Returns.of_right {p : Program Op' Reply' α} {log : List (Entry (Either Reply Reply'))}
    {value : α} (h : Returns p.right log value) :
    ∃ calls, log = calls.map Entry.right ∧ Returns p calls value := by
  induction p generalizing log with
  | done _ =>
    cases h
    exact ⟨[], rfl, .done _⟩
  | call op next ih =>
    cases h with
    | @call _ _ reply _ _ rest =>
      obtain ⟨calls, rfl, hcalls⟩ := ih reply rest
      exact ⟨⟨op, reply⟩ :: calls, rfl, .call hcalls⟩

end LakeFsAuth.Library.Program
