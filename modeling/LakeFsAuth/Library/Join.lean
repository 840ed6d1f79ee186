import Mathlib.Algebra.Ring.Nat
import LakeFsAuth.Library.Replay

/-! Programs side by side in one task, what they return, and what they may spend on calls. -/
namespace LakeFsAuth.Library.Program
variable {Op : Type} {Reply : Op → Type} {ε α β σ ι : Type}

/-! Budgets. -/

/-- No more than `n` is spent on calls, whatever they answer. Some answers give a part back. -/
def Budget (cost : Op → Nat) (refund : (op : Op) → Reply op → Nat) :
    Nat → Program Op Reply α → Prop
  | _, done _ => True
  | n, call op next => cost op ≤ n ∧
      ∀ reply, Budget cost refund (n - cost op + refund op reply) (next reply)

/-- No answer gives anything back. -/
def final (op : Op) (_ : Reply op) : Nat := 0

section Budget
variable {cost : Op → Nat} {refund : (op : Op) → Reply op → Nat} {m n : Nat}
  {p : Program Op Reply α}

theorem Budget.mono (h : Budget cost refund n p) (more : n ≤ m) : Budget cost refund m p := by
  induction p generalizing m n with
  | done value => trivial
  | call op next ih => exact ⟨Nat.le_trans h.1 more, fun reply => ih reply (h.2 reply) (by omega)⟩

theorem Budget.bind {f : α → Program Op Reply β} (hp : Budget cost refund n p)
    (hf : ∀ value, Budget cost refund m (f value)) : Budget cost refund (n + m) (p >>= f) := by
  induction p generalizing n with
  | done value => exact (hf value).mono (Nat.le_add_left m n)
  | call op next ih =>
    have hop := hp.1
    refine ⟨by omega, fun reply => (ih reply (hp.2 reply)).mono (by omega)⟩

theorem Budget.perform_bind {op : Op} {f : Reply op → Program Op Reply α} (h : cost op ≤ n)
    (hf : ∀ reply, Budget cost refund (n - cost op + refund op reply) (f reply)) :
    Budget cost refund n (perform op >>= f) :=
  ⟨h, hf⟩

/-- A program of calls that are free spends nothing. -/
theorem Only.budget (only : Only (fun op => cost op = 0) p) : Budget cost refund n p := by
  induction p generalizing n with
  | done value => trivial
  | call op next ih =>
    have hfree := only.1
    exact ⟨by omega, fun reply => ih reply (only.2 reply)⟩

/-- What a log cost. -/
def spent (cost : Op → Nat) (log : List (Entry Reply)) : Nat := (log.map fun entry => cost entry.1).sum

/-- What the answers of a log gave back. -/
def refunded (refund : (op : Op) → Reply op → Nat) (log : List (Entry Reply)) : Nat :=
  (log.map fun entry => refund entry.1 entry.2).sum

@[simp] theorem refunded_final (log : List (Entry Reply)) : refunded final log = 0 := by
  induction log with
  | nil => rfl
  | cons entry log ih => simp [refunded, final]

/-- What a program of a pool spent is within its budget, and so is what it may still spend. -/
theorem Pool.within [DecidableEq ι] {Exec : (op : Op) → σ → Reply op → σ → Prop}
    {Others : Op → Prop} {start now : ι → Program Op Reply α} {s₀ s : σ}
    {log : List (Record Reply σ ι)} (pool : Pool Exec Others start s₀ log now s)
    {limit : ι → Nat} (h : ∀ i, Budget cost refund (limit i) (start i)) (i : ι) :
    spent cost (callsOf i log) ≤ limit i + refunded refund (callsOf i log) ∧
      Budget cost refund (limit i + refunded refund (callsOf i log) - spent cost (callsOf i log))
        (now i) := by
  induction pool with
  | start => exact ⟨Nat.zero_le _, h i⟩
  | @own log now s s' j op next reply pool turn exec ih =>
    by_cases hij : j = i
    · subst hij
      rw [turn] at ih
      obtain ⟨hspent, hcost, hnext⟩ := ih
      rw [callsOf_snoc_same j log _ rfl, Function.update_self]
      have hmore : spent cost (callsOf j log ++ [⟨op, reply⟩]) =
          spent cost (callsOf j log) + cost op := by
        simp [spent]
      have hback : refunded refund (callsOf j log ++ [⟨op, reply⟩]) =
          refunded refund (callsOf j log) + refund op reply := by
        simp [refunded]
      rw [hmore, hback]
      exact ⟨by omega, (hnext reply).mono (by omega)⟩
    · have hother : some j ≠ some i := by simpa using hij
      rw [callsOf_snoc_other i log _ hother, Function.update_of_ne (Ne.symm hij)]
      exact ih
  | @other log now s s' op reply pool allowed exec ih =>
    have hother : none ≠ some i := by simp
    rw [callsOf_snoc_other i log _ hother]
    exact ih

/-- Where nothing is given back, the budget is a bound. -/
theorem Pool.spends [DecidableEq ι] {Exec : (op : Op) → σ → Reply op → σ → Prop}
    {Others : Op → Prop} {start now : ι → Program Op Reply α} {s₀ s : σ}
    {log : List (Record Reply σ ι)} (pool : Pool Exec Others start s₀ log now s)
    {limit : ι → Nat} (h : ∀ i, Budget cost final (limit i) (start i)) (i : ι) :
    spent cost (callsOf i log) ≤ limit i := by
  simpa using (pool.within h i).1

end Budget

/-! What a program may call, given what its calls answered so far. -/

/-- Every call is allowed, given the calls before and whatever they answered. -/
def Guided (Allowed : List (Entry Reply) → Op → Prop) (p : Program Op Reply α)
    (log : List (Entry Reply)) : Prop :=
  Meets (Seen fun _ _ => True) (fun log _ op => Allowed log op) (fun _ _ _ => True) p log ()

/-- More calls before allow no less. -/
def Lasting (Allowed : List (Entry Reply) → Op → Prop) : Prop :=
  ∀ log log' op, log ⊆ log' → Allowed log op → Allowed log' op

section Guided
variable {Allowed : List (Entry Reply) → Op → Prop} {p : Program Op Reply α}
  {log : List (Entry Reply)}

theorem Guided.done (value : α) : Guided Allowed (.done value : Program Op Reply α) log := trivial

/-- A program may go on after calls of others in the same task. -/
theorem Guided.after {log' : List (Entry Reply)} (lasting : Lasting Allowed)
    (h : Guided Allowed p log) (more : log ⊆ log') : Guided Allowed p log' := by
  induction p generalizing log log' with
  | done value => trivial
  | call op next ih =>
    refine ⟨lasting _ _ op more h.1, fun reply _ _ => ih reply (h.2 reply () trivial) ?_⟩
    exact List.append_subset.mpr ⟨List.subset_append_of_subset_left _ more,
      List.subset_append_right _ _⟩

theorem Guided.bind {f : α → Program Op Reply β} (lasting : Lasting Allowed)
    (hp : Guided Allowed p log) (hf : ∀ value, Guided Allowed (f value) log) :
    Guided Allowed (p >>= f) log :=
  hp.extends.bind fun _ _ value hlog => (hf value).after lasting hlog.1.subset

end Guided

/-! What a program returned. -/

theorem Only.returned {P : Op → Prop} {p : Program Op Reply α} (only : Only P p)
    {log : List (Entry Reply)} {value : α} (h : Returns p log value) : ∀ entry ∈ log, P entry.1 := by
  induction h with
  | done value => simp
  | call rest ih =>
    rintro entry (_ | ⟨_, hlater⟩)
    · exact only.1
    · exact ih (only.2 _) entry hlater

/-- Every call a program of a pool made is one it can make. -/
theorem Pool.only [DecidableEq ι] {Exec : (op : Op) → σ → Reply op → σ → Prop} {Others : Op → Prop}
    {start now : ι → Program Op Reply α} {s₀ s : σ} {log : List (Record Reply σ ι)}
    (pool : Pool Exec Others start s₀ log now s) {P : ι → Op → Prop} (h : ∀ i, Only (P i) (start i))
    {i : ι} {record : Record Reply σ ι} (hmem : record ∈ log) (hwho : record.who = some i) :
    P i record.entry.1 := by
  obtain ⟨earlier, later, hlog⟩ := List.append_of_mem hmem
  have lawful : Lawful Exec (fun _ => True) fun _ _ => True := ⟨fun _ _ => trivial, fun _ _ => trivial⟩
  exact pool.allows lawful trivial (fun i => (h i).allows fun _ _ _ hop => hop) hlog hwho

/-- The calls of a program of some of the calls are among them. -/
theorem Only.right {Op' : Type} {Reply' : Op' → Type} {P : Op ⊕ Op' → Prop}
    (h : ∀ op, P (.inr op)) (p : Program Op' Reply' α) :
    Only P (p.right : Program (Op ⊕ Op') (Either Reply Reply') α) := by
  induction p with
  | done value => trivial
  | call op next ih => exact ⟨h op, ih⟩

/-- A judgement against single replies, of a program that returned on such replies. -/
theorem Meets.returned {Law : (op : Op) → Reply op → Prop}
    {Allowed : List (Entry Reply) → Unit → Op → Prop} {Post : List (Entry Reply) → Unit → α → Prop}
    {p : Program Op Reply α} {before log : List (Entry Reply)} {value : α}
    (h : Meets (Seen Law) Allowed Post p before ()) (returns : Returns p log value)
    (lawful : ∀ entry ∈ log, Law entry.1 entry.2) : Post (before ++ log) () value := by
  induction returns generalizing before with
  | done value => rwa [List.append_nil]
  | @call op next reply log value rest ih =>
    have hlaw : Law op reply := lawful ⟨op, reply⟩ List.mem_cons_self
    have hnext := ih (h.2 reply () hlaw) fun entry hmem => lawful entry (List.mem_cons_of_mem _ hmem)
    rwa [List.append_assoc] at hnext

theorem Yields.returned {P : α → Prop} {p : Program Op Reply α} (yields : Yields P p)
    {log : List (Entry Reply)} {value : α} (h : Returns p log value) : P value := by
  induction h with
  | done value => exact yields
  | call rest ih => exact ih (yields _)

/-- What comes after a program that answers anything. -/
theorem Yields.after {P : β → Prop} {p : Program Op Reply α} {f : α → Program Op Reply β}
    (h : ∀ value, Yields P (f value)) : Yields P (p >>= f) := by
  induction p with
  | done value => exact h value
  | call op next ih => exact ih

/-- A program of a pool that is done returned, on the calls it made. -/
theorem Pool.returns [DecidableEq ι] {Exec : (op : Op) → σ → Reply op → σ → Prop}
    {Others : Op → Prop} {start now : ι → Program Op Reply α} {s₀ s : σ}
    {log : List (Record Reply σ ι)} (pool : Pool Exec Others start s₀ log now s) {i : ι}
    {later : List (Entry Reply)} {value : α} (h : Returns (now i) later value) :
    Returns (start i) (callsOf i log ++ later) value := by
  induction pool generalizing later with
  | start => exact h
  | @own log now s s' j op next reply pool turn exec ih =>
    by_cases hij : j = i
    · subst hij
      rw [Function.update_self] at h
      rw [callsOf_snoc_same j log _ rfl, List.append_assoc]
      exact ih (turn ▸ .call h)
    · have hother : some j ≠ some i := by simpa using hij
      rw [Function.update_of_ne (Ne.symm hij)] at h
      rw [callsOf_snoc_other i log _ hother]
      exact ih h
  | @other log now s s' op reply pool allowed exec ih =>
    have hother : none ≠ some i := by simp
    rw [callsOf_snoc_other i log _ hother]
    exact ih h

theorem Pool.finished [DecidableEq ι] {Exec : (op : Op) → σ → Reply op → σ → Prop}
    {Others : Op → Prop} {start now : ι → Program Op Reply α} {s₀ s : σ}
    {log : List (Record Reply σ ι)} (pool : Pool Exec Others start s₀ log now s) {i : ι} {value : α}
    (finished : now i = .done value) : Returns (start i) (callsOf i log) value := by
  have hdone : Returns (now i) [] value := finished ▸ .done value
  have hreturns := pool.returns hdone
  rwa [List.append_nil] at hreturns

/-! Two programs in one task. Each turn one of them goes on, as `turn` is answered; the first
error ends both. -/

section Join
variable (turn : Op) (first : Reply turn → Bool)

/-- A program that waits for `op`, beside another. -/
def beside (op : Op) (joined : Reply op → Program Op Reply (Except ε β) →
    Program Op Reply (Except ε (α × β))) :
    Program Op Reply (Except ε β) → Program Op Reply (Except ε (α × β))
  | done (.error error) => done (.error error)
  | done (.ok value) => call op fun reply => joined reply (done (.ok value))
  | call op' next => call turn fun answer =>
      if first answer then call op fun reply => joined reply (call op' next)
      else call op' fun reply => beside op joined (next reply)

/-- `try_join`. -/
def tryJoin : Program Op Reply (Except ε α) → Program Op Reply (Except ε β) →
    Program Op Reply (Except ε (α × β))
  | done (.error error), _ => done (.error error)
  | done (.ok value), q => q >>= fun result => done (result.map (value, ·))
  | call op next, q => beside turn first op (fun reply => tryJoin (next reply)) q

/-- Both programs are taken apart, the calls of one with the other as it stands. -/
theorem pair_induct {γ : Type} {motive : Program Op Reply α → Program Op Reply γ → Prop}
    (left : ∀ value q, motive (done value) q)
    (right : ∀ op next value, (∀ reply, motive (next reply) (done value)) →
      motive (call op next) (done value))
    (both : ∀ op next op' next', (∀ reply, motive (next reply) (call op' next')) →
      (∀ reply, motive (call op next) (next' reply)) → motive (call op next) (call op' next'))
    (p : Program Op Reply α) (q : Program Op Reply γ) : motive p q := by
  induction p generalizing q with
  | done value => exact left value q
  | call op next ih =>
    induction q with
    | done value => exact right op next value fun reply => ih reply _
    | call op' next' ih' => exact both op next op' next' (fun reply => ih reply _) ih'

variable {turn first} {p : Program Op Reply (Except ε α)} {q : Program Op Reply (Except ε β)}

@[simp] theorem tryJoin_failed (error : ε) (q : Program Op Reply (Except ε β)) :
    tryJoin turn first (done (.error error) : Program Op Reply (Except ε α)) q = done (.error error) := rfl

@[simp] theorem tryJoin_last (value : α) (q : Program Op Reply (Except ε β)) :
    tryJoin turn first (done (.ok value)) q = q >>= fun result => done (result.map (value, ·)) := rfl

@[simp] theorem tryJoin_call_failed (op : Op) (next : Reply op → Program Op Reply (Except ε α))
    (error : ε) : tryJoin turn first (call op next) (done (.error error) : Program Op Reply (Except ε β)) =
      done (.error error) := rfl

@[simp] theorem tryJoin_call_done (op : Op) (next : Reply op → Program Op Reply (Except ε α))
    (value : β) : tryJoin turn first (call op next) (done (.ok value)) =
      call op fun reply => tryJoin turn first (next reply) (done (.ok value)) := rfl

@[simp] theorem tryJoin_call_call (op op' : Op) (next : Reply op → Program Op Reply (Except ε α))
    (next' : Reply op' → Program Op Reply (Except ε β)) :
    tryJoin turn first (call op next) (call op' next') = call turn fun answer =>
      if first answer then call op fun reply => tryJoin turn first (next reply) (call op' next')
      else call op' fun reply => tryJoin turn first (call op next) (next' reply) := rfl

theorem Guided.tryJoin {Allowed : List (Entry Reply) → Op → Prop} {log : List (Entry Reply)}
    (lasting : Lasting Allowed) (hturn : ∀ log, Allowed log turn) (hp : Guided Allowed p log)
    (hq : Guided Allowed q log) : Guided Allowed (tryJoin turn first p q) log := by
  induction p, q using pair_induct generalizing log with
  | left result q =>
    cases result with
    | error error => trivial
    | ok value => exact hq.bind lasting fun _ => trivial
  | right op next result ih =>
    cases result with
    | error error => trivial
    | ok value => exact ⟨hp.1, fun reply _ _ => ih reply (hp.2 reply () trivial) (Guided.done _)⟩
  | both op next op' next' ih ih' =>
    rw [tryJoin_call_call]
    refine ⟨hturn log, fun answer _ _ => ?_⟩
    have later := hp.after lasting (List.subset_append_left log [⟨turn, answer⟩])
    have later' := hq.after lasting (List.subset_append_left log [⟨turn, answer⟩])
    dsimp only
    split
    · refine ⟨later.1, fun reply _ _ => ih reply (later.2 reply () trivial) ?_⟩
      exact later'.after lasting (List.subset_append_left _ _)
    · refine ⟨later'.1, fun reply _ _ => ih' reply ?_ (later'.2 reply () trivial)⟩
      exact later.after lasting (List.subset_append_left _ _)

/-- Turns are free, so both spend what they would alone. -/
theorem Budget.tryJoin {cost : Op → Nat} {refund : (op : Op) → Reply op → Nat} {m n : Nat}
    (free : cost turn = 0) (hp : Budget cost refund m p) (hq : Budget cost refund n q) :
    Budget cost refund (m + n) (tryJoin turn first p q) := by
  induction p, q using pair_induct generalizing m n with
  | left result q =>
    cases result with
    | error error => trivial
    | ok value =>
      have hmap (result : Except ε β) :
          Budget cost refund 0 (done (result.map (value, ·)) : Program Op Reply _) := trivial
      exact (hq.bind hmap).mono (Nat.le_add_left n m)
  | right op next result ih =>
    cases result with
    | error error => trivial
    | ok value =>
      have hop := hp.1
      exact ⟨by omega, fun reply => (ih reply (hp.2 reply) hq).mono (by omega)⟩
  | both op next op' next' ih ih' =>
    have hop := hp.1
    have hop' := hq.1
    rw [tryJoin_call_call]
    refine ⟨by omega, fun answer => ?_⟩
    dsimp only
    rw [free, Nat.sub_zero]
    split
    · exact ⟨by omega, fun reply => (ih reply (hp.2 reply) hq).mono (by omega)⟩
    · exact ⟨by omega, fun reply => (ih' reply hp (hq.2 reply)).mono (by omega)⟩

/-- Both programs returned as they would alone, or one of them returned the error, on calls of
this log. -/
def Joined (p : Program Op Reply (Except ε α)) (q : Program Op Reply (Except ε β))
    (log : List (Entry Reply)) (result : Except ε (α × β)) : Prop :=
  (∃ a b left right, result = .ok (a, b) ∧ Returns p left (.ok a) ∧ Returns q right (.ok b) ∧
    left.Sublist log ∧ right.Sublist log) ∨
  ∃ error mine, result = .error error ∧ mine.Sublist log ∧
    (Returns p mine (.error error) ∨ Returns q mine (.error error))

section Joined
variable {log : List (Entry Reply)} {result : Except ε (α × β)} {op : Op}

theorem Joined.skip (h : Joined p q log result) (entry : Entry Reply) :
    Joined p q (entry :: log) result := by
  rcases h with ⟨a, b, left, right, hresult, hp, hq, hleft, hright⟩ | ⟨error, mine, hresult, hmine, h⟩
  · exact .inl ⟨a, b, left, right, hresult, hp, hq, hleft.cons _, hright.cons _⟩
  · exact .inr ⟨error, mine, hresult, hmine.cons _, h⟩

theorem Joined.left {next : Reply op → Program Op Reply (Except ε α)} {reply : Reply op}
    (h : Joined (next reply) q log result) : Joined (call op next) q (⟨op, reply⟩ :: log) result := by
  rcases h with ⟨a, b, left, right, hresult, hp, hq, hleft, hright⟩ |
    ⟨error, mine, hresult, hmine, hp | hq⟩
  · exact .inl ⟨a, b, _, right, hresult, .call hp, hq, hleft.cons_cons _, hright.cons _⟩
  · exact .inr ⟨error, _, hresult, hmine.cons_cons _, .inl (.call hp)⟩
  · exact .inr ⟨error, mine, hresult, hmine.cons _, .inr hq⟩

theorem Joined.right {next : Reply op → Program Op Reply (Except ε β)} {reply : Reply op}
    (h : Joined p (next reply) log result) : Joined p (call op next) (⟨op, reply⟩ :: log) result := by
  rcases h with ⟨a, b, left, right, hresult, hp, hq, hleft, hright⟩ |
    ⟨error, mine, hresult, hmine, hp | hq⟩
  · exact .inl ⟨a, b, left, _, hresult, hp, .call hq, hleft.cons _, hright.cons_cons _⟩
  · exact .inr ⟨error, mine, hresult, hmine.cons _, .inl hp⟩
  · exact .inr ⟨error, _, hresult, hmine.cons_cons _, .inr (.call hq)⟩

/-- Whose turn it is can only decide between errors. -/
theorem Returns.of_tryJoin (h : Returns (tryJoin turn first p q) log result) : Joined p q log result := by
  induction p, q using pair_induct generalizing log with
  | left value q =>
    cases value with
    | error error =>
      obtain ⟨rfl, rfl⟩ := h.of_done
      exact .inr ⟨error, [], rfl, .slnil, .inl (.done _)⟩
    | ok value =>
      obtain ⟨mine, rest, found, rfl, hq, hdone⟩ := h.of_bind
      obtain ⟨rfl, rfl⟩ := hdone.of_done
      rw [List.append_nil]
      cases found with
      | error error => exact .inr ⟨error, mine, rfl, .refl _, .inr hq⟩
      | ok found => exact .inl ⟨value, found, [], mine, rfl, .done _, hq, List.nil_sublist _, .refl _⟩
  | right op next value ih =>
    cases value with
    | error error =>
      obtain ⟨rfl, rfl⟩ := h.of_done
      exact .inr ⟨error, [], rfl, .slnil, .inr (.done _)⟩
    | ok value =>
      cases h with
      | call rest => exact (ih _ rest).left
  | both op next op' next' ih ih' =>
    rw [tryJoin_call_call] at h
    cases h with
    | @call _ _ answer _ _ rest =>
      refine Joined.skip ?_ _
      dsimp only at rest
      split at rest
      · cases rest with
        | call rest => exact (ih _ rest).left
      · cases rest with
        | call rest => exact (ih' _ rest).right

end Joined

end Join

end LakeFsAuth.Library.Program
