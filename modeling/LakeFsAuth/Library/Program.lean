import Mathlib.Logic.Function.Basic
import LakeFsAuth.Library.EventLog

/-! Programs that call operations one at a time, alone or side by side over one
shared state. What a program may call and what it may answer are judged by the
log of its own calls, so the same judgement holds under every interleaving. -/
namespace LakeFsAuth.Library

inductive Program (Op : Type) (Reply : Op → Type) (α : Type) where
  | done (value : α)
  | call (op : Op) (next : Reply op → Program Op Reply α)

namespace Program
variable {Op : Type} {Reply : Op → Type} {α β σ ι : Type}

def bind : Program Op Reply α → (α → Program Op Reply β) → Program Op Reply β
  | done value, f => f value
  | call op next, f => call op fun reply => (next reply).bind f

instance : Monad (Program Op Reply) where
  pure := done
  bind := bind

@[simp] theorem pure_eq (value : α) : (pure value : Program Op Reply α) = done value := rfl

@[simp] theorem done_bind (value : α) (f : α → Program Op Reply β) :
    (done value >>= f) = f value := rfl

@[simp] theorem call_bind (op : Op) (next : Reply op → Program Op Reply α)
    (f : α → Program Op Reply β) :
    (call op next >>= f) = call op fun reply => next reply >>= f := rfl

/-- The program that makes one call and answers its reply. -/
def perform (op : Op) : Program Op Reply (Reply op) := call op done

/-- A call and its reply. -/
abbrev Entry (Reply : Op → Type) := (op : Op) × Reply op

section Alone
variable (Exec : (op : Op) → σ → Reply op → σ → Prop)

/-- A program that has run some of its calls, with nobody else on the state. -/
inductive Ran (start : Program Op Reply α) (s₀ : σ) :
    List (Entry Reply) → Program Op Reply α → σ → Prop where
  | start : Ran start s₀ [] start s₀
  | call {log : List (Entry Reply)} {op : Op} {next : Reply op → Program Op Reply α}
      {s s' : σ} {reply : Reply op} (ran : Ran start s₀ log (.call op next) s)
      (exec : Exec op s reply s') : Ran start s₀ (log ++ [⟨op, reply⟩]) (next reply) s'

/-- Every call the program makes is allowed, and its answer is good, given the
calls before. -/
def Meets (Allowed : List (Entry Reply) → σ → Op → Prop)
    (Post : List (Entry Reply) → σ → α → Prop) :
    Program Op Reply α → List (Entry Reply) → σ → Prop
  | done value, log, s => Post log s value
  | call op next, log, s => Allowed log s op ∧
      ∀ reply s', Exec op s reply s' → Meets Allowed Post (next reply) (log ++ [⟨op, reply⟩]) s'

variable {Exec} {Allowed : List (Entry Reply) → σ → Op → Prop}

theorem Meets.bind {M : List (Entry Reply) → σ → α → Prop}
    {Post : List (Entry Reply) → σ → β → Prop} {p : Program Op Reply α}
    {f : α → Program Op Reply β} {log : List (Entry Reply)} {s : σ}
    (hp : Meets Exec Allowed M p log s)
    (hf : ∀ log s value, M log s value → Meets Exec Allowed Post (f value) log s) :
    Meets Exec Allowed Post (p >>= f) log s := by
  induction p generalizing log s with
  | done value => exact hf log s value hp
  | call op next ih =>
    exact ⟨hp.1, fun reply s' hexec => ih reply (hp.2 reply s' hexec)⟩

theorem Meets.mono {Post Post' : List (Entry Reply) → σ → α → Prop} {p : Program Op Reply α}
    {log : List (Entry Reply)} {s : σ} (h : Meets Exec Allowed Post p log s)
    (weaker : ∀ log s value, Post log s value → Post' log s value) :
    Meets Exec Allowed Post' p log s := by
  induction p generalizing log s with
  | done value => exact weaker log s value h
  | call op next ih => exact ⟨h.1, fun reply s' hexec => ih reply (h.2 reply s' hexec)⟩

/-- The log only grows, so a judgement may remember where it started. -/
theorem Meets.extends {Post : List (Entry Reply) → σ → α → Prop} {p : Program Op Reply α}
    {log : List (Entry Reply)} {s : σ} (h : Meets Exec Allowed Post p log s) :
    Meets Exec Allowed (fun log' s value => log <+: log' ∧ Post log' s value) p log s := by
  induction p generalizing log s with
  | done value => exact ⟨List.prefix_rfl, h⟩
  | call op next ih =>
    refine ⟨h.1, fun reply s' hexec => ?_⟩
    refine (ih reply (h.2 reply s' hexec)).mono fun log' s value hpost => ?_
    exact ⟨(List.prefix_append log _).trans hpost.1, hpost.2⟩

theorem Meets.answer {Post : List (Entry Reply) → σ → α → Prop} {value : α}
    {log : List (Entry Reply)} {s : σ} (h : Post log s value) :
    Meets Exec Allowed Post (pure value) log s := h

/-- A program is judged well where every call is allowed and every answer is good from now on. -/
theorem Meets.always {Post : List (Entry Reply) → σ → α → Prop} {p : Program Op Reply α}
    {log : List (Entry Reply)} {s : σ}
    (allowed : ∀ log' s op, log <+: log' → Allowed log' s op)
    (good : ∀ log' s value, log <+: log' → Post log' s value) :
    Meets Exec Allowed Post p log s := by
  induction p generalizing log s with
  | done value => exact good log s value List.prefix_rfl
  | call op next ih =>
    refine ⟨allowed log s op List.prefix_rfl, fun reply s' _ => ih reply ?_ ?_⟩
    · exact fun log' s op hprefix => allowed log' s op ((List.prefix_append log _).trans hprefix)
    · exact fun log' s value hprefix => good log' s value ((List.prefix_append log _).trans hprefix)

theorem Meets.perform_bind {Post : List (Entry Reply) → σ → α → Prop} {op : Op}
    {f : Reply op → Program Op Reply α} {log : List (Entry Reply)} {s : σ}
    (allowed : Allowed log s op)
    (h : ∀ reply s', Exec op s reply s' →
      Meets Exec Allowed Post (f reply) (log ++ [⟨op, reply⟩]) s') :
    Meets Exec Allowed Post (perform op >>= f) log s :=
  ⟨allowed, h⟩

/-- The judgement follows the program along its run. -/
theorem Ran.meets {Post : List (Entry Reply) → σ → α → Prop} {p p' : Program Op Reply α}
    {log : List (Entry Reply)} {s s' : σ} (ran : Ran Exec p s log p' s')
    (h : Meets Exec Allowed Post p [] s) : Meets Exec Allowed Post p' log s' := by
  induction ran with
  | start => exact h
  | call ran exec ih => exact ih.2 _ _ exec

end Alone

section Pool
variable (Exec : (op : Op) → σ → Reply op → σ → Prop)

/-- A call in a pool: who made it, and the state around it. -/
structure Record (Reply : Op → Type) (σ ι : Type) where
  who : Option ι
  entry : Entry Reply
  before : σ
  after : σ

/-- Programs over one state, interleaved call by call, with calls of others in
between. -/
inductive Pool [DecidableEq ι] (Others : Op → Prop) (start : ι → Program Op Reply α) (s₀ : σ) :
    List (Record Reply σ ι) → (ι → Program Op Reply α) → σ → Prop where
  | start : Pool Others start s₀ [] start s₀
  | own {log : List (Record Reply σ ι)} {now : ι → Program Op Reply α} {s s' : σ} {i : ι}
      {op : Op} {next : Reply op → Program Op Reply α} {reply : Reply op}
      (pool : Pool Others start s₀ log now s) (turn : now i = .call op next)
      (exec : Exec op s reply s') :
      Pool Others start s₀ (log ++ [⟨some i, ⟨op, reply⟩, s, s'⟩])
        (Function.update now i (next reply)) s'
  | other {log : List (Record Reply σ ι)} {now : ι → Program Op Reply α} {s s' : σ} {op : Op}
      {reply : Reply op} (pool : Pool Others start s₀ log now s) (allowed : Others op)
      (exec : Exec op s reply s') :
      Pool Others start s₀ (log ++ [⟨none, ⟨op, reply⟩, s, s'⟩]) now s'

/-- The calls one program made itself. -/
def callsOf [DecidableEq ι] (i : ι) (log : List (Record Reply σ ι)) : List (Entry Reply) :=
  (log.filter fun record => record.who = some i).map (·.entry)

section CallsOf
variable [DecidableEq ι] (i : ι) (log : List (Record Reply σ ι)) (record : Record Reply σ ι)

@[simp] theorem callsOf_nil : callsOf i ([] : List (Record Reply σ ι)) = [] := rfl

theorem callsOf_snoc_same (h : record.who = some i) :
    callsOf i (log ++ [record]) = callsOf i log ++ [record.entry] := by
  simp [callsOf, h]

theorem callsOf_snoc_other (h : record.who ≠ some i) : callsOf i (log ++ [record]) = callsOf i log := by
  simp [callsOf, h]

theorem mem_callsOf {entry : Entry Reply} :
    entry ∈ callsOf i log ↔ ∃ record ∈ log, record.who = some i ∧ record.entry = entry := by
  simp [callsOf, and_assoc]

end CallsOf

/-- The states of a pool follow one another along its log. -/
inductive Chain : σ → List (Record Reply σ ι) → σ → Prop where
  | nil (s : σ) : Chain s [] s
  | snoc {s mid s' : σ} {log : List (Record Reply σ ι)} {who : Option ι} {op : Op}
      {reply : Reply op} (chain : Chain s log mid) (exec : Exec op mid reply s') :
      Chain s (log ++ [⟨who, ⟨op, reply⟩, mid, s'⟩]) s'

variable {Exec}

theorem Chain.append {s s' : σ} {log more : List (Record Reply σ ι)}
    (chain : Chain Exec s (log ++ more) s') :
    ∃ mid, Chain Exec s log mid ∧ Chain Exec mid more s' := by
  generalize hall : log ++ more = all at chain
  induction chain generalizing more with
  | nil =>
    obtain ⟨rfl, rfl⟩ := List.append_eq_nil_iff.mp hall
    exact ⟨s, .nil s, .nil s⟩
  | @snoc mid s' front who op reply chain exec ih =>
    cases more with
    | nil =>
      rw [List.append_nil] at hall
      subst hall
      exact ⟨s', .snoc chain exec, .nil s'⟩
    | cons record rest =>
      rcases EventLog.snoc_split hall.symm with ⟨rfl, hfront, rfl⟩ | ⟨rest', rfl, hfront⟩
      · subst hfront
        exact ⟨mid, chain, .snoc (.nil mid) exec⟩
      · obtain ⟨between, hlog, hmore⟩ := ih hfront.symm
        exact ⟨between, hlog, .snoc hmore exec⟩

theorem Chain.of_nil {s s' : σ} (chain : Chain Exec s ([] : List (Record Reply σ ι)) s') :
    s' = s := by
  generalize hall : ([] : List (Record Reply σ ι)) = all at chain
  cases chain with
  | nil => rfl
  | snoc chain exec => simp at hall

theorem Chain.single {s s' : σ} {record : Record Reply σ ι} (chain : Chain Exec s [record] s') :
    record.before = s ∧ record.after = s' ∧
      Exec record.entry.1 record.before record.entry.2 record.after := by
  generalize hall : [record] = all at chain
  cases chain with
  | nil => cases hall
  | @snoc mid _ front who op reply chain exec =>
    have hsplit : front ++ [_] = [] ++ record :: [] := hall.symm
    rcases EventLog.snoc_split hsplit with ⟨_, rfl, rfl⟩ | ⟨_, hnil, _⟩
    · obtain rfl := chain.of_nil
      exact ⟨rfl, rfl, exec⟩
    · simp at hnil

theorem Chain.head {s s' : σ} {record : Record Reply σ ι} {rest : List (Record Reply σ ι)}
    (chain : Chain Exec s (record :: rest) s') :
    record.before = s ∧ Exec record.entry.1 record.before record.entry.2 record.after ∧
      Chain Exec record.after rest s' := by
  have hcons : Chain Exec s ([record] ++ rest) s' := chain
  obtain ⟨mid, hsingle, hrest⟩ := hcons.append
  obtain ⟨rfl, rfl, exec⟩ := hsingle.single
  exact ⟨rfl, exec, hrest⟩

theorem Chain.exec {s s' : σ} {log : List (Record Reply σ ι)} (chain : Chain Exec s log s')
    {record : Record Reply σ ι} (hmem : record ∈ log) :
    Exec record.entry.1 record.before record.entry.2 record.after := by
  obtain ⟨front, back, rfl⟩ := List.append_of_mem hmem
  obtain ⟨mid, _, hrest⟩ := chain.append
  exact hrest.head.2.1

/-- What every step of a stretch preserves holds at its end. -/
theorem Chain.keeps {P : σ → Prop} {s s' : σ} {log : List (Record Reply σ ι)}
    (chain : Chain Exec s log s')
    (step : ∀ record ∈ log, Exec record.entry.1 record.before record.entry.2 record.after →
      P record.before → P record.after)
    (h : P s) : P s' := by
  induction chain with
  | nil => exact h
  | snoc chain exec ih =>
    exact step _ (List.mem_append_right _ List.mem_cons_self) exec
      (ih fun record hrecord => step record (List.mem_append_left _ hrecord))

/-- An invariant of the state every call keeps, under which every reply obeys the law. -/
structure Lawful (Exec : (op : Op) → σ → Reply op → σ → Prop) (Inv : σ → Prop)
    (Law : (op : Op) → Reply op → Prop) : Prop where
  keeps : ∀ {op s reply s'}, Inv s → Exec op s reply s' → Inv s'
  law : ∀ {op s reply s'}, Inv s → Exec op s reply s' → Law op reply

theorem Chain.lawful {Inv : σ → Prop} {Law : (op : Op) → Reply op → Prop}
    (lawful : Lawful Exec Inv Law) {s s' : σ} {log : List (Record Reply σ ι)}
    (chain : Chain Exec s log s') (init : Inv s) : Inv s' :=
  chain.keeps (fun _ _ exec inv => lawful.keeps inv exec) init

section Run
variable [DecidableEq ι] {Others : Op → Prop} {start now : ι → Program Op Reply α} {s₀ s : σ}
  {log : List (Record Reply σ ι)}

theorem Pool.chain (pool : Pool Exec Others start s₀ log now s) : Chain Exec s₀ log s := by
  induction pool with
  | start => exact .nil s₀
  | own pool turn exec ih => exact .snoc ih exec
  | other pool allowed exec ih => exact .snoc ih exec

/-- A record of a pool: how its state was reached, what it did, and what came
after. -/
theorem Pool.at (pool : Pool Exec Others start s₀ log now s)
    {earlier later : List (Record Reply σ ι)} {record : Record Reply σ ι}
    (hlog : log = earlier ++ record :: later) :
    Chain Exec s₀ earlier record.before ∧
      Exec record.entry.1 record.before record.entry.2 record.after ∧
      Chain Exec record.after later s := by
  have chain := pool.chain
  rw [hlog] at chain
  obtain ⟨mid, hearlier, hrest⟩ := chain.append
  obtain ⟨rfl, exec, hlater⟩ := hrest.head
  exact ⟨hearlier, exec, hlater⟩

/-- What a program can rely on when others share the state: a law of single
replies, and nothing about the state. -/
def Seen (Law : (op : Op) → Reply op → Prop) (op : Op) (_ : Unit) (reply : Reply op)
    (_ : Unit) : Prop := Law op reply

variable {Inv : σ → Prop} {Law : (op : Op) → Reply op → Prop}
  {Allowed : ι → List (Entry Reply) → Unit → Op → Prop}
  {Post : ι → List (Entry Reply) → Unit → α → Prop}

/-- Each program of a pool keeps its judgement, over the log of its own calls. -/
theorem Pool.meets (pool : Pool Exec Others start s₀ log now s) (lawful : Lawful Exec Inv Law)
    (init : Inv s₀) (h : ∀ i, Meets (Seen Law) (Allowed i) (Post i) (start i) [] ()) (i : ι) :
    Meets (Seen Law) (Allowed i) (Post i) (now i) (callsOf i log) () := by
  induction pool with
  | start => exact h i
  | @own log now s s' j op next reply pool turn exec ih =>
    by_cases hij : j = i
    · subst hij
      rw [callsOf_snoc_same j log _ rfl, Function.update_self]
      rw [turn] at ih
      exact ih.2 reply () (lawful.law (pool.chain.lawful lawful init) exec)
    · have hother : some j ≠ some i := by simpa using hij
      rw [callsOf_snoc_other i log _ hother, Function.update_of_ne (Ne.symm hij)]
      exact ih
  | @other log now s s' op reply pool allowed exec ih =>
    have hother : none ≠ some i := by simp
    rw [callsOf_snoc_other i log _ hother]
    exact ih

/-- A program that is done has answered well. -/
theorem Pool.answers (pool : Pool Exec Others start s₀ log now s)
    (lawful : Lawful Exec Inv Law) (init : Inv s₀)
    (h : ∀ i, Meets (Seen Law) (Allowed i) (Post i) (start i) [] ()) {i : ι} {value : α}
    (finished : now i = .done value) : Post i (callsOf i log) () value := by
  have hmeets := pool.meets lawful init h i
  rw [finished] at hmeets
  exact hmeets

/-- Each call a program of the pool made was allowed when it was made. -/
theorem Pool.allows (pool : Pool Exec Others start s₀ log now s)
    (lawful : Lawful Exec Inv Law) (init : Inv s₀)
    (h : ∀ i, Meets (Seen Law) (Allowed i) (Post i) (start i) [] ()) {i : ι}
    {earlier later : List (Record Reply σ ι)} {record : Record Reply σ ι}
    (hlog : log = earlier ++ record :: later) (hwho : record.who = some i) :
    Allowed i (callsOf i earlier) () record.entry.1 := by
  induction pool generalizing later with
  | start => simp at hlog
  | @own log now s s' j op next reply pool turn exec ih =>
    rcases EventLog.snoc_split hlog with ⟨_, hearlier, rfl⟩ | ⟨later', _, hlog'⟩
    · obtain rfl : j = i := by simpa using hwho
      have hmeets := pool.meets lawful init h j
      rw [turn, hearlier] at hmeets
      exact hmeets.1
    · exact ih hlog'
  | @other log now s s' op reply pool allowed exec ih =>
    rcases EventLog.snoc_split hlog with ⟨_, _, rfl⟩ | ⟨later', _, hlog'⟩
    · cases hwho
    · exact ih hlog'

/-- A call of nobody in the pool was one others may make. -/
theorem Pool.others (pool : Pool Exec Others start s₀ log now s) {record : Record Reply σ ι}
    (hmem : record ∈ log) (hwho : record.who = none) : Others record.entry.1 := by
  induction pool with
  | start => simp at hmem
  | own pool turn exec ih =>
    rcases List.mem_append.mp hmem with hmem | hmem
    · exact ih hmem
    · rw [List.mem_singleton.mp hmem] at hwho
      cases hwho
  | other pool allowed exec ih =>
    rcases List.mem_append.mp hmem with hmem | hmem
    · exact ih hmem
    · rw [List.mem_singleton.mp hmem]
      exact allowed

/-- A pool of one program, with nobody else around, is that program alone. -/
theorem Pool.ran {p : Program Op Reply α} {now : Unit → Program Op Reply α}
    {log : List (Record Reply σ Unit)}
    (pool : Pool Exec (fun _ => False) (fun _ => p) s₀ log now s) :
    Ran Exec p s₀ (log.map (·.entry)) (now ()) s := by
  induction pool with
  | start => exact .start
  | own pool turn exec ih =>
    rw [List.map_append, Function.update_self]
    rw [turn] at ih
    exact ih.call exec
  | other pool allowed exec ih => exact allowed.elim

end Run

/-- How a call is answered. -/
abbrev Pick (Reply : Op → Type) (σ : Type) := (op : Op) → σ → Reply op × σ

/-- A program from beginning to end, with nobody else on the state. -/
def run (pick : Pick Reply σ) : Program Op Reply α → σ → α × σ
  | done value, s => (value, s)
  | call op next, s => run pick (next (pick op s).1) (pick op s).2

@[simp] theorem run_done (pick : Pick Reply σ) (value : α) (s : σ) :
    run pick (.done value : Program Op Reply α) s = (value, s) := rfl

@[simp] theorem run_call (pick : Pick Reply σ) (op : Op) (next : Reply op → Program Op Reply α)
    (s : σ) : run pick (.call op next) s = run pick (next (pick op s).1) (pick op s).2 := rfl

theorem run_bind (pick : Pick Reply σ) (p : Program Op Reply α) (f : α → Program Op Reply β)
    (s : σ) : run pick (p >>= f) s = run pick (f (run pick p s).1) (run pick p s).2 := by
  induction p generalizing s with
  | done value => rfl
  | call op next ih => exact ih _ _

/-- Every call the program can make, whatever it is answered, is one of these. -/
def Only (P : Op → Prop) : Program Op Reply α → Prop
  | done _ => True
  | call op next => P op ∧ ∀ reply, Only P (next reply)

section Only
variable {P : Op → Prop} {p : Program Op Reply α}

theorem Only.bind {f : α → Program Op Reply β} (hp : Only P p) (hf : ∀ value, Only P (f value)) :
    Only P (p >>= f) := by
  induction p with
  | done value => exact hf value
  | call op next ih => exact ⟨hp.1, fun reply => ih reply (hp.2 reply)⟩

theorem Only.mono {P' : Op → Prop} (only : Only P p) (weaker : ∀ op, P op → P' op) : Only P' p := by
  induction p with
  | done value => trivial
  | call op next ih => exact ⟨weaker op only.1, fun reply => ih reply (only.2 reply)⟩

theorem Only.perform_bind {op : Op} {f : Reply op → Program Op Reply α} (h : P op)
    (hf : ∀ reply, Only P (f reply)) : Only P (perform op >>= f) :=
  ⟨h, hf⟩

/-- Calls that leave a part of the state alone run as they would without it. -/
theorem Only.run_framed {ρ : Type} {pick : Pick Reply σ} {framed : Pick Reply (σ × ρ)}
    (only : Only P p)
    (same : ∀ op, P op → ∀ s rest, framed op (s, rest) = ((pick op s).1, (pick op s).2, rest))
    (s : σ) (rest : ρ) : run framed p (s, rest) = ((run pick p s).1, (run pick p s).2, rest) := by
  induction p generalizing s with
  | done value => rfl
  | call op next ih =>
    rw [run_call, run_call, same op only.1]
    exact ih _ (only.2 _) _

/-- What each of these calls keeps of the log is kept. -/
theorem Only.keeps {Exec : (op : Op) → σ → Reply op → σ → Prop}
    {I : List (Entry Reply) → Prop} (only : Only P p)
    (step : ∀ log op reply, P op → I log → I (log ++ [⟨op, reply⟩]))
    {log : List (Entry Reply)} {s : σ} (h : I log) :
    Meets Exec (fun _ _ _ => True) (fun log _ _ => I log) p log s := by
  induction p generalizing log s with
  | done value => exact h
  | call op next ih =>
    exact ⟨trivial, fun reply _ _ => ih reply (only.2 reply) (step log op reply only.1 h)⟩

/-- Calls that are always allowed are allowed in the program. -/
theorem Only.allows {Exec : (op : Op) → σ → Reply op → σ → Prop}
    {Allowed : List (Entry Reply) → σ → Op → Prop} (only : Only P p)
    (step : ∀ log s op, P op → Allowed log s op) {log : List (Entry Reply)} {s : σ} :
    Meets Exec Allowed (fun _ _ _ => True) p log s := by
  induction p generalizing log s with
  | done value => trivial
  | call op next ih => exact ⟨step log s op only.1, fun reply _ _ => ih reply (only.2 reply)⟩

end Only

/-- Whatever its calls answer, the program answers one of these. -/
def Yields (P : α → Prop) : Program Op Reply α → Prop
  | done value => P value
  | call _ next => ∀ reply, Yields P (next reply)

section Yields
variable {P : α → Prop} {Q : β → Prop} {p : Program Op Reply α}

theorem Yields.bind {f : α → Program Op Reply β} (hp : Yields P p)
    (hf : ∀ value, P value → Yields Q (f value)) : Yields Q (p >>= f) := by
  induction p with
  | done value => exact hf value hp
  | call op next ih => exact fun reply => ih reply (hp reply)

theorem Yields.run (yields : Yields P p) (pick : Pick Reply σ) (s : σ) : P (run pick p s).1 := by
  induction p generalizing s with
  | done value => exact yields
  | call op next ih => exact ih _ (yields _) _

end Yields

/-- Programs one after another. -/
def inOrder (pick : Pick Reply σ) (start : ι → Program Op Reply α) (order : List ι) (s : σ) : σ :=
  order.foldl (fun s i => (run pick (start i) s).2) s

section Play
variable [DecidableEq ι]

/-- A pool somewhere along its run. -/
structure Moment (Op : Type) (Reply : Op → Type) (α σ ι : Type) where
  log : List (Record Reply σ ι)
  now : ι → Program Op Reply α
  state : σ

namespace Moment

def initial (start : ι → Program Op Reply α) (s₀ : σ) : Moment Op Reply α σ ι :=
  ⟨[], start, s₀⟩

/-- Program `i` makes its next call. One that is done stays as it is. -/
def turn (moment : Moment Op Reply α σ ι) (i : ι) (pick : Pick Reply σ) :
    Moment Op Reply α σ ι :=
  match moment.now i with
  | .done _ => moment
  | .call op next =>
      let answer := pick op moment.state
      { log := moment.log ++ [⟨some i, ⟨op, answer.1⟩, moment.state, answer.2⟩]
        now := Function.update moment.now i (next answer.1)
        state := answer.2 }

/-- A schedule: whose turn it is, and how the call is answered. -/
def play (moment : Moment Op Reply α σ ι) (turns : List (ι × Pick Reply σ)) :
    Moment Op Reply α σ ι :=
  turns.foldl (fun moment next => moment.turn next.1 next.2) moment

/-- Somebody else makes a call. -/
def meanwhile (moment : Moment Op Reply α σ ι) (op : Op) (pick : Pick Reply σ) :
    Moment Op Reply α σ ι :=
  let answer := pick op moment.state
  { moment with
    log := moment.log ++ [⟨none, ⟨op, answer.1⟩, moment.state, answer.2⟩]
    state := answer.2 }

/-- Where a pool stands. -/
abbrev Reached (Exec : (op : Op) → σ → Reply op → σ → Prop) (Others : Op → Prop)
    (start : ι → Program Op Reply α) (s₀ : σ) (moment : Moment Op Reply α σ ι) : Prop :=
  Pool Exec Others start s₀ moment.log moment.now moment.state

variable {Others : Op → Prop} {start : ι → Program Op Reply α} {s₀ : σ}
  {moment : Moment Op Reply α σ ι}

theorem Reached.initial : Reached Exec Others start s₀ (initial start s₀) := .start

theorem Reached.turn (reached : Reached Exec Others start s₀ moment) (i : ι)
    {pick : Pick Reply σ} (honest : ∀ op s, Exec op s (pick op s).1 (pick op s).2) :
    Reached Exec Others start s₀ (moment.turn i pick) := by
  unfold Moment.turn
  cases hturn : moment.now i with
  | done value => exact reached
  | call op next => exact .own reached hturn (honest op moment.state)

/-- A schedule that answers as the operations do is a run of the pool. -/
theorem Reached.play (reached : Reached Exec Others start s₀ moment)
    {turns : List (ι × Pick Reply σ)}
    (honest : ∀ next ∈ turns, ∀ op s, Exec op s (next.2 op s).1 (next.2 op s).2) :
    Reached Exec Others start s₀ (moment.play turns) := by
  induction turns generalizing moment with
  | nil => exact reached
  | cons next turns ih =>
    refine ih (reached.turn next.1 (honest next List.mem_cons_self)) ?_
    exact fun later hlater => honest later (List.mem_cons_of_mem _ hlater)

theorem Reached.meanwhile (reached : Reached Exec Others start s₀ moment) {op : Op}
    (allowed : Others op) {pick : Pick Reply σ}
    (honest : ∀ op s, Exec op s (pick op s).1 (pick op s).2) :
    Reached Exec Others start s₀ (moment.meanwhile op pick) :=
  .other reached allowed (honest op moment.state)

end Moment

end Play

end Pool

end Program

end LakeFsAuth.Library
