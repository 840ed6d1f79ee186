import LakeFsAuth.Library.Program

/-! Programs that change the state once at most, at a point from which they can only succeed.
Which calls write, and which replies say that nothing was written, are parameters. -/
namespace LakeFsAuth.Library.Program

section Commit
variable {Op : Type} {Reply : Op → Type} {α β σ ι : Type} (Writes : Op → Prop)
  (Refused : (op : Op) → Reply op → Prop)

def Wrote (entry : Entry Reply) : Prop := Writes entry.1 ∧ ¬ Refused entry.1 entry.2

/-- Nothing more is written, and the answer is good. -/
def Settled (Good : α → Prop) : Program Op Reply α → Prop
  | done value => Good value
  | call op next => ¬ Writes op ∧ ∀ reply, Settled Good (next reply)

/-- After a call that wrote, the program is settled. -/
def Commits (Good : α → Prop) : Program Op Reply α → Prop
  | done _ => True
  | call op next =>
      (∀ reply, Writes op → ¬ Refused op reply → Settled Writes Good (next reply)) ∧
      ∀ reply, (Writes op → Refused op reply) → Commits Good (next reply)

variable {Writes} {Refused} {Good : α → Prop} {Good' : β → Prop} {p : Program Op Reply α}
  {f : α → Program Op Reply β}

theorem Settled.bind (h : Settled Writes Good p)
    (hf : ∀ value, Good value → Settled Writes Good' (f value)) : Settled Writes Good' (p >>= f) := by
  induction p with
  | done value => exact hf value h
  | call op next ih => exact ⟨h.1, fun reply => ih reply (h.2 reply)⟩

theorem Commits.bind (h : Commits Writes Refused Good p)
    (fresh : ∀ value, Commits Writes Refused Good' (f value))
    (settled : ∀ value, Good value → Settled Writes Good' (f value)) :
    Commits Writes Refused Good' (p >>= f) := by
  induction p with
  | done value => exact fresh value
  | call op next ih =>
    constructor
    · intro reply writes wrote
      exact (h.1 reply writes wrote).bind settled
    · intro reply quiet
      exact ih reply (h.2 reply quiet)

theorem Commits.of_reads (only : Only (fun op => ¬ Writes op) p) : Commits Writes Refused Good p := by
  induction p with
  | done value => trivial
  | call op next ih =>
    exact ⟨fun _ writes _ => absurd writes only.1, fun reply _ => ih reply (only.2 reply)⟩

theorem Commits.read_bind {op : Op} {f : Reply op → Program Op Reply α} (reads : ¬ Writes op)
    (h : ∀ reply, Commits Writes Refused Good (f reply)) :
    Commits Writes Refused Good (perform op >>= f) :=
  ⟨fun _ writes _ => absurd writes reads, fun reply _ => h reply⟩

theorem Settled.reads (h : Settled Writes Good p) : Only (fun op => ¬ Writes op) p := by
  induction p with
  | done value => trivial
  | call op next ih => exact ⟨h.1, fun reply => ih reply (h.2 reply)⟩

variable {Exec : (op : Op) → σ → Reply op → σ → Prop} {log : List (Entry Reply)} {s : σ}

/-- A program writes only while nothing has been written. -/
def WritesFirst (Writes : Op → Prop) (Refused : (op : Op) → Reply op → Prop)
    (log : List (Entry Reply)) (_ : σ) (op : Op) : Prop :=
  Writes op → ∀ entry ∈ log, ¬ Wrote Writes Refused entry

/-- A program that wrote answers well. -/
def GoodAfter (Writes : Op → Prop) (Refused : (op : Op) → Reply op → Prop) (Good : α → Prop)
    (log : List (Entry Reply)) (_ : σ) (value : α) : Prop :=
  Good value ∨ ∀ entry ∈ log, ¬ Wrote Writes Refused entry

theorem Settled.meets (h : Settled Writes Good p) :
    Meets Exec (WritesFirst Writes Refused) (GoodAfter Writes Refused Good) p log s := by
  induction p generalizing log s with
  | done value => exact .inl h
  | call op next ih => exact ⟨fun writes => absurd writes h.1, fun reply _ _ => ih reply (h.2 reply)⟩

theorem Commits.meets (h : Commits Writes Refused Good p)
    (quiet : ∀ entry ∈ log, ¬ Wrote Writes Refused entry) :
    Meets Exec (WritesFirst Writes Refused) (GoodAfter Writes Refused Good) p log s := by
  induction p generalizing log s with
  | done value => exact .inr quiet
  | call op next ih =>
    refine ⟨fun _ => quiet, fun reply s' _ => ?_⟩
    by_cases wrote : Wrote Writes Refused ⟨op, reply⟩
    · exact (h.1 reply wrote.1 wrote.2).meets
    · refine ih reply (h.2 reply fun writes => ?_) fun entry hentry => ?_
      · by_contra refused
        exact wrote ⟨writes, refused⟩
      · rcases List.mem_append.mp hentry with hentry | hentry
        · exact quiet entry hentry
        · rw [List.mem_singleton.mp hentry]
          exact wrote

section Pool
variable [DecidableEq ι] {Others : Op → Prop} {start now : ι → Program Op Reply α} {s₀ : σ}
  {records : List (Record Reply σ ι)}

/-- However such programs interleave, an answer that is not good means nothing was written. -/
theorem Pool.quiet_of_not_good (pool : Pool Exec Others start s₀ records now s)
    (h : ∀ i, Commits Writes Refused Good (start i)) {i : ι} {value : α}
    (finished : now i = .done value) (bad : ¬ Good value) {record : Record Reply σ ι}
    (hrecord : record ∈ records) (hwho : record.who = some i) :
    ¬ Wrote Writes Refused record.entry := by
  have lawful : Lawful Exec (fun _ => True) (fun _ _ => True) := ⟨fun _ _ => trivial, fun _ _ => trivial⟩
  have hanswer := pool.answers lawful trivial (fun i => (h i).meets (fun _ hentry => nomatch hentry))
    finished
  exact hanswer.resolve_left bad _ ((mem_callsOf i records).mpr ⟨record, hrecord, hwho, rfl⟩)

/-- Nothing was written before a call that may write. -/
theorem Pool.quiet_before (pool : Pool Exec Others start s₀ records now s)
    (h : ∀ i, Commits Writes Refused Good (start i)) {i : ι}
    {earlier later : List (Record Reply σ ι)} {record : Record Reply σ ι}
    (hlog : records = earlier ++ record :: later) (hwho : record.who = some i)
    (writes : Writes record.entry.1) {before : Record Reply σ ι} (hbefore : before ∈ earlier)
    (hwho' : before.who = some i) : ¬ Wrote Writes Refused before.entry := by
  have lawful : Lawful Exec (fun _ => True) (fun _ _ => True) := ⟨fun _ _ => trivial, fun _ _ => trivial⟩
  have hfirst := pool.allows lawful trivial (fun i => (h i).meets (fun _ hentry => nomatch hentry))
    hlog hwho
  exact hfirst writes _ ((mem_callsOf i earlier).mpr ⟨before, hbefore, hwho', rfl⟩)

end Pool

end Commit

end LakeFsAuth.Library.Program
