import LakeFsAuth.Library.Reader
import Mathlib.Computability.Language
import Mathlib.Order.CompletePartialOrder

/-! The languages of readers: the texts a reader takes for a value, and the texts on which it ends
with a given error. -/
namespace LakeFsAuth.Library.Reader
variable {ε α β : Type}

/-- The reader takes the texts of this language for a value, and no others. -/
def Accepts (reader : Reader ε α) (form : α → Language UInt8) : Prop :=
  ∀ text value rest, reader.run text = .ok (value, rest) ↔ ∃ used ∈ form value, used ++ rest = text

/-- The texts on which the reader ends with this error. -/
def Raises (reader : Reader ε α) (error : ε) (lang : Language UInt8) : Prop :=
  ∀ text, reader.run text = .error error ↔ text ∈ lang

namespace Accepts
variable {reader : Reader ε α} {form form' : α → Language UInt8}

theorem congr (h : Accepts reader form) (same : ∀ value, form value = form' value) :
    Accepts reader form' := by
  rw [← funext same]
  exact h

protected theorem pure (value : α) :
    Accepts (Pure.pure value : Reader ε α) fun other => ⨆ _ : other = value, 1 := by
  intro text other rest
  simp only [Language.mem_iSup, Language.mem_one]
  constructor
  · intro h
    cases h
    exact ⟨[], ⟨rfl, rfl⟩, rfl⟩
  · rintro ⟨used, ⟨rfl, rfl⟩, rfl⟩
    rfl

protected theorem throw (error : ε) : Accepts (throw error : Reader ε α) fun _ => 0 := by
  intro text value rest
  simp only [Language.notMem_zero, false_and, exists_false, iff_false]
  intro h
  cases h

theorem bind {next : α → Reader ε β} {more : α → β → Language UInt8} (h : Accepts reader form)
    (hnext : ∀ value, Accepts (next value) (more value)) :
    Accepts (reader >>= next) fun result => ⨆ value, form value * more value result := by
  intro text result rest
  rw [StateT.run_bind]
  constructor
  · intro hrun
    cases hreader : reader.run text with
    | error error =>
      rw [hreader] at hrun
      cases hrun
    | ok outcome =>
      obtain ⟨value, mid⟩ := outcome
      rw [hreader] at hrun
      obtain ⟨used, hused, rfl⟩ := (h text value mid).mp hreader
      obtain ⟨used', hused', rfl⟩ := (hnext value mid result rest).mp hrun
      refine ⟨used ++ used', ?_, List.append_assoc _ _ _⟩
      exact Language.mem_iSup.mpr ⟨value, Language.append_mem_mul hused hused'⟩
  · rintro ⟨used, hused, rfl⟩
    obtain ⟨value, hvalue⟩ := Language.mem_iSup.mp hused
    obtain ⟨front, hfront, back, hback, rfl⟩ := Language.mem_mul.mp hvalue
    rw [List.append_assoc, (h _ value (back ++ rest)).mpr ⟨front, hfront, rfl⟩]
    exact (hnext value _ result rest).mpr ⟨back, hback, rfl⟩

/-- A step without a value. -/
theorem andThen {step : Reader ε Unit} {next : Reader ε β} {lang : Language UInt8}
    {more : β → Language UInt8} (h : Accepts step fun _ => lang) (hnext : Accepts next more) :
    Accepts (step >>= fun _ => next) fun result => lang * more result :=
  (h.bind fun _ => hnext).congr fun _ => iSup_const

theorem ite_throw {p : Prop} [Decidable p] (error : ε) (h : p → Accepts reader form) :
    Accepts (if p then reader else throw error) fun value => ⨆ _ : p, form value := by
  split
  · rename_i hp
    exact (h hp).congr fun value => by rw [iSup_pos hp]
  · rename_i hp
    refine (Accepts.throw error).congr fun value => ?_
    rw [iSup_neg hp]
    rfl

theorem throw_ite {p : Prop} [Decidable p] (error : ε) (h : ¬ p → Accepts reader form) :
    Accepts (if p then throw error else reader) fun value => ⨆ _ : ¬ p, form value := by
  rw [← ite_not]
  exact ite_throw error h

/-- One value is taken, any other is an error. -/
theorem only [DecidableEq α] (expected : α) {next : Reader ε β} {more : β → Language UInt8}
    (h : Accepts reader form) (error : α → ε) (hnext : Accepts next more) :
    Accepts (reader >>= fun value => if value = expected then next else throw (error value))
      fun result => form expected * more result := by
  refine (h.bind fun value => ite_throw (error value) fun _ => hnext).congr fun result => ?_
  ext text
  simp only [Language.mem_iSup, Language.mem_mul, exists_prop]
  constructor
  · rintro ⟨_, front, hfront, back, ⟨rfl, hback⟩, happend⟩
    exact ⟨front, hfront, back, hback, happend⟩
  · rintro ⟨front, hfront, back, hback, happend⟩
    exact ⟨expected, front, hfront, back, ⟨rfl, hback⟩, happend⟩

protected theorem take (short : ε) (count : Nat) :
    Accepts (take short count) fun bytes => ⨆ _ : bytes.length = count, {bytes} := by
  intro text bytes rest
  simp only [take, StateT.run, Language.mem_iSup]
  constructor
  · intro h
    split at h
    · cases h
    · rename_i hlen
      cases h
      refine ⟨text.take count, ⟨?_, rfl⟩, List.take_append_drop _ _⟩
      rw [List.length_take]
      omega
  · rintro ⟨used, ⟨rfl, hused⟩, rfl⟩
    obtain rfl : used = bytes := hused
    simp

protected theorem lift (outcome : Except ε α) :
    Accepts (StateT.lift outcome : Reader ε α) fun value => ⨆ _ : outcome = .ok value, 1 := by
  intro text value rest
  simp only [Language.mem_iSup, Language.mem_one]
  constructor
  · intro h
    cases outcome with
    | error error => cases h
    | ok other =>
      cases h
      exact ⟨[], ⟨rfl, rfl⟩, rfl⟩
  · rintro ⟨used, ⟨rfl, rfl⟩, rfl⟩
    rfl

/-- The whole text is one of the language. -/
theorem whole_ok (h : Accepts reader form) (trailing : ε) {text : List UInt8} {value : α} :
    whole trailing reader text = .ok value ↔ text ∈ form value := by
  have hiff := h text value []
  simp only [List.append_nil, exists_eq_right] at hiff
  rw [← hiff, whole]
  cases hrun : reader.run text with
  | error error => simp [Bind.bind, Except.bind]
  | ok outcome =>
    obtain ⟨other, rest⟩ := outcome
    by_cases hrest : rest = [] <;> simp [hrest, Bind.bind, Except.bind, Pure.pure, Except.pure, throw,
      throwThe, MonadExceptOf.throw]

/-- A text that is taken whole is no proper prefix of another one that is. -/
theorem whole_prefix (h : Accepts reader form) {trailing : ε} {text more : List UInt8} {value other : α}
    (hfront : whole trailing reader text = .ok value)
    (hall : whole trailing reader (text ++ more) = .ok other) : more = [] := by
  have hrun := (h (text ++ more) value more).mpr ⟨text, (h.whole_ok trailing).mp hfront, rfl⟩
  rw [whole, hrun] at hall
  by_contra hmore
  simp [Bind.bind, Except.bind, hmore] at hall

end Accepts

namespace Raises
variable {reader : Reader ε α} {error : ε} {form : α → Language UInt8} {lang lang' : Language UInt8}

theorem congr (h : Raises reader error lang) (same : lang = lang') : Raises reader error lang' :=
  same ▸ h

protected theorem pure (value : α) : Raises (Pure.pure value : Reader ε α) error 0 := by
  intro text
  simp only [Language.notMem_zero, iff_false]
  intro h
  cases h

theorem throw_same (error : ε) : Raises (throw error : Reader ε α) error ⊤ := by
  intro text
  exact iff_of_true rfl trivial

theorem throw_other {other : ε} (h : other ≠ error) : Raises (throw other : Reader ε α) error 0 := by
  intro text
  simp only [Language.notMem_zero, iff_false]
  intro hrun
  cases hrun
  exact h rfl

theorem bind {next : α → Reader ε β} {more : α → Language UInt8} (h : Raises reader error lang)
    (accepts : Accepts reader form) (hnext : ∀ value, Raises (next value) error (more value)) :
    Raises (reader >>= next) error (lang + ⨆ value, form value * more value) := by
  intro text
  rw [StateT.run_bind, Language.mem_add, ← h text, Language.mem_iSup]
  cases hreader : reader.run text with
  | error other =>
    have hnone : ∀ value, text ∉ form value * more value := by
      intro value hmem
      obtain ⟨front, hfront, back, _, rfl⟩ := Language.mem_mul.mp hmem
      rw [(accepts _ value back).mpr ⟨front, hfront, rfl⟩] at hreader
      cases hreader
    simp [hnone, Bind.bind, Except.bind]
  | ok outcome =>
    obtain ⟨value, mid⟩ := outcome
    obtain ⟨used, hused, rfl⟩ := (accepts text value mid).mp hreader
    change (next value).run mid = .error error ↔ _
    rw [hnext value mid]
    constructor
    · intro hmid
      exact .inr ⟨value, Language.append_mem_mul hused hmid⟩
    · rintro (h | ⟨other, hother⟩)
      · cases h
      · obtain ⟨front, hfront, back, hback, hsame⟩ := Language.mem_mul.mp hother
        have hrun := (accepts _ other back).mpr ⟨front, hfront, hsame⟩
        rw [hreader] at hrun
        cases hrun
        exact hback

/-- A step that does not end with this error, before one that may. -/
theorem after {next : α → Reader ε β} {more : α → Language UInt8} (h : Raises reader error 0)
    (accepts : Accepts reader form) (hnext : ∀ value, Raises (next value) error (more value)) :
    Raises (reader >>= next) error (⨆ value, form value * more value) :=
  (h.bind accepts hnext).congr (zero_add _)

/-- A step before others that do not end with this error. -/
theorem bind_never {next : α → Reader ε β} (h : Raises reader error lang)
    (hnext : ∀ value, Raises (next value) error 0) : Raises (reader >>= next) error lang := by
  intro text
  rw [StateT.run_bind, ← h text]
  cases hreader : reader.run text with
  | error other => simp [Bind.bind, Except.bind]
  | ok outcome =>
    obtain ⟨value, rest⟩ := outcome
    have hnone : (next value).run rest ≠ .error error := fun hrun => (hnext value rest).mp hrun
    simp [Bind.bind, Except.bind, hnone]

protected theorem take {short : ε} (h : short ≠ error) (count : Nat) :
    Raises (take short count) error 0 := by
  intro text
  simp only [Language.notMem_zero, iff_false, take, StateT.run]
  intro hrun
  split at hrun
  · cases hrun
    exact h rfl
  · cases hrun

protected theorem lift (outcome : Except ε α) :
    Raises (StateT.lift outcome : Reader ε α) error (⨆ _ : outcome = .error error, ⊤) := by
  intro text
  simp only [Language.mem_iSup]
  cases outcome with
  | error other =>
    constructor
    · intro h
      cases h
      exact ⟨rfl, trivial⟩
    · rintro ⟨h, _⟩
      cases h
      rfl
  | ok value =>
    constructor
    · intro h
      cases h
    · rintro ⟨h, _⟩
      cases h

/-- What is left over is another error. -/
theorem whole_error (h : Raises reader error lang) {trailing : ε} (hne : trailing ≠ error)
    {text : List UInt8} : whole trailing reader text = .error error ↔ text ∈ lang := by
  rw [← h text, whole]
  cases hrun : reader.run text with
  | error other => simp [Bind.bind, Except.bind]
  | ok outcome =>
    obtain ⟨value, rest⟩ := outcome
    by_cases hrest : rest = [] <;> simp [hrest, hne, Bind.bind, Except.bind, Pure.pure, Except.pure,
      throw, throwThe, MonadExceptOf.throw]

/-- A text that is read whole never ends with the error of neither the reader nor the rest. -/
theorem lift_whole (h : Raises reader error 0) {trailing : ε} (hne : trailing ≠ error)
    (text : List UInt8) : Raises (StateT.lift (whole trailing reader text) : Reader ε α) error 0 := by
  refine (Raises.lift _).congr ((iSup_neg fun hfault => ?_).trans rfl)
  exact Language.notMem_zero _ ((h.whole_error hne).mp hfault)

end Raises

end LakeFsAuth.Library.Reader
