import Mathlib.Data.List.Basic
import Mathlib.Order.Antichain

/-! Readers that take what they need from the front of a byte string. -/
namespace LakeFsAuth.Library

abbrev Reader (ε α : Type) := StateT (List UInt8) (Except ε) α

namespace Reader
variable {ε α β : Type}

/-- The next bytes, as many as asked for. -/
def take (short : ε) (count : Nat) : Reader ε (List UInt8) := fun text =>
  if text.length < count then .error short else .ok (text.take count, text.drop count)

/-- Everything, with nothing left over. -/
def whole (trailing : ε) (reader : Reader ε α) (text : List UInt8) : Except ε α := do
  let (value, rest) ← reader.run text
  if rest = [] then return value else throw trailing

/-- The reader takes exactly this text for this value, whatever follows. -/
def Reads (reader : Reader ε α) (text : List UInt8) (value : α) : Prop :=
  ∀ rest, reader.run (text ++ rest) = .ok (value, rest)

theorem Reads.pure (value : α) : Reads (Pure.pure value : Reader ε α) [] value := fun _ => rfl

theorem Reads.bind {reader : Reader ε α} {next : α → Reader ε β} {text more : List UInt8}
    {value : α} {result : β} (h : Reads reader text value) (hnext : Reads (next value) more result) :
    Reads (reader >>= next) (text ++ more) result := by
  intro rest
  rw [StateT.run_bind, List.append_assoc, h (more ++ rest)]
  exact hnext rest

/-- A step that takes nothing. -/
theorem Reads.bind_nil {reader : Reader ε α} {next : α → Reader ε β} {text : List UInt8}
    {value : α} {result : β} (h : Reads reader [] value) (hnext : Reads (next value) text result) :
    Reads (reader >>= next) text result :=
  h.bind hnext

/-- A last step that takes nothing. -/
theorem Reads.bind_end {reader : Reader ε α} {next : α → Reader ε β} {text : List UInt8}
    {value : α} {result : β} (h : Reads reader text value) (hnext : Reads (next value) [] result) :
    Reads (reader >>= next) text result := by
  simpa using h.bind hnext

theorem Reads.lift {outcome : Except ε α} {value : α} (h : outcome = .ok value) :
    Reads (StateT.lift outcome : Reader ε α) [] value := by
  intro rest
  rw [h]
  rfl

theorem reads_take (short : ε) (text : List UInt8) : Reads (take short text.length) text text := by
  intro rest
  simp [take, StateT.run]

/-- What `take` hands on has the length that was asked for. -/
theorem take_bind_congr (short : ε) {count : Nat} {next next' : List UInt8 → Reader ε α}
    (h : ∀ bytes, bytes.length = count → next bytes = next' bytes) :
    take short count >>= next = take short count >>= next' := by
  funext text
  change (take short count text >>= fun outcome => next outcome.1 outcome.2) =
    take short count text >>= fun outcome => next' outcome.1 outcome.2
  unfold take
  split
  · rfl
  · rename_i henough
    change next (text.take count) _ = next' (text.take count) _
    rw [h]
    rw [List.length_take]
    omega

theorem Reads.map {reader : Reader ε α} {text : List UInt8} {value : α} (h : Reads reader text value)
    (f : α → β) : Reads (f <$> reader) text (f value) := by
  intro rest
  rw [StateT.run_map, h rest]
  rfl

/-- A text that is taken for an image is taken for what it is the image of. -/
theorem Reads.exists_of_map {reader : Reader ε α} {text : List UInt8} {f : α → β} {result : β}
    (injective : Function.Injective f) (h : Reads (f <$> reader) text result) :
    ∃ value, f value = result ∧ Reads reader text value := by
  have hrun (rest : List UInt8) :
      ∃ value, f value = result ∧ reader.run (text ++ rest) = .ok (value, rest) := by
    have hmap := h rest
    rw [StateT.run_map] at hmap
    cases hreader : reader.run (text ++ rest) with
    | error error =>
      rw [hreader] at hmap
      cases hmap
    | ok outcome =>
      obtain ⟨value, left⟩ := outcome
      rw [hreader] at hmap
      obtain ⟨hvalue, rfl⟩ := Prod.mk.inj (Except.ok.inj hmap)
      exact ⟨value, hvalue, rfl⟩
  obtain ⟨value, hvalue, _⟩ := hrun []
  refine ⟨value, hvalue, fun rest => ?_⟩
  obtain ⟨other, hother, hread⟩ := hrun rest
  rw [hread, injective (hother.trans hvalue.symm)]

theorem Reads.of_map {reader : Reader ε α} {text : List UInt8} {value : α} {f : α → β}
    (injective : Function.Injective f) (h : Reads (f <$> reader) text (f value)) :
    Reads reader text value := by
  obtain ⟨other, hsame, hother⟩ := h.exists_of_map injective
  obtain rfl := injective hsame
  exact hother

/-- Of two texts that a reader takes, none is a proper prefix of the other. -/
theorem isAntichain_reads (reader : Reader ε α) :
    IsAntichain (· <+: ·) {text | ∃ value, Reads reader text value} := by
  rintro text ⟨value, h⟩ other ⟨value', h'⟩ hne ⟨rest, rfl⟩
  have hrun := (h rest).symm.trans (by simpa using h' [])
  obtain ⟨_, rfl⟩ := Prod.mk.inj (Except.ok.inj hrun)
  exact hne (List.append_nil text).symm

/-- Any other text that the reader takes for the value is longer. -/
def Shortest (reader : Reader ε α) (text : List UInt8) (value : α) : Prop :=
  ∀ other, Reads reader other value → other = text ∨ text.length < other.length

theorem Shortest.map {reader : Reader ε α} {text : List UInt8} {value : α} {f : α → β}
    (injective : Function.Injective f) (h : Shortest reader text value) :
    Shortest (f <$> reader) text (f value) := by
  intro other hreads
  obtain ⟨value', hvalue, hother⟩ := hreads.exists_of_map injective
  obtain rfl := injective hvalue
  exact h other hother

theorem Shortest.of_map {reader : Reader ε α} {text : List UInt8} {value : α} {f : α → β}
    (h : Shortest (f <$> reader) text (f value)) : Shortest reader text value :=
  fun other hreads => h other (hreads.map f)

theorem Reads.whole {reader : Reader ε α} {text : List UInt8} {value : α} {trailing : ε}
    (h : Reads reader text value) : whole trailing reader text = .ok value := by
  have hrun := h []
  rw [List.append_nil] at hrun
  rw [Reader.whole, hrun]
  rfl

end Reader

end LakeFsAuth.Library
