import LakeFsAuth.AuthzClient.Urls
import LakeFsAuth.Library.Form

/-! The query of a request, from the client that writes it to the server that reads it. -/
namespace LakeFsAuth.AuthzClient
open Core.SecretBox Library

/-- What a form keeps as it is. -/
def isFormChar (ch : Char) : Bool := ch.isAlphanum || ch ∈ ['*', '-', '.', '_']

theorem formEncode_eq (text : String) : formEncode text = text.toList.flatMap fun ch =>
    if ch = ' ' then ['+'] else Url.percentEncode (fun ch => !isFormChar ch) ch := rfl

theorem mem_formEncode {text : String} {out : Char} (h : out ∈ formEncode text) :
    out = '+' ∨ out = '%' ∨ isFormChar out = true := by
  have hdigit : ∀ n : Fin 16, isFormChar (Url.hexDigit n.val) = true := by decide
  rw [formEncode_eq] at h
  obtain ⟨ch, _, hch⟩ := List.mem_flatMap.mp h
  split at hch
  · exact .inl (List.mem_singleton.mp hch)
  · unfold Url.percentEncode at hch
    split at hch
    · obtain ⟨byte, _, hbyte⟩ := List.mem_flatMap.mp hch
      have hlt := byte.toNat_lt
      simp only [List.mem_cons, List.not_mem_nil, or_false] at hbyte
      obtain rfl | rfl | rfl := hbyte
      · exact .inr (.inl rfl)
      · exact .inr (.inr (hdigit ⟨byte.toNat / 16, by omega⟩))
      · exact .inr (.inr (hdigit ⟨byte.toNat % 16, by omega⟩))
    · rename_i hkept
      obtain rfl := List.mem_singleton.mp hch
      exact .inr (.inr (by simpa using hkept))

/-- Neither mark of a form is in an encoded text. -/
theorem marks_not_mem (text : String) : '&' ∉ formEncode text ∧ '=' ∉ formEncode text := by
  constructor <;>
    · intro h
      rcases mem_formEncode h with h | h | h <;> exact absurd h (by decide)

theorem isFormChar_plus {ch : Char} (h : isFormChar ch = true) : ch ≠ '+' := by
  rintro rfl
  exact absurd h (by decide)

/-- What a form encodes by its bytes. -/
def formSet (ch : Char) : Bool := !(isFormChar ch || ch == ' ')

/-- With its plus signs turned back, the text is percent-encoded but for spaces. -/
theorem formEncode_spaces (text : String) :
    (formEncode text).map (fun ch => if ch = '+' then ' ' else ch) =
      text.toList.flatMap (Url.percentEncode formSet) := by
  have hdigit : ∀ n : Fin 16, Url.hexDigit n.val ≠ '+' := by decide
  rw [formEncode_eq, List.map_flatMap]
  refine List.flatMap_congr fun ch _ => ?_
  by_cases hspace : ch = ' '
  · subst hspace
    rfl
  · have hset : formSet ch = !isFormChar ch := by simp [formSet, hspace]
    rw [if_neg hspace]
    simp only [Url.percentEncode, hset]
    split
    · rw [List.map_flatMap]
      refine List.flatMap_congr fun byte _ => ?_
      have hlt := byte.toNat_lt
      have hhigh := hdigit ⟨byte.toNat / 16, by omega⟩
      have hlow := hdigit ⟨byte.toNat % 16, by omega⟩
      simp only [List.map_cons, List.map_nil, if_neg hhigh, if_neg hlow]
      rfl
    · rename_i hkept
      have hform : isFormChar ch = true := by simpa using hkept
      simp [isFormChar_plus hform]

theorem utf8Lossy_asBytes (text : String) : Form.utf8Lossy (asBytes text) = text := by
  have h := fromUtf8_asBytes text
  unfold fromUtf8 at h
  rw [Form.utf8Lossy, h]
  rfl

theorem decode_formEncode (text : String) : Form.decode (formEncode text) = text := by
  have hpercent : formSet '%' = true := by decide
  have hdecode := Url.percentDecode_encode hpercent text.toList []
  rw [List.append_nil] at hdecode
  rw [Form.decode, formEncode_spaces, hdecode]
  change Form.utf8Lossy (_ ++ []) = text
  rw [List.append_nil, ← asBytes_eq, utf8Lossy_asBytes]

theorem pair_formEncode (name value : String) :
    Form.pair (formEncode name ++ '=' :: formEncode value) = (name, value) := by
  have hname : ∀ ch ∈ formEncode name, (ch != '=') = true := by
    intro ch hch
    have hne : ch ≠ '=' := fun heq => (marks_not_mem name).2 (heq ▸ hch)
    simpa using hne
  rw [Form.pair, List.takeWhile_append_of_pos hname, List.dropWhile_append_of_pos hname]
  simp [decode_formEncode]

/-- A query that was written is read back. -/
theorem parse_formQuery (pairs : List (String × String)) : Form.parse (formQuery pairs) = pairs := by
  by_cases hnil : pairs = []
  · subst hnil
    rfl
  · have hpieces : ∀ piece ∈ pairs.map fun pair => formEncode pair.1 ++ '=' :: formEncode pair.2,
        '&' ∉ piece ∧ piece ≠ [] := by
      intro piece hpiece
      obtain ⟨pair, _, rfl⟩ := List.mem_map.mp hpiece
      refine ⟨fun hmem => ?_, by simp⟩
      rcases List.mem_append.mp hmem with h | h
      · exact (marks_not_mem _).1 h
      · rcases List.mem_cons.mp h with h | h
        · exact absurd h (by decide)
        · exact (marks_not_mem _).1 h
    rw [Form.parse, formQuery, List.splitOn_intercalate '&' (fun piece h => (hpieces piece h).1) (by simpa),
      List.filter_eq_self.mpr fun piece h => by simpa using (hpieces piece h).2, List.map_map]
    have hpair : (Form.pair ∘ fun pair : String × String =>
        formEncode pair.1 ++ '=' :: formEncode pair.2) = id := by
      funext pair
      exact pair_formEncode pair.1 pair.2
    rw [hpair, List.map_id]

end LakeFsAuth.AuthzClient
