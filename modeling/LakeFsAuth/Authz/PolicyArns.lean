import LakeFsAuth.Authz.PolicyBuilder

/-! The ARN that the fields of a statement stand for. -/
namespace LakeFsAuth.Authz.PolicyBuilder
open Core.Catalog Core.Text Library Authn.Redirect

/-- A template: the text before its first field, and its fields with the text behind each. -/
structure Template where
  first : Text
  fields : List (String × Text)

/-- The fields, replaced by texts. -/
def fill (texts : String → Text) (fields : List (String × Text)) : Text :=
  fields.flatMap fun (field, literal) => texts field ++ literal

def Template.fill (self : Template) (texts : String → Text) : Text :=
  self.first ++ PolicyBuilder.fill texts self.fields

def closeBrace : Char := Char.ofNat 0x7D

def readTemplate (text : Text) : Template :=
  match text.splitOn openBrace with
  | first :: pieces => ⟨first, pieces.map fun piece =>
      (String.ofList (piece.takeWhile (· != closeBrace)),
        (piece.dropWhile (· != closeBrace)).tail)⟩
  | [] => ⟨[], []⟩

/-- The template of a kind. -/
def templateOf (kind : ResourceKind) : Template := readTemplate kind.template.toList

/-- A dollar sign stands before a mark that makes it an escape. -/
def hasEscape : Text → Bool
  | '$' :: mark :: rest =>
      mark ∈ ['$', '&', Char.ofNat 96, Char.ofNat 39] || hasEscape (mark :: rest)
  | _ :: rest => hasEscape rest
  | [] => false

/-- Each replacement finds the placeholder of the template, and puts its text in as it is. -/
def Substitutes (texts : String → Text) : Text → List (String × Text) → Prop
  | _, [] => True
  | before, (field, literal) :: rest =>
      let after := literal ++ fill placeholder rest
      splitOnce (placeholder field) (before ++ placeholder field ++ after) = some (before, after) ∧
      expand before (placeholder field) after (texts field) = texts field ∧
      Substitutes texts (before ++ texts field ++ literal) rest

/-- The fields of a statement, each of them as a text. -/
def fieldTexts (fields : String → String) (field : String) : Text := (fieldText fields field).toList

/-- The resource is the template with its fields replaced, one after the other. -/
structure BuildsArn (kind : ResourceKind) (fields : String → String) : Prop where
  steps : Substitutes (fieldTexts fields) (templateOf kind).first (templateOf kind).fields
  resource : (resourceOf kind fields).toList = (templateOf kind).fill (fieldTexts fields)

/-! Replacement texts. -/

section Expand
variable {before needle after : Text}

theorem hasEscape_plain {mark : Char} (rest : Text) (hdollar : mark ≠ '$') (hmatch : mark ≠ '&')
    (hbefore : mark ≠ Char.ofNat 96) (hafter : mark ≠ Char.ofNat 39) :
    hasEscape ('$' :: mark :: rest) = hasEscape (mark :: rest) := by
  simp [hasEscape, hdollar, hmatch, hbefore, hafter]

theorem hasEscape_skip {ch : Char} {rest : Text}
    (hplain : ∀ mark more, ch = '$' → rest = mark :: more → False) :
    hasEscape (ch :: rest) = hasEscape rest := by
  rw [hasEscape]
  exact hplain

theorem expand_of_not_escape {text : Text} (h : hasEscape text = false) :
    expand before needle after text = text := by
  fun_induction expand before needle after text with
  | case1 rest | case2 rest | case3 rest | case4 rest => simp [hasEscape] at h
  | case5 mark rest hdollar hmatch hbefore hafter ih =>
    rw [hasEscape_plain rest hdollar hmatch hbefore hafter] at h
    rw [ih h]
  | case6 ch rest hplain ih =>
    rw [hasEscape_skip hplain] at h
    rw [ih h]
  | case7 => rfl

def isOwed (ch : Char) : Prop := ch = '$' ∨ ch = Char.ofNat 39

/-- Dollar signs and quotes that have to come out before the text that is read. -/
structure Owed (owed : Text) : Prop where
  filled : owed ≠ []
  marks : ∀ ch ∈ owed, isOwed ch

theorem Owed.append {owed read : Text} (marks : ∀ ch ∈ owed, isOwed ch) (hread : Owed read) :
    Owed (owed ++ read) where
  filled := List.append_ne_nil_of_right_ne_nil owed hread.filled
  marks ch hch := (List.mem_append.mp hch).elim (marks ch) (hread.marks ch)

theorem Owed.next {first : Char} {owed read : Text} (h : Owed (first :: owed)) (hread : Owed read) :
    Owed (owed ++ read) :=
  .append (List.forall_mem_cons.mp h.marks).2 hread

theorem owed_dollar : Owed ['$'] := ⟨by simp, by simp [isOwed]⟩

theorem owed_dollars : Owed ['$', '$'] := ⟨by simp, by simp [isOwed]⟩

theorem owed_quote : Owed ['$', Char.ofNat 39] := ⟨by simp, by simp [isOwed]⟩

/-- Text that starts with neither a dollar sign nor a quote. -/
def Foreign (text : Text) : Prop := ∃ ch rest, text = ch :: rest ∧ ¬isOwed ch

theorem Foreign.append_ne {text owed : Text} (foreign : Foreign text) (h : Owed owed)
    (tail more : Text) : text ++ tail ≠ owed ++ more := by
  obtain ⟨ch, rest, rfl, hforeign⟩ := foreign
  cases owed with
  | nil => exact absurd rfl h.filled
  | cons first owed =>
    intro heq
    rw [List.cons_append, List.cons_append, List.cons.injEq] at heq
    exact hforeign (heq.1 ▸ h.marks first List.mem_cons_self)

/-- Marks that come out before their text are followed by marks again. -/
theorem expand_ne_owed (hbefore : Foreign before) (hneedle : Foreign needle)
    (hafter : after = [] ∨ Foreign after) {text owed : Text} (h : Owed owed) :
    expand before needle after text ≠ owed ++ text := by
  -- What is owed has to come out first. The characters that are read instead are owed next.
  fun_induction expand before needle after text generalizing owed with
  | case1 rest ih =>
    cases owed with
    | nil => exact absurd rfl h.filled
    | cons first owed =>
      intro heq
      rw [List.cons_append, List.cons.injEq] at heq
      apply ih (h.next owed_dollars)
      simpa using heq.2
  | case2 rest _ ih => exact hneedle.append_ne h _ _
  | case3 rest _ _ ih => exact hbefore.append_ne h _ _
  | case4 rest _ _ _ ih =>
    rcases hafter with rfl | foreign
    · intro heq
      apply ih (.append h.marks owed_quote)
      simpa using heq
    · exact foreign.append_ne h _ _
  | case5 mark rest _ _ _ _ ih =>
    cases owed with
    | nil => exact absurd rfl h.filled
    | cons first owed =>
      intro heq
      rw [List.cons_append, List.cons.injEq] at heq
      apply ih (h.next owed_dollar)
      simpa using heq.2
  | case6 ch rest hplain ih =>
    cases owed with
    | nil => exact absurd rfl h.filled
    | cons first owed =>
      intro heq
      rw [List.cons_append, List.cons.injEq] at heq
      have hread : Owed [ch] := ⟨by simp, by simpa [heq.1] using h.marks first List.mem_cons_self⟩
      apply ih (h.next hread)
      simpa using heq.2
  | case7 => simp [h.filled]

/-- A text comes out as it is when it has no escape. -/
theorem expand_eq_iff (hbefore : Foreign before) (hneedle : Foreign needle)
    (hafter : after = [] ∨ Foreign after) (text : Text) :
    expand before needle after text = text ↔ hasEscape text = false := by
  refine ⟨fun heq => ?_, expand_of_not_escape⟩
  fun_induction expand before needle after text with
  | case1 rest ih =>
    exact absurd (List.cons.inj heq).2 (expand_ne_owed hbefore hneedle hafter owed_dollar)
  | case2 rest _ ih => exact absurd heq (hneedle.append_ne owed_dollar _ _)
  | case3 rest _ _ ih => exact absurd heq (hbefore.append_ne owed_dollar _ _)
  | case4 rest _ _ _ ih =>
    rcases hafter with rfl | foreign
    · exact absurd heq (expand_ne_owed hbefore hneedle (.inl rfl) owed_quote)
    · exact absurd heq (foreign.append_ne owed_dollar _ _)
  | case5 mark rest hdollar hmatch hquote hafter ih =>
    rw [hasEscape_plain rest hdollar hmatch hquote hafter]
    exact ih (List.cons.inj heq).2
  | case6 ch rest hplain ih =>
    rw [hasEscape_skip hplain]
    exact ih (List.cons.inj heq).2
  | case7 => rfl

end Expand

/-! What is found first. -/

section Search
variable {mark : Text} {stop : Char}

theorem prefix_stop {text : Text} (h : stop ∉ mark) (more : Text) :
    mark.isPrefixOf (text ++ stop :: more) = mark.isPrefixOf text := by
  induction text generalizing mark with
  | nil =>
    cases mark with
    | nil => rfl
    | cons ch mark =>
      have hch : (ch == stop) = false := beq_false_of_ne fun heq => h (heq ▸ List.mem_cons_self)
      simp [List.isPrefixOf, hch]
  | cons first text ih =>
    cases mark with
    | nil => rfl
    | cons ch mark => simp [List.isPrefixOf, ih fun hmem => h (List.mem_cons_of_mem _ hmem)]

theorem splitOnce_before (h : stop ∉ mark) {text before after : Text}
    (found : splitOnce mark text = some (before, after)) (more : Text) :
    splitOnce mark (text ++ stop :: more) = some (before, after ++ stop :: more) := by
  induction text generalizing before with
  | nil => cases found
  | cons ch text ih =>
    have hstarts := @prefix_stop mark stop (ch :: text) h more
    rw [List.cons_append] at hstarts ⊢
    rw [splitOnce] at found ⊢
    rw [hstarts]
    split at found
    · rename_i hmark
      have hlength : mark.length ≤ (ch :: text).length :=
        (List.isPrefixOf_iff_prefix.mp hmark).length_le
      cases found
      rw [if_pos hmark, ← List.cons_append, List.drop_append_of_le_length hlength]
    · rename_i hmark
      obtain ⟨pieces, hpieces, heq⟩ := Option.map_eq_some_iff.mp found
      cases heq
      rw [if_neg hmark, ih hpieces]
      rfl

theorem splitOnce_after (h : stop ∉ mark) (hmark : mark ≠ []) {text : Text}
    (missing : splitOnce mark text = none) (more : Text) :
    splitOnce mark (text ++ stop :: more) =
      (splitOnce mark more).map (Prod.map (text ++ stop :: ·) id) := by
  induction text with
  | nil =>
    have hstarts := @prefix_stop mark stop [] h more
    rw [List.nil_append] at hstarts ⊢
    rw [splitOnce, hstarts, if_neg (by simpa using hmark)]
    rfl
  | cons ch text ih =>
    have hstarts := @prefix_stop mark stop (ch :: text) h more
    rw [List.cons_append] at hstarts ⊢
    rw [splitOnce] at missing ⊢
    rw [hstarts]
    split at missing
    · cases missing
    · rename_i hfirst
      rw [if_neg hfirst, ih (Option.map_eq_none_iff.mp missing), Option.map_map]
      rfl

/-- A mark is in neither part of a text when it does not hold the character between them. -/
theorem splitOnce_stop_none (h : stop ∉ mark) (hmark : mark ≠ []) (text more : Text) :
    splitOnce mark (text ++ stop :: more) = none ↔
      splitOnce mark text = none ∧ splitOnce mark more = none := by
  cases hfound : splitOnce mark text with
  | none => rw [splitOnce_after h hmark hfound, Option.map_eq_none_iff, and_iff_right rfl]
  | some pieces => simp [splitOnce_before h hfound]

theorem splitOnce_self (hmark : mark ≠ []) (after : Text) :
    splitOnce mark (mark ++ after) = some ([], after) := by
  cases mark with
  | nil => exact absurd rfl hmark
  | cons ch mark =>
    have hstarts : (ch :: mark).isPrefixOf (ch :: mark ++ after) = true :=
      List.isPrefixOf_iff_prefix.mpr (List.prefix_append _ _)
    rw [List.cons_append] at hstarts ⊢
    rw [splitOnce, if_pos hstarts]
    simp

/-- A mark behind a slash is the first one when there is none before the slash. -/
theorem splitOnce_own (h : stop ∉ mark) (hmark : mark ≠ []) (text after : Text) :
    splitOnce mark (text ++ [stop] ++ mark ++ after) = some (text ++ [stop], after) ↔
      splitOnce mark text = none := by
  have htext : text ++ [stop] ++ mark ++ after = text ++ stop :: (mark ++ after) := by simp
  rw [htext]
  cases hfound : splitOnce mark text with
  | none =>
    rw [splitOnce_after h hmark hfound, splitOnce_self hmark]
    simp
  | some pieces =>
    obtain ⟨before, rest⟩ := pieces
    have hlength := congrArg List.length (splitOnce_some hfound)
    rw [splitOnce_before h hfound]
    simp only [List.length_append] at hlength
    refine iff_of_false (fun heq => ?_) (by simp)
    simp only [Option.some.injEq, Prod.mk.injEq] at heq
    have hbefore := congrArg List.length heq.1
    simp only [List.length_append, List.length_singleton] at hbefore
    omega

theorem splitOnce_none_iff (hmark : mark ≠ []) (text : Text) :
    splitOnce mark text = none ↔ ¬mark <:+: text := by
  constructor
  · rintro hnone ⟨before, after, rfl⟩
    rw [List.append_assoc] at hnone
    induction before with
    | nil => simp [splitOnce_self hmark] at hnone
    | cons ch before ih =>
      rw [List.cons_append, splitOnce] at hnone
      split at hnone
      · cases hnone
      · exact ih (Option.map_eq_none_iff.mp hnone)
  · intro hmissing
    cases hfound : splitOnce mark text with
    | none => rfl
    | some pieces => exact absurd ⟨pieces.1, pieces.2, (splitOnce_some hfound).symm⟩ hmissing

end Search

/-! The templates of the kinds. -/

/-- Fields that stand between slashes. -/
def slashed : List (String × Text) → Bool
  | [] => true
  | (field, literal) :: rest => !(placeholder field).contains '/' && openBrace ∉ literal &&
      (rest == [] && literal == [] ||
        literal.head? == some '/' && literal.getLast? == some '/') && slashed rest

theorem template_spec (kind : ResourceKind) :
    kind.template.toList = (templateOf kind).fill placeholder ∧
      (templateOf kind).fields.map Prod.fst = kind.fields ∧
      slashed (templateOf kind).fields = true ∧ openBrace ∉ (templateOf kind).first ∧
      ((templateOf kind).fields = [] ∨ (templateOf kind).first.head? = some 'a' ∧
        (templateOf kind).first.getLast? = some '/') := by
  cases kind <;> decide

/-- What is before a field: an ARN up to a slash, without a placeholder. -/
structure IsBefore (before : Text) : Prop where
  foreign : Foreign before
  slash : ∃ front, before = front ++ ['/']

theorem isBefore_first {kind : ResourceKind} (h : (templateOf kind).fields ≠ []) :
    IsBefore (templateOf kind).first := by
  obtain ⟨_, _, _, _, hends⟩ := template_spec kind
  obtain ⟨hhead, hlast⟩ := hends.resolve_left h
  obtain ⟨rest, hrest⟩ := List.head?_eq_some_iff.mp hhead
  exact ⟨⟨'a', rest, hrest, by unfold isOwed; decide⟩, List.getLast?_eq_some_iff.mp hlast⟩

theorem foreign_placeholder (field : String) : Foreign (placeholder field) := by
  obtain ⟨mark, hmark⟩ := placeholder_cons field
  exact ⟨openBrace, mark, hmark, by unfold isOwed; decide⟩

theorem placeholder_ne_nil (field : String) : placeholder field ≠ [] := by
  obtain ⟨mark, hmark⟩ := placeholder_cons field
  simp [hmark]

/-- What `slashed` asks of the first field. -/
structure IsField (field : String) (literal : Text) (rest : List (String × Text)) : Prop where
  name : '/' ∉ placeholder field
  clean : openBrace ∉ literal
  ends : rest = [] ∧ literal = [] ∨ (∃ text, literal = '/' :: text) ∧ ∃ text, literal = text ++ ['/']
  later : slashed rest = true

theorem isField_of_slashed {field : String} {literal : Text} {rest : List (String × Text)}
    (h : slashed ((field, literal) :: rest) = true) : IsField field literal rest := by
  simp only [slashed, Bool.and_eq_true, Bool.or_eq_true, beq_iff_eq, Bool.not_eq_true',
    decide_eq_true_eq, List.head?_eq_some_iff, List.getLast?_eq_some_iff] at h
  obtain ⟨⟨⟨hname, hliteral⟩, hends⟩, hrest⟩ := h
  exact ⟨by simpa using hname, hliteral, hends, hrest⟩

theorem slash_not_mem_placeholder {fields : List (String × Text)} (h : slashed fields = true) :
    ∀ field ∈ fields.map Prod.fst, '/' ∉ placeholder field := by
  induction fields with
  | nil => simp
  | cons entry rest ih =>
    have isField := isField_of_slashed h
    rw [List.map_cons, List.forall_mem_cons]
    exact ⟨isField.name, ih isField.later⟩

/-- A placeholder is behind a field when it was before it, or when it is in its text. -/
theorem splitOnce_field {field : String} (hname : '/' ∉ placeholder field) {literal : Text}
    (hbrace : openBrace ∉ literal) (front text : Text) :
    splitOnce (placeholder field) (front ++ ['/'] ++ text ++ '/' :: literal) = none ↔
      splitOnce (placeholder field) (front ++ ['/']) = none ∧
        splitOnce (placeholder field) text = none := by
  have hne := placeholder_ne_nil field
  have hliteral : splitOnce (placeholder field) literal = none := by
    obtain ⟨mark, hmark⟩ := placeholder_cons field
    exact splitOnce_none (hmark ▸ List.mem_cons_self) hbrace
  have hfront := splitOnce_stop_none hname hne front []
  rw [List.append_assoc, List.append_assoc, List.singleton_append, splitOnce_stop_none hname hne,
    splitOnce_stop_none hname hne, hfront]
  simp [hliteral, splitOnce]

/-- The steps go through when no text has an escape, and no placeholder is in what is before it. -/
theorem substitutes_iff (texts : String → Text) {fields : List (String × Text)} {before : Text}
    (h : slashed fields = true) (isBefore : fields ≠ [] → IsBefore before) :
    Substitutes texts before fields ↔
      (∀ field ∈ fields.map Prod.fst, hasEscape (texts field) = false) ∧
      (∀ field ∈ fields.map Prod.fst, splitOnce (placeholder field) before = none) ∧
      (fields.map Prod.fst).Pairwise fun earlier later =>
        splitOnce (placeholder later) (texts earlier) = none := by
  induction fields generalizing before with
  | nil => simp [Substitutes]
  | cons entry rest ih =>
    obtain ⟨field, literal⟩ := entry
    have isField := isField_of_slashed h
    obtain ⟨foreign, front, rfl⟩ := isBefore (by simp)
    have hafter : literal ++ fill placeholder rest = [] ∨ Foreign (literal ++ fill placeholder rest) := by
      rcases isField.ends with ⟨rfl, rfl⟩ | ⟨⟨text, rfl⟩, _⟩
      · exact .inl rfl
      · exact .inr ⟨'/', _, rfl, by unfold isOwed; decide⟩
    have hrest : rest ≠ [] → IsBefore (front ++ ['/'] ++ texts field ++ literal) := by
      intro hne
      obtain ⟨_, text, htext⟩ := isField.ends.resolve_left fun hend => hne hend.1
      refine ⟨?_, front ++ ['/'] ++ texts field ++ text, by simp [htext]⟩
      obtain ⟨ch, tail, hhead, hforeign⟩ := foreign
      exact ⟨ch, tail ++ texts field ++ literal, by simp [hhead], hforeign⟩
    have hlater : (∀ other ∈ rest.map Prod.fst,
        splitOnce (placeholder other) (front ++ ['/'] ++ texts field ++ literal) = none) ↔
        ∀ other ∈ rest.map Prod.fst, splitOnce (placeholder other) (front ++ ['/']) = none ∧
          splitOnce (placeholder other) (texts field) = none := by
      refine forall₂_congr fun other hother => ?_
      rcases isField.ends with ⟨rfl, _⟩ | ⟨⟨text, rfl⟩, _⟩
      · simp at hother
      · refine splitOnce_field (slash_not_mem_placeholder isField.later other hother) ?_ front _
        exact fun hmem => isField.clean (List.mem_cons_of_mem _ hmem)
    have hfront : splitOnce (placeholder field) (front ++ ['/']) = none ↔
        splitOnce (placeholder field) front = none := by
      simp [splitOnce_stop_none isField.name (placeholder_ne_nil field), splitOnce]
    rw [Substitutes, splitOnce_own isField.name (placeholder_ne_nil field),
      expand_eq_iff foreign (foreign_placeholder field) hafter, ih isField.later hrest, hlater]
    simp only [List.map_cons, List.forall_mem_cons, List.pairwise_cons, hfront, forall_and]
    tauto

/-- Steps that go through build the ARN. -/
theorem substitutes_fold {texts : String → Text} {fields : List (String × Text)} {before : Text}
    (h : Substitutes texts before fields) :
    (fields.map Prod.fst).foldl (fun arn field => replace arn (placeholder field) (texts field))
      (before ++ fill placeholder fields) = before ++ fill texts fields := by
  induction fields generalizing before with
  | nil => rfl
  | cons entry rest ih =>
    obtain ⟨field, literal⟩ := entry
    obtain ⟨hfound, hexpand, hrest⟩ := h
    have hstep : replace (before ++ fill placeholder ((field, literal) :: rest)) (placeholder field)
        (texts field) = before ++ texts field ++ literal ++ fill placeholder rest := by
      have htext : before ++ fill placeholder ((field, literal) :: rest) =
          before ++ placeholder field ++ (literal ++ fill placeholder rest) := by simp [fill]
      unfold replace
      rw [htext, hfound]
      dsimp only
      rw [hexpand]
      simp
    rw [List.map_cons, List.foldl_cons, hstep, ih hrest]
    simp [fill]

/-- The page builds the ARN of its fields when no text has an escape of replacement texts, and
none holds the placeholder of a later field. -/
theorem buildsArn_iff (kind : ResourceKind) (fields : String → String) :
    BuildsArn kind fields ↔
      (∀ field ∈ kind.fields, hasEscape (fieldTexts fields field) = false) ∧
      kind.fields.Pairwise fun earlier later =>
        ¬placeholder later <:+: fieldTexts fields earlier := by
  obtain ⟨htemplate, hnames, hslashed, hclean, _⟩ := template_spec kind
  have hfirst : ∀ field ∈ kind.fields, splitOnce (placeholder field) (templateOf kind).first = none := by
    intro field _
    obtain ⟨mark, hmark⟩ := placeholder_cons field
    exact splitOnce_none (hmark ▸ List.mem_cons_self) hclean
  have hsteps := substitutes_iff (fieldTexts fields) hslashed isBefore_first
  simp only [hnames, splitOnce_none_iff (placeholder_ne_nil _)] at hsteps
  constructor
  · intro builds
    obtain ⟨hescape, _, hlater⟩ := hsteps.mp builds.steps
    exact ⟨hescape, hlater⟩
  · rintro ⟨hescape, hlater⟩
    have steps := hsteps.mpr ⟨hescape, by simpa [splitOnce_none_iff (placeholder_ne_nil _)] using hfirst, hlater⟩
    refine ⟨steps, ?_⟩
    have hfold := substitutes_fold steps
    rw [hnames] at hfold
    rw [resourceOf, String.toList_ofList, htemplate]
    exact hfold

/-- The name of the branch is put in for the repository too. -/
theorem placeholder_is_replaced :
    resourceOf .branch (fun field => if field = "repository" then "\x7bbranch\x7d" else "main") =
      "arn:lakefs:fs:::repository/main/branch/\x7bbranch\x7d" ∧
    ¬BuildsArn .branch (fun field => if field = "repository" then "\x7bbranch\x7d" else "main") := by
  constructor
  · decide
  · intro builds
    exact absurd builds.resource (by decide)

end LakeFsAuth.Authz.PolicyBuilder
