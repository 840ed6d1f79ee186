import LakeFsAuth.Authn.Redirect
import LakeFsAuth.Core.Catalog

/-! The policy builder page: the policy it sends, and the rules it shows to its user. -/
namespace LakeFsAuth.Authz.PolicyBuilder
open Core.Catalog Core.Error Core.Model Core.Text Core.Validate Library Authn.Redirect

/-! Strings, as the scripts of a page treat them. -/

/-- White space and line terminators. A next line mark is none of them, a byte order mark is. -/
def isJsSpace (ch : Char) : Bool :=
  ch.toNat == 0xFEFF || (isWhitespace ch && ch.toNat != 0x85)

/-- `String.prototype.trim`. -/
def jsTrim (value : String) : String :=
  String.ofList ((value.toList.dropWhile isJsSpace).rdropWhile isJsSpace)

/-- A replacement text with its escapes: a dollar sign, what is matched, and what stands before
and after it. -/
def expand (before needle after : Text) : Text → Text
  | '$' :: mark :: rest =>
      if mark = '$' then '$' :: expand before needle after rest
      else if mark = '&' then needle ++ expand before needle after rest
      else if mark = Char.ofNat 96 then before ++ expand before needle after rest
      else if mark = Char.ofNat 39 then after ++ expand before needle after rest
      else '$' :: expand before needle after (mark :: rest)
  | ch :: rest => ch :: expand before needle after rest
  | [] => []

/-- `String.prototype.replace`: the first match, if there is one. -/
def replace (text needle value : Text) : Text :=
  match splitOnce needle text with
  | some (before, after) => before ++ expand before needle after value ++ after
  | none => text

/-! The statements of the page. -/

/-- A statement, with the selected actions in the order of their selection. A field that is not
filled in is empty. -/
structure PageStatement where
  effect : Effect
  actions : List String
  kind : ResourceKind
  fields : String → String
  inCatalog : ∀ name ∈ actions, ∃ action ∈ Core.Catalog.actions, action.name = name
  distinct : actions.Nodup

def placeholder (field : String) : Text := ("\x7b" ++ field ++ "\x7d").toList

/-- An empty field becomes a wildcard. -/
def fieldText (fields : String → String) (field : String) : String :=
  let text := jsTrim (fields field)
  if text = "" then "*" else text

/-- Fills the ARN template of the chosen kind. -/
def resourceOf (kind : ResourceKind) (fields : String → String) : String :=
  String.ofList (kind.fields.foldl
    (fun arn field => replace arn (placeholder field) (fieldText fields field).toList)
    kind.template.toList)

/-- The kinds every selected action agrees on, most specific first. -/
def suggestedKinds (statement : PageStatement) : List ResourceKind :=
  match statement.actions.filterMap fun name => Core.Catalog.actions.find? (·.name = name) with
  | [] => []
  | first :: rest =>
      rest.foldl (fun shared action => shared.filter (· ∈ action.resources)) first.resources

def kindLabel : ResourceKind → String
  | .all => "Everything (*)"
  | .repository => "Repository"
  | .object => "Object path"
  | .branch => "Branch"
  | .tag => "Tag"
  | .storageNamespace => "Storage namespace"
  | .user => "User"
  | .group => "Group"
  | .policy => "Policy"
  | .externalPrincipal => "External principal"
  | .catalogNamespace => "Catalog namespace"
  | .catalogTable => "Catalog table"
  | .catalogView => "Catalog view"

inductive Level where
  | error
  | warn
  deriving DecidableEq

def nameMessages (name : String) : List (Level × String) :=
  if jsTrim name = "" then [(.error, "The policy needs a name.")]
  else if name.toList.contains '/' then [(.error, "A policy name must not contain '/'.")]
  else if 512 < name.utf8ByteSize then [(.error, "A policy name is at most 512 bytes.")]
  else []

def scopeMessages (label : String) (statement : PageStatement) : List (Level × String) :=
  let shared := suggestedKinds statement
  if 1 < statement.actions.length ∧ shared = [] ∧ statement.kind ≠ .all then
    [(.warn, label ++
      " mixes actions that lakeFS checks against different ARNs. Split it, or use '*'.")]
  else if shared ≠ [] ∧ statement.kind ≠ .all ∧ statement.kind ∉ shared then
    [(.warn, label ++ " is scoped to " ++ kindLabel statement.kind ++
      ", which these actions never match.")]
  else []

def resourceMessages (label resource : String) : List (Level × String) :=
  if resource = "*" then []
  else
    let parts := resource.toList.splitOn ':'
    if parts.length < 6 ∨ parts[0]? ≠ some "arn".toList then
      [(.error, label ++ " has a resource that is not an ARN.")]
    else if parts[1]? ≠ some "lakefs".toList then
      [(.error, label ++ " has an ARN whose partition is not 'lakefs'.")]
    else []

def statementMessages (index : Nat) (statement : PageStatement) : List (Level × String) :=
  let label := "Statement " ++ toString (index + 1)
  (if statement.actions = [] then [(.error, label ++ " needs at least one action.")] else []) ++
    scopeMessages label statement ++
    resourceMessages label (resourceOf statement.kind statement.fields) ++
    (if "fs:ListObjects" ∈ statement.actions ∧ statement.kind = .object then
      [(.warn, label ++ " scopes fs:ListObjects to a path, but lakeFS checks it against the " ++
        "repository. Listing stays repository-wide.")] else []) ++
    (if "fs:WriteObject" ∈ statement.actions ∧ statement.kind = .branch then
      [(.warn, label ++ " scopes fs:WriteObject to a branch. Only the import endpoint checks " ++
        "that ARN; normal uploads check the object ARN.")] else [])

/-- These rules mirror those of the server. -/
def validate (name : String) (list : List PageStatement) : List (Level × String) :=
  nameMessages name ++
    (if list = [] then [(.error, "A policy needs at least one statement.")] else []) ++
    (list.mapIdx statementMessages).flatten

def PageStatement.toStatement (statement : PageStatement) : Statement :=
  ⟨statement.effect, resourceOf statement.kind statement.fields, statement.actions, none⟩

/-! The resource of a statement starts as its template does. -/

/-- What stands before the first placeholder of a template. -/
def start (kind : ResourceKind) : Text :=
  kind.template.toList.takeWhile (· ∉ "\x7b".toList)

def openBrace : Char := Char.ofNat 0x7B

theorem placeholder_cons (field : String) :
    ∃ mark, placeholder field = openBrace :: mark := by
  refine ⟨field.toList ++ "\x7d".toList, ?_⟩
  rw [placeholder, String.toList_append, String.toList_append, List.append_assoc]
  rfl

/-- What stands before a match is left alone. -/
theorem replace_start {text mark : Text} {first : Char} (h : first ∉ text) (more value : Text) :
    ∃ tail, replace (text ++ more) (first :: mark) value = text ++ tail := by
  unfold replace
  split
  · rename_i before after hsplit
    have htext := splitOnce_some hsplit
    rw [List.append_assoc] at htext
    rcases List.append_eq_append_iff.mp htext with ⟨front, rfl, _⟩ | ⟨front, htext, hmark⟩
    · exact ⟨_, by rw [List.append_assoc, List.append_assoc]⟩
    · cases front with
      | nil =>
        exact ⟨expand before (first :: mark) after value ++ after,
          by rw [htext, List.append_nil, List.append_assoc]⟩
      | cons ch front =>
        rw [List.cons_append, List.cons_append, List.cons.injEq] at hmark
        exact absurd (htext ▸ List.mem_append_right before (hmark.1 ▸ List.mem_cons_self)) h
  · exact ⟨more, rfl⟩

theorem start_spec (kind : ResourceKind) :
    openBrace ∉ start kind ∧ ∃ more, kind.template.toList = start kind ++ more := by
  constructor
  · cases kind <;> decide
  · exact ⟨_, (List.takeWhile_append_dropWhile).symm⟩

theorem resourceOf_start (kind : ResourceKind) (fields : String → String) :
    ∃ more, (resourceOf kind fields).toList = start kind ++ more := by
  obtain ⟨hbrace, htemplate⟩ := start_spec kind
  rw [resourceOf, String.toList_ofList]
  generalize kind.template.toList = arn at htemplate
  induction kind.fields generalizing arn with
  | nil => exact htemplate
  | cons field rest ih =>
    obtain ⟨more, rfl⟩ := htemplate
    obtain ⟨mark, hmark⟩ := placeholder_cons field
    apply ih
    dsimp only
    rw [hmark]
    exact replace_start hbrace more _

/-- An ARN of lakeFS without a region and an account. -/
structure IsArn (text service resource : Text) : Prop where
  text : text = "arn".toList ++ ':' :: ("lakefs".toList ++ ':' :: (service ++ ':' :: ([] ++ ':' ::
    ([] ++ ':' :: resource))))
  service : service ≠ [] ∧ ':' ∉ service
  resource : resource ≠ []

theorem start_isArn {kind : ResourceKind} (h : kind ≠ .all) :
    IsArn (start kind) (((start kind).drop 11).takeWhile (· != ':'))
      ((((start kind).drop 11).dropWhile (· != ':')).drop 3) := by
  cases kind <;> first | exact absurd rfl h | exact ⟨by decide, by decide, by decide⟩

/-- A resource is everything, or an ARN. -/
theorem resourceOf_isArn (kind : ResourceKind) (fields : String → String) :
    resourceOf kind fields = "*" ∨
      ∃ service resource, IsArn (resourceOf kind fields).toList service resource := by
  by_cases hall : kind = .all
  · left
    rw [hall]
    rfl
  · right
    have arn := start_isArn hall
    obtain ⟨more, hmore⟩ := resourceOf_start kind fields
    refine ⟨_, _, ⟨?_, arn.service, List.append_ne_nil_of_left_ne_nil arn.resource more⟩⟩
    rw [hmore]
    nth_rewrite 1 [arn.text]
    simp only [List.append_assoc, List.cons_append, List.nil_append]

theorem splitn_cons {sep : Char} {part : Text} (h : sep ∉ part) (count : Nat) (rest : Text) :
    splitn sep (count + 2) (part ++ sep :: rest) = part :: splitn sep (count + 1) rest := by
  have hpart : ∀ ch ∈ part, (ch != sep) = true := fun ch hch =>
    bne_iff_ne.mpr fun heq => h (heq ▸ hch)
  rw [splitn, List.dropWhile_append_of_pos hpart, List.takeWhile_append_of_pos hpart]
  simp

theorem validateArn_of_isArn {text : String} {service resource : Text}
    (arn : IsArn text.toList service resource) : validateArn text = .ok () := by
  have hsplit : splitn ':' 6 text.toList =
      ["arn".toList, "lakefs".toList, service, [], [], resource] := by
    rw [arn.text, splitn_cons (by decide), splitn_cons (by decide), splitn_cons arn.service.2,
      splitn_cons (by simp), splitn_cons (by simp)]
    rfl
  have hservice : String.ofList service ≠ "" := by simpa using arn.service.1
  have hresource : String.ofList resource ≠ "" := by simpa using arn.resource
  unfold validateArn
  rw [hsplit]
  simp [hservice, hresource]

theorem validateResource_of_isArn [SerdeJson] {text : String} {service resource : Text}
    (arn : IsArn text.toList service resource) : validateResource text = .ok () := by
  have hhead : text.toList.head? = some 'a' := by rw [arn.text]; rfl
  unfold validateResource
  split
  · rfl
  · rw [if_neg (by simp [hhead]), validateArn_of_isArn arn]

theorem resourceOf_valid [SerdeJson] (kind : ResourceKind) (fields : String → String) :
    validateResource (resourceOf kind fields) = .ok () := by
  rcases resourceOf_isArn kind fields with hall | ⟨service, resource, arn⟩
  · rw [hall]
    rfl
  · exact validateResource_of_isArn arn

theorem resourceMessages_nil (label : String) (kind : ResourceKind) (fields : String → String) :
    resourceMessages label (resourceOf kind fields) = [] := by
  unfold resourceMessages
  rcases resourceOf_isArn kind fields with hall | ⟨service, resource, arn⟩
  · rw [if_pos hall]
  · have hsplit : (resourceOf kind fields).toList.splitOn ':' = "arn".toList :: "lakefs".toList ::
        service :: [] :: [] :: resource.splitOn ':' := by
      rw [arn.text, List.splitOn_append_cons_self_of_not_mem (by decide),
        List.splitOn_append_cons_self_of_not_mem (by decide),
        List.splitOn_append_cons_self_of_not_mem arn.service.2,
        List.splitOn_append_cons_self_of_not_mem (by simp),
        List.splitOn_append_cons_self_of_not_mem (by simp)]
    have hfields : 0 < (resource.splitOn ':').length :=
      List.length_pos_iff.mpr (List.splitOn_ne_nil _ _)
    split
    · rfl
    · rw [hsplit]
      simp
      omega

/-! The page and the server. -/

theorem forM_ok {check : α → Except ApiError Unit} {list : List α} :
    list.forM check = .ok () ↔ ∀ entry ∈ list, check entry = .ok () := by
  induction list with
  | nil => simp [pure, Except.pure]
  | cons entry list ih =>
    rw [List.forall_mem_cons, ← ih]
    change (check entry >>= fun _ => list.forM check) = .ok () ↔ _
    cases hcheck : check entry with
    | error error => simp [bind, Except.bind]
    | ok value => simp [bind, Except.bind]

/-- The page shows no error. -/
def Passes (name : String) (list : List PageStatement) : Prop :=
  ∀ message ∈ validate name list, message.1 ≠ .error

/-- What the page asks of a name. -/
structure ShownName (name : String) : Prop where
  nonempty : name ≠ ""
  noSlash : name.toList.contains '/' = false
  short : name.utf8ByteSize ≤ maxIdLen

/-- What only the server asks of a name. -/
structure CleanName (name : String) : Prop where
  noDots : ¬(name = "." ∨ name = "..")
  noWildcard : (name.toList.any fun ch => ch == '*' || ch == '?') = false
  noControl : name.toList.any isControl = false

theorem validId_iff (name : String) : ValidId name ↔ ShownName name ∧ CleanName name := by
  constructor
  · intro valid
    exact ⟨⟨valid.nonempty, valid.noSlash, valid.short⟩,
      ⟨valid.noDots, valid.noWildcard, valid.noControl⟩⟩
  · rintro ⟨shown, clean⟩
    exact ⟨shown.nonempty, shown.short, clean.noDots, shown.noSlash, clean.noWildcard,
      clean.noControl⟩

/-- A name is sent as it is shown. -/
theorem jsTrim_jsTrim (value : String) : jsTrim (jsTrim value) = jsTrim value := by
  unfold jsTrim
  rw [String.toList_ofList, trimEnds_trimEnds]

theorem nameMessages_iff {name : String} (trimmed : jsTrim name = name) :
    (∀ message ∈ nameMessages name, message.1 ≠ .error) ↔ ShownName name := by
  have hiff : ShownName name ↔
      name ≠ "" ∧ name.toList.contains '/' = false ∧ ¬512 < name.utf8ByteSize :=
    ⟨fun shown => ⟨shown.nonempty, shown.noSlash, not_lt.mpr shown.short⟩,
      fun h => ⟨h.1, h.2.1, not_lt.mp h.2.2⟩⟩
  unfold nameMessages
  rw [trimmed, hiff]
  split_ifs with hempty hslash hlong
  · simp [hempty]
  · have hmem : '/' ∈ name.toList := by simpa using hslash
    simp [hmem]
  · simp [hlong]
  · have hclean : '/' ∉ name.toList := by simpa using hslash
    simp [hempty, hclean, hlong]

theorem scopeMessages_warn (label : String) (statement : PageStatement) :
    ∀ message ∈ scopeMessages label statement, message.1 ≠ .error := by
  unfold scopeMessages
  dsimp only
  split_ifs <;> simp

theorem statementMessages_iff (index : Nat) (statement : PageStatement) :
    (∀ message ∈ statementMessages index statement, message.1 ≠ .error) ↔
      statement.actions ≠ [] := by
  have hscope := scopeMessages_warn ("Statement " ++ toString (index + 1)) statement
  unfold statementMessages
  dsimp only
  rw [resourceMessages_nil, List.append_nil]
  simp only [List.forall_mem_append]
  constructor
  · rintro ⟨⟨⟨hactions, _⟩, _⟩, _⟩ hempty
    simp [hempty] at hactions
  · intro hfilled
    refine ⟨⟨⟨?_, hscope⟩, ?_⟩, ?_⟩
    · simp [hfilled]
    · split_ifs <;> simp
    · split_ifs <;> simp

theorem passes_iff {name : String} (trimmed : jsTrim name = name) (list : List PageStatement) :
    Passes name list ↔ ShownName name ∧ list ≠ [] ∧ ∀ statement ∈ list, statement.actions ≠ [] := by
  have hlist : (∀ message ∈ (list.mapIdx statementMessages).flatten, message.1 ≠ .error) ↔
      ∀ statement ∈ list, statement.actions ≠ [] := by
    constructor
    · intro h statement hmem
      obtain ⟨index, hindex, rfl⟩ := List.mem_iff_getElem.mp hmem
      refine (statementMessages_iff index _).mp fun message hmessage => h message ?_
      exact List.mem_flatten.mpr ⟨_, List.mem_mapIdx.mpr ⟨index, hindex, rfl⟩, hmessage⟩
    · intro h message hmessage
      obtain ⟨messages, hmessages, hmem⟩ := List.mem_flatten.mp hmessage
      obtain ⟨index, hindex, rfl⟩ := List.mem_mapIdx.mp hmessages
      exact (statementMessages_iff index _).mpr (h _ (List.getElem_mem hindex)) message hmem
  unfold Passes validate
  rw [List.forall_mem_append, List.forall_mem_append, nameMessages_iff trimmed, hlist, and_assoc]
  refine and_congr_right fun _ => and_congr_left fun _ => ?_
  split_ifs with hempty <;> simp [hempty]

section Server
variable [SerdeJson]

theorem toStatement_valid (statement : PageStatement) :
    validateStatement statement.toStatement = .ok () ↔ statement.actions ≠ [] := by
  unfold validateStatement
  by_cases hempty : statement.actions = []
  · simp [PageStatement.toStatement, hempty]
  · have hactions : statement.actions.forM validateAction = .ok () := by
      rw [forM_ok]
      intro name hname
      obtain ⟨action, hmem, rfl⟩ := statement.inCatalog name hname
      exact actions_valid action hmem
    rw [if_neg (by simpa [PageStatement.toStatement] using hempty)]
    refine iff_of_true ?_ hempty
    change (statement.actions.forM validateAction >>= fun _ => _) = _
    rw [hactions]
    exact resourceOf_valid statement.kind statement.fields

theorem validatePolicy_iff (name : String) (list : List PageStatement) :
    validatePolicy name (list.map PageStatement.toStatement) = .ok () ↔
      ValidId name ∧ list ≠ [] ∧ ∀ statement ∈ list, statement.actions ≠ [] := by
  have hstatements : validateStatements (list.map PageStatement.toStatement) = .ok () ↔
      list ≠ [] ∧ ∀ statement ∈ list, statement.actions ≠ [] := by
    unfold validateStatements
    by_cases hempty : list = []
    · simp [hempty]
    · rw [if_neg (by simpa using hempty), forM_ok, List.forall_mem_map]
      simp [toStatement_valid, hempty]
  unfold validatePolicy
  cases hname : validateEntityId "policy" name with
  | error error =>
    have hinvalid : ¬ValidId name := by
      rw [← validateEntityId_ok_iff "policy", hname]
      simp
    simp [hinvalid, bind, Except.bind]
  | ok value =>
    have hvalid : ValidId name := (validateEntityId_ok_iff "policy" name).mp hname
    simp [hvalid, bind, Except.bind, hstatements]

/-- What passes on the page is accepted by the server. -/
def PageAgrees (value : String) (list : List PageStatement) : Prop :=
  Passes (jsTrim value) list →
    validatePolicy (jsTrim value) (list.map PageStatement.toStatement) = .ok ()

/-- The page agrees with the server unless it passes a name that only the server refuses. -/
theorem pageAgrees_iff (value : String) (list : List PageStatement) :
    PageAgrees value list ↔ CleanName (jsTrim value) ∨ ¬ShownName (jsTrim value) ∨ list = [] ∨
      ∃ statement ∈ list, statement.actions = [] := by
  unfold PageAgrees
  rw [passes_iff (jsTrim_jsTrim value), validatePolicy_iff, validId_iff]
  constructor
  · intro agrees
    by_cases hclean : CleanName (jsTrim value)
    · exact .inl hclean
    by_cases hshown : ShownName (jsTrim value)
    swap
    · exact .inr (.inl hshown)
    by_cases hlist : list = []
    · exact .inr (.inr (.inl hlist))
    refine .inr (.inr (.inr ?_))
    by_contra hactions
    push Not at hactions
    exact hclean (agrees ⟨hshown, hlist, hactions⟩).1.2
  · rintro (hclean | hshown | rfl | ⟨statement, hmem, hempty⟩) ⟨shown, hlist, hactions⟩
    · exact ⟨⟨shown, hclean⟩, hlist, hactions⟩
    · exact absurd shown hshown
    · exact absurd rfl hlist
    · exact absurd hempty (hactions statement hmem)

end Server

section Plain
attribute [local instance] noLists

def readObjects : PageStatement where
  effect := .allow
  actions := ["fs:ReadObject"]
  kind := .all
  fields _ := ""
  inCatalog := by simp [Core.Catalog.actions]
  distinct := by simp

/-- A name with a wildcard passes on the page, and the server refuses it. -/
theorem wildcard_passes : Passes (jsTrim " team-* ") [readObjects] ∧
    validatePolicy (jsTrim " team-* ") [readObjects.toStatement] =
      .error (.invalid "policy id must not contain '*' or '?'") ∧
    ¬PageAgrees " team-* " [readObjects] := by
  have refused : validatePolicy (jsTrim " team-* ") [readObjects.toStatement] =
      .error (.invalid "policy id must not contain '*' or '?'") := by decide
  have passes : Passes (jsTrim " team-* ") [readObjects] := by
    rw [passes_iff (jsTrim_jsTrim _)]
    exact ⟨⟨by decide, by decide, by decide⟩, by simp, by simp [readObjects]⟩
  exact ⟨passes, refused, fun agrees => nomatch refused.symm.trans (agrees passes)⟩

end Plain

end LakeFsAuth.Authz.PolicyBuilder
