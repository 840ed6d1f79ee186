import LakeFsAuth.Authz.Service
import LakeFsAuth.Authz.Store.BootstrapRun
import LakeFsAuth.Authz.Store.Frame
import LakeFsAuth.Core.JsonText
import LakeFsAuth.Library.Enumerate

/-! A create never overwrites a row, and a create that is repeated answers alike. -/
namespace LakeFsAuth.Authz.Creates
open LakeFsAuth.Core Core.Error Core.Model Core.Text Core.Validate Store Store.Mem Api
open Library Library.Program Library.OrderedMap Library.Fallible

/-! When two policies say the same. -/

/-- The order of the actions does not matter. -/
structure SameStatement (statement other : Statement) : Prop where
  effect : statement.effect = other.effect
  resource : statement.resource = other.resource
  action : statement.action.Perm other.action
  condition : statement.condition = other.condition

/-- The order of the statements does not matter either. -/
def SameStatements (statements others : List Statement) : Prop :=
  ∃ reordered, statements.Perm reordered ∧ List.Forall₂ SameStatement reordered others

theorem SameStatements.refl (statements : List Statement) : SameStatements statements statements :=
  ⟨statements, .refl _, List.forall₂_same.mpr fun _ _ => ⟨rfl, rfl, .refl _, rfl⟩⟩

theorem conditionToJson_numberFree (condition : Condition) : (conditionToJson condition).NumberFree := by
  apply Json.Value.NumberFree.object
  intro entry hentry
  obtain ⟨⟨operator, fields⟩, _, rfl⟩ := List.mem_map.mp hentry
  apply Json.Value.NumberFree.object
  intro entry hentry
  obtain ⟨⟨field, values⟩, _, rfl⟩ := List.mem_map.mp hentry
  apply Json.Value.NumberFree.array
  intro item hitem
  obtain ⟨value, _, rfl⟩ := List.mem_map.mp hitem
  exact .string value

theorem statementToJson_numberFree (statement : Statement) : statement.toJson.NumberFree := by
  have heffect : statement.effect.toJson.NumberFree := by
    cases statement.effect <;> exact .string _
  have haction : (Json.Value.array (statement.action.map .string)).NumberFree := by
    apply Json.Value.NumberFree.array
    intro item hitem
    obtain ⟨action, _, rfl⟩ := List.mem_map.mp hitem
    exact .string action
  apply Json.Value.NumberFree.object
  intro entry hentry
  simp only [List.cons_append, List.nil_append, List.mem_cons, List.mem_map] at hentry
  rcases hentry with rfl | rfl | rfl | ⟨condition, _, rfl⟩
  · exact heffect
  · exact .string _
  · exact haction
  · exact conditionToJson_numberFree condition

theorem conditionToJson_inj {condition other : Condition}
    (h : conditionToJson condition = conditionToJson other) : condition = other := by
  unfold conditionToJson at h
  injection h with h
  apply Std.ExtTreeMap.toList_inj.mp
  refine List.map_injective_iff.mpr (fun entry entry' hentry => ?_) h
  simp only [Prod.mk.injEq, Json.Value.object.injEq] at hentry
  refine Prod.ext hentry.1 (Std.ExtTreeMap.toList_inj.mp ?_)
  refine List.map_injective_iff.mpr (fun field field' hfield => ?_) hentry.2
  simp only [Prod.mk.injEq, Json.Value.array.injEq] at hfield
  refine Prod.ext hfield.1 (List.map_injective_iff.mpr (fun text text' htext => ?_) hfield.2)
  injection htext

theorem statementToJson_inj {statement other : Statement}
    (h : statement.toJson = other.toJson) : statement = other := by
  obtain ⟨effect, resource, action, condition⟩ := statement
  obtain ⟨effect', resource', action', condition'⟩ := other
  unfold Statement.toJson at h
  injection h with h
  simp only [List.cons_append, List.nil_append, List.cons.injEq, Prod.mk.injEq, true_and,
    Json.Value.string.injEq, Json.Value.array.injEq] at h
  obtain ⟨heffect, hresource, haction, hcondition⟩ := h
  congr
  · cases effect <;> cases effect' <;> simp [Effect.toJson] at heffect ⊢
  · exact List.map_injective_iff.mpr (fun text text' htext => by injection htext) haction
  · cases condition <;> cases condition' <;> simp at hcondition ⊢
    exact conditionToJson_inj hcondition

theorem sortedActions_eq_iff {statement other : Statement} :
    Service.sortedActions statement = Service.sortedActions other ↔ SameStatement statement other := by
  constructor
  · intro h
    injection h with heffect hresource haction hcondition
    exact ⟨heffect, hresource, mergeSort_eq_iff.mp haction, hcondition⟩
  · intro same
    unfold Service.sortedActions
    rw [mergeSort_eq_iff.mpr same.action, same.effect, same.resource, same.condition]

theorem canonicalStatements_eq_iff (statements others : List Statement) :
    Service.canonicalStatements statements = Service.canonicalStatements others ↔
      SameStatements statements others := by
  have htext (statement other : Statement) :
      String.ofList (Service.sortedActions statement).toJson.compact =
        String.ofList (Service.sortedActions other).toJson.compact ↔ SameStatement statement other := by
    rw [← sortedActions_eq_iff]
    constructor
    · intro h
      apply statementToJson_inj
      exact Json.Value.compact_inj (statementToJson_numberFree _) (statementToJson_numberFree _)
        (String.ofList_injective h)
    · intro h
      rw [h]
  unfold Service.canonicalStatements
  rw [mergeSort_eq_iff, map_perm_iff]
  simp only [htext, SameStatements]

/-- Calls that only read. -/
def OnlyReads (ops : List StoreOp) : Prop := ∀ op ∈ ops, writes op = []

theorem exec_read {op : StoreOp} (s : Inner) (reads : writes op = []) : (Inner.exec op s).2 = s := by
  cases op <;> first | rfl | cases reads

theorem after_reads {reads : List StoreOp} (s : Inner) (only : OnlyReads reads) : s.after reads = s := by
  induction reads with
  | nil => rfl
  | cons op reads ih =>
    change (Inner.exec op s).2.after reads = s
    rw [exec_read s (only op List.mem_cons_self)]
    exact ih fun op hop => only op (List.mem_cons_of_mem _ hop)

/-! Creates, whatever they create. -/

/-- A create of one kind of row: the action, and what it should do. -/
structure Creation (Row Wire : Type) where
  create : Action (Except ApiError Wire)
  toWire : Row → Wire
  table : Inner → BTreeMap Row
  key : String
  /-- Nothing the request asks for is taken. -/
  Free : Inner → Prop
  /-- Everything the request gives equals what is stored. -/
  Matches : Row → Prop
  newRow : Inner → Row
  stored : Inner → Inner

namespace Creation
variable {Row Wire : Type} (creation : Creation Row Wire) (date : Timestamp) (s : Inner)

def run : Except ApiError Wire × Inner :=
  creation.create.run (Call.pick memStore date .answered) s

/-- It succeeds with a row that was not there. -/
def IsNew : Prop :=
  (creation.table s)[creation.key]? = none ∧
    creation.run date s = (.ok (creation.toWire (creation.newRow s)), creation.stored s) ∧
    (creation.table (creation.stored s))[creation.key]? = some (creation.newRow s)

/-- It succeeds with the row that was there, and changes nothing. -/
def IsRepeated : Prop :=
  ∃ row, (creation.table s)[creation.key]? = some row ∧
    creation.run date s = (.ok (creation.toWire row), s)

def IsConflict : Prop := ∃ error, creation.run date s = (.error error, s) ∧ error.statusCode = 409

/-- The row is there, and it matches. -/
def Known : Prop := ∃ row, (creation.table s)[creation.key]? = some row ∧ creation.Matches row

structure NeverOverwrites : Prop where
  keeps : Grows s (creation.run date s).2
  new_iff : creation.IsNew date s ↔ creation.Free s
  repeated_iff : creation.IsRepeated date s ↔ creation.Known s
  conflict : ¬ creation.Free s → ¬ creation.Known s → creation.IsConflict date s
  again : ∀ wire, (creation.run date s).1 = .ok wire → ∀ reads, OnlyReads reads → ∀ later,
    creation.run later ((creation.run date s).2.after reads) = (.ok wire, (creation.run date s).2)

/-- What a create answers with when something it asks for is taken. -/
def refusal (same : Row → Bool) (entity id : String) : Except ApiError Wire × Inner :=
  (match (creation.table s)[creation.key]?.filter same with
    | some row => .ok (creation.toWire row)
    | none => .error (StoreError.AlreadyExists entity id).toApiError, s)

variable {creation} {date} {s}

/-- What a kind of row has to show for its create never to overwrite. -/
theorem neverOverwrites {same : Row → Bool} (same_iff : ∀ row, same row = true ↔ creation.Matches row)
    (free : ∀ s, creation.Free s → (creation.table s)[creation.key]? = none)
    (new : creation.Free s →
      creation.run date s = (.ok (creation.toWire (creation.newRow s)), creation.stored s))
    (holds : (creation.table (creation.stored s))[creation.key]? = some (creation.newRow s))
    (newMatches : creation.Matches (creation.newRow s))
    (grows : creation.Free s → Grows s (creation.stored s))
    (taken : ∀ later s, ¬ creation.Free s →
      ∃ entity id, creation.run later s = creation.refusal s same entity id) :
    creation.NeverOverwrites date s := by
  have known (later : Timestamp) (s : Inner) (row : Row)
      (hrow : (creation.table s)[creation.key]? = some row) (hmatch : creation.Matches row) :
      creation.run later s = (.ok (creation.toWire row), s) := by
    have isTaken : ¬ creation.Free s := by
      intro isFree
      rw [free s isFree] at hrow
      cases hrow
    obtain ⟨entity, id, hrun⟩ := taken later s isTaken
    rw [hrun, refusal, hrow, Option.filter_some, if_pos ((same_iff row).mpr hmatch)]
  by_cases isFree : creation.Free s
  · have hnone := free s isFree
    have hrun := new isFree
    constructor
    · rw [hrun]
      exact grows isFree
    · exact iff_of_true ⟨hnone, hrun, holds⟩ isFree
    · apply iff_of_false
      · rintro ⟨row, hrow, _⟩
        rw [hnone] at hrow
        cases hrow
      · rintro ⟨row, hrow, _⟩
        rw [hnone] at hrow
        cases hrow
    · exact fun taken => absurd isFree taken
    · intro wire hwire reads only later
      rw [hrun] at hwire ⊢
      rw [after_reads _ only, known later _ _ holds newMatches, Except.ok.inj hwire]
  · by_cases isKnown : creation.Known s
    · obtain ⟨row, hrow, hmatch⟩ := isKnown
      have hrun := known date s row hrow hmatch
      constructor
      · rw [hrun]
        exact .refl s
      · apply iff_of_false _ isFree
        rintro ⟨hnone, _⟩
        rw [hrow] at hnone
        cases hnone
      · exact iff_of_true ⟨row, hrow, hrun⟩ ⟨row, hrow, hmatch⟩
      · exact fun _ unknown => absurd ⟨row, hrow, hmatch⟩ unknown
      · intro wire hwire reads only later
        rw [hrun] at hwire ⊢
        rw [after_reads _ only, known later _ _ hrow hmatch, Except.ok.inj hwire]
    · obtain ⟨entity, id, hrun⟩ := taken date s isFree
      have hnone : (creation.table s)[creation.key]?.filter same = none := by
        rw [Option.filter_eq_none_iff]
        exact fun row hrow hsame => isKnown ⟨row, hrow, (same_iff row).mp hsame⟩
      rw [refusal, hnone] at hrun
      constructor
      · rw [hrun]
        exact .refl s
      · apply iff_of_false _ isFree
        rintro ⟨_, hnew, _⟩
        rw [hrun] at hnew
        cases hnew
      · apply iff_of_false _ isKnown
        rintro ⟨row, _, hrow⟩
        rw [hrun] at hrow
        cases hrow
      · exact fun _ _ => ⟨_, hrun, rfl⟩
      · intro wire hwire
        rw [hrun] at hwire
        cases hwire

end Creation

/-! The three kinds. -/

theorem sameIfGiven_iff {requested existing : Option String} :
    Service.sameIfGiven requested existing = true ↔ ∀ text, requested = some text → existing = some text := by
  cases requested with
  | none => simp [Service.sameIfGiven]
  | some text =>
    simp only [Service.sameIfGiven, Option.isNone_some, Bool.false_or, beq_iff_eq, Option.some.injEq,
      forall_eq']
    exact eq_comm

/-- The answer of a create, as the handler sends it. -/
abbrev sent {Row Wire : Type} (toWire : Row → Wire) (outcome : Except ApiError Row × Inner) :
    Except ApiError Wire × Inner :=
  (outcome.1.map toWire, outcome.2)

theorem run_now {α : Type} (next : Timestamp → Action α) (date : Timestamp) (s : Inner) :
    (now >>= next).run (Call.pick memStore date .answered) s =
      (next date).run (Call.pick memStore date .answered) s := rfl

/-- The re-read after a conflict decides. -/
theorem run_reread {Row Wire : Type} (creation : Creation Row Wire) {date : Timestamp} {s : Inner}
    (reread : Action (StoreResult Row)) (same : Row → Bool) (entity name : String)
    (hread : ∃ entity name, reread.run (Call.pick memStore date .answered) s =
      (found (creation.table s)[creation.key]? entity name, s)) :
    sent creation.toWire ((Service.createOrExisting (.error (.AlreadyExists entity name)) reread
      same).run (Call.pick memStore date .answered) s) = creation.refusal s same entity name := by
  obtain ⟨entity', name', hread⟩ := hread
  change sent creation.toWire ((reread >>= _).run _ s) = _
  rw [run_bind, hread, Creation.refusal]
  cases (creation.table s)[creation.key]? with
  | none => rfl
  | some row =>
    change sent creation.toWire (run _ (if same row then _ else _) s) = _
    rw [Option.filter_some]
    split <;> rfl

/-- Every value of the request equals the stored one. -/
structure MatchesUser (requested : NewUser) (row : UserRecord) : Prop where
  friendlyName : ∀ text, requested.friendlyName = some text → row.friendlyName = some text
  email : ∀ text, requested.email = some text → row.email = some text
  source : ∀ text, requested.source = some text → row.source = some text
  externalId : ∀ text, requested.externalId = some text → row.externalId = some text
  encryptedPassword : ∀ bytes, requested.encryptedPassword = some bytes →
    row.encryptedPassword = some bytes

theorem sameUser_iff {requested : NewUser} {row : UserRecord} :
    Service.sameUser requested row = true ↔ MatchesUser requested row := by
  have hpassword : (requested.encryptedPassword.isNone ||
      row.encryptedPassword == requested.encryptedPassword) = true ↔
      ∀ bytes, requested.encryptedPassword = some bytes → row.encryptedPassword = some bytes := by
    cases requested.encryptedPassword <;> simp
  unfold Service.sameUser
  simp only [Bool.and_eq_true, sameIfGiven_iff, hpassword]
  constructor
  · rintro ⟨⟨⟨⟨hname, hemail⟩, hsource⟩, hext⟩, hpass⟩
    exact ⟨hname, hemail, hsource, hext, hpass⟩
  · rintro ⟨hname, hemail, hsource, hext, hpass⟩
    exact ⟨⟨⟨⟨hname, hemail⟩, hsource⟩, hext⟩, hpass⟩

def userCreation (body : UserCreation) (requested : NewUser) : Creation UserRecord User where
  create := Service.createUser body
  toWire := Service.userToWire
  table := (·.users)
  key := requested.username
  Free s := s.UserFree requested
  Matches := MatchesUser requested
  newRow s := Inner.newRecord requested (s.nextUserId + 1)
  stored s := s.withUser requested

theorem requestedUser_later {body : UserCreation} {date : Timestamp} {requested : NewUser}
    (valid : Service.requestedUser body date = .ok requested) (later : Timestamp) :
    Service.requestedUser body later = .ok { requested with creationDate := later } := by
  obtain ⟨_, hname, hrest⟩ := bind_ok valid
  cases hrest
  unfold Service.requestedUser NewUser.validated
  rw [hname]
  rfl

theorem createUser_run {body : UserCreation} {date : Timestamp} {requested : NewUser}
    (valid : Service.requestedUser body date = .ok requested) (noInvite : body.invite ≠ some true)
    (s : Inner) : (Service.createUser body).run (Call.pick memStore date .answered) s =
      sent Service.userToWire ((Service.createOrExisting (s.insertUser requested).1
        (store (.getUser requested.username)) (Service.sameUser requested)).run
          (Call.pick memStore date .answered) (s.insertUser requested).2) := by
  unfold Service.createUser
  rw [if_neg noInvite, run_now, valid]
  change run _ (Service.createOrExisting (s.insertUser requested).1 _ _ >>= _) (s.insertUser requested).2 = _
  rw [run_bind]
  rfl

theorem createUser_neverOverwrites {body : UserCreation} {date : Timestamp} {requested : NewUser}
    (valid : Service.requestedUser body date = .ok requested) (noInvite : body.invite ≠ some true)
    (s : Inner) : (userCreation body requested).NeverOverwrites date s := by
  refine Creation.neverOverwrites (fun _ => sameUser_iff) (fun s isFree => isFree.username) ?_ ?_ ?_
    ?_ ?_
  · intro isFree
    obtain ⟨_, hinsert⟩ | ⟨isTaken, _⟩ := s.insertUser_cases requested
    · refine (createUser_run valid noInvite s).trans ?_
      rw [hinsert]
      rfl
    · exact absurd isFree isTaken
  · change (s.users.insert requested.username _)[requested.username]? = _
    rw [get_insert, if_pos rfl]
    rfl
  · exact ⟨fun _ h => h, fun _ h => h, fun _ h => h, fun _ h => h, fun _ h => h⟩
  · intro isFree
    exact { Grows.refl s with users := .insert _ isFree.username }
  · intro later s isTaken
    have valid' := requestedUser_later valid later
    have isTaken' : ¬ s.UserFree { requested with creationDate := later } :=
      fun isFree => isTaken ⟨isFree.username, isFree.email, isFree.externalId⟩
    obtain ⟨isFree, _⟩ | ⟨_, entity, id, hinsert⟩ :=
      s.insertUser_cases { requested with creationDate := later }
    · exact absurd isFree isTaken'
    · refine ⟨entity, id, (createUser_run valid' noInvite s).trans ?_⟩
      rw [hinsert]
      exact run_reread (userCreation body requested) _ _ _ _ ⟨_, _, rfl⟩

def groupRow (requested : NewGroup) : GroupRecord :=
  ⟨requested.id, requested.description, requested.creationDate⟩

def groupCreation (body : GroupCreation) (requested : NewGroup) : Creation GroupRecord Group where
  create := Service.createGroup body
  toWire := Service.groupToWire
  table := (·.groups)
  key := requested.id
  Free s := s.groups[requested.id]? = none
  Matches row := ∀ text, requested.description = some text → row.description = some text
  newRow _ := groupRow requested
  stored s := { s with groups := s.groups.insert requested.id (groupRow requested) }

theorem requestedGroup_later {body : GroupCreation} {date : Timestamp} {requested : NewGroup}
    (valid : NewGroup.validated body.id body.description date = .ok requested) (later : Timestamp) :
    NewGroup.validated body.id body.description later =
      .ok { requested with creationDate := later } := by
  obtain ⟨_, hname, hrest⟩ := bind_ok valid
  cases hrest
  unfold NewGroup.validated
  rw [hname]
  rfl

theorem createGroup_run {body : GroupCreation} {date : Timestamp} {requested : NewGroup}
    (valid : NewGroup.validated body.id body.description date = .ok requested) (s : Inner) :
    (Service.createGroup body).run (Call.pick memStore date .answered) s =
      sent Service.groupToWire ((Service.createOrExisting (s.insertGroup requested).1
        (store (.getGroup requested.id))
        (fun existing => Service.sameIfGiven requested.description existing.description)).run
          (Call.pick memStore date .answered) (s.insertGroup requested).2) := by
  unfold Service.createGroup
  rw [run_now, valid]
  change run _ (Service.createOrExisting (s.insertGroup requested).1 _ _ >>= _)
    (s.insertGroup requested).2 = _
  rw [run_bind]
  rfl

theorem createGroup_neverOverwrites {body : GroupCreation} {date : Timestamp} {requested : NewGroup}
    (valid : NewGroup.validated body.id body.description date = .ok requested) (s : Inner) :
    (groupCreation body requested).NeverOverwrites date s := by
  refine Creation.neverOverwrites (fun _ => sameIfGiven_iff) (fun s isFree => isFree) ?_ ?_ ?_ ?_ ?_
  · intro isFree
    refine (createGroup_run valid s).trans ?_
    rw [s.insertGroup_free ((not_contains_iff _ _).mpr isFree)]
    rfl
  · change (s.groups.insert requested.id _)[requested.id]? = _
    rw [get_insert, if_pos rfl]
    rfl
  · exact fun _ h => h
  · intro isFree
    exact { Grows.refl s with groups := .insert _ isFree }
  · intro later s isTaken
    have valid' := requestedGroup_later valid later
    refine ⟨"group", requested.id, (createGroup_run valid' s).trans ?_⟩
    have hinsert : s.insertGroup { requested with creationDate := later } =
        (.error (.alreadyExists "group" requested.id), s) := s.insertGroup_taken isTaken
    rw [hinsert]
    exact run_reread (groupCreation body requested) _ _ _ _ ⟨_, _, rfl⟩

section Policies
variable [SerdeJson]

def policyRow (requested : NewPolicy) : PolicyRecord :=
  ⟨requested.name, requested.creationDate, requested.statement, requested.acl⟩

/-- The statements say the same, and the ACL is the stored one if the request gives one. -/
structure MatchesPolicy (requested : NewPolicy) (row : PolicyRecord) : Prop where
  statement : SameStatements requested.statement row.statement
  acl : ∀ text, requested.acl = some text → row.acl = some text

def policyCreation (body : Policy) (requested : NewPolicy) : Creation PolicyRecord Policy where
  create := Service.createPolicy body
  toWire := Service.policyToWire
  table := (·.policies)
  key := requested.name
  Free s := s.policies[requested.name]? = none
  Matches := MatchesPolicy requested
  newRow _ := policyRow requested
  stored s := { s with policies := s.policies.insert requested.name (policyRow requested) }

omit [SerdeJson] in
theorem samePolicy_iff {requested : NewPolicy} {row : PolicyRecord} :
    Service.samePolicy requested row = true ↔ MatchesPolicy requested row := by
  unfold Service.samePolicy
  rw [Bool.and_eq_true, beq_iff_eq, canonicalStatements_eq_iff, sameIfGiven_iff]
  exact ⟨fun h => ⟨h.1, h.2⟩, fun h => ⟨h.1, h.2⟩⟩

theorem validatedPolicy_later {body : Policy} {date : Timestamp} {requested : NewPolicy}
    (valid : Service.validatedPolicy body.name body date none = .ok requested) (later : Timestamp) :
    requested.name = body.name ∧ ∃ creationDate,
      Service.validatedPolicy body.name body later none = .ok { requested with creationDate } := by
  unfold Service.validatedPolicy at valid ⊢
  cases hdate : body.creationDate with
  | none =>
    rw [hdate] at valid
    obtain ⟨_, hnow, hrow⟩ := bind_ok valid
    cases hnow
    obtain ⟨_, hvalid, hrest⟩ := bind_ok hrow
    cases hrest
    refine ⟨rfl, later, ?_⟩
    change NewPolicy.validated _ _ _ later = _
    unfold NewPolicy.validated
    rw [hvalid]
    rfl
  | some seconds =>
    rw [hdate] at valid
    obtain ⟨creationDate, hseconds, hrest⟩ := bind_ok valid
    obtain ⟨_, _, hrow⟩ := bind_ok hrest
    refine ⟨by cases hrow; rfl, requested.creationDate, valid⟩

theorem createPolicy_run {body : Policy} {date : Timestamp} {requested : NewPolicy}
    (valid : Service.validatedPolicy body.name body date none = .ok requested) (s : Inner) :
    (Service.createPolicy body).run (Call.pick memStore date .answered) s =
      sent Service.policyToWire ((Service.createOrExisting (s.insertPolicy requested).1
        (store (.getPolicy body.name)) (Service.samePolicy requested)).run
          (Call.pick memStore date .answered) (s.insertPolicy requested).2) := by
  unfold Service.createPolicy
  rw [run_now, valid]
  change run _ (Service.createOrExisting (s.insertPolicy requested).1 _ _ >>= _)
    (s.insertPolicy requested).2 = _
  rw [run_bind]
  rfl

theorem createPolicy_neverOverwrites {body : Policy} {date : Timestamp} {requested : NewPolicy}
    (valid : Service.validatedPolicy body.name body date none = .ok requested) (s : Inner) :
    (policyCreation body requested).NeverOverwrites date s := by
  have hname := (validatedPolicy_later valid date).1
  refine Creation.neverOverwrites (fun _ => samePolicy_iff) (fun s isFree => isFree) ?_ ?_ ?_ ?_ ?_
  · intro isFree
    refine (createPolicy_run valid s).trans ?_
    rw [s.insertPolicy_free ((not_contains_iff _ _).mpr isFree)]
    rfl
  · change (s.policies.insert requested.name _)[requested.name]? = _
    rw [get_insert, if_pos rfl]
    rfl
  · exact ⟨SameStatements.refl _, fun _ h => h⟩
  · intro isFree
    exact { Grows.refl s with policies := .insert _ isFree }
  · intro later s isTaken
    obtain ⟨_, creationDate, valid'⟩ := validatedPolicy_later valid later
    refine ⟨"policy", requested.name, (createPolicy_run valid' s).trans ?_⟩
    have hinsert : s.insertPolicy { requested with creationDate } =
        (.error (.alreadyExists "policy" requested.name), s) := s.insertPolicy_taken isTaken
    rw [hinsert, ← hname]
    exact run_reread (policyCreation body requested) _ _ _ _ ⟨_, _, rfl⟩

/-- A create of a user, a group or a policy never overwrites a row. It adds a row, answers with
the one that is there, or is a conflict, and when it is repeated it answers alike. -/
theorem creates_never_overwrite (s : Inner) (date : Timestamp) :
    (∀ body requested, body.invite ≠ some true → Service.requestedUser body date = .ok requested →
      (userCreation body requested).NeverOverwrites date s) ∧
    (∀ body requested, NewGroup.validated body.id body.description date = .ok requested →
      (groupCreation body requested).NeverOverwrites date s) ∧
    (∀ body requested, Service.validatedPolicy body.name body date none = .ok requested →
      (policyCreation body requested).NeverOverwrites date s) := by
  refine ⟨?_, ?_, ?_⟩
  · intro body requested noInvite valid
    exact createUser_neverOverwrites valid noInvite s
  · intro body requested valid
    exact createGroup_neverOverwrites valid s
  · intro body requested valid
    exact createPolicy_neverOverwrites valid s

end Policies

/-- What the setup of lakeFS sends. -/
def admin : UserCreation := ⟨"admin", none, none, some " internal ", none, none, none⟩

def admins : GroupCreation := ⟨"Admins", none⟩

def fullAccess : Policy := ⟨"FSFullAccess", none, [⟨.allow, "*", ["fs:*"], none⟩], none⟩

theorem creates_never_overwrite_setup :
    (userCreation admin ⟨"admin", ⟨0⟩, none, none, some "internal", none, none⟩).IsNew ⟨0⟩ Inner.new ∧
    (groupCreation admins ⟨"Admins", none, ⟨0⟩⟩).IsNew ⟨0⟩ Inner.new ∧
    (@policyCreation noLists fullAccess ⟨"FSFullAccess", ⟨0⟩, fullAccess.statement, none⟩).IsNew ⟨0⟩
      Inner.new := by
  obtain ⟨users, groups, policies⟩ := @creates_never_overwrite noLists Inner.new ⟨0⟩
  have hnone (name : String) : (∅ : BTreeMap UserRecord)[name]? = none := by simp
  refine ⟨(users admin _ (by decide) rfl).new_iff.mpr ⟨hnone _, ?_, ?_⟩, ?_, ?_⟩
  · intro email hemail
    cases hemail
  · intro externalId hexternal
    cases hexternal
  · exact (groups admins _ rfl).new_iff.mpr (by simp [groupCreation, Inner.new])
  · exact (policies fullAccess _ rfl).new_iff.mpr (by simp [policyCreation, Inner.new])

end LakeFsAuth.Authz.Creates
