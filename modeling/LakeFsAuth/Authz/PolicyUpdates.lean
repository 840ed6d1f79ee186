import Mathlib.Data.Fintype.Basic
import LakeFsAuth.Authz.Service
import LakeFsAuth.Authz.Store.Invariant
import LakeFsAuth.Authz.Store.Pg

/-! `PUT /auth/policies/{policyId}` from several callers at once. An update reads the
policy and then writes all of it, so a field its body leaves out is written back as it was
read. -/
namespace LakeFsAuth.Authz.PolicyUpdates
open Core.Error Core.Model Core.Validate Store Api Library Program

/-- What an update relies on of a store: one row under a name, and a write of it. -/
structure PolicyTable (impl : StoreImpl σ) where
  Inv : σ → Prop
  row : σ → String → Option PolicyRecord
  /-- The row a write leaves. -/
  stored : NewPolicy → PolicyRecord
  got : ∀ {s : σ} (name : String), Inv s →
    impl.exec (.getPolicy name) s = (Mem.found (row s name) "policy" name, s)
  updated : ∀ {s : σ} {slot : PolicyRecord} (policy : NewPolicy), Inv s →
    row s policy.name = some slot →
    (impl.exec (.updatePolicy policy) s).1 = .ok (stored policy) ∧
      Inv (impl.exec (.updatePolicy policy) s).2 ∧
      row (impl.exec (.updatePolicy policy) s).2 policy.name = some (stored policy)

/-- The policies of the in-memory store. -/
def memPolicies : PolicyTable Mem.memStore where
  Inv := Mem.WellFormed
  row s name := s.policies[name]?
  stored policy := ⟨policy.name, policy.creationDate, policy.statement, policy.acl⟩
  got name ok := rfl
  updated := by
    intro s slot policy ok hrow
    have ok' := (s.updatePolicy_sound policy).changes.wellFormed ok
    have hslot : slot.name = policy.name := ok.policyKey policy.name slot hrow
    have hrun : s.updatePolicy policy = (.ok (Mem.Inner.rewritten slot policy),
        { s with policies :=
          s.policies.insert policy.name (Mem.Inner.rewritten slot policy) }) := by
      unfold Mem.Inner.updatePolicy
      rw [hrow]
    have hnew : Mem.Inner.rewritten slot policy =
        ⟨policy.name, policy.creationDate, policy.statement, policy.acl⟩ := by
      simp [Mem.Inner.rewritten, hslot]
    change (s.updatePolicy policy).1 = _ ∧ _ ∧ (s.updatePolicy policy).2.policies[policy.name]? = _
    refine ⟨?_, ok', ?_⟩
    · rw [hrun, hnew]
    · rw [hrun, hnew, OrderedMap.get_insert, if_pos rfl]

/-- The policies of the PostgreSQL store. -/
def pgPolicies [Pg.JiffSqlx] : PolicyTable Pg.pgStore where
  Inv _ := True
  row db name := (db.policiesNamed name).head?
  stored := Pg.Database.policyRow
  got := by
    intro db name _
    change (Pg.fetchOne (db.policiesNamed name) "policy" name, db) = _
    cases db.policiesNamed name <;> rfl
  updated := by
    intro db slot policy _ hrow
    have hset : ∀ row ∈ db.policiesNamed policy.name,
        { Pg.Database.policyRow policy with name := row.name } =
          Pg.Database.policyRow policy := by
      intro row hmem
      have hname : row.name = policy.name := beq_iff_eq.mp (List.mem_filter.mp hmem).2
      rw [hname]
      rfl
    have hrows : (Relational.update (fun row : PolicyRecord => row.name == policy.name)
        (fun row => { Pg.Database.policyRow policy with name := row.name }) db.policies).rows =
        (db.policiesNamed policy.name).map fun _ => Pg.Database.policyRow policy :=
      List.map_congr_left hset
    have hafter := Relational.update_filter (fun row : PolicyRecord => row.name == policy.name)
      (fun row => { Pg.Database.policyRow policy with name := row.name }) db.policies
      (fun _ h => h)
    change (db.updatePolicy policy).1 = _ ∧ True ∧
      ((db.updatePolicy policy).2.policies.filter _).head? = _
    unfold Pg.Database.updatePolicy
    dsimp only
    rw [hafter, hrows]
    cases hnamed : db.policiesNamed policy.name with
    | nil =>
      rw [hnamed] at hrow
      cases hrow
    | cons row rows => exact ⟨rfl, trivial, rfl⟩

section Updates
variable [SerdeJson] {impl : StoreImpl σ} (table : PolicyTable impl) (name : String)

/-- What an update makes of the row that is there. One that is refused keeps it. -/
def rewrite (body : Policy) (row : PolicyRecord) : PolicyRecord :=
  match validateEntityId "policy" name,
      Service.validatedPolicy name body row.creationDate row.acl with
  | .ok (), .ok record => table.stored record
  | _, _ => row

/-- The fields a body leaves out have the values of the row that was read. -/
structure Unmoved (body : Policy) (read row : PolicyRecord) : Prop where
  creationDate : body.creationDate = none → row.creationDate = read.creationDate
  acl : body.acl = none → row.acl = read.acl

variable {name}

/-- A record takes the name of its path, and nothing but the fields that are left out
from the row. -/
theorem validatedPolicy_unmoved {body : Policy} {read row : PolicyRecord}
    (unmoved : Unmoved body read row) :
    Service.validatedPolicy name body row.creationDate row.acl =
      Service.validatedPolicy name body read.creationDate read.acl := by
  unfold Service.validatedPolicy
  cases hdate : body.creationDate <;> cases hacl : body.acl
  · rw [unmoved.creationDate hdate, unmoved.acl hacl]
  · rw [unmoved.creationDate hdate]
    rfl
  · rw [unmoved.acl hacl]
  · rfl

/-- The creation date of a record. -/
def dateFrom (body : Policy) (fallback : Timestamp) : Except ApiError Timestamp :=
  match body.creationDate with
  | some seconds => Service.fromUnix "creation_date" seconds
  | none => .ok fallback

theorem validatedPolicy_eq (name : String) (body : Policy) (date : Timestamp)
    (acl : Option String) :
    Service.validatedPolicy name body date acl =
      (dateFrom body date).bind fun creationDate =>
        (validatePolicy name body.statement).map fun _ =>
          ⟨name, creationDate, body.statement, body.acl <|> acl⟩ := by
  unfold Service.validatedPolicy dateFrom NewPolicy.validated
  cases body.creationDate with
  | none => cases validatePolicy name body.statement <;> rfl
  | some seconds =>
    dsimp only
    cases Service.fromUnix "creation_date" seconds with
    | error error => rfl
    | ok date => cases validatePolicy name body.statement <;> rfl

/-- A record has the name of its path, and the statements of the body. -/
theorem validatedPolicy_ok {body : Policy} {date : Timestamp} {acl : Option String}
    {record : NewPolicy} (h : Service.validatedPolicy name body date acl = .ok record) :
    record.name = name ∧ record.statement = body.statement := by
  rw [validatedPolicy_eq] at h
  cases hdate : dateFrom body date <;> cases hvalid : validatePolicy name body.statement <;>
    rw [hdate, hvalid] at h <;> cases h
  exact ⟨rfl, rfl⟩

/-- Whether a body is refused does not depend on the row. -/
theorem validatedPolicy_error {body : Policy} {date : Timestamp} {acl : Option String}
    {error : ApiError} (h : Service.validatedPolicy name body date acl = .error error)
    (date' : Timestamp) (acl' : Option String) :
    Service.validatedPolicy name body date' acl' = .error error := by
  rw [validatedPolicy_eq] at h ⊢
  cases hvalid : validatePolicy name body.statement with
  | error refused =>
    rw [hvalid] at h
    unfold dateFrom at h ⊢
    cases hdate : body.creationDate with
    | none =>
      rw [hdate] at h
      exact h
    | some seconds =>
      rw [hdate] at h
      exact h
  | ok =>
    rw [hvalid] at h
    unfold dateFrom at h ⊢
    cases hdate : body.creationDate with
    | none =>
      rw [hdate] at h
      cases h
    | some seconds =>
      rw [hdate] at h
      dsimp only at h ⊢
      cases hunix : Service.fromUnix "creation_date" seconds with
      | error bad =>
        rw [hunix] at h
        exact h
      | ok time =>
        rw [hunix] at h
        cases h

theorem rewrite_rejected {body : Policy} {date : Timestamp} {acl : Option String}
    {error : ApiError} (h : Service.validatedPolicy name body date acl = .error error)
    (row : PolicyRecord) : rewrite table name body row = row := by
  unfold rewrite
  rw [validatedPolicy_error h row.creationDate row.acl]
  cases validateEntityId "policy" name <;> rfl

theorem rewrite_bad_name {error : ApiError} (h : validateEntityId "policy" name = .error error)
    (body : Policy) (row : PolicyRecord) : rewrite table name body row = row := by
  unfold rewrite
  rw [h]

/-! One update. -/

/-- What is left once the row is written. -/
def afterWrite : StoreResult PolicyRecord → Action (Except ApiError Policy)
  | .error error => .done (.error error.toApiError)
  | .ok updated => .done (.ok (Service.policyToWire updated))

/-- What is left once the row is read. -/
def afterRead (name : String) (body : Policy) :
    StoreResult PolicyRecord → Action (Except ApiError Policy)
  | .error error => .done (.error error.toApiError)
  | .ok read =>
      match Service.validatedPolicy name body read.creationDate read.acl with
      | .error error => .done (.error error)
      | .ok record => .call (.store (.updatePolicy record)) afterWrite

theorem updatePolicy_eq (name : String) (body : Policy) :
    Service.updatePolicy name body =
      match validateEntityId "policy" name with
      | .error error => .done (.error error)
      | .ok () => .call (.store (.getPolicy name)) (afterRead name body) := by
  unfold Service.updatePolicy
  cases validateEntityId "policy" name with
  | error error => rfl
  | ok =>
    change Program.call _ _ = Program.call _ _
    congr 1
    ext reply
    cases reply with
    | error error => rfl
    | ok read =>
      dsimp only [Program.bind, afterRead]
      cases Service.validatedPolicy name body read.creationDate read.acl with
      | error error => rfl
      | ok record =>
        change Program.call _ _ = Program.call _ _
        congr 1
        ext reply
        cases reply <;> rfl

/-- How far an update is: it has not read, it has read and is about to write a record, or
it is over and either wrote or was refused. -/
inductive Stage (name : String) (body : Policy) :
    List (Entry Call.Reply) → Bool → Action (Except ApiError Policy) → Prop
  | unread : Stage name body [] false (Service.updatePolicy name body)
  | writing (read : PolicyRecord) (record : NewPolicy)
      (valid : validateEntityId "policy" name = .ok ())
      (described : Service.validatedPolicy name body read.creationDate read.acl = .ok record) :
      Stage name body [⟨.store (.getPolicy name), .ok read⟩] false
        (.call (.store (.updatePolicy record)) afterWrite)
  | refused (calls : List (Entry Call.Reply)) (value : Except ApiError Policy)
      (keeps : ∀ row, rewrite table name body row = row) : Stage name body calls false (.done value)
  | wrote (calls : List (Entry Call.Reply)) (value : Except ApiError Policy) :
      Stage name body calls true (.done value)

/-- The step an update takes: it reads the row, or it writes the record it described. -/
theorem Stage.step {body : Policy} {calls : List (Entry Call.Reply)} {wrote : Bool}
    {op : Call} {next : op.Reply → Action (Except ApiError Policy)} {s s' : σ} {row : PolicyRecord}
    {reply : op.Reply} (stage : Stage table name body calls wrote (.call op next))
    (inv : table.Inv s) (stored : table.row s name = some row) (exec : Call.Exec impl op s reply s')
    (unmoved : ∀ policy, op = .store (.updatePolicy policy) → ∀ read,
      ⟨.store (.getPolicy name), .ok read⟩ ∈ calls → Unmoved body read row) :
    wrote = false ∧ table.Inv s' ∧
      ((s' = s ∧ Stage table name body (calls ++ [⟨op, reply⟩]) false (next reply)) ∨
       (table.row s' name = some (rewrite table name body row) ∧
        Stage table name body (calls ++ [⟨op, reply⟩]) true (next reply))) := by
  generalize hprogram : Program.call op next = program at stage
  cases stage with
  | unread =>
    rw [updatePolicy_eq] at hprogram
    cases hvalid : validateEntityId "policy" name with
    | error error =>
      rw [hvalid] at hprogram
      cases hprogram
    | ok =>
      rw [hvalid] at hprogram
      cases hprogram
      have hgot : (Mem.found (table.row s name) "policy" name, s) = (reply, s') :=
        (table.got name inv).symm.trans exec
      rw [stored] at hgot
      cases hgot
      refine ⟨rfl, inv, .inl ⟨rfl, ?_⟩⟩
      change Stage table name body _ false (afterRead name body (.ok row))
      unfold afterRead
      dsimp only
      cases hdescribed : Service.validatedPolicy name body row.creationDate row.acl with
      | error error => exact .refused _ _ (rewrite_rejected table hdescribed)
      | ok record => exact .writing row record hvalid hdescribed
  | writing read record valid described =>
    cases hprogram
    have hname := (validatedPolicy_ok described).1
    have hexec : impl.exec (.updatePolicy record) s = (reply, s') := exec
    obtain ⟨hreply, inv', hrow⟩ := table.updated record inv (hname ▸ stored)
    rw [hexec, hname] at hrow
    rw [hexec] at hreply inv'
    refine ⟨rfl, inv', .inr ⟨?_, ?_⟩⟩
    · have hread : Service.validatedPolicy name body row.creationDate row.acl =
          Service.validatedPolicy name body read.creationDate read.acl :=
        validatedPolicy_unmoved (unmoved record rfl read (List.mem_singleton_self _))
      unfold rewrite
      rw [hread, described, valid]
      exact hrow
    · change reply = .ok (table.stored record) at hreply
      subst hreply
      exact .wrote _ _
  | refused calls value keeps => cases hprogram
  | wrote calls value => cases hprogram

/-! Several updates of one policy. -/

section Together
variable [DecidableEq ι] {body : ι → Policy} {s₀ s : σ} {r₀ : PolicyRecord}
  {log : List (Record Call.Reply σ ι)} {now : ι → Action (Except ApiError Policy)}

/-- At every write, the fields the body leaves out still have the values that were read. -/
def FieldsCurrent (name : String) (body : ι → Policy) (log : List (Record Call.Reply σ ι)) :
    Prop :=
  ∀ earlier record later, log = earlier ++ record :: later → ∀ i, record.who = some i →
    ∀ policy, record.entry.1 = .store (.updatePolicy policy) → ∀ read,
    ⟨.store (.getPolicy name), .ok read⟩ ∈ callsOf i earlier →
    ∀ row, table.row record.before name = some row → Unmoved (body i) read row

/-- Where the updates are: the row is what the ones that wrote made of it, in turn. -/
structure InTurn (name : String) (body : ι → Policy) (r₀ : PolicyRecord)
    (log : List (Record Call.Reply σ ι)) (now : ι → Action (Except ApiError Policy)) (s : σ)
    (written : List ι) : Prop where
  inv : table.Inv s
  nodup : written.Nodup
  row : table.row s name =
    some (written.foldl (fun row i => rewrite table name (body i) row) r₀)
  stage : ∀ i, Stage table name (body i) (callsOf i log) (decide (i ∈ written)) (now i)

omit [SerdeJson] in
theorem FieldsCurrent.front {record : Record Call.Reply σ ι}
    (current : FieldsCurrent table name body (log ++ [record])) :
    FieldsCurrent table name body log := by
  intro earlier last later hlog
  exact current earlier last (later ++ [record]) (by rw [hlog]; simp)

theorem updates_inTurn (inv : table.Inv s₀) (stored : table.row s₀ name = some r₀)
    (pool : Pool (Call.Exec impl) (fun _ => False) (fun i => Service.updatePolicy name (body i))
      s₀ log now s)
    (current : FieldsCurrent table name body log) :
    ∃ written, InTurn table name body r₀ log now s written := by
  induction pool with
  | start =>
    refine ⟨[], inv, List.nodup_nil, stored, fun i => ?_⟩
    simp only [callsOf_nil, List.not_mem_nil, decide_false]
    exact .unread
  | @own log now s s' i op next reply pool turn exec ih =>
    obtain ⟨written, h⟩ := ih current.front
    have stage := h.stage i
    rw [turn] at stage
    obtain ⟨hfresh, inv', hnext⟩ := stage.step table h.inv h.row exec fun policy hop read hread =>
      current log _ [] rfl i rfl policy hop read hread _ h.row
    have hkeep : ∀ j, j ≠ i →
        callsOf j (log ++ [⟨some i, ⟨op, reply⟩, s, s'⟩]) = callsOf j log := fun j hj =>
      callsOf_snoc_other j log _ (by simpa using Ne.symm hj)
    have hout : i ∉ written := by simpa using hfresh
    rcases hnext with ⟨rfl, hstage⟩ | ⟨hrow, hstage⟩
    · refine ⟨written, inv', h.nodup, h.row, fun j => ?_⟩
      by_cases hj : j = i
      · subst hj
        rw [callsOf_snoc_same j log _ rfl, Function.update_self, hfresh]
        exact hstage
      · rw [hkeep j hj, Function.update_of_ne hj]
        exact h.stage j
    · refine ⟨written ++ [i], inv', ?_, ?_, fun j => ?_⟩
      · rw [List.nodup_append]
        refine ⟨h.nodup, List.nodup_singleton i, ?_⟩
        intro a ha b hb hab
        rw [List.mem_singleton.mp hb] at hab
        exact hout (hab ▸ ha)
      · rw [hrow, List.foldl_append]
        rfl
      · by_cases hj : j = i
        · subst hj
          rw [callsOf_snoc_same j log _ rfl, Function.update_self]
          simp only [List.mem_append, List.mem_singleton, or_true, decide_true]
          exact hstage
        · rw [hkeep j hj, Function.update_of_ne hj]
          simp only [List.mem_append, List.mem_singleton, hj, or_false]
          exact h.stage j
  | other pool allowed exec ih => exact allowed.elim

end Together

/-! Updates one after another. -/

section Alone
variable {s₀ : σ} {r₀ : PolicyRecord}

theorem run_update {s : σ} {row : PolicyRecord} (body : Policy) (date : Timestamp)
    (fault : Fault) (inv : table.Inv s)
    (stored : table.row s name = some row) :
    table.Inv ((Service.updatePolicy name body).run (Call.pick impl date fault) s).2 ∧
      table.row ((Service.updatePolicy name body).run (Call.pick impl date fault) s).2 name =
        some (rewrite table name body row) := by
  rw [updatePolicy_eq]
  cases hvalid : validateEntityId "policy" name with
  | error error =>
    rw [rewrite_bad_name table hvalid]
    exact ⟨inv, stored⟩
  | ok =>
    have hgot : Call.pick impl date fault (.store (.getPolicy name)) s =
        ((.ok row : StoreResult PolicyRecord), s) := by
      have h := table.got name inv
      rw [stored] at h
      exact h
    simp only [run_call, hgot, afterRead]
    cases hdescribed : Service.validatedPolicy name body row.creationDate row.acl with
    | error error =>
      rw [rewrite_rejected table hdescribed]
      exact ⟨inv, stored⟩
    | ok record =>
      have hname := (validatedPolicy_ok hdescribed).1
      obtain ⟨hreply, inv', hrow⟩ := table.updated record inv (hname ▸ stored)
      have hwrite : rewrite table name body row = table.stored record := by
        unfold rewrite
        rw [hvalid, hdescribed]
      simp only [run_call]
      change table.Inv (run _ (afterWrite (impl.exec (.updatePolicy record) s).1) _).2 ∧
        table.row (run _ (afterWrite (impl.exec (.updatePolicy record) s).1) _).2 name = _
      rw [hreply, hwrite]
      exact ⟨inv', hname ▸ hrow⟩

theorem inOrder_rewrite (body : ι → Policy) (order : List ι) (date : Timestamp)
    (fault : Fault) (inv : table.Inv s₀)
    (stored : table.row s₀ name = some r₀) :
    table.row (inOrder (Call.pick impl date fault)
        (fun i => Service.updatePolicy name (body i)) order s₀) name =
      some (order.foldl (fun row i => rewrite table name (body i) row) r₀) := by
  induction order generalizing s₀ r₀ with
  | nil => exact stored
  | cons i order ih =>
    obtain ⟨inv', stored'⟩ :=
      run_update table (body i) date fault inv stored
    exact ih inv' stored'

end Alone

omit [SerdeJson] in
private theorem foldl_keeps {f : α → ι → α} {entries : List ι}
    (h : ∀ i ∈ entries, ∀ a, f a i = a) (a : α) : entries.foldl f a = a := by
  induction entries generalizing a with
  | nil => rfl
  | cons i entries ih =>
    rw [List.foldl_cons, h i List.mem_cons_self]
    exact ih (fun j hj => h j (List.mem_cons_of_mem i hj)) a

/-- When all updates are over, the row is what they make of it in some order. -/
theorem serialize [Fintype ι] [DecidableEq ι] {body : ι → Policy} {s₀ s : σ}
    {r₀ : PolicyRecord} {log : List (Record Call.Reply σ ι)}
    {now : ι → Action (Except ApiError Policy)} (inv : table.Inv s₀)
    (stored : table.row s₀ name = some r₀)
    (pool : Pool (Call.Exec impl) (fun _ => False) (fun i => Service.updatePolicy name (body i))
      s₀ log now s)
    (finished : ∀ i, ∃ value, now i = .done value)
    (current : FieldsCurrent table name body log) (date : Timestamp) (fault : Fault) :
    ∃ order : List ι, order.Nodup ∧ (∀ i, i ∈ order) ∧
      table.row s name = table.row (inOrder (Call.pick impl date fault)
        (fun i => Service.updatePolicy name (body i)) order s₀) name := by
  obtain ⟨written, h⟩ := updates_inTurn table inv stored pool current
  let rest := (Finset.univ.filter (· ∉ written)).toList
  have hrest : ∀ i, i ∈ rest ↔ i ∉ written := by simp [rest]
  have hkeep : ∀ i ∈ rest, ∀ row, rewrite table name (body i) row = row := by
    intro i hi row
    have stage := h.stage i
    obtain ⟨value, hdone⟩ := finished i
    rw [hdone, decide_eq_false ((hrest i).mp hi)] at stage
    generalize hprogram : Program.done value = program at stage
    generalize callsOf i log = calls at stage
    cases stage with
    | unread =>
      rw [updatePolicy_eq] at hprogram
      cases hvalid : validateEntityId "policy" name with
      | error error => exact rewrite_bad_name table hvalid _ _
      | ok =>
        rw [hvalid] at hprogram
        cases hprogram
    | writing => cases hprogram
    | refused calls value keeps => exact keeps row
  refine ⟨written ++ rest, ?_, ?_, ?_⟩
  · rw [List.nodup_append]
    refine ⟨h.nodup, Finset.nodup_toList _, ?_⟩
    intro i hi j hj hij
    exact (hrest j).mp hj (hij ▸ hi)
  · intro i
    rw [List.mem_append, hrest]
    exact Classical.em _
  · rw [inOrder_rewrite table body _ date fault inv stored, h.row, List.foldl_append]
    congr 1
    exact (foldl_keeps hkeep _).symm

end Updates

/-! Both stores. -/

inductive Backend where
  | memory
  | postgres

abbrev Backend.State : Backend → Type
  | memory => Mem.Inner
  | postgres => Pg.Database

section Both
variable [SerdeJson] [Pg.JiffSqlx]

def Backend.impl : (backend : Backend) → StoreImpl backend.State
  | memory => Mem.memStore
  | postgres => Pg.pgStore

def Backend.policies : (backend : Backend) → PolicyTable backend.impl
  | memory => memPolicies
  | postgres => pgPolicies

/-- Concurrent updates of a stored policy end as if they had run one after another, when
no field that a body leaves out has moved between the read and the write. -/
theorem updates_serialize [Fintype ι] [DecidableEq ι] (backend : Backend) (name : String)
    (body : ι → Policy) {s₀ s : backend.State} {r₀ : PolicyRecord}
    {log : List (Record Call.Reply backend.State ι)}
    {now : ι → Action (Except ApiError Policy)}
    (inv : backend.policies.Inv s₀) (stored : backend.policies.row s₀ name = some r₀)
    (pool : Pool (Call.Exec backend.impl) (fun _ => False)
      (fun i => Service.updatePolicy name (body i)) s₀ log now s)
    (finished : ∀ i, ∃ value, now i = .done value)
    (current : FieldsCurrent backend.policies name body log) (date : Timestamp) (fault : Fault) :
    ∃ order : List ι, order.Nodup ∧ (∀ i, i ∈ order) ∧
      backend.policies.row s name = backend.policies.row
        (inOrder (Call.pick backend.impl date fault)
          (fun i => Service.updatePolicy name (body i)) order s₀) name :=
  serialize backend.policies inv stored pool finished current date fault

end Both

/-! Two updates that both read before either writes. -/

@[reducible] def exactDates : Pg.JiffSqlx := ⟨fun time => time⟩

def allowAll (action : String) : List Statement := [⟨.allow, "*", [action], none⟩]

def readers : NewPolicy := ⟨"readers", ⟨0⟩, allowAll "fs:ReadObject", none⟩

/-- A store with one policy. -/
def onePolicy : Mem.Inner := (Mem.Inner.new.insertPolicy readers).2

theorem onePolicy_wellFormed : Mem.WellFormed onePolicy :=
  (Mem.Inner.new.insertPolicy_sound readers).changes.wellFormed Mem.wellFormed_new

/-- Both bodies say everything. -/
def full (second : Bool) : Policy :=
  if second then ⟨"readers", some 2, allowAll "fs:ListObjects", some "Read"⟩
  else ⟨"readers", some 1, allowAll "fs:ReadObject", some "Write"⟩

/-- The first body sets the acl, the second one leaves it out. -/
def partialSecond (second : Bool) : Policy :=
  { full second with acl := if second then none else some "Write" }

/-- Both read, then both write. -/
def overlapping [SerdeJson] (body : Bool → Policy) :
    Moment Call Call.Reply (Except ApiError Policy) Mem.Inner Bool :=
  (Moment.initial (fun i => Service.updatePolicy "readers" (body i)) onePolicy).play
    (Call.picks Mem.memStore ⟨0⟩ [(false, .answered), (true, .answered), (false, .answered),
      (true, .answered)])

theorem overlapping_pool [SerdeJson] (body : Bool → Policy) :
    Pool (Call.Exec Mem.memStore) (fun _ => False)
      (fun i => Service.updatePolicy "readers" (body i)) onePolicy (overlapping body).log
      (overlapping body).now (overlapping body).state :=
  Moment.Reached.initial.play (Call.picks_exec _ _ _)

def isDone : Action (Except ApiError Policy) → Bool
  | .done _ => true
  | .call _ _ => false

theorem finished_of_isDone {now : Bool → Action (Except ApiError Policy)}
    (h : ∀ i, isDone (now i) = true) (i : Bool) : ∃ value, now i = .done value := by
  have hi := h i
  cases hnow : now i with
  | done value => exact ⟨value, rfl⟩
  | call op next =>
    rw [hnow] at hi
    cases hi

theorem overlapping_finished : letI := noLists
    (∀ i, isDone ((overlapping full).now i) = true) ∧
      ∀ i, isDone ((overlapping partialSecond).now i) = true := by
  decide

theorem updates_serialize_full : letI := noLists; letI := exactDates
    ∃ order : List Bool, order.Nodup ∧ (∀ i, i ∈ order) ∧
      (overlapping full).state.policies["readers"]? =
        (inOrder (Call.pick Mem.memStore ⟨0⟩ .answered)
          (fun i => Service.updatePolicy "readers" (full i)) order
          onePolicy).policies["readers"]? := by
  let _ := noLists
  let _ := exactDates
  have stored : onePolicy.policies["readers"]? =
      some ⟨"readers", ⟨0⟩, allowAll "fs:ReadObject", none⟩ := by decide
  apply updates_serialize .memory "readers" full onePolicy_wellFormed stored
    (overlapping_pool full) (finished_of_isDone overlapping_finished.1)
  intro earlier record later hlog i hi policy hop read hread row hrow
  cases i <;> exact ⟨nofun, nofun⟩

/-- The second update writes back the acl it read, over the one the first has set
meanwhile. -/
theorem stale_acl_undoes_update : letI := noLists
    ∃ (log : List (Record Call.Reply Mem.Inner Bool))
      (now : Bool → Action (Except ApiError Policy)) (s : Mem.Inner),
      Mem.WellFormed onePolicy ∧ onePolicy.policies.contains "readers" ∧
      Pool (Call.Exec Mem.memStore) (fun _ => False)
        (fun i => Service.updatePolicy "readers" (partialSecond i)) onePolicy log now s ∧
      (∀ i, ∃ value, now i = .done value) ∧
      ∀ order : List Bool, order.Nodup → (∀ i, i ∈ order) →
        s.policies["readers"]? ≠
          (inOrder (Call.pick Mem.memStore ⟨0⟩ .answered)
            (fun i => Service.updatePolicy "readers" (partialSecond i)) order
            onePolicy).policies["readers"]? := by
  let _ := noLists
  refine ⟨_, _, _, onePolicy_wellFormed, by decide, overlapping_pool partialSecond,
    finished_of_isDone overlapping_finished.2, ?_⟩
  intro order nodup complete
  have hperm : order.Perm [false, true] := by
    apply (List.perm_ext_iff_of_nodup nodup (by decide)).mpr
    intro i
    cases i <;> simp [complete]
  have horder : order = [false, true] ∨ order = [true, false] := by
    match order, hperm.length_eq, nodup with
    | [first, second], _, nodup => cases first <;> cases second <;> simp_all
  cases horder with
  | inl firstThenSecond =>
    rw [firstThenSecond]
    decide
  | inr secondThenFirst =>
    rw [secondThenFirst]
    decide

end LakeFsAuth.Authz.PolicyUpdates
