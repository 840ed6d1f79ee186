import LakeFsAuth.Authz.Creates
import LakeFsAuth.Authz.PolicyUpdates

/-! `POST /auth/policies` from several callers at once. A create that meets a stored policy
compares the statements, so no answer says anything else than what was asked for. -/
namespace LakeFsAuth.Authz.PolicyCreates
open LakeFsAuth.Core Core.Error Core.Model Core.Validate Store Api Creates PolicyUpdates
open Library Library.Program

/-- What a create relies on of a store: an insert gives back the statements it was given. -/
def Inserts : (call : Call) → call.Reply → Prop
  | .store (.createPolicy policy), reply =>
      ∀ row : PolicyRecord, reply = .ok row → row.statement = policy.statement
  | _, _ => True

/-- The rows that answer a request: their statements are those of the body. -/
def Answered (body : Policy) (row : PolicyRecord) : Prop :=
  SameStatements body.statement row.statement

theorem mem_inserts {s : Mem.Inner} {policy : NewPolicy} {row : PolicyRecord}
    (h : (s.insertPolicy policy).1 = .ok row) : row.statement = policy.statement := by
  unfold Mem.Inner.insertPolicy at h
  split at h
  · cases h
  · cases h
    rfl

theorem pg_inserts [Pg.JiffSqlx] {db : Pg.Database} {policy : NewPolicy} {row : PolicyRecord}
    (h : (db.createPolicy policy).1 = .ok row) : row.statement = policy.statement := by
  unfold Pg.Database.createPolicy at h
  cases hinsert : db.insertPolicy Relational.onConflictError policy with
  | error violation =>
    rw [hinsert] at h
    cases h
  | ok done =>
    rw [hinsert] at h
    obtain ⟨rfl, _⟩ | ⟨rfl, _⟩ := Relational.insert_ok hinsert
    · cases h
      rfl
    · cases h

theorem createOrExisting_answers {body : Policy} {requested : NewPolicy}
    (hstatement : requested.statement = body.statement) {created : StoreResult PolicyRecord}
    (hcreated : ∀ row, created = .ok row → Answered body row) (name : String)
    (log : List (Entry Call.Reply)) :
    Meets (Seen Inserts) (fun _ _ _ => True)
      (fun _ _ (answer : Except ApiError PolicyRecord) => ∀ row, answer = .ok row → Answered body row)
      (Service.createOrExisting created (store (.getPolicy name)) (Service.samePolicy requested))
      log () := by
  have refused (error : ApiError) (row : PolicyRecord) (h : .error error = Except.ok row) :
      Answered body row := by cases h
  cases created with
  | ok created =>
    intro row hrow
    cases hrow
    exact hcreated created rfl
  | error conflict =>
    unfold Service.createOrExisting
    dsimp only
    split
    · refine Meets.perform_bind trivial fun reread _ _ => ?_
      cases reread with
      | ok existing =>
        dsimp only
        split
        · rename_i same
          intro row hrow
          cases hrow
          have hmatch := samePolicy_iff.mp same
          rw [Answered, ← hstatement]
          exact hmatch.statement
        · exact refused conflict.toApiError
      | error error => cases error <;> exact refused _
    · exact refused conflict.toApiError

section Requests
variable [SerdeJson]

/-- What one request answers, whatever the others do in between. -/
theorem createPolicy_answers (body : Policy) :
    Meets (Seen Inserts) (fun _ _ _ => True)
      (fun _ _ (answer : Except ApiError Policy) => ∀ policy, answer = .ok policy →
        SameStatements body.statement policy.statement)
      (Service.createPolicy body) [] () := by
  unfold Service.createPolicy
  refine Meets.perform_bind trivial fun creationDate _ _ => ?_
  cases hvalid : Service.validatedPolicy body.name body creationDate none with
  | error error =>
    intro policy h
    cases h
  | ok requested =>
    have hstatement := (validatedPolicy_ok hvalid).2
    refine Meets.perform_bind trivial fun created _ hcreated => ?_
    refine Meets.bind (createOrExisting_answers hstatement ?_ body.name _) ?_
    · intro row hrow
      have hrow : row.statement = requested.statement := hcreated row hrow
      rw [Answered, hrow, hstatement]
      exact SameStatements.refl _
    · intro _ _ answer hanswer policy hpolicy
      cases answer with
      | error error => cases hpolicy
      | ok row =>
        cases hpolicy
        exact hanswer row rfl

variable [Pg.JiffSqlx]

omit [SerdeJson] in
theorem backend_inserts (backend : Backend) :
    Lawful (Call.Exec backend.impl) (fun _ => True) Inserts where
  keeps _ _ := trivial
  law := by
    intro call s reply s' _ exec
    cases call with
    | now => trivial
    | attempt request => trivial
    | store op =>
      cases op with
      | createPolicy policy =>
        intro row hrow
        cases backend with
        | memory => exact mem_inserts ((congrArg Prod.fst exec).trans hrow)
        | postgres => exact pg_inserts ((congrArg Prod.fst exec).trans hrow)
      | _ => trivial

/-- Two lists of statements are written alike exactly when they are the same up to the order of
statements and of the actions in each. So a create answers with no other statements than it was
asked for, whatever else the callers of the store do. -/
theorem policy_comparison_exact :
    (∀ statements others : List Statement,
      Service.canonicalStatements statements = Service.canonicalStatements others ↔
        SameStatements statements others) ∧
    ∀ {ι : Type} [DecidableEq ι] (backend : Backend) (body : ι → Policy) {s₀ s : backend.State}
      {log : List (Record Call.Reply backend.State ι)} {now : ι → Action (Except ApiError Policy)}
      {i : ι} {policy : Policy},
      Pool (Call.Exec backend.impl) (fun _ => True) (fun i => Service.createPolicy (body i)) s₀
        log now s →
      now i = .done (.ok policy) → SameStatements (body i).statement policy.statement := by
  refine ⟨canonicalStatements_eq_iff, ?_⟩
  intro ι _ backend body s₀ s log now i policy pool finished
  exact pool.answers (backend_inserts backend) trivial (fun i => createPolicy_answers (body i))
    finished policy rfl

end Requests

/-! A policy is created again with its statements and their actions in another order. -/

def denyDelete : Statement := ⟨.deny, "*", ["fs:DeleteObject"], none⟩

def readBoth (first second : String) : Statement := ⟨.allow, "*", [first, second], none⟩

def stored : NewPolicy :=
  ⟨"readers", ⟨0⟩, [denyDelete, readBoth "fs:ListObjects" "fs:ReadObject"], none⟩

def repeated : Policy :=
  ⟨"readers", none, [readBoth "fs:ReadObject" "fs:ListObjects", denyDelete], none⟩

def requested : NewPolicy := ⟨"readers", ⟨0⟩, repeated.statement, none⟩

def repeating [SerdeJson] : Moment Call Call.Reply (Except ApiError Policy) Mem.Inner Unit :=
  (Moment.initial (fun _ => Service.createPolicy repeated) (Mem.Inner.new.insertPolicy stored).2).play
    (Call.picks Mem.memStore ⟨0⟩ [((), .answered), ((), .answered), ((), .answered)])

theorem policy_comparison_exact_repeated :
    (@repeating noLists).now () = .done (.ok ⟨"readers", some 0, stored.statement, none⟩) ∧
      SameStatements repeated.statement stored.statement := by
  have hsame : Service.samePolicy requested (policyRow stored) = true := by
    apply samePolicy_iff.mpr
    refine ⟨⟨_, .swap _ _ _, ?_⟩, fun _ h => h⟩
    refine .cons ⟨rfl, rfl, .refl _, rfl⟩ (.cons ⟨rfl, rfl, .swap _ _ _, rfl⟩ .nil)
  have finished : (@repeating noLists).now () =
      .done (.ok ⟨"readers", some 0, stored.statement, none⟩) := by
    change ((if Service.samePolicy requested (policyRow stored) then _ else _ :
      Action (Except ApiError PolicyRecord)) >>= _) = _
    rw [if_pos hsame]
    rfl
  refine ⟨finished, ?_⟩
  exact (@policy_comparison_exact noLists exactDates).2 .memory (fun _ : Unit => repeated)
    (Moment.Reached.initial.play (Call.picks_exec _ _ _)) finished

end LakeFsAuth.Authz.PolicyCreates
