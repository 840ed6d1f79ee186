import Mathlib.Data.Stream.Defs
import LakeFsAuth.Authz.HttpEffects
import LakeFsAuth.Authz.PolicyUpdates
import LakeFsAuth.Authz.Store.Again

/-! Requests that are sent again. Clients retry, so a request that has been served is served
once more, later, with reads in between. -/
namespace LakeFsAuth.Authz.Http
open Library Program LakeFsAuth.Core Core.Error Core.Json Core.Model Core.Token Store Api Mem

section Repeats
variable {α : Type} {clock clock' : Stream' Timestamp} {s : Inner}

/-- The store as it is, and a clock that is read now and then. -/
def ticking : Pick Call.Reply (Inner × Stream' Timestamp)
  | .store op, (s, clock) => ((memStore.exec op s).1, ((memStore.exec op s).2, clock))
  | .now, (s, clock) => (clock.head, (s, clock.tail))
  | .attempt _, (s, clock) => (.answered, (s, clock))

theorem ticking_exec (call : Call) (s : Inner) (clock : Stream' Timestamp) :
    Call.Exec memStore call s (ticking call (s, clock)).1 (ticking call (s, clock)).2.1 := by
  cases call <;> rfl

/-- The store after an action, which reads this clock. -/
def after (clock : Stream' Timestamp) (p : Action α) (s : Inner) : Inner :=
  (run ticking p (s, clock)).2.1

/-- Done again, whatever the clock reads, an action changes nothing. -/
def Repeats (p : Action α) : Prop :=
  ∀ clock clock' s, after clock' p (after clock p s) = after clock p s

theorem after_reads {p : Action α} (h : Reads p) : after clock p s = s := by
  induction p generalizing clock s with
  | done value => rfl
  | call op next ih =>
    have hstep : (ticking op (s, clock)).2.1 = s :=
      quiet_of_exec (ticking_exec op s clock) fun writes => absurd writes h.1
    have hnext : after (ticking op (s, clock)).2.2 (next (ticking op (s, clock)).1)
        (ticking op (s, clock)).2.1 = (ticking op (s, clock)).2.1 := ih _ (h.2 _)
    exact hnext.trans hstep

theorem after_bind {β : Type} (clock : Stream' Timestamp) (s : Inner) (p : Action α)
    (f : α → Action β) :
    ∃ clock' value, after clock (p >>= f) s = after clock' (f value) (after clock p s) :=
  ⟨_, _, congrArg (·.2.1) (run_bind ticking p f (s, clock))⟩

theorem after_bind_reads {β : Type} {p : Action α} {f : α → Action β} (h : ∀ value, Reads (f value)) :
    after clock (p >>= f) s = after clock p s := by
  obtain ⟨_, value, hbind⟩ := after_bind clock s p f
  rw [hbind, after_reads (h value)]

theorem after_answer {β : Type} {p : Action α} (f : α → β) :
    after clock (p >>= fun value => pure (f value)) s = after clock p s :=
  after_bind_reads fun _ => trivial

theorem Repeats.of_reads {p : Action α} (h : Reads p) : Repeats p := fun _ _ _ => after_reads h

theorem Repeats.bind_reads {β : Type} {p : Action α} {f : α → Action β} (h : Repeats p)
    (reads : ∀ value, Reads (f value)) : Repeats (p >>= f) := by
  intro clock clock' s
  rw [after_bind_reads reads, after_bind_reads reads, h clock clock' s]

theorem after_now {f : Timestamp → Action α} :
    after clock (now >>= f) s = after clock.tail (f clock.head) s := rfl

/-- One store call, and reads after it. -/
theorem after_store {op : StoreOp} {f : op.Reply → Action α} (reads : ∀ reply, Reads (f reply)) :
    after clock (store op >>= f) s = (Inner.exec op s).2 := by
  rw [after_bind_reads reads]
  rfl

theorem Repeats.of_store {op : StoreOp} {f : op.Reply → Action α} (again : Again op op)
    (reads : ∀ reply, Reads (f reply)) : Repeats (store op >>= f) := by
  intro clock clock' s
  rw [after_store reads, after_store reads]
  exact s.exec_again again

/-- A create reads the clock for the date of its row. -/
theorem Repeats.of_create {ρ : Type} (requested : Timestamp → Except ApiError ρ)
    (op : ρ → StoreOp) {p : Action α}
    (refused : ∀ (clock : Stream' Timestamp) s error, requested clock.head = .error error →
      after clock p s = s)
    (made : ∀ (clock : Stream' Timestamp) s row, requested clock.head = .ok row →
      after clock p s = (Inner.exec (op row) s).2)
    (same : ∀ date date' row, requested date = .ok row →
      ∃ row', requested date' = .ok row' ∧ Again (op row) (op row')) : Repeats p := by
  intro clock clock' s
  cases hrow : requested clock.head with
  | error error =>
    rw [refused clock s error hrow]
    cases hrow' : requested clock'.head with
    | error error' => exact refused clock' s error' hrow'
    | ok row' =>
      obtain ⟨row, h, _⟩ := same clock'.head clock.head row' hrow'
      exact nomatch hrow.symm.trans h
  | ok row =>
    obtain ⟨row', hrow', hagain⟩ := same clock.head clock'.head row hrow
    rw [made clock s row hrow, made clock' _ row' hrow']
    exact s.exec_again hagain

end Repeats

/-! Services. -/

theorem createUser_repeats (body : UserCreation) : Repeats (Service.createUser body) := by
  unfold Service.createUser
  split
  · exact fun _ _ _ => rfl
  · refine .of_create (Service.requestedUser body) .createUser
      (fun clock s error hrow => ?_) (fun clock s row hrow => ?_) fun date date' row hrow => ?_
    · simp only [after_now, hrow]
      rfl
    · simp only [after_now, hrow]
      exact after_store fun reply => createOrExisting_reads (.getUser _) rfl _ _ _
    · exact ⟨_, Creates.requestedUser_later hrow date', date', rfl⟩

theorem createGroup_repeats (body : GroupCreation) : Repeats (Service.createGroup body) := by
  refine .of_create (NewGroup.validated body.id body.description) .createGroup
    (fun clock s error hrow => ?_) (fun clock s row hrow => ?_) fun date date' row hrow => ?_
  · simp only [Service.createGroup, after_now, hrow]
    rfl
  · simp only [Service.createGroup, after_now, hrow]
    exact after_store fun reply => createOrExisting_reads (.getGroup _) rfl _ _ _
  · exact ⟨_, Creates.requestedGroup_later hrow date', date', rfl⟩

section Policies
variable [Validate.SerdeJson]

theorem createPolicy_repeats (body : Policy) : Repeats (Service.createPolicy body) := by
  refine .of_create (fun date => Service.validatedPolicy body.name body date none)
    .createPolicy (fun clock s error hrow => ?_) (fun clock s row hrow => ?_)
    fun date date' row hrow => ?_
  · simp only [Service.createPolicy, after_now, hrow]
    rfl
  · simp only [Service.createPolicy, after_now, hrow]
    exact after_store fun reply => createOrExisting_reads (.getPolicy _) rfl _ _ _
  · obtain ⟨_, created, hcreated⟩ := Creates.validatedPolicy_later hrow date'
    exact ⟨_, hcreated, created, rfl⟩

/-- What a body leaves out is taken from the row, and so it is from the row it makes. -/
theorem validatedPolicy_again {name : String} {body : Policy} {date : Timestamp}
    {acl : Option String} {record : NewPolicy}
    (described : Service.validatedPolicy name body date acl = .ok record) :
    Service.validatedPolicy name body record.creationDate record.acl = .ok record := by
  rw [PolicyUpdates.validatedPolicy_eq] at described ⊢
  obtain ⟨created, hdate, hrest⟩ := Fallible.bind_ok described
  cases hvalid : Validate.validatePolicy name body.statement with
  | error error =>
    rw [hvalid] at hrest
    cases hrest
  | ok =>
    rw [hvalid] at hrest
    cases hrest
    have hagain : PolicyUpdates.dateFrom body created = .ok created := by
      unfold PolicyUpdates.dateFrom at hdate ⊢
      cases hbody : body.creationDate with
      | none => rfl
      | some seconds =>
        rw [hbody] at hdate
        exact hdate
    have hacl : (body.acl <|> (body.acl <|> acl)) = (body.acl <|> acl) := by
      cases body.acl <;> rfl
    simp only [hagain, hacl]
    rfl

/-- What an update leaves of the store. -/
def updatedPolicy (name : String) (body : Policy) (s : Inner) : Inner :=
  match Validate.validateEntityId "policy" name, s.policies[name]? with
  | .ok (), some row =>
      match Service.validatedPolicy name body row.creationDate row.acl with
      | .ok record => (s.updatePolicy record).2
      | .error _ => s
  | _, _ => s

theorem after_updatePolicy (name : String) (body : Policy) (clock : Stream' Timestamp) (s : Inner) :
    after clock (Service.updatePolicy name body) s = updatedPolicy name body s := by
  unfold updatedPolicy
  rw [PolicyUpdates.updatePolicy_eq]
  cases Validate.validateEntityId "policy" name with
  | error error => rfl
  | ok =>
    change after clock (PolicyUpdates.afterRead name body (s.getPolicy name)) s = _
    unfold Inner.getPolicy
    cases s.policies[name]? with
    | none => rfl
    | some row =>
      simp only [found, PolicyUpdates.afterRead]
      cases Service.validatedPolicy name body row.creationDate row.acl with
      | error error => rfl
      | ok record =>
        change after clock (PolicyUpdates.afterWrite (s.updatePolicy record).1)
          (s.updatePolicy record).2 = _
        cases (s.updatePolicy record).1 <;> rfl

theorem updatePolicy_repeats (name : String) (body : Policy) :
    Repeats (Service.updatePolicy name body) := by
  intro clock clock' s
  rw [after_updatePolicy, after_updatePolicy]
  unfold updatedPolicy
  cases hname : Validate.validateEntityId "policy" name with
  | error error => rfl
  | ok =>
    cases hrow : s.policies[name]? with
    | none => simp only [hrow]
    | some row =>
      cases hrecord : Service.validatedPolicy name body row.creationDate row.acl with
      | error error => simp only [hrow, hrecord]
      | ok record =>
        have hkey : record.name = name := (PolicyUpdates.validatedPolicy_ok hrecord).1
        have hstored : (s.updatePolicy record).2.policies[name]? =
            some (Inner.rewritten row record) := by
          unfold Inner.updatePolicy
          rw [hkey, hrow]
          simp
        simp only [hrecord, hstored, Inner.rewritten, validatedPolicy_again hrecord]
        exact s.updatePolicy_again record

end Policies

/-! Operations. A create of credentials draws a new key each time. -/

section Operations
variable [SecretBox.Aes256Gcm] [Validate.SerdeJson] {draw : Service.Draw} {operation : Operation}

theorem Runs.repeats {success : Nat} {α : Type} {p : Action (Except ApiError α)}
    (h : Runs draw operation success p) (other : operation ≠ .createCredentials) : Repeats p := by
  have hstore {op : StoreOp} {α : Type} {f : op.Reply → Except ApiError α} (again : Again op op) :
      Repeats (store op >>= fun reply => pure (f reply)) :=
    .of_store again fun _ => trivial
  by_cases safe : operation.safe = true
  · exact .of_reads (h.reads safe)
  cases h with
  | createUser body => exact createUser_repeats body
  | deleteUser username => exact hstore rfl
  | updateFriendlyName username name => exact hstore rfl
  | createGroup body => exact createGroup_repeats body
  | deleteGroup id => exact hstore rfl
  | createPolicy body => exact createPolicy_repeats body
  | updatePolicy name body => exact updatePolicy_repeats name body
  | deletePolicy name => exact hstore rfl
  | addMembership id username => exact hstore rfl
  | deleteMembership id username => exact hstore rfl
  | createCredentials username accessKey secretKey => exact absurd rfl other
  | deleteCredentials username key => exact hstore rfl
  | attachPolicyToUser username policy => exact hstore rfl
  | detachPolicyFromUser username policy => exact hstore rfl
  | attachPolicyToGroup id policy => exact hstore rfl
  | detachPolicyFromGroup id policy => exact hstore rfl
  | claimTokenId body =>
    unfold Service.claimTokenId
    split
    · exact fun _ _ _ => rfl
    · split
      · exact fun _ _ _ => rfl
      · refine .of_store rfl fun reply => ?_
        split <;> trivial
  | createUserExternalPrincipal username query =>
    unfold Http.createUserExternalPrincipal
    split
    · exact fun _ _ _ => rfl
    · exact hstore rfl
  | deleteUserExternalPrincipal username query =>
    unfold Http.deleteUserExternalPrincipal
    split
    · exact fun _ _ _ => rfl
    · exact hstore rfl
  | _ => exact absurd (by decide) safe

theorem dispatch_repeats {request : HttpRequest} {params : List Text}
    (other : operation ≠ .createCredentials) : Repeats (handle draw request params operation) :=
  handle_cases (fun _ _ _ _ => rfl) fun _ h => (h.repeats other).bind_reads fun _ => trivial

/-- Only a create of credentials makes use of what is drawn. -/
theorem handle_draw {request : HttpRequest} {params : List Text}
    (other : operation ≠ .createCredentials) (draw' : Service.Draw) :
    handle draw' request params operation = handle draw request params operation := by
  cases operation <;> first | rfl | exact absurd rfl other

end Operations

/-! The server. -/

theorem asSecond_mono {date date' : Timestamp} (later : date.nanos ≤ date'.nanos) :
    date.asSecond ≤ date'.asSecond := by
  unfold Timestamp.asSecond
  exact Int.tdiv_le_tdiv (by decide) later

section Server
variable [NumericDate] [FromSlice] [Authn.SecureCookie.HmacSha256] {verifier : TokenVerifier}
  {authorization : Option String} {clock clock' : Stream' Timestamp}

theorem letsIn_mono {date date' : Timestamp} (later : date.nanos ≤ date'.nanos)
    (h : letsIn verifier authorization date') : letsIn verifier authorization date := by
  unfold letsIn at h ⊢
  split at h
  · exact h
  · exact verifyAt_mono (asSecond_mono later) h

/-- The guard reads the clock first, where it reads it at all. -/
theorem after_requireAuth (clock : Stream' Timestamp) (next : Action HttpResponse) (s : Inner) :
    (letsIn verifier authorization clock.head ∧
      ∃ clock', after clock (requireAuth verifier authorization next) s = after clock' next s) ∨
    (¬ letsIn verifier authorization clock.head ∧
      after clock (requireAuth verifier authorization next) s = s) := by
  unfold requireAuth letsIn
  cases htoken : authorization.bind bearerToken with
  | none =>
    by_cases hdisabled : verifier.disabled = true
    · exact .inl ⟨hdisabled, clock, by simp only [if_pos hdisabled]⟩
    · refine .inr ⟨hdisabled, ?_⟩
      simp only [if_neg hdisabled]
      rfl
  | some token =>
    simp only [after_now]
    cases verifier.verifyAt token clock.head.asSecond with
    | ok value => exact .inl ⟨rfl, clock.tail, rfl⟩
    | error error => exact .inr ⟨nofun, rfl⟩

/-- A request that was refused is refused later, and one that was let in changes nothing more. -/
theorem requireAuth_again {next : Action HttpResponse} (repeats : Repeats next)
    (later : clock.head.nanos ≤ clock'.head.nanos) (s : Inner) :
    after clock' (requireAuth verifier authorization next)
        (after clock (requireAuth verifier authorization next) s) =
      after clock (requireAuth verifier authorization next) s := by
  rcases after_requireAuth clock next s with ⟨_, first, hfirst⟩ | ⟨hout, hfirst⟩
  · rw [hfirst]
    rcases after_requireAuth clock' next (after first next s) with ⟨_, second, hlater⟩ | ⟨_, hlater⟩
    · rw [hlater, repeats]
    · exact hlater
  · rw [hfirst]
    rcases after_requireAuth clock' next s with ⟨hin, _⟩ | ⟨_, hlater⟩
    · exact absurd (letsIn_mono later hin) hout
    · exact hlater

variable [SecretBox.Aes256Gcm] [Validate.SerdeJson] {options : RouterOptions}
  {request : HttpRequest}

def Draws (options : RouterOptions) (request : HttpRequest) : Prop :=
  ∃ guarded params, target options request = .route guarded (some .createCredentials) params

theorem serve_again (draw draw' : Service.Draw) (later : clock.head.nanos ≤ clock'.head.nanos)
    (other : ¬ Draws options request) (s : Inner) :
    after clock' (serve verifier options draw' request)
        (after clock (serve verifier options draw request) s) =
      after clock (serve verifier options draw request) s := by
  unfold serve
  split
  · rfl
  · cases htarget : target options request with
    | unmatched => rfl
    | route guarded operation params =>
      have hdispatch : dispatch draw' request params operation = dispatch draw request params operation ∧
          Repeats (dispatch draw request params operation) := by
        cases operation with
        | none => exact ⟨rfl, fun _ _ _ => rfl⟩
        | some operation =>
          have hother : operation ≠ .createCredentials := by
            rintro rfl
            exact other ⟨guarded, params, htarget⟩
          exact ⟨handle_draw hother draw', dispatch_repeats hother⟩
      cases guarded with
      | true =>
        simp only [after_answer, hdispatch.1]
        exact requireAuth_again hdispatch.2 later s
      | false =>
        simp only [after_answer, hdispatch.1]
        exact hdispatch.2 clock clock' s

/-- A serving of a request: what the clock read from then on, and what was drawn. -/
structure Serving where
  clock : Stream' Timestamp
  draw : Service.Draw
  request : HttpRequest

def Serving.run (verifier : TokenVerifier) (options : RouterOptions) (s : Inner)
    (serving : Serving) : Inner :=
  after serving.clock (serve verifier options serving.draw serving.request) s

/-- Once a request was served, it may be sent again as often as one likes, with reads in between:
the store stays as the first serving left it. A create of credentials is the exception. -/
theorem retries_change_nothing {first : Serving} {servings : List Serving}
    (other : ¬ Draws options first.request)
    (later : ∀ serving ∈ servings, first.clock.head.nanos ≤ serving.clock.head.nanos ∧
      (serving.request = first.request ∨ serving.request.verb ∉ [.POST, .PUT, .DELETE]))
    (s : Inner) :
    servings.foldl (Serving.run verifier options) (first.run verifier options s) =
      first.run verifier options s := by
  induction servings with
  | nil => rfl
  | cons serving servings ih =>
    obtain ⟨hclock, hrequest⟩ := later serving List.mem_cons_self
    have hstays : serving.run verifier options (first.run verifier options s) =
        first.run verifier options s := by
      unfold Serving.run
      rcases hrequest with hsame | hsafe
      · rw [hsame]
        exact serve_again first.draw serving.draw hclock other s
      · exact after_reads (serve_reads verifier options serving.draw serving.request hsafe)
    rw [List.foldl_cons, hstays]
    exact ih fun serving hserving => later serving (List.mem_cons_of_mem _ hserving)

end Server

/-! A user that is deleted twice, and looked up in between. -/

section Once
attribute [local instance] Authn.SecureCookie.plainMac wholeSeconds compactReader
  SecretBox.plainCipher Validate.noLists

/-- The clock goes on by one with each reading. -/
def forUser (verb : Verb) (start : Int) : Serving where
  clock := fun n => ⟨start + n⟩
  draw := ⟨"", "", .zero⟩
  request := ⟨verb, ["auth", "users", "ann"].map String.toList, none, none, .unreadable ""⟩

def oneUser : Inner := (Inner.new.insertUser (.named "ann")).2

theorem retries_change_nothing_deleted :
    [forUser .GET 1, forUser .DELETE 2].foldl (Serving.run unchecked ⟨"", []⟩)
        ((forUser .DELETE 0).run unchecked ⟨"", []⟩ oneUser) =
      (forUser .DELETE 0).run unchecked ⟨"", []⟩ oneUser := by
  have htarget : target ⟨"", []⟩ (forUser .DELETE 0).request =
      .route true (some .deleteUser) ["ann".toList] := rfl
  refine retries_change_nothing ?_ ?_ oneUser
  · rintro ⟨_, _, hdraws⟩
    exact nomatch htarget.symm.trans hdraws
  · intro serving hserving
    simp only [List.mem_cons, List.not_mem_nil, or_false] at hserving
    rcases hserving with rfl | rfl
    · exact ⟨by decide, .inr (by decide)⟩
    · exact ⟨by decide, .inl rfl⟩

end Once

end LakeFsAuth.Authz.Http
