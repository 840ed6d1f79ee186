import LakeFsAuth.AuthzClient.Client

/-! Rules for judging what the client does, and for running it: an attempt is judged by its
handler, a retried request by its attempts. -/
namespace LakeFsAuth.AuthzClient
open Core.Error Authz.Store Authz.Api Authz.Handlers Library Library.Program

variable {σ α β : Type} {Exec : (call : Call) → σ → call.Reply → σ → Prop}
  {Allowed : List (Entry Call.Reply) → σ → Call → Prop} {log : List (Entry Call.Reply)} {s : σ}

theorem attempt_meets {request : Request}
    {Post : List (Entry Call.Reply) → σ → Except TransportError (Response request.Success) → Prop}
    (allowed : Allowed log s (.attempt request))
    (reached : ∀ fault s', Exec (.attempt request) s fault s' → fault.committed = true →
      Meets Exec Allowed (fun log s response => Post log s (fault.deliver response))
        (handle request) (log ++ [⟨.attempt request, fault⟩]) s')
    (dropped : ∀ fault s', Exec (.attempt request) s fault s' → fault.committed = false →
      Post (log ++ [⟨.attempt request, fault⟩]) s' fault.refusal) :
    Meets Exec Allowed Post (attempt request) log s := by
  refine Meets.perform_bind allowed fun fault s' exec => ?_
  split
  · rename_i hcommitted
    exact (reached fault s' exec hcommitted).bind fun _ _ _ h => h
  · rename_i hdropped
    exact dropped fault s' exec (Bool.not_eq_true _ ▸ hdropped)

/-- A retried request: whatever an attempt that is repeated leaves behind is a
good start for the next one. -/
theorem sendWithRetry_meets {request : Request} (Ready : List (Entry Call.Reply) → σ → Prop)
    {Post : List (Entry Call.Reply) → σ → Except ClientError (Response request.Success) → Prop}
    (each : ∀ log s, Ready log s → Meets Exec Allowed
      (fun log s outcome => (retryable request.method outcome = true → Ready log s) ∧
        Post log s (outcome.mapError .Transport)) (attempt request) log s)
    (retries : Nat) (ready : Ready log s) :
    Meets Exec Allowed Post (sendWithRetry request retries) log s := by
  induction retries generalizing log s with
  | zero => exact (each log s ready).bind fun _ _ _ h => h.2
  | succ retries ih =>
    refine (each log s ready).bind fun log s outcome h => ?_
    split
    · rename_i hretry
      exact ih (h.1 hretry)
    · exact h.2

theorem handle_meets {request : Request}
    {Post : List (Entry Call.Reply) → σ → Response request.Success → Prop}
    (h : Meets Exec Allowed (fun log s result => Post log s (respond request result))
      (answer request) log s) :
    Meets Exec Allowed Post (handle request) log s :=
  h.bind fun _ _ _ hpost => hpost

/-- The store, and a network on which every request is answered. -/
abbrev answering (impl : StoreImpl σ) (date : Timestamp) : Pick Call.Reply σ :=
  Call.pick impl date .answered

section Runs
variable (pick : Pick Call.Reply σ) (request : Request) (s : σ)

theorem handle_run : (handle request).run pick s =
    (respond request ((answer request).run pick s).1, ((answer request).run pick s).2) := by
  unfold handle
  rw [run_bind]
  rfl

theorem attempt_run_committed (committed : (pick (.attempt request) s).1.committed = true) :
    (attempt request).run pick s =
      ((pick (.attempt request) s).1.deliver
        ((handle request).run pick (pick (.attempt request) s).2).1,
        ((handle request).run pick (pick (.attempt request) s).2).2) := by
  change run pick (if (pick (.attempt request) s).1.committed then _ else _) _ = _
  rw [if_pos committed, run_bind]
  rfl

theorem attempt_run_dropped (dropped : (pick (.attempt request) s).1.committed = false) :
    (attempt request).run pick s =
      ((pick (.attempt request) s).1.refusal, (pick (.attempt request) s).2) := by
  change run pick (if (pick (.attempt request) s).1.committed then _ else _) _ = _
  rw [dropped]
  rfl

/-- An attempt whose outcome is final ends the call. -/
theorem send_run_final {outcome : Except TransportError (Response request.Success)} {s' : σ}
    (tried : (attempt request).run pick s = (outcome, s'))
    (final : retryable request.method outcome = false) (retries : Nat) :
    (sendWithRetry request retries).run pick s = (outcome.mapError .Transport, s') := by
  cases retries with
  | zero =>
    unfold sendWithRetry
    rw [run_bind, tried]
    rfl
  | succ retries =>
    unfold sendWithRetry
    rw [run_bind, tried, final]
    rfl

/-- An attempt that may be repeated is, as long as retries are left. -/
theorem send_run_repeated {outcome : Except TransportError (Response request.Success)} {s' : σ}
    (tried : (attempt request).run pick s = (outcome, s'))
    (again : retryable request.method outcome = true) (retries : Nat) :
    (sendWithRetry request (retries + 1)).run pick s =
      (sendWithRetry request retries).run pick s' := by
  rw [sendWithRetry, run_bind, tried, again]
  rfl

/-- An answered request that is no server error is sent once. -/
theorem send_run_answered {s₁ s₂ : σ} (answered : pick (.attempt request) s = (.answered, s₁))
    {result : Except ApiError request.Success}
    (handled : (answer request).run pick s₁ = (result, s₂))
    (quiet : isServerError (respond request result).status = false) (retries : Nat) :
    (sendWithRetry request retries).run pick s = (.ok (respond request result), s₂) := by
  have tried : (attempt request).run pick s = (.ok (respond request result), s₂) := by
    rw [attempt_run_committed pick request s (by rw [answered]; rfl), answered, handle_run, handled]
    rfl
  exact send_run_final pick request s tried (by simp [retryable, quiet]) retries

end Runs

/-- `?` on a transport error. -/
theorem mapError_ok {x : Except ε α} {f : ε → δ} {value : α} (h : x.mapError f = .ok value) :
    x = .ok value := by
  cases x with
  | ok a =>
    cases h
    rfl
  | error e => cases h

end LakeFsAuth.AuthzClient
