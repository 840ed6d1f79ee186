import LakeFsAuth.Library.Join

/-! Requests whose answers can lead to another request. A chain of them is followed until one
settles, or until it has been led on too often. -/
namespace LakeFsAuth.Library.Program
variable {Op ρ κ : Type} {Reply : Op → Type} (ask : ρ → Op)
  (hop : (request : ρ) → Reply (ask request) → κ ⊕ ρ)

/-- Where the requests so far can have led. -/
inductive Led (First : ρ → Prop) (log : List (Entry Reply)) : ρ → Prop where
  | first {request : ρ} (h : First request) : Led First log request
  | on {request next : ρ} {reply : Reply (ask request)} (led : Led First log request)
      (asked : ⟨ask request, reply⟩ ∈ log) (leads : hop request reply = .inr next) :
      Led First log next

/-- A chain of requests, each led to by the answer before. -/
inductive Trail : ρ → List (Entry Reply) → ρ → Prop where
  | here (request : ρ) : Trail request [] request
  | on {request next last : ρ} {reply : Reply (ask request)} {log : List (Entry Reply)}
      (leads : hop request reply = .inr next) (rest : Trail next log last) :
      Trail request (⟨ask request, reply⟩ :: log) last

variable (exhausted : κ)

/-- Follows where the answers lead, `left` times at most. -/
def follow : Nat → ρ → Program Op Reply κ
  | 0, request => call (ask request) fun reply =>
      done ((hop request reply).elim id fun _ => exhausted)
  | left + 1, request => call (ask request) fun reply =>
      (hop request reply).elim done (follow left)

/-- What comes of a request where each is always answered in one way. -/
def settle (answer : (request : ρ) → Reply (ask request)) : Nat → ρ → κ
  | 0, request => (hop request (answer request)).elim id fun _ => exhausted
  | left + 1, request => (hop request (answer request)).elim id (settle answer left)

variable {ask hop exhausted} {left n : Nat} {request : ρ} {log : List (Entry Reply)}

/-! Where requests lead. -/

theorem Led.more {First : ρ → Prop} {log' : List (Entry Reply)} (led : Led ask hop First log request)
    (more : log ⊆ log') : Led ask hop First log' request := by
  induction led with
  | first h => exact .first h
  | on led asked leads ih => exact ih.on (more asked) leads

/-- What the first requests are and every answer keeps is so of all that is asked. -/
theorem Led.keeps {First : ρ → Prop} (Inv : ρ → Prop) (led : Led ask hop First log request)
    (start : ∀ request, First request → Inv request)
    (step : ∀ request reply next, Inv request → hop request reply = .inr next → Inv next) :
    Inv request := by
  induction led with
  | first h => exact start _ h
  | on led asked leads ih => exact step _ _ _ ih leads

/-! What is asked, and what comes of it. -/

theorem follow_settles {answer : (request : ρ) → Reply (ask request)} {result : κ}
    (h : Returns (follow ask hop exhausted left request) log result)
    (answered : ∀ request reply, ⟨ask request, reply⟩ ∈ log → reply = answer request) :
    result = settle ask hop exhausted answer left request := by
  induction left generalizing request log with
  | zero =>
    cases h with
    | call rest =>
      obtain rfl := answered _ _ List.mem_cons_self
      exact rest.of_done.2
  | succ left ih =>
    cases h with
    | call rest =>
      obtain rfl := answered _ _ List.mem_cons_self
      dsimp only at rest
      rw [settle]
      cases leads : hop request (answer request) with
      | inl settled =>
        rw [leads] at rest
        exact rest.of_done.2
      | inr next =>
        rw [leads] at rest
        exact ih rest fun request reply hmem => answered request reply (List.mem_cons_of_mem _ hmem)

/-! What it costs. -/

variable {cost : Op → Nat} {refund : (op : Op) → Reply op → Nat}

end LakeFsAuth.Library.Program
