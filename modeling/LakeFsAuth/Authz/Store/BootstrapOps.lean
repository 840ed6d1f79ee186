import LakeFsAuth.Authz.Store.Run

/-! A bootstrap run of the in-memory store as plain operations: each of its inserts does
nothing, or what the operation of the same name does. -/
namespace LakeFsAuth.Authz.Store

/-- The operations a plan stands for. -/
def BootstrapPlan.ops (plan : BootstrapPlan) : List StoreOp :=
  plan.policies.map .createPolicy ++ plan.groups.map .createGroup ++
    plan.users.map .createUser ++
    plan.memberships.map (fun (groupId, username) => .addMembership groupId username) ++
    plan.userPolicies.map (fun (username, policy) => .attachPolicyToUser username policy) ++
    plan.groupPolicies.map (fun (groupId, policy) => .attachPolicyToGroup groupId policy) ++
    plan.credentials.map .createCredential

namespace Mem
open Library Library.Fallible BootstrapWriter

/-- A store reached by operations of one kind. -/
def Along (Allowed : StoreOp → Prop) (s s' : Inner) : Prop :=
  ∃ ops, (∀ op ∈ ops, Allowed op) ∧ s' = s.after ops

section Along
variable {Allowed : StoreOp → Prop}

theorem Along.refl (s : Inner) : Along Allowed s s := ⟨[], by simp, rfl⟩

theorem Along.trans {s mid s' : Inner} (h : Along Allowed s mid) (h' : Along Allowed mid s') :
    Along Allowed s s' := by
  obtain ⟨ops, hops, rfl⟩ := h
  obtain ⟨more, hmore, rfl⟩ := h'
  refine ⟨ops ++ more, ?_, (s.after_append ops more).symm⟩
  intro op hop
  exact (List.mem_append.mp hop).elim (hops op) (hmore op)

instance : Std.Refl (Along Allowed) := ⟨Along.refl⟩
instance : IsTrans Inner (Along Allowed) := ⟨fun _ _ _ => Along.trans⟩

theorem Along.single {op : StoreOp} (allowed : Allowed op) (s : Inner) :
    Along Allowed s (Inner.exec op s).2 :=
  ⟨[op], by simpa using allowed, rfl⟩

/-- What each of the operations keeps, the run keeps. -/
theorem Along.keeps {P : Inner → Prop} {s s' : Inner} (along : Along Allowed s s')
    (step : ∀ op s, Allowed op → P s → P (Inner.exec op s).2) (h : P s) : P s' := by
  obtain ⟨ops, hops, rfl⟩ := along
  induction ops generalizing s with
  | nil => exact h
  | cons op ops ih =>
    exact ih (step op s (hops op List.mem_cons_self) h) fun other hother =>
      hops other (List.mem_cons_of_mem op hother)

theorem insertPolicyIfMissing_along (policy : NewPolicy) (allowed : Allowed (.createPolicy policy)) :
    Guarantees (Along Allowed) (insertPolicyIfMissing policy : StoreM Inner Bool) := by
  intro s
  change Along Allowed s (if s.policies.contains policy.name then (.ok false, s)
    else andReturn (s.insertPolicy policy) true : StoreResult Bool × Inner).2
  split
  · exact .refl s
  · exact .single allowed s

theorem insertGroupIfMissing_along (group : NewGroup) (allowed : Allowed (.createGroup group)) :
    Guarantees (Along Allowed) (insertGroupIfMissing group : StoreM Inner Bool) := by
  intro s
  change Along Allowed s (if s.groups.contains group.id then (.ok false, s)
    else andReturn (s.insertGroup group) true : StoreResult Bool × Inner).2
  split
  · exact .refl s
  · exact .single allowed s

theorem applyUser_along (user : NewUser) (allowed : Allowed (.createUser user)) :
    Guarantees (Along Allowed) (applyUser user : StoreM Inner Bool) := by
  apply Guarantees.bind
  · intro s
    rw [insertUserIfMissing_eq]
    split
    · exact .refl s
    · exact .single allowed s
  · intro existing
    cases existing with
    | none => exact .pure true
    | some existing =>
      dsimp only
      split
      · exact .pure false
      · exact fun s => .refl s

theorem applyCredential_along (credential : NewCredential)
    (allowed : Allowed (.createCredential credential)) :
    Guarantees (Along Allowed) (applyCredential credential : StoreM Inner Bool) := by
  apply Guarantees.bind
  · intro s
    rw [insertCredentialIfMissing_eq]
    split
    · exact .refl s
    · exact .single allowed s
  · intro existing
    cases existing with
    | none => exact .pure true
    | some existing =>
      dsimp only
      split
      · exact .pure false
      · exact fun s => .refl s

/-- One loop of the plan. -/
theorem applyEach_along {α : Type} {category : Category} {insert : α → StoreM Inner Bool}
    {entries : List α} (h : ∀ entry ∈ entries, Guarantees (Along Allowed) (insert entry))
    (report : BootstrapReport) :
    Guarantees (Along Allowed) (applyEach category insert entries report) :=
  .foldlM (fun _ entry hentry => (h entry hentry).bind fun _ => .pure _) report

end Along

theorem applyPlan_along (plan : BootstrapPlan) :
    Guarantees (Along (· ∈ plan.ops)) (applyPlan plan : StoreM Inner BootstrapReport) := by
  unfold applyPlan
  refine .bind (applyEach_along ?_ _) fun _ => .bind (applyEach_along ?_ _) fun _ =>
    .bind (applyEach_along ?_ _) fun _ => .bind (applyEach_along ?_ _) fun _ =>
    .bind (applyEach_along ?_ _) fun _ => .bind (applyEach_along ?_ _) fun _ =>
    applyEach_along ?_ _
  · exact fun policy hmem => insertPolicyIfMissing_along policy (by simp [BootstrapPlan.ops, hmem])
  · exact fun group hmem => insertGroupIfMissing_along group (by simp [BootstrapPlan.ops, hmem])
  · exact fun user hmem => applyUser_along user (by simp [BootstrapPlan.ops, hmem])
  · rintro ⟨groupId, username⟩ hmem s
    have hop : StoreOp.addMembership groupId username ∈ plan.ops := by simp [BootstrapPlan.ops, hmem]
    exact .single hop s
  · rintro ⟨username, policy⟩ hmem s
    have hop : StoreOp.attachPolicyToUser username policy ∈ plan.ops := by simp [BootstrapPlan.ops, hmem]
    exact .single hop s
  · rintro ⟨groupId, policy⟩ hmem s
    have hop : StoreOp.attachPolicyToGroup groupId policy ∈ plan.ops := by simp [BootstrapPlan.ops, hmem]
    exact .single hop s
  · exact fun credential hmem => applyCredential_along credential (by simp [BootstrapPlan.ops, hmem])

/-- A bootstrap run does some of the operations of its plan, in some order. -/
theorem Inner.applyBootstrap_along (self : Inner) (plan : BootstrapPlan) :
    Along (· ∈ plan.ops) self (self.applyBootstrap plan).2 := by
  have along := applyPlan_along plan self
  unfold applyBootstrap
  split
  · rename_i report inner h
    rw [h] at along
    exact along
  · exact .refl self

end Mem

end LakeFsAuth.Authz.Store
