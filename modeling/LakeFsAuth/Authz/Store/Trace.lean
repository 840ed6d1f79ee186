import LakeFsAuth.Authz.Store.Walk
import LakeFsAuth.Library.EventLog

/-! Effective permissions as a matter of history: which adds and attaches have
taken place and not been undone since. -/
namespace LakeFsAuth.Authz.Store.Mem
open Std Relation Library Library.OrderedMap Library.EventLog

/-- An entry of one of the three relations. -/
inductive Fact where
  | member (groupId username : String)
  | userPolicy (username policy : String)
  | groupPolicy (groupId policy : String)
  deriving DecidableEq

inductive Event where
  | added (fact : Fact)
  | removed (fact : Fact)
  | userDeleted (username : String)
  | groupDeleted (groupId : String)
  | policyDeleted (name : String)
  deriving DecidableEq

/-- The matching detach or remove, and the delete of an entity involved. -/
def Event.ends : Event → Fact → Bool
  | added _, _ => false
  | removed gone, fact => gone == fact
  | userDeleted username, .member _ user | userDeleted username, .userPolicy user _ =>
      user == username
  | groupDeleted groupId, .member group _ | groupDeleted groupId, .groupPolicy group _ =>
      group == groupId
  | policyDeleted name, .userPolicy _ policy | policyDeleted name, .groupPolicy _ policy =>
      policy == name
  | userDeleted _, .groupPolicy _ _ | groupDeleted _, .userPolicy _ _
  | policyDeleted _, .member _ _ => false

instance : Events Fact Event := ⟨.added, fun event fact => event.ends fact = true⟩

/-- The events of an operation that succeeds. The inserts of a bootstrap count
as adds and attaches. -/
def eventsOf : StoreOp → List Event
  | .addMembership groupId username => [.added (.member groupId username)]
  | .removeMembership groupId username => [.removed (.member groupId username)]
  | .attachPolicyToUser username policy => [.added (.userPolicy username policy)]
  | .detachPolicyFromUser username policy => [.removed (.userPolicy username policy)]
  | .attachPolicyToGroup groupId policy => [.added (.groupPolicy groupId policy)]
  | .detachPolicyFromGroup groupId policy => [.removed (.groupPolicy groupId policy)]
  | .deleteUser username => [.userDeleted username]
  | .deleteGroup groupId => [.groupDeleted groupId]
  | .deletePolicy name => [.policyDeleted name]
  | .applyBootstrap plan =>
      plan.memberships.flatMap (fun (groupId, username) => [.added (.member groupId username)]) ++
      plan.userPolicies.flatMap
        (fun (username, policy) => [.added (.userPolicy username policy)]) ++
      plan.groupPolicies.flatMap
        (fun (groupId, policy) => [.added (.groupPolicy groupId policy)])
  | _ => []

/-- The log of a run: the events of the operations that succeeded. -/
def history (s : Inner) : List StoreOp → List Event
  | [] => []
  | op :: ops =>
      (if (Inner.exec op s).1.isOk then eventsOf op else []) ++ history (Inner.exec op s).2 ops

namespace Inner

/-- The three relations of the store. -/
def Relates (s : Inner) : Fact → Prop
  | .member groupId username => (groupId, username) ∈ s.groupMembers
  | .userPolicy username policy => (username, policy) ∈ s.userPolicies
  | .groupPolicy groupId policy => (groupId, policy) ∈ s.groupPolicies

end Inner

/-- An operation is faithful when its log entry says what it did to the relations. -/
def Faithful (s : Inner) (outcome : StoreResult α × Inner) (events : List Event) : Prop :=
  ∀ log, Tracks s.Relates log →
    Tracks outcome.2.Relates (log ++ if outcome.1.isOk then events else [])

theorem Faithful.silent {s : Inner} {outcome : StoreResult α × Inner}
    (same : outcome.2.Relates = s.Relates) : Faithful s outcome [] := by
  intro log tracks
  rw [ite_self, List.append_nil, same]
  exact tracks

theorem Faithful.refused (s : Inner) (error : StoreError) (events : List Event) :
    Faithful s ((.error error, s) : StoreResult α × Inner) events := by
  intro log tracks
  change Tracks s.Relates (log ++ [])
  rwa [List.append_nil]

theorem Faithful.noted {s next : Inner} (value : α) (event : Event)
    (step : ∀ fact, next.Relates fact ↔
      event = .added fact ∨ (s.Relates fact ∧ ¬ event.ends fact = true)) :
    Faithful s ((.ok value, next) : StoreResult α × Inner) [event] :=
  fun _ tracks => tracks.snoc event step

namespace Inner
variable (self : Inner)

theorem addMembership_faithful (groupId username : String) :
    Faithful self (self.addMembership groupId username)
      [.added (.member groupId username)] := by
  unfold addMembership
  split
  · exact .refused self _ _
  · exact .refused self _ _
  · refine .noted _ _ fun fact => ?_
    cases fact <;> simp [Relates, Event.ends]

theorem removeMembership_faithful (groupId username : String) :
    Faithful self (self.removeMembership groupId username)
      [.removed (.member groupId username)] := by
  unfold removeMembership
  split
  · refine .noted _ _ fun fact => ?_
    cases fact <;> simp [Relates, Event.ends, and_comm]
  · exact .refused self _ _

theorem attachPolicyToUser_faithful (username policy : String) :
    Faithful self (self.attachPolicyToUser username policy)
      [.added (.userPolicy username policy)] := by
  unfold attachPolicyToUser
  split
  · exact .refused self _ _
  · exact .refused self _ _
  · refine .noted _ _ fun fact => ?_
    cases fact <;> simp [Relates, Event.ends]

theorem detachPolicyFromUser_faithful (username policy : String) :
    Faithful self (self.detachPolicyFromUser username policy)
      [.removed (.userPolicy username policy)] := by
  unfold detachPolicyFromUser
  split
  · refine .noted _ _ fun fact => ?_
    cases fact <;> simp [Relates, Event.ends, and_comm]
  · exact .refused self _ _

theorem attachPolicyToGroup_faithful (groupId policy : String) :
    Faithful self (self.attachPolicyToGroup groupId policy)
      [.added (.groupPolicy groupId policy)] := by
  unfold attachPolicyToGroup
  split
  · exact .refused self _ _
  · exact .refused self _ _
  · refine .noted _ _ fun fact => ?_
    cases fact <;> simp [Relates, Event.ends]

theorem detachPolicyFromGroup_faithful (groupId policy : String) :
    Faithful self (self.detachPolicyFromGroup groupId policy)
      [.removed (.groupPolicy groupId policy)] := by
  unfold detachPolicyFromGroup
  split
  · refine .noted _ _ fun fact => ?_
    cases fact <;> simp [Relates, Event.ends, and_comm]
  · exact .refused self _ _

theorem deleteUser_faithful (username : String) :
    Faithful self (self.deleteUser username) [.userDeleted username] := by
  unfold deleteUser
  split
  · refine .noted _ _ fun fact => ?_
    cases fact <;> simp [Relates, Event.ends, cascadeDeleteUser]
  · exact .refused self _ _

theorem deleteGroup_faithful (groupId : String) :
    Faithful self (self.deleteGroup groupId) [.groupDeleted groupId] := by
  unfold deleteGroup
  split
  · refine .noted _ _ fun fact => ?_
    cases fact <;> simp [Relates, Event.ends, cascadeDeleteGroup]
  · exact .refused self _ _

theorem deletePolicy_faithful (name : String) :
    Faithful self (self.deletePolicy name) [.policyDeleted name] := by
  unfold deletePolicy
  split
  · refine .noted _ _ fun fact => ?_
    cases fact <;> simp [Relates, Event.ends, cascadeDeletePolicy]
  · exact .refused self _ _

/-! The other writes leave the relations alone. -/

theorem insertUser_relates (user : NewUser) :
    (self.insertUser user).2.Relates = self.Relates := by
  rcases self.insertUser_cases user with ⟨_, h⟩ | ⟨_, entity, id, h⟩
  · rw [h]
    rfl
  · rw [h]

theorem insertGroup_relates (group : NewGroup) :
    (self.insertGroup group).2.Relates = self.Relates := by
  unfold insertGroup
  split <;> rfl

theorem insertPolicy_relates (policy : NewPolicy) :
    (self.insertPolicy policy).2.Relates = self.Relates := by
  unfold insertPolicy
  split <;> rfl

theorem insertCredential_relates (credential : NewCredential) :
    (self.insertCredential credential).2.Relates = self.Relates := by
  unfold insertCredential
  split
  · rfl
  · split <;> rfl

end Inner

/-! Bootstrap: the copy keeps in step with the log of its inserts. -/

section Bootstrap
open Fallible BootstrapWriter

/-- On success the step adds these events to the log its state tracks. -/
def Notes (x : StoreM Inner α) (events : List Event) : Prop :=
  ∀ s value s' log, exec x s = (.ok value, s') → Tracks s.Relates log →
    Tracks s'.Relates (log ++ events)

theorem Notes.silent {x : StoreM Inner α} (same : ∀ s, (exec x s).2.Relates = s.Relates) :
    Notes x [] := by
  intro s value s' log h tracks
  have hsame := same s
  rw [h] at hsame
  rw [List.append_nil, hsame]
  exact tracks

theorem Notes.bind {x : StoreM Inner α} {f : α → StoreM Inner β} {events more : List Event}
    (hx : Notes x events) (hf : ∀ a, Notes (f a) more) : Notes (x >>= f) (events ++ more) := by
  intro s value s' log h tracks
  obtain ⟨a, mid, hfirst, hrest⟩ := exec_bind_ok h
  rw [← List.append_assoc]
  exact hf a mid value s' _ hrest (hx s a mid log hfirst tracks)

theorem Notes.applyEach {α : Type} {category : Category} {insert : α → StoreM Inner Bool}
    {note : α → List Event} (h : ∀ entry, Notes (insert entry) (note entry))
    (entries : List α) (report : BootstrapReport) :
    Notes (applyEach category insert entries report) (entries.flatMap note) := by
  intro s value s' log hrun tracks
  refine foldlM_notes (R := fun s log => Tracks s.Relates log) ?_ hrun tracks
  intro acc entry s acc' s' log hround tracks
  obtain ⟨done, mid, hinsert, hcount⟩ := exec_bind_ok hround
  cases hcount
  exact h entry s done s' log hinsert tracks

theorem insertPolicyIfMissing_silent (policy : NewPolicy) :
    Notes (insertPolicyIfMissing policy : StoreM Inner Bool) [] := by
  refine .silent fun s => ?_
  change (if s.policies.contains policy.name then (.ok false, s)
    else andReturn (s.insertPolicy policy) true : StoreResult Bool × Inner).2.Relates = _
  split
  · rfl
  · exact s.insertPolicy_relates policy

theorem insertGroupIfMissing_silent (group : NewGroup) :
    Notes (insertGroupIfMissing group : StoreM Inner Bool) [] := by
  refine .silent fun s => ?_
  change (if s.groups.contains group.id then (.ok false, s)
    else andReturn (s.insertGroup group) true : StoreResult Bool × Inner).2.Relates = _
  split
  · rfl
  · exact s.insertGroup_relates group

theorem applyUser_silent (user : NewUser) : Notes (applyUser user : StoreM Inner Bool) [] := by
  change Notes _ ([] ++ [])
  refine .bind (.silent fun s => ?_) fun existing => ?_
  · rw [insertUserIfMissing_eq]
    split
    · rfl
    · exact s.insertUser_relates user
  · cases existing with
    | none => exact .silent fun _ => rfl
    | some existing =>
      dsimp only
      split
      · exact .silent fun _ => rfl
      · exact .silent fun _ => rfl

theorem applyCredential_silent (credential : NewCredential) :
    Notes (applyCredential credential : StoreM Inner Bool) [] := by
  change Notes _ ([] ++ [])
  refine .bind (.silent fun s => ?_) fun existing => ?_
  · rw [insertCredentialIfMissing_eq]
    split
    · rfl
    · exact s.insertCredential_relates credential
  · cases existing with
    | none => exact .silent fun _ => rfl
    | some existing =>
      dsimp only
      split
      · exact .silent fun _ => rfl
      · exact .silent fun _ => rfl

/-- `outcome?; Ok(value)` notes what a faithful operation logs. -/
theorem Notes.of_faithful {op : Inner → StoreResult α × Inner} {answer : Inner → Bool}
    {events : List Event} (h : ∀ s, Faithful s (op s) events) :
    Notes (fun s => andReturn (op s) (answer s) : StoreM Inner Bool) events := by
  intro s value s' log hrun tracks
  have hfaithful := h s log tracks
  change andReturn (op s) (answer s) = (.ok value, s') at hrun
  cases hop : op s with
  | mk result next =>
    rw [hop] at hfaithful hrun
    cases result with
    | ok a =>
      cases hrun
      exact hfaithful
    | error error => cases hrun

theorem applyPlan_notes (plan : BootstrapPlan) :
    Notes (applyPlan plan : StoreM Inner BootstrapReport) (eventsOf (.applyBootstrap plan)) := by
  have hsilent : ∀ {α : Type} (entries : List α), entries.flatMap (fun _ => ([] : List Event)) = [] :=
    fun entries => List.flatMap_eq_nil_iff.mpr fun _ _ => rfl
  have hevents : eventsOf (.applyBootstrap plan) =
      plan.policies.flatMap (fun _ => []) ++ (plan.groups.flatMap (fun _ => []) ++
        (plan.users.flatMap (fun _ => []) ++
        (plan.memberships.flatMap
          (fun (groupId, username) => [.added (.member groupId username)]) ++
        (plan.userPolicies.flatMap
          (fun (username, policy) => [.added (.userPolicy username policy)]) ++
        (plan.groupPolicies.flatMap
          (fun (groupId, policy) => [.added (.groupPolicy groupId policy)]) ++
        plan.credentials.flatMap (fun _ => [])))))) := by
    simp only [hsilent, List.nil_append, List.append_nil, List.append_assoc, eventsOf]
  rw [hevents]
  unfold applyPlan
  refine .bind (.applyEach insertPolicyIfMissing_silent _ _) fun _ => ?_
  refine .bind (.applyEach insertGroupIfMissing_silent _ _) fun _ => ?_
  refine .bind (.applyEach applyUser_silent _ _) fun _ => ?_
  refine .bind (.applyEach ?_ _ _) fun _ => ?_
  · exact fun (groupId, username) =>
      .of_faithful fun s => s.addMembership_faithful groupId username
  refine .bind (.applyEach ?_ _ _) fun _ => ?_
  · exact fun (username, policy) =>
      .of_faithful fun s => s.attachPolicyToUser_faithful username policy
  refine .bind (.applyEach ?_ _ _) fun _ => ?_
  · exact fun (groupId, policy) =>
      .of_faithful fun s => s.attachPolicyToGroup_faithful groupId policy
  exact .applyEach applyCredential_silent _ _

end Bootstrap

namespace Inner

theorem applyBootstrap_faithful (self : Inner) (plan : BootstrapPlan) :
    Faithful self (self.applyBootstrap plan) (eventsOf (.applyBootstrap plan)) := by
  intro log tracks
  have notes := applyPlan_notes plan self
  unfold applyBootstrap
  split
  · rename_i report inner h
    exact notes report inner log h tracks
  · exact Faithful.refused (α := BootstrapReport) self _ _ log tracks

theorem exec_faithful (self : Inner) (op : StoreOp) :
    Faithful self (exec op self) (eventsOf op) := by
  cases op with
  | addMembership groupId username => exact self.addMembership_faithful groupId username
  | removeMembership groupId username => exact self.removeMembership_faithful groupId username
  | attachPolicyToUser username policy =>
      exact self.attachPolicyToUser_faithful username policy
  | detachPolicyFromUser username policy =>
      exact self.detachPolicyFromUser_faithful username policy
  | attachPolicyToGroup groupId policy =>
      exact self.attachPolicyToGroup_faithful groupId policy
  | detachPolicyFromGroup groupId policy =>
      exact self.detachPolicyFromGroup_faithful groupId policy
  | deleteUser username => exact self.deleteUser_faithful username
  | deleteGroup groupId => exact self.deleteGroup_faithful groupId
  | deletePolicy name => exact self.deletePolicy_faithful name
  | applyBootstrap plan => exact self.applyBootstrap_faithful plan
  | createUser user => exact .silent (self.insertUser_relates user)
  | createGroup group => exact .silent (self.insertGroup_relates group)
  | createPolicy policy => exact .silent (self.insertPolicy_relates policy)
  | createCredential credential => exact .silent (self.insertCredential_relates credential)
  | setFriendlyName username name =>
    refine .silent ?_
    change (self.setFriendlyName username name).2.Relates = _
    unfold setFriendlyName
    split <;> rfl
  | updatePolicy policy =>
    refine .silent ?_
    change (self.updatePolicy policy).2.Relates = _
    unfold updatePolicy
    split <;> rfl
  | deleteCredential username key =>
    refine .silent ?_
    change (self.deleteCredential username key).2.Relates = _
    unfold deleteCredential
    split <;> rfl
  | createExternalPrincipal username principalId =>
    refine .silent ?_
    change (self.createExternalPrincipal username principalId).2.Relates = _
    unfold createExternalPrincipal
    split
    · rfl
    · split <;> rfl
  | deleteExternalPrincipal username principalId =>
    refine .silent ?_
    change (self.deleteExternalPrincipal username principalId).2.Relates = _
    unfold deleteExternalPrincipal
    split <;> rfl
  | claimTokenId tokenId expiresAt =>
    refine .silent ?_
    change (self.claimTokenId tokenId expiresAt).2.Relates = _
    unfold claimTokenId
    split <;> rfl
  | deleteExpiredTokenIds _ | getUser _ | findUserById _ | findUserByEmail _
  | findUserByExternalId _ | listUsers _ | getGroup _ | listGroups _ | getPolicy _
  | listPolicies _ | listGroupMembers _ _ | listUserGroups _ _ | listUserPolicies _ _
  | listEffectiveUserPolicies _ _ | listGroupPolicies _ _ | getCredential _
  | getUserCredential _ _ | listUserCredentials _ _ | getExternalPrincipal _
  | listUserExternalPrincipals _ _ | ping =>
      exact .silent rfl

/-- Along any run the relations are what its history says. -/
theorem after_tracks (s : Inner) (ops : List StoreOp) (log : List Event)
    (tracks : Tracks s.Relates log) : Tracks (s.after ops).Relates (log ++ history s ops) := by
  induction ops generalizing s log with
  | nil =>
    rw [history, List.append_nil]
    exact tracks
  | cons op ops ih =>
    rw [history, ← List.append_assoc]
    exact ih _ _ (s.exec_faithful op log tracks)

theorem new_tracks : Tracks new.Relates ([] : List Event) := by
  intro fact
  refine iff_of_false ?_ (not_live_nil fact)
  cases fact <;> simp [Relates, new]

theorem history_tracks (ops : List StoreOp) :
    Tracks (new.after ops).Relates (history new ops) :=
  new.after_tracks ops [] new_tracks

end Inner

/-- The history grants a policy: directly, or through some group. -/
def Granted (log : List Event) (username policy : String) : Prop :=
  Live log (Fact.userPolicy username policy) ∨
    ∃ groupId, Live log (Fact.member groupId username) ∧
      Live log (Fact.groupPolicy groupId policy)

/-- The effective listing of a user is what the history of the store grants. -/
theorem effective_policies_follow_history (ops : List StoreOp) (username : String)
    (present : ∃ user, (Inner.new.after ops).users[username]? = some user) :
    (∃ pages, FullWalk (.effectiveUserPolicies username) "" (Inner.new.after ops) pages) ∧
    ∀ pages, FullWalk (.effectiveUserPolicies username) "" (Inner.new.after ops) pages →
      (pages.flatMap PageRead.keys).Pairwise (· < ·) ∧
      ∀ policy, policy ≠ "" →
        (policy ∈ pages.flatMap PageRead.keys ↔
          Granted (history Inner.new ops) username policy) ∧
        (policy ∈ pages.flatMap PageRead.keys →
          (pages.flatMap PageRead.keys).count policy = 1) := by
  have ok := Inner.after_wellFormed ops
  have tracks := Inner.history_tracks ops
  refine ⟨FullWalk.exists_of_owner ok present 1000 (by decide) (by decide), ?_⟩
  intro pages full
  have hsorted := full.sorted ok
  refine ⟨hsorted, fun policy hne => ⟨?_, fun hmem => ?_⟩⟩
  · have hall : Core.Text.startsWith policy "" = true := rfl
    rw [full.mem_iff ok policy]
    simp only [hall, hne, ne_eq, not_false_eq_true, and_true, Listing.Holds, Granted]
    exact or_congr (tracks (.userPolicy username policy)) (exists_congr fun groupId =>
      and_congr (tracks (.member groupId username)) (tracks (.groupPolicy groupId policy)))
  · exact List.count_eq_one_of_mem (hsorted.imp fun h => h.ne) hmem

/-- Through a group; the direct attachment is gone with its first policy. -/
theorem effective_policies_follow_history_regrant :
    ∃ pages, FullWalk (.effectiveUserPolicies "u") "" (Inner.new.after
        [.createUser (.named "u"), .createGroup ⟨"g", none, ⟨0⟩⟩,
          .createPolicy ⟨"p", ⟨0⟩, [], none⟩, .createPolicy ⟨"q", ⟨0⟩, [], none⟩,
          .attachPolicyToUser "u" "p", .deletePolicy "p", .createPolicy ⟨"p", ⟨0⟩, [], none⟩,
          .addMembership "g" "u", .attachPolicyToGroup "g" "q"]) pages ∧
      (pages.flatMap PageRead.keys).count "q" = 1 := by
  obtain ⟨⟨pages, full⟩, hfull⟩ := effective_policies_follow_history
    [.createUser (.named "u"), .createGroup ⟨"g", none, ⟨0⟩⟩,
      .createPolicy ⟨"p", ⟨0⟩, [], none⟩, .createPolicy ⟨"q", ⟨0⟩, [], none⟩,
      .attachPolicyToUser "u" "p", .deletePolicy "p", .createPolicy ⟨"p", ⟨0⟩, [], none⟩,
      .addMembership "g" "u", .attachPolicyToGroup "g" "q"] "u" ⟨_, rfl⟩
  have facts := (hfull pages full).2 "q" (by decide)
  refine ⟨pages, full, facts.2 (facts.1.mpr (.inr ⟨"g", ?_, ?_⟩))⟩
  · exact ⟨[.added (.userPolicy "u" "p"), .policyDeleted "p"], [.added (.groupPolicy "g" "q")],
      by decide, by simp [Events.Ends, Event.ends]⟩
  · exact ⟨[.added (.userPolicy "u" "p"), .policyDeleted "p", .added (.member "g" "u")], [],
      by decide, by simp⟩

/-- A policy with an empty name never lies beyond a cursor: its attachment is
live, and no page shows it. -/
theorem empty_policy_name_not_listed :
    ∃ pages, FullWalk (.effectiveUserPolicies "u") "" (Inner.new.after
        [.createUser (.named "u"), .createPolicy ⟨"", ⟨0⟩, [], none⟩,
          .attachPolicyToUser "u" ""]) pages ∧
      Granted (history Inner.new [.createUser (.named "u"), .createPolicy ⟨"", ⟨0⟩, [], none⟩,
          .attachPolicyToUser "u" ""]) "u" "" ∧
      "" ∉ pages.flatMap PageRead.keys := by
  refine ⟨_, ⟨.last _ [] ⟨"", "", 1000, by decide, by decide⟩ _ rfl rfl rfl, by simp⟩, ?_, ?_⟩
  · exact .inl ⟨[], [], by decide, by simp⟩
  · decide

end LakeFsAuth.Authz.Store.Mem
