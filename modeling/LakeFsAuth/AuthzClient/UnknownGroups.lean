import LakeFsAuth.Authz.Creates
import LakeFsAuth.AuthzClient.FirstLogins

/-! A login that names groups lakeFS does not know. -/
namespace LakeFsAuth.AuthzClient.UnknownGroups
open Core.Error Core.Model Core.Validate Authz Authz.Store Authz.Store.Mem Authz.Api
open Authz.Handlers FirstLogins Library Library.Program Library.OrderedMap

def login (maxRetries : Nat) (spec : EnsureUserSpec) (date : Timestamp) (s : Inner) :
    Except ClientError EnsuredUser × Inner :=
  (createUserWithGroups maxRetries spec).run (answering memStore date) s

/-- The login made its user, a member of exactly the named groups that there are. -/
structure LetsIn (spec : EnsureUserSpec) (s : Inner)
    (outcome : Except ClientError EnsuredUser × Inner) : Prop where
  created : ∃ row, outcome.1 = .ok ⟨Service.userToWire row, true⟩ ∧
    outcome.2.users[spec.username]? = some row
  memberships : ∀ group, (group, spec.username) ∈ outcome.2.groupMembers ↔
    group ∈ spec.groups ∧ ∃ row, s.groups[group]? = some row

/-- The store after a user has asked to join some groups. -/
def joinAll (username : String) (groups : List String) (s : Inner) : Inner :=
  groups.foldl (fun s group => (s.addMembership group username).2) s

section Joins
variable {username : String} {s : Inner}

/-- A membership of a user that is there, in a group that may not be. -/
theorem addMembership_present (group : String) (present : s.users.contains username = true) :
    s.addMembership group username =
      if s.groups.contains group then
        (.ok (), { s with groupMembers := s.groupMembers.insert (group, username) })
      else (.error (.notFound "group" group), s) := by
  unfold Inner.addMembership Inner.requireGroup Inner.requireUser Mem.require
  rw [present]
  cases s.groups.contains group <;> rfl

structure JoinedAll (username : String) (groups : List String) (s s' : Inner) : Prop where
  sameUsers : s'.users = s.users
  sameGroups : s'.groups = s.groups
  members : ∀ entry, entry ∈ s'.groupMembers ↔ entry ∈ s.groupMembers ∨
    (entry.1 ∈ groups ∧ s.groups.contains entry.1 = true ∧ entry.2 = username)

theorem addMembership_joined (group : String) (present : s.users.contains username = true) :
    JoinedAll username [group] s (s.addMembership group username).2 := by
  rw [addMembership_present group present]
  split
  · rename_i known
    refine ⟨rfl, rfl, fun entry => ?_⟩
    have hentry : entry = (group, username) ↔
        entry.1 ∈ [group] ∧ s.groups.contains entry.1 = true ∧ entry.2 = username := by
      rw [List.mem_singleton, Prod.ext_iff]
      constructor
      · rintro ⟨hgroup, hname⟩
        exact ⟨hgroup, hgroup ▸ known, hname⟩
      · rintro ⟨hgroup, _, hname⟩
        exact ⟨hgroup, hname⟩
    rw [← hentry, Std.ExtTreeSet.mem_insert, Std.LawfulEqCmp.compare_eq_iff_eq, or_comm, eq_comm]
  · rename_i unknown
    refine ⟨rfl, rfl, fun entry => ?_⟩
    have hno : ¬ (entry.1 ∈ [group] ∧ s.groups.contains entry.1 = true ∧ entry.2 = username) := by
      rintro ⟨hgroup, known, _⟩
      rw [List.mem_singleton.mp hgroup] at known
      exact unknown known
    exact (or_iff_left hno).symm

theorem joinAll_joined (groups : List String) (present : s.users.contains username = true) :
    JoinedAll username groups s (joinAll username groups s) := by
  induction groups generalizing s with
  | nil => exact ⟨rfl, rfl, by simp [joinAll]⟩
  | cons group groups ih =>
    have first := addMembership_joined group present
    have rest := ih (s := (s.addMembership group username).2) (by rw [first.sameUsers, present])
    refine ⟨rest.sameUsers.trans first.sameUsers, rest.sameGroups.trans first.sameGroups, fun entry => ?_⟩
    change entry ∈ (joinAll username groups _).groupMembers ↔ _
    rw [rest.members, first.members, first.sameGroups, List.mem_singleton, List.mem_cons]
    tauto

end Joins

section Runs
variable (maxRetries : Nat) {date : Timestamp} {username : String} {s : Inner}

/-- A name lakeFS could know joins its group, or is answered with a 404. -/
theorem addGroupMembership_run {group : String} (known : ValidId group) (valid : ValidId username)
    (present : s.users.contains username = true) :
    (addGroupMembership maxRetries group username).run (answering memStore date) s =
      (if s.groups.contains group then .ok () else .error .NotFound,
        (s.addMembership group username).2) := by
  unfold addGroupMembership
  rw [segment_valid known, segment_valid valid]
  have handled : (answer (.addMembership group username)).run (answering memStore date) s =
      ((s.addMembership group username).1.mapError StoreError.toApiError,
        (s.addMembership group username).2) := rfl
  rw [addMembership_present group present] at handled ⊢
  cases hgroup : s.groups.contains group with
  | true =>
    rw [hgroup] at handled
    have sent := send_run_answered (answering memStore date) (.addMembership group username) s rfl handled
      rfl maxRetries
    change run _ (sendWithRetry _ _ >>= _) s = _
    rw [run_bind, sent]
    rfl
  | false =>
    rw [hgroup] at handled
    have sent := send_run_answered (answering memStore date) (.addMembership group username) s rfl handled
      rfl maxRetries
    change run _ (sendWithRetry _ _ >>= _) s = _
    rw [run_bind, sent]
    rfl

theorem joinGroups_run (user : User) {groups : List String}
    (known : ∀ group ∈ groups, ValidId group) (valid : ValidId user.username)
    (present : s.users.contains user.username = true) :
    (joinGroups maxRetries user groups).run (answering memStore date) s =
      (.ok ⟨user, true⟩, joinAll user.username groups s) := by
  induction groups generalizing s with
  | nil => rfl
  | cons group groups ih =>
    have next := ih (s := (s.addMembership group user.username).2)
      (fun other h => known other (List.mem_cons_of_mem _ h))
      (by rw [(addMembership_joined group present).sameUsers, present])
    unfold joinGroups
    rw [run_bind, addGroupMembership_run maxRetries (known group List.mem_cons_self) valid present]
    cases s.groups.contains group <;> exact next

/-- A name lakeFS cannot know ends the login. -/
theorem joinGroups_refused (user : User) {groups : List String}
    (unknown : ∃ group ∈ groups, ¬ ValidId group) (valid : ValidId user.username)
    (present : s.users.contains user.username = true) :
    ∃ error, ((joinGroups maxRetries user groups).run (answering memStore date) s).1 = .error error := by
  induction groups generalizing s with
  | nil => simp at unknown
  | cons group groups ih =>
    unfold joinGroups
    rw [run_bind]
    by_cases known : ValidId group
    · have rest : ∃ group ∈ groups, ¬ ValidId group := by
        obtain ⟨other, hother, invalid⟩ := unknown
        rcases List.mem_cons.mp hother with rfl | hother
        · exact absurd known invalid
        · exact ⟨other, hother, invalid⟩
      have next := ih (s := (s.addMembership group user.username).2) rest
        (by rw [(addMembership_joined group present).sameUsers, present])
      rw [addGroupMembership_run maxRetries known valid present]
      cases s.groups.contains group <;> exact next
    · obtain ⟨message, hsegment⟩ := segment_invalid known
      have refused : addGroupMembership maxRetries group user.username =
          .done (.error (.InvalidId message)) := by
        unfold addGroupMembership
        rw [hsegment]
        rfl
      refine ⟨.InvalidId message, ?_⟩
      rw [refused]
      change (run _ (rollBackCreate maxRetries user.username >>= _) s).1 = _
      rw [run_bind]
      rfl

/-- A create of a free identity is stored. -/
theorem createUser_run {spec : EnsureUserSpec} (valid : ValidId spec.username)
    (free : s.UserFree (requested spec spec.email date)) :
    (createUser maxRetries (spec.creation spec.email)).run (answering memStore date) s =
      (.ok (Service.userToWire
          (Inner.newRecord (requested spec spec.email date) (s.nextUserId + 1))),
        s.withUser (requested spec spec.email date)) := by
  have new := (Creates.createUser_neverOverwrites (requestedUser_creation valid spec.email date)
    nofun s).new_iff.mpr free
  have sent := send_run_answered (answering memStore date) (.createUser (spec.creation spec.email)) s rfl
    new.2.1 rfl maxRetries
  unfold createUser
  rw [run_bind, sent]
  rfl

end Runs

/-- From every reachable store, on which the username, the email and the external id of a login
are free: it is let in, as a member of exactly the named groups that there are, if and only if
every group it names has a name lakeFS could know. -/
theorem login_lets_in_iff (ops : List StoreOp) (maxRetries : Nat) (spec : EnsureUserSpec)
    (date : Timestamp) (valid : validateEntityId "user" spec.username = .ok ())
    (free : (Inner.new.after ops).UserFree (requested spec spec.email date)) :
    LetsIn spec (Inner.new.after ops) (login maxRetries spec date (Inner.new.after ops)) ↔
      ∀ group ∈ spec.groups, validateEntityId "group" group = .ok () := by
  have ok := Inner.after_wellFormed ops
  generalize Inner.new.after ops = s at ok free
  have name := (validateEntityId_ok_iff "user" spec.username).mp valid
  let row := Inner.newRecord (requested spec spec.email date) (s.nextUserId + 1)
  have stored : (s.withUser (requested spec spec.email date)).users[spec.username]? = some row := by
    rw [Inner.withUser, get_insert]
    exact if_pos rfl
  have present : (s.withUser (requested spec spec.email date)).users.contains spec.username = true :=
    (contains_iff _ _).mpr ⟨row, stored⟩
  have hlogin : login maxRetries spec date s =
      (joinGroups maxRetries (Service.userToWire row) spec.groups).run (answering memStore date)
        (s.withUser (requested spec spec.email date)) := by
    unfold login createUserWithGroups
    rw [run_bind, createUser_run maxRetries name free]
  rw [hlogin]
  simp only [validateEntityId_ok_iff]
  constructor
  · intro lets
    by_contra hunknown
    have unknown : ∃ group ∈ spec.groups, ¬ ValidId group := by
      by_contra hnone
      exact hunknown fun group hgroup => by_contra fun invalid => hnone ⟨group, hgroup, invalid⟩
    obtain ⟨error, herror⟩ := joinGroups_refused maxRetries (Service.userToWire row) unknown name
      present
    obtain ⟨_, hcreated, _⟩ := lets.created
    rw [herror] at hcreated
    cases hcreated
  · intro known
    rw [joinGroups_run maxRetries (Service.userToWire row) known name present]
    have joined := joinAll_joined spec.groups present
    refine ⟨⟨row, rfl, (congrArg (·[spec.username]?) joined.sameUsers).trans stored⟩, fun group => ?_⟩
    have hnew : (group, spec.username) ∉ s.groupMembers := by
      intro hmem
      obtain ⟨user, huser⟩ := ok.memberUser _ _ hmem
      have hfree := free.username
      change s.users[spec.username]? = none at hfree
      rw [huser] at hfree
      cases hfree
    change (group, spec.username) ∈ (joinAll spec.username spec.groups _).groupMembers ↔ _
    rw [joined.members]
    change (group, spec.username) ∈ s.groupMembers ∨
      (group ∈ spec.groups ∧ s.groups.contains group = true ∧ spec.username = spec.username) ↔ _
    rw [or_iff_right hnew, and_iff_left rfl, contains_iff]

/-- A first login of `ada` that names these groups. -/
def naming (groups : List String) : EnsureUserSpec :=
  ⟨"sub-1", "ada", none, none, "oidc", groups⟩

theorem naming_free (groups : List String) {s : Inner} (nobody : s.users = ∅) :
    s.UserFree (requested (naming groups) (naming groups).email ⟨0⟩) where
  username := by
    rw [nobody]
    rfl
  email _ h := by cases h
  externalId _ _ k row h := by
    rw [nobody] at h
    simp at h

/-- One of two groups is there; the login joins that one. -/
theorem login_lets_in_iff_viewers :
    LetsIn (naming ["developers", "viewers"])
      (Inner.new.after [.createGroup ⟨"developers", none, ⟨0⟩⟩])
      (login 2 (naming ["developers", "viewers"]) ⟨0⟩
        (Inner.new.after [.createGroup ⟨"developers", none, ⟨0⟩⟩])) := by
  refine (login_lets_in_iff [.createGroup ⟨"developers", none, ⟨0⟩⟩] 2
    (naming ["developers", "viewers"]) ⟨0⟩ (by decide) (naming_free _ rfl)).mpr ?_
  decide

/-- A group path of the identity provider: the login is refused, and its user deleted again. -/
theorem group_path_refuses_login :
    validateEntityId "user" (naming ["/admins"]).username = .ok () ∧
    (Inner.new.after []).UserFree (requested (naming ["/admins"]) (naming ["/admins"]).email ⟨0⟩) ∧
    (login 2 (naming ["/admins"]) ⟨0⟩ (Inner.new.after [])).1 =
      .error (.InvalidId "entity id must not contain '/'") ∧
    (login 2 (naming ["/admins"]) ⟨0⟩ (Inner.new.after [])).2.users["ada"]? = none ∧
    ¬ LetsIn (naming ["/admins"]) (Inner.new.after [])
      (login 2 (naming ["/admins"]) ⟨0⟩ (Inner.new.after [])) := by
  have refused : (login 2 (naming ["/admins"]) ⟨0⟩ (Inner.new.after [])).1 =
      .error (.InvalidId "entity id must not contain '/'") := by rfl
  refine ⟨by decide, naming_free _ rfl, refused, by rfl, fun lets => ?_⟩
  obtain ⟨_, hcreated, _⟩ := lets.created
  rw [refused] at hcreated
  cases hcreated

end LakeFsAuth.AuthzClient.UnknownGroups
