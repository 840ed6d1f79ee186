import LakeFsAuth.AuthzClient.Faults

/-! A create with its groups is all or nothing under faults, unless the answer to the
attempt that inserted the row is lost. -/
namespace LakeFsAuth.AuthzClient
open Core.Error Core.Model Core.Text Core.Validate Authz Authz.Store Authz.Api Authz.Handlers
open Library Library.Program Library.OrderedMap Mem

/-- If the rollback is tried, one of its attempts reaches the server. -/
def RollbackReaches (log : List (Entry Call.Reply)) : Prop :=
  deleteFaults log ≠ [] → ∃ fault ∈ deleteFaults log, fault.committed = true

/-- What the caller of a create is promised: a failed one leaves no row it inserted,
and a created user is there, with the external id and all groups that exist. -/
structure AllOrNothing (spec : EnsureUserSpec) (log : List (Entry Call.Reply)) (s : Inner)
    (result : Except ClientError EnsuredUser) : Prop where
  failed : ∀ error, result = .error error → ∀ row ∈ inserts log,
    ∀ (k : String) (stored : UserRecord), s.users[k]? = some stored →
      stored.userId ≠ row.userId
  created : ∀ user, result = .ok ⟨user, true⟩ → ∃ row : UserRecord,
    s.users[spec.username]? = some row ∧ user = Service.userToWire row ∧
    (∀ e, nonBlank spec.externalId = some e → row.externalId = some e) ∧
    ∀ group ∈ spec.groups, s.groups.contains group = true →
      (group, spec.username) ∈ s.groupMembers

-- The rules below judge these programs by name; nothing is gained by running them.
section Judged
attribute [local irreducible] findUser emailHolder createUser addGroupMembership joinGroups
  rollBackCreate resolveConflict

section Lookups
variable {log : List (Entry Call.Reply)} {s : Inner}

theorem read_clean {op : StoreOp} {f : op.Reply → α} (clean : Clean log s)
    (reads : ∀ s, (memStore.exec op s).2 = s)
    (h : ∀ reply, insertedRow ⟨.store op, reply⟩ = none) :
    Goes (store op >>= fun reply => pure (f reply)) (fun log s _ => Clean log s) log s := by
  refine Meets.perform_bind trivial fun reply s' exec => ?_
  obtain ⟨_, hnext⟩ := exec_eq exec
  rw [reads] at hnext
  subst hnext
  exact .answer (clean.step _ clean.ok (h reply) rfl)

theorem listUsers_goes (query : ListUsersQuery) (clean : Clean log s) :
    Goes (listUsers query) (fun log s _ => Clean log s) log s := by
  unfold listUsers
  split
  · split
    · exact clean
    · exact read_clean clean (fun _ => rfl) fun _ => rfl
  · exact read_clean clean (fun _ => rfl) fun _ => rfl
  · exact read_clean clean (fun _ => rfl) fun _ => rfl
  · exact read_clean clean (fun _ => rfl) fun _ => rfl

theorem lookup_goes (query : ListUsersQuery) (maxRetries : Nat) (clean : Clean log s) :
    Goes (sendWithRetry (.listUsers query) maxRetries) (fun log s _ => Clean log s) log s := by
  refine sendWithRetry_meets Clean ?_ maxRetries clean
  intro log s clean
  refine attempt_meets trivial ?_ ?_
  · rintro fault s' rfl _
    have clean' := clean.step ⟨.attempt (.listUsers query), fault⟩ clean.ok rfl rfl
    exact handle_meets ((listUsers_goes query clean').mono fun _ _ _ h => ⟨fun _ => h, h⟩)
  · rintro fault s' rfl _
    have clean' := clean.step ⟨.attempt (.listUsers query), fault⟩ clean.ok rfl rfl
    exact ⟨fun _ => clean', clean'⟩

theorem findUser_goes (maxRetries : Nat) (value : String) (query : ListUsersQuery)
    (clean : Clean log s) :
    Goes (findUser maxRetries value query) (fun log s _ => Clean log s) log s := by
  unfold findUser
  split
  · exact clean
  · refine (lookup_goes query maxRetries clean).bind fun log s result clean => ?_
    cases result with
    | error error => exact clean
    | ok response =>
      dsimp only
      split
      · exact clean
      · split <;> exact clean

theorem emailHolder_goes (maxRetries : Nat) (spec : EnsureUserSpec) (clean : Clean log s) :
    Goes (emailHolder maxRetries spec) (fun log s _ => Clean log s) log s := by
  unfold emailHolder
  split
  · exact clean
  · rename_i email _
    have find : Goes (findUserByEmail maxRetries email) (fun log s _ => Clean log s) log s :=
      findUser_goes maxRetries email ⟨lookupPage, none, some email, none⟩ clean
    refine find.bind fun log s result clean => ?_
    cases result <;> exact clean

end Lookups

/-- The user is a member of the group, if there is such a group. -/
def Joined (s : Inner) (username groupId : String) : Prop :=
  s.groups.contains groupId = true → (groupId, username) ∈ s.groupMembers

theorem addMembership_joins (s : Inner) (groupId : String) {username : String}
    {row : UserRecord} (stored : s.users[username]? = some row) :
    (s.addMembership groupId username).2.users = s.users ∧
    Joined (s.addMembership groupId username).2 username groupId ∧
    ∀ other, Joined s username other → Joined (s.addMembership groupId username).2 username other := by
  unfold Inner.addMembership
  split
  · rename_i error hgroup
    refine ⟨rfl, fun hcontains => ?_, fun _ h => h⟩
    rw [Inner.requireGroup, require, if_pos hcontains] at hgroup
    cases hgroup
  · rename_i error _ huser
    rw [Inner.requireUser, require, if_pos ((contains_iff _ _).mpr ⟨row, stored⟩)] at huser
    cases huser
  · refine ⟨rfl, fun _ => (mem_insert _ _ _).mpr (.inl rfl), fun other h hcontains => ?_⟩
    exact (mem_insert _ _ _).mpr (.inr (h hcontains))

/-- The user is there, and in these groups. -/
structure Joining (spec : EnsureUserSpec) (row : UserRecord) (groups : List String)
    (log : List (Entry Call.Reply)) (s : Inner) : Prop where
  held : Held spec row log s
  notLost : ¬ LostInsert log
  quiet : deleteFaults log = []
  joined : ∀ group ∈ groups, Joined s spec.username group

/-- What a create takes for a membership that is there, or for a missing group. -/
def Accepted (result : Except ClientError Unit) : Prop :=
  result = .ok () ∨ result = .error .AlreadyExists ∨ result = .error .NotFound

def membershipResult (outcome : Except ClientError (Response Unit)) : Except ClientError Unit :=
  outcome >>= fun response => (expectStatus response 201).map fun _ => ()

section Join
variable {spec : EnsureUserSpec} {row : UserRecord} {groups : List String}
  {log : List (Entry Call.Reply)} {s : Inner}

theorem Joining.step (joining : Joining spec row groups log s) (entry : Entry Call.Reply)
    (h : insertedRow entry = none) (h' : deleteFault entry = none) :
    Joining spec row groups (log ++ [entry]) s where
  held := joining.held.step entry joining.held.ok joining.held.stored h
  notLost := (lostInsert_snoc_none h).not.mpr joining.notLost
  quiet := (deleteFaults_snoc_none h').trans joining.quiet
  joined := joining.joined

theorem refusal_not_accepted (fault : Fault) :
    ¬ Accepted (membershipResult ((fault.refusal).mapError .Transport)) := by
  cases fault with
  | answered | unreachable | garbled | lost committed loss =>
    rintro (h | h | h) <;> cases h
  | failed committed status =>
    have hread : membershipResult ((Fault.failed committed status).refusal.mapError .Transport) =
        .error (.Status status.code "") := by
      change (expectStatus ⟨status.code, .broken⟩ 201).map _ = _
      rw [expectStatus_failed status _ (by decide)]
      rfl
    rw [hread]
    rintro (h | h | h) <;> cases h

theorem addGroupMembership_goes (maxRetries : Nat) (group : String)
    (joining : Joining spec row groups log s) :
    Goes (addGroupMembership maxRetries group spec.username)
      (fun log s result => Joining spec row groups log s ∧
        (Accepted result → Joined s spec.username group)) log s := by
  unfold addGroupMembership
  split
  · rename_i error hsegment
    obtain ⟨message, rfl⟩ := segment_error hsegment
    exact ⟨joining, by rintro (h | h | h) <;> cases h⟩
  · rename_i error _ hsegment
    obtain ⟨message, rfl⟩ := segment_error hsegment
    exact ⟨joining, by rintro (h | h | h) <;> cases h⟩
  · rename_i path username hpath husername
    rw [segment_ok hpath, segment_ok husername]
    have send : Goes (sendWithRetry (.addMembership group spec.username) maxRetries)
        (fun log s outcome => Joining spec row groups log s ∧
          (Accepted (membershipResult outcome) → Joined s spec.username group)) log s := by
      refine sendWithRetry_meets (Joining spec row groups) ?_ maxRetries joining
      intro log s joining
      refine attempt_meets trivial ?_ ?_
      · rintro fault s' rfl _
        have joining' := joining.step
          ⟨.attempt (.addMembership group spec.username), fault⟩ rfl rfl
        refine handle_meets ?_
        change Goes (Handlers.addMembership group spec.username) _ _ _
        unfold Handlers.addMembership
        refine Meets.perform_bind trivial fun reply s'' exec => ?_
        obtain ⟨_, rfl⟩ := exec_eq exec
        obtain ⟨husers, hjoined, hothers⟩ := addMembership_joins s' group joining.held.stored
        have joining'' : Joining spec row groups _ (s'.addMembership group spec.username).2 :=
          ⟨joining'.held.step ⟨.store (.addMembership group spec.username), reply⟩
            ((Inner.exec_changes s' (.addMembership group spec.username)).wellFormed
              joining.held.ok) (husers ▸ joining.held.stored) rfl,
            (lostInsert_snoc_none rfl).not.mpr joining'.notLost,
            (deleteFaults_snoc_none rfl).trans joining'.quiet,
            fun other h => hothers other (joining.joined other h)⟩
        exact ⟨fun _ => joining'', joining'', fun _ => hjoined⟩
      · rintro fault s' rfl _
        have joining' := joining.step
          ⟨.attempt (.addMembership group spec.username), fault⟩ rfl rfl
        exact ⟨fun _ => joining', joining', fun h => absurd h (refusal_not_accepted fault)⟩
    refine send.bind fun log s outcome h => ?_
    cases outcome <;> exact h

end Join

/-- The row is gone, whatever name it had. -/
def Gone (row : UserRecord) (s : Inner) : Prop :=
  ∀ (k : String) (stored : UserRecord), s.users[k]? = some stored → stored.userId ≠ row.userId

theorem deleteUser_gone {s : Inner} {username : String} {row : UserRecord} (ok : WellFormed s)
    (stored : s.users[username]? = some row) : Gone row (s.deleteUser username).2 := by
  intro k other hother heq
  rw [Inner.deleteUser, if_pos ((contains_iff _ _).mpr ⟨row, stored⟩)] at hother
  obtain ⟨hne, hkept⟩ := get_of_erase hother
  exact hne (ok.users.id _ _ _ _ stored hkept heq.symm)

theorem Gone.deleteUser {s : Inner} {row : UserRecord} (gone : Gone row s) (username : String) :
    Gone row (s.deleteUser username).2 := by
  intro k other hother
  unfold Inner.deleteUser at hother
  split at hother
  · exact gone k other (get_of_erase hother).2
  · exact gone k other hother

/-- A rollback under way: the row is gone, or no delete has reached the server yet. -/
structure Falling (spec : EnsureUserSpec) (row : UserRecord) (log : List (Entry Call.Reply))
    (s : Inner) : Prop where
  notLost : ¬ LostInsert log
  inserted : ∀ r ∈ inserts log, r = row
  now : Gone row s ∨ (WellFormed s ∧ s.users[spec.username]? = some row ∧
    ∀ fault ∈ deleteFaults log, fault.committed = false)

/-- A rollback that is over. -/
structure RolledBack (row : UserRecord) (log : List (Entry Call.Reply)) (s : Inner) : Prop where
  notLost : ¬ LostInsert log
  inserted : ∀ r ∈ inserts log, r = row
  gone : RollbackReaches log → Gone row s

section Rollback
variable {spec : EnsureUserSpec} {row : UserRecord} {groups : List String}
  {log : List (Entry Call.Reply)} {s : Inner}

theorem deleteFaults_attempt (username : String) (fault : Fault) :
    deleteFaults (log ++ [⟨.attempt (.deleteUser username), fault⟩]) =
      deleteFaults log ++ [fault] := by
  simp [deleteFault]

theorem Falling.over (falling : Falling spec row log s) (tried : deleteFaults log ≠ []) :
    RolledBack row log s where
  notLost := falling.notLost
  inserted := falling.inserted
  gone := by
    intro reaches
    rcases falling.now with gone | ⟨_, _, unreached⟩
    · exact gone
    · obtain ⟨fault, hfault, committed⟩ := reaches tried
      rw [unreached fault hfault] at committed
      cases committed

theorem deleteUser_falls (fault : Fault) (falling : Falling spec row log s)
    (reply : StoreResult Unit) :
    Falling spec row (log ++ [⟨.attempt (.deleteUser spec.username), fault⟩] ++
      [⟨.store (.deleteUser spec.username), reply⟩]) (s.deleteUser spec.username).2 where
  notLost := by
    rw [lostInsert_snoc_none rfl, lostInsert_snoc_none rfl]
    exact falling.notLost
  inserted := by
    rw [inserts_snoc_none rfl, inserts_snoc_none rfl]
    exact falling.inserted
  now := by
    rcases falling.now with gone | ⟨ok, stored, _⟩
    · exact .inl (gone.deleteUser spec.username)
    · exact .inl (deleteUser_gone ok stored)

theorem dropped_falls {fault : Fault} (falling : Falling spec row log s)
    (dropped : fault.committed = false) :
    Falling spec row (log ++ [⟨.attempt (.deleteUser spec.username), fault⟩]) s where
  notLost := (lostInsert_snoc_none rfl).not.mpr falling.notLost
  inserted := by
    rw [inserts_snoc_none rfl]
    exact falling.inserted
  now := by
    refine falling.now.imp id fun ⟨ok, stored, unreached⟩ => ⟨ok, stored, ?_⟩
    intro other hother
    rw [deleteFaults_attempt] at hother
    rcases List.mem_append.mp hother with hbefore | hlast
    · exact unreached other hbefore
    · rw [List.mem_singleton.mp hlast]
      exact dropped

theorem rollBackCreate_goes (maxRetries : Nat) (joining : Joining spec row groups log s) :
    Goes (rollBackCreate maxRetries spec.username) (fun log s _ => RolledBack row log s) log s := by
  unfold rollBackCreate deleteUser
  have hsegment : segment spec.username = .ok spec.username := by
    unfold segment
    rw [(validateEntityId_ok_iff "entity" _).mpr
      ((validateEntityId_ok_iff "user" _).mp joining.held.valid)]
  rw [hsegment]
  have start : Falling spec row log s := ⟨joining.notLost, joining.held.inserted,
    .inr ⟨joining.held.ok, joining.held.stored, by simp [joining.quiet]⟩⟩
  have send : Goes (sendWithRetry (.deleteUser spec.username) maxRetries)
      (fun log s _ => RolledBack row log s) log s := by
    refine sendWithRetry_meets (Falling spec row) ?_ maxRetries start
    intro log s falling
    refine attempt_meets trivial ?_ ?_
    · rintro fault s' rfl _
      refine handle_meets ?_
      change Goes (Handlers.deleteUser spec.username) _ _ _
      unfold Handlers.deleteUser
      refine Meets.perform_bind trivial fun reply s'' exec => ?_
      obtain ⟨_, rfl⟩ := exec_eq exec
      have falling' := deleteUser_falls fault falling reply
      refine ⟨fun _ => falling', falling'.over ?_⟩
      rw [deleteFaults_snoc_none rfl, deleteFaults_attempt]
      simp
    · rintro fault s' rfl dropped
      have falling' := dropped_falls falling dropped
      refine ⟨fun _ => falling', falling'.over ?_⟩
      rw [deleteFaults_attempt]
      simp
  refine Meets.bind (send.bind fun log s outcome h => ?_) fun log s _ h => h
  cases outcome <;> exact h

end Rollback

/-- How a create with its groups ends once its user is there. -/
def Finished (spec : EnsureUserSpec) (row : UserRecord) (groups : List String)
    (log : List (Entry Call.Reply)) (s : Inner) (result : Except ClientError EnsuredUser) :
    Prop :=
  (result = .ok ⟨Service.userToWire row, true⟩ ∧ Joining spec row groups log s) ∨
  (∃ error, result = .error error ∧ RolledBack row log s)

theorem joinGroups_goes {spec : EnsureUserSpec} {row : UserRecord} {done : List String}
    {log : List (Entry Call.Reply)} {s : Inner} (maxRetries : Nat) (groups : List String)
    (joining : Joining spec row done log s) :
    Goes (joinGroups maxRetries (Service.userToWire row) groups)
      (Finished spec row (done ++ groups)) log s := by
  induction groups generalizing done log s with
  | nil =>
    unfold joinGroups
    rw [List.append_nil]
    exact .answer (.inl ⟨rfl, joining⟩)
  | cons group groups ih =>
    have hname : (Service.userToWire row).username = spec.username := joining.held.name
    unfold joinGroups
    rw [hname]
    refine (addGroupMembership_goes maxRetries group joining).bind fun log s result h => ?_
    have accepted (h' : Accepted result) :
        Goes (joinGroups maxRetries (Service.userToWire row) groups)
          (Finished spec row (done ++ group :: groups)) log s := by
      have next : Joining spec row (done ++ [group]) log s := by
        refine { h.1 with joined := fun other hother => ?_ }
        rcases List.mem_append.mp hother with hbefore | hlast
        · exact h.1.joined other hbefore
        · rw [List.mem_singleton.mp hlast]
          exact h.2 h'
      have hgoes := ih next
      rw [List.append_assoc, List.singleton_append] at hgoes
      exact hgoes
    split
    · exact accepted (.inl rfl)
    · exact accepted (.inr (.inl rfl))
    · exact accepted (.inr (.inr rfl))
    · refine (rollBackCreate_goes maxRetries h.1).bind fun log s _ rolledBack => ?_
      exact .answer (.inr ⟨_, rfl, rolledBack⟩)

/-- How a create with its groups ends. -/
def Settled (spec : EnsureUserSpec) (log : List (Entry Call.Reply)) (s : Inner)
    (result : Except ClientError EnsuredUser) : Prop :=
  RollbackReaches log → (AllOrNothing spec log s result ↔ ¬ LostInsert log)

section Settle
variable {spec : EnsureUserSpec} {log : List (Entry Call.Reply)} {s : Inner}

theorem Finished.settled {row : UserRecord} {result : Except ClientError EnsuredUser}
    (finished : Finished spec row spec.groups log s result) : Settled spec log s result := by
  intro reaches
  rcases finished with ⟨rfl, joining⟩ | ⟨error, rfl, rolledBack⟩
  · refine iff_of_true ⟨by simp, ?_⟩ joining.notLost
    intro user huser
    cases huser
    exact ⟨row, joining.held.stored, rfl, joining.held.externalId, joining.joined⟩
  · refine iff_of_true ⟨?_, by simp⟩ rolledBack.notLost
    intro _ _ r hr
    rw [rolledBack.inserted r hr]
    exact rolledBack.gone reaches

theorem Clean.settled (clean : Clean log s) {result : Except ClientError EnsuredUser}
    (h : ∀ user, result ≠ .ok ⟨user, true⟩) : Settled spec log s result := by
  intro _
  refine iff_of_true ⟨?_, fun user huser => absurd huser (h user)⟩ clean.not_lost
  intro _ _ r hr
  rw [clean.inserted] at hr
  cases hr

theorem Stranded.settled (stranded : Stranded log s) (error : ClientError) :
    Settled spec log s (.error error) := by
  intro _
  refine iff_of_false (fun whole => ?_) (not_not.mpr stranded.lost)
  obtain ⟨row, hrow, k, hstored⟩ := stranded.left
  exact whole.failed error rfl row hrow k row hstored rfl

theorem created_goes (maxRetries : Nat) {user : User}
    (outcome : CreateOutcome spec log s (.ok user)) :
    Goes (joinGroups maxRetries user spec.groups) (Settled spec) log s := by
  obtain ⟨row, rfl, held, notLost, quiet⟩ := outcome
  have joining : Joining spec row [] log s := ⟨held, notLost, quiet, by simp⟩
  exact (joinGroups_goes maxRetries spec.groups joining).mono fun _ _ _ => Finished.settled

theorem refused_settled {error : ClientError} (outcome : CreateOutcome spec log s (.error error)) :
    Settled spec log s (.error error) := by
  rcases outcome with clean | ⟨stranded, _⟩
  · exact clean.settled (by simp)
  · exact stranded.settled error

theorem resolveConflict_goes (maxRetries : Nat) (clean : Clean log s) :
    Goes (resolveConflict maxRetries spec) (Settled spec) log s := by
  unfold resolveConflict
  have find : Goes (findUserByExternalId maxRetries spec.externalId)
      (fun log s _ => Clean log s) log s :=
    findUser_goes maxRetries spec.externalId
      ⟨lookupPage, none, none, some spec.externalId⟩ clean
  refine find.bind fun log s found clean => ?_
  split
  · exact .answer (clean.settled (by simp))
  · exact .answer (clean.settled (by simp))
  · refine (emailHolder_goes maxRetries spec clean).bind fun log s holder clean => ?_
    split
    · exact .answer (clean.settled (by simp))
    · exact .answer (clean.settled (by simp))
    · refine (createUser_goes maxRetries none clean).bind fun log s created outcome => ?_
      cases created with
      | error error => exact .answer (refused_settled outcome)
      | ok user => exact created_goes maxRetries outcome

theorem createUserWithGroups_goes (maxRetries : Nat) (clean : Clean log s) :
    Goes (createUserWithGroups maxRetries spec) (Settled spec) log s := by
  unfold createUserWithGroups
  refine (createUser_goes maxRetries spec.email clean).bind fun log s created outcome => ?_
  cases created with
  | ok user =>
    dsimp only
    exact created_goes maxRetries outcome
  | error error =>
    cases error with
    | AlreadyExists =>
      dsimp only
      rcases outcome with clean | ⟨_, hne⟩
      · exact resolveConflict_goes maxRetries clean
      · exact absurd rfl hne
    | _ => exact .answer (refused_settled outcome)

end Settle

end Judged

/-- From every reachable store and under every pattern of faults whose rollback
reaches the server, a create with its groups is all or nothing exactly when the
answer to the attempt that inserted its row is not lost. -/
theorem createUserWithGroups_all_or_nothing (ops : List StoreOp) (maxRetries : Nat)
    (spec : EnsureUserSpec) (log : List (Entry Call.Reply)) (s : Inner)
    (result : Except ClientError EnsuredUser)
    (ran : Ran (Call.Exec memStore) (createUserWithGroups maxRetries spec)
      (Inner.new.after ops) log (.done result) s)
    (reaches : RollbackReaches log) :
    AllOrNothing spec log s result ↔ ¬ LostInsert log := by
  have clean : Clean [] (Inner.new.after ops) := ⟨Inner.after_wellFormed ops, rfl, rfl⟩
  exact ran.meets (createUserWithGroups_goes maxRetries clean) reaches

/-- A create on the empty store, and what the network does to its calls. -/
def alone (faults : List Fault) :
    Moment Call Call.Reply (Except ClientError EnsuredUser) Inner Unit :=
  (Moment.initial (fun _ => createUserWithGroups 0 (developer "ada" "sub-1")) Inner.new).play
    (Call.picks memStore ⟨0⟩ (faults.map fun fault => ((), fault)))

theorem alone_ran (faults : List Fault) :
    Ran (Call.Exec memStore) (createUserWithGroups 0 (developer "ada" "sub-1"))
      (Inner.new.after []) ((alone faults).log.map (·.entry)) ((alone faults).now ())
      (alone faults).state := by
  have reached : Moment.Reached (Call.Exec memStore) (fun _ => False) _ _ (alone faults) :=
    Moment.Reached.initial.play (Call.picks_exec memStore ⟨0⟩ _)
  exact reached.ran

/-- The join meets a 503, and the rollback reaches the server. -/
def failingJoin : List Fault :=
  [.answered, .answered, .answered, .failed false .unavailable, .answered, .answered]

theorem createUserWithGroups_all_or_nothing_failing_join :
    AllOrNothing (developer "ada" "sub-1") ((alone failingJoin).log.map (·.entry))
        (alone failingJoin).state (.error (.Status 503 "")) ↔
      ¬ LostInsert ((alone failingJoin).log.map (·.entry)) := by
  have ran := alone_ran failingJoin
  refine createUserWithGroups_all_or_nothing [] 0 _ _ _ _ ran fun _ => ?_
  exact ⟨.answered, List.mem_of_getLast? (by rfl), rfl⟩

/-- The answer to the create is lost after the server committed it. -/
def lostAnswer : List Fault := List.replicate 3 (.lost true .timeout)

/-- The call fails, no rollback is tried, and the row it inserted stays. -/
theorem lost_answer_strands_user :
    Ran (Call.Exec memStore) (createUserWithGroups 0 (developer "ada" "sub-1"))
      (Inner.new.after []) ((alone lostAnswer).log.map (·.entry))
      (.done (.error (.Transport (.lost .timeout)))) (alone lostAnswer).state ∧
    RollbackReaches ((alone lostAnswer).log.map (·.entry)) ∧
    ¬ AllOrNothing (developer "ada" "sub-1") ((alone lostAnswer).log.map (·.entry))
      (alone lostAnswer).state (.error (.Transport (.lost .timeout))) := by
  refine ⟨alone_ran lostAnswer, fun tried => absurd (by rfl) tried, fun whole => ?_⟩
  have inserted : ada ∈ inserts ((alone lostAnswer).log.map (·.entry)) := by decide
  have stored : (alone lostAnswer).state.users["ada"]? = some ada := by decide
  exact whole.failed _ rfl ada inserted "ada" ada stored rfl

end LakeFsAuth.AuthzClient
