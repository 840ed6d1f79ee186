import LakeFsAuth.Authz.UserText
import LakeFsAuth.AuthzClient.AllOrNothing
import LakeFsAuth.Library.Interference

/-! Concurrent first logins of one identity. Each run is judged against the moves of the
others, so the judgement holds in every order of the requests. -/
namespace LakeFsAuth.AuthzClient.FirstLogins
open Core.Error Core.Model Core.Text Core.Validate Authz Authz.Store Authz.Store.Mem Authz.Api
open Authz.Handlers Library Library.Program Library.OrderedMap

/-- The store, and a network on which every request is answered. -/
def Answering : (call : Call) → Inner → call.Reply → Inner → Prop
  | .store op, s, reply, s' => memStore.exec op s = (reply, s')
  | .now, s, _, s' => s' = s
  | .attempt _, s, fault, s' => fault = .answered ∧ s' = s

/-- The external id the server stores for a spec. -/
def identity (spec : EnsureUserSpec) : String := trim spec.externalId

/-- The row of the identity of a spec. -/
structure Bound (spec : EnsureUserSpec) (s : Inner) (row : UserRecord) : Prop where
  stored : s.users[row.username]? = some row
  externalId : row.externalId = some (identity spec)

/-- A row that a create of a spec inserted, with or without its email. -/
structure OfSpec (spec : EnsureUserSpec) (row : UserRecord) : Prop where
  username : row.username = spec.username
  friendlyName : row.friendlyName = optionalText spec.friendlyName
  source : row.source = optionalText (some spec.source)
  externalId : row.externalId = some (identity spec)

/-- A store on which the runs of a spec may start. -/
structure Ready (spec : EnsureUserSpec) (s : Inner) : Prop where
  ok : WellFormed s
  ids : EveryUser (fun row => Normalised row.externalId) s
  free : ∀ row, s.users[spec.username]? = some row → row.externalId = some (identity spec)

/-- What the runs of a spec do to the store. -/
structure Moves (spec : EnsureUserSpec) (s s' : Inner) : Prop where
  ready : Ready spec s → Ready spec s'
  stays : ∀ (k : String) (row : UserRecord), s.users[k]? = some row → s'.users[k]? = some row
  added : ∀ (k : String) (row : UserRecord), s'.users[k]? = some row →
    s.users[k]? = some row ∨ (k = spec.username ∧ OfSpec spec row)
  members : ∀ entry ∈ s.groupMembers, entry ∈ s'.groupMembers
  joined : ∀ entry ∈ s'.groupMembers, entry ∈ s.groupMembers ∨
    (entry.1 ∈ spec.groups ∧ ∃ row, Bound spec s' row ∧ row.username = entry.2)
  rest : ∀ table : Table, table ≠ .users → table ≠ .groupMembers → table.Same s s'

section Moves
variable {spec : EnsureUserSpec}

theorem Bound.later {s s' : Inner} {row : UserRecord} (bound : Bound spec s row)
    (moves : Moves spec s s') : Bound spec s' row :=
  ⟨moves.stays _ _ bound.stored, bound.externalId⟩

theorem Moves.refl (s : Inner) : Moves spec s s where
  ready := id
  stays _ _ h := h
  added _ _ h := .inl h
  members _ h := h
  joined _ h := .inl h
  rest table _ _ := .refl s table

theorem Moves.trans {s mid s' : Inner} (h : Moves spec s mid) (h' : Moves spec mid s') :
    Moves spec s s' where
  ready ready := h'.ready (h.ready ready)
  stays k row hrow := h'.stays k row (h.stays k row hrow)
  added k row hrow := (h'.added k row hrow).elim (h.added k row) .inr
  members entry hmem := h'.members entry (h.members entry hmem)
  joined entry hmem := by
    rcases h'.joined entry hmem with hmid | hnew
    · refine (h.joined entry hmid).imp id fun ⟨hgroup, row, bound, hname⟩ => ?_
      exact ⟨hgroup, row, bound.later h', hname⟩
    · exact .inr hnew
  rest table husers hmembers := (h.rest table husers hmembers).trans (h'.rest table husers hmembers)

instance : Std.Refl (Moves spec) := ⟨Moves.refl⟩
instance : IsTrans Inner (Moves spec) := ⟨fun _ _ _ => Moves.trans⟩

end Moves

/-- What a login gives: names the server accepts, and an external id that is not blank. -/
structure Given (spec : EnsureUserSpec) : Prop where
  username : ValidId spec.username
  externalId : identity spec ≠ ""
  groups : ∀ group ∈ spec.groups, ValidId group

/-- The user a create of a spec asks the store for. -/
def requested (spec : EnsureUserSpec) (email : Option String) (date : Timestamp) : NewUser :=
  ⟨spec.username, date, optionalText spec.friendlyName, optionalText email,
    optionalText (some spec.source), optionalText (some spec.externalId), none⟩

section Steps
variable {spec : EnsureUserSpec} {s : Inner}

theorem requested_externalId (given : Given spec) (email : Option String) (date : Timestamp) :
    (requested spec email date).externalId = some (identity spec) := by
  unfold requested
  dsimp only
  rw [optionalText_some]
  exact nonBlank_of_trim_ne _ given.externalId

theorem newRecord_ofSpec (given : Given spec) (email : Option String) (date : Timestamp) (id : Int) :
    OfSpec spec (Inner.newRecord (requested spec email date) id) where
  username := rfl
  friendlyName := by rw [Inner.newRecord, requested]
  source := by rw [Inner.newRecord, requested]
  externalId := by simp only [Inner.newRecord, requested_externalId given]

theorem normalised_identity (given : Given spec) : Normalised (some (identity spec)) := by
  intro value h
  cases h
  exact ⟨given.externalId, trim_trim _⟩

theorem requestedUser_creation (valid : ValidId spec.username) (email : Option String)
    (date : Timestamp) :
    Service.requestedUser (spec.creation email) date = .ok (requested spec email date) := by
  unfold Service.requestedUser NewUser.validated
  simp only [EnsureUserSpec.creation, (validateEntityId_ok_iff "user" _).mpr valid]
  rfl

/-- A create of a spec that is stored is one of its moves. -/
theorem withUser_moves (given : Given spec) {email : Option String} {date : Timestamp}
    (free : s.UserFree (requested spec email date)) :
    Moves spec s (s.withUser (requested spec email date)) := by
  have hrow : ∀ (k : String) (row : UserRecord),
      (s.withUser (requested spec email date)).users[k]? = some row →
        s.users[k]? = some row ∨ (k = spec.username ∧ OfSpec spec row) := by
    intro k row h
    simp only [Inner.withUser, get_insert] at h
    split at h
    · rename_i hname
      cases h
      exact .inr ⟨hname.symm, newRecord_ofSpec given email date _⟩
    · exact .inl h
  constructor
  · intro ready
    constructor
    · exact (Change.newUser s _ free).wellFormed ready.ok
    · intro k row h
      rcases hrow k row h with hold | ⟨_, ofSpec⟩
      · exact ready.ids k row hold
      · rw [ofSpec.externalId]
        exact normalised_identity given
    · intro row h
      rcases hrow _ row h with hold | ⟨_, ofSpec⟩
      · exact ready.free row hold
      · exact ofSpec.externalId
  · exact Kept.insert _ free.username
  · exact hrow
  · exact fun _ h => h
  · exact fun _ h => .inl h
  · intro table husers hmembers
    cases table <;> simp [Table.Same, Inner.withUser] at husers hmembers ⊢

/-- The user of a membership is there, so the group decides. -/
theorem addMembership_cases (group : String) {row : UserRecord} (bound : Bound spec s row) :
    (s.groups.contains group = true ∧ s.addMembership group row.username =
      (.ok (), { s with groupMembers := s.groupMembers.insert (group, row.username) })) ∨
    (s.groups.contains group = false ∧ s.addMembership group row.username =
      (.error (.notFound "group" group), s)) := by
  have huser : s.requireUser row.username = .ok () := by
    rw [Inner.requireUser, require, if_pos ((contains_iff _ _).mpr ⟨row, bound.stored⟩)]
  unfold Inner.addMembership Inner.requireGroup require
  rw [huser]
  cases s.groups.contains group with
  | true => exact .inl ⟨rfl, rfl⟩
  | false => exact .inr ⟨rfl, rfl⟩

/-- A membership in a group of the spec is one of its moves. -/
theorem addMembership_moves {group : String} {row : UserRecord} (hgroup : group ∈ spec.groups)
    (bound : Bound spec s row) : Moves spec s (s.addMembership group row.username).2 := by
  have hchanges := s.exec_changes (.addMembership group row.username)
  change Changes s (s.addMembership group row.username).2 at hchanges
  rcases addMembership_cases group bound with ⟨_, h⟩ | ⟨_, h⟩
  · rw [h] at hchanges ⊢
    constructor
    · exact fun ready => ⟨hchanges.wellFormed ready.ok, ready.ids, ready.free⟩
    · exact fun _ _ h => h
    · exact fun _ _ h => .inl h
    · exact fun entry h => (mem_insert _ _ _).mpr (.inr h)
    · intro entry h
      rcases (mem_insert _ _ _).mp h with rfl | hold
      · exact .inr ⟨hgroup, row, ⟨bound.stored, bound.externalId⟩, rfl⟩
      · exact .inl hold
    · intro table husers hmembers
      cases table <;> simp [Table.Same] at husers hmembers ⊢
  · rw [h]
    exact .refl s

/-- Another identity holds the email a create asks for. -/
structure EmailHeld (spec : EnsureUserSpec) (email : Option String) (s : Inner)
    (text : String) (row : UserRecord) : Prop where
  asked : optionalText email = some text
  stored : s.users[row.username]? = some row
  held : row.email = some text
  other : row.externalId ≠ some (identity spec)

theorem EmailHeld.later {email : Option String} {text : String} {row : UserRecord} {s' : Inner}
    (held : EmailHeld spec email s text row) (moves : Moves spec s s') :
    EmailHeld spec email s' text row :=
  { held with stored := moves.stays _ _ held.stored }

/-- Why a create of a spec is refused for good: its identity has a row that differs from the
request, or another identity holds the email. -/
inductive Blocked (spec : EnsureUserSpec) (email : Option String) (s : Inner) : Prop where
  | bound (row : UserRecord) (bound : Bound spec s row)
      (differs : row.username = spec.username →
        Service.sameUser (requested spec email ⟨0⟩) row = false) : Blocked spec email s
  | held (text : String) (row : UserRecord) (held : EmailHeld spec email s text row) :
      Blocked spec email s

theorem Blocked.later {email : Option String} {s' : Inner} (blocked : Blocked spec email s)
    (moves : Moves spec s s') : Blocked spec email s' := by
  cases blocked with
  | bound row bound differs => exact .bound row (bound.later moves) differs
  | held text row held => exact .held text row (held.later moves)

/-- The row under the name of a spec is that of its identity. -/
theorem Ready.bound (ready : Ready spec s) {row : UserRecord}
    (stored : s.users[spec.username]? = some row) :
    Bound spec s row ∧ row.username = spec.username := by
  have hname := ready.ok.users.key _ row stored
  exact ⟨⟨hname.symm ▸ stored, ready.free row stored⟩, hname⟩

/-- A refused create finds a row under its name, or is blocked. -/
theorem refused_blocked (ready : Ready spec s) {email : Option String} {date : Timestamp}
    (given : Given spec) (refused : ¬ s.UserFree (requested spec email date)) :
    (∃ row, s.users[spec.username]? = some row) ∨ Blocked spec email s := by
  by_contra h
  rw [not_or, not_exists] at h
  obtain ⟨hname, hblocked⟩ := h
  apply refused
  constructor
  · exact Option.eq_none_iff_forall_ne_some.mpr hname
  · intro text asked k row hrow held
    have hkey := ready.ok.users.key k row hrow
    by_cases hbound : row.externalId = some (identity spec)
    · apply hblocked
      refine .bound row ⟨hkey.symm ▸ hrow, hbound⟩ fun hsame => ?_
      exact absurd (hsame ▸ hkey.symm ▸ hrow) (hname row)
    · exact hblocked (.held text row ⟨asked, hkey.symm ▸ hrow, held, hbound⟩)
  · intro externalId asked k row hrow hheld
    have hkey := ready.ok.users.key k row hrow
    have hbound : row.externalId = some (identity spec) := by
      rw [hheld, ← asked, requested_externalId given]
    apply hblocked
    refine .bound row ⟨hkey.symm ▸ hrow, hbound⟩ fun hsame => ?_
    exact absurd (hsame ▸ hkey.symm ▸ hrow) (hname row)

end Steps

/-! The requests of a run. -/

abbrev Stands (spec : EnsureUserSpec) (Post : Inner → α → Prop) (p : Action α) (s : Inner) : Prop :=
  Withstands Answering (Moves spec) Post p s

-- The rules judge these programs by name; nothing is gained by running them.
section Requests
attribute [local irreducible] Withstands sendWithRetry findUser emailHolder createUser
  addGroupMembership joinGroups resolveConflict
variable {spec : EnsureUserSpec} {s : Inner} {Post : Inner → β → Prop}

theorem now_stands {f : Timestamp → Action β} (h : ∀ date, Stands spec Post (f date) s) :
    Stands spec Post (now >>= f) s := by
  refine .perform_bind fun s' moves date s'' exec => ?_
  cases exec
  exact ⟨.refl s', (h date).later moves⟩

theorem read_stands {op : StoreOp} {f : op.Reply → Action β}
    (reads : ∀ s, (memStore.exec op s).2 = s)
    (h : ∀ s', Moves spec s s' → Stands spec Post (f (memStore.exec op s').1) s') :
    Stands spec Post (store op >>= f) s := by
  refine .perform_bind fun s' moves reply s'' exec => ?_
  have hreply : (memStore.exec op s').1 = reply := congrArg Prod.fst exec
  have hstate : (memStore.exec op s').2 = s'' := congrArg Prod.snd exec
  rw [reads] at hstate
  subst hreply hstate
  exact ⟨.refl s', h s' moves⟩

/-- What a create of a spec is answered with. -/
inductive CreateOutcome (spec : EnsureUserSpec) (email : Option String) (s : Inner) :
    Except ApiError User → Prop where
  | found (row : UserRecord) (bound : Bound spec s row) (named : row.username = spec.username) :
      CreateOutcome spec email s (.ok (Service.userToWire row))
  | conflict (message : String) (blocked : Blocked spec email s) :
      CreateOutcome spec email s (.error (.AlreadyExists message))

/-- A refused create is decided from a re-read of its row. -/
theorem createOrExisting_stands (ready : Ready spec s) {email : Option String}
    (date : Timestamp) (entity id : String)
    (refused : (∃ row, s.users[spec.username]? = some row) ∨ Blocked spec email s) :
    Stands spec (fun s result => CreateOutcome spec email s (result.map Service.userToWire))
      (Service.createOrExisting (.error (.AlreadyExists entity id))
        (store (.getUser spec.username)) (Service.sameUser (requested spec email date))) s := by
  refine read_stands (fun _ => rfl) fun s₁ moves => ?_
  have hread : (memStore.exec (.getUser spec.username) s₁).1 =
      found s₁.users[spec.username]? "user" spec.username := rfl
  rw [hread]
  cases hrow : s₁.users[spec.username]? with
  | none =>
    have blocked : Blocked spec email s₁ := by
      rcases refused with ⟨row, stored⟩ | blocked
      · rw [moves.stays _ row stored] at hrow
        cases hrow
      · exact blocked.later moves
    exact .answer fun s' moves => .conflict _ (blocked.later moves)
  | some row =>
    obtain ⟨bound, named⟩ := (moves.ready ready).bound hrow
    dsimp only [found]
    cases hsame : Service.sameUser (requested spec email date) row with
    | true => exact .answer fun s' moves => .found row (bound.later moves) named
    | false =>
      exact .answer fun s' moves => .conflict _ (.bound row (bound.later moves) fun _ => hsame)

theorem service_createUser_stands (given : Given spec) (ready : Ready spec s)
    (email : Option String) :
    Stands spec (CreateOutcome spec email) (Service.createUser (spec.creation email)) s := by
  unfold Service.createUser
  rw [if_neg (by simp [EnsureUserSpec.creation])]
  refine now_stands fun date => ?_
  rw [requestedUser_creation given.username]
  refine .perform_bind fun s₁ moves created s₂ exec => ?_
  change s₁.insertUser (requested spec email date) = (created, s₂) at exec
  rcases s₁.insertUser_cases (requested spec email date) with
    ⟨free, h⟩ | ⟨refused, entity, id, h⟩
  · rw [h] at exec
    cases exec
    refine ⟨withUser_moves given free, .answer fun s' moves => ?_⟩
    have stored : Bound spec (s₁.withUser (requested spec email date))
        (Inner.newRecord (requested spec email date) (s₁.nextUserId + 1)) := by
      refine ⟨?_, (newRecord_ofSpec given email date _).externalId⟩
      rw [Inner.withUser, Inner.newRecord, get_insert, if_pos rfl]
    exact .found _ (stored.later moves) rfl
  · rw [h] at exec
    cases exec
    have ready₁ := moves.ready ready
    refine ⟨.refl s₁, Withstands.bind (createOrExisting_stands ready₁ date entity id
      (refused_blocked ready₁ given refused)) fun _ result _ outcome => .answer outcome⟩

theorem handle_stands {request : Request} (Post : Inner → Response request.Success → Prop)
    (h : Stands spec (fun s result => Post s (respond request result)) (answer request) s) :
    Stands spec Post (handle request) s :=
  .bind h fun _ _ _ hresult => .answer hresult

/-- Every request is answered at its first attempt, and one that is not a server error is
not repeated. -/
theorem send_stands (request : Request)
    {Post : Inner → Except ClientError (Response request.Success) → Prop}
    (h : Stands spec (fun s result => isServerError (respond request result).status = false ∧
      Post s (.ok (respond request result))) (answer request) s) (retries : Nat) :
    Stands spec Post (sendWithRetry request retries) s := by
  have hattempt : Stands spec (fun s outcome => retryable request.method outcome = false ∧
      Post s (outcome.mapError .Transport)) (attempt request) s := by
    refine .perform_bind fun s₁ moves fault s₂ exec => ?_
    obtain ⟨rfl, rfl⟩ := exec
    have hhandle := handle_stands (fun s response =>
      isServerError response.status = false ∧ Post s (.ok response)) (h.later moves)
    refine ⟨.refl s₂, hhandle.bind fun _ response _ hresponse => .answer fun later moves => ?_⟩
    obtain ⟨hquiet, hpost⟩ := hresponse later moves
    exact ⟨by simp [Fault.deliver, retryable, hquiet], hpost⟩
  cases retries with
  | zero =>
    unfold sendWithRetry
    exact hattempt.bind fun _ outcome _ houtcome => .answer fun later moves =>
      (houtcome later moves).2
  | succ retries =>
    unfold sendWithRetry
    refine hattempt.bind fun s₁ outcome _ houtcome => ?_
    rw [if_neg (by simp [(houtcome s₁ (.refl s₁)).1])]
    exact .answer fun later moves => (houtcome later moves).2

variable (maxRetries : Nat)

/-- What the client makes of the answer to a create. -/
inductive Creation (spec : EnsureUserSpec) (email : Option String) (s : Inner) :
    Except ClientError User → Prop where
  | found (row : UserRecord) (bound : Bound spec s row) (named : row.username = spec.username) :
      Creation spec email s (.ok (Service.userToWire row))
  | conflict (blocked : Blocked spec email s) : Creation spec email s (.error .AlreadyExists)

theorem createUser_stands (given : Given spec) (ready : Ready spec s) (email : Option String) :
    Stands spec (Creation spec email) (createUser maxRetries (spec.creation email)) s := by
  have handler : Stands spec (CreateOutcome spec email)
      (answer (.createUser (spec.creation email))) s :=
    service_createUser_stands given ready email
  have send : Stands spec (fun s outcome => Creation spec email s
      (outcome >>= fun response => expectStatus response 201 >>= decodeJson))
      (sendWithRetry (.createUser (spec.creation email)) maxRetries) s := by
    apply send_stands (.createUser (spec.creation email))
    apply handler.mono
    intro s result outcome
    cases outcome with
    | found row bound named => exact ⟨rfl, .found row bound named⟩
    | conflict message blocked => exact ⟨rfl, .conflict blocked⟩
  unfold createUser
  refine send.bind fun s outcome _ h => ?_
  cases outcome with
  | error error => exact .answer h
  | ok response => exact .answer h

/-- Every row of the identity was inserted by a run of the spec. -/
def Ours (spec : EnsureUserSpec) (s : Inner) : Prop :=
  ∀ (k : String) (row : UserRecord), s.users[k]? = some row →
    row.externalId = some (identity spec) → k = spec.username ∧ OfSpec spec row

theorem Ours.later {s' : Inner} (ours : Ours spec s) (moves : Moves spec s s') : Ours spec s' := by
  intro k row hrow hid
  rcases moves.added k row hrow with hold | hnew
  · exact ours k row hold hid
  · exact hnew

/-- Nothing stands in the way of a create without the email. -/
theorem Ours.not_blocked (ours : Ours spec s) (given : Given spec) : ¬ Blocked spec none s := by
  intro blocked
  cases blocked with
  | bound row bound differs =>
    obtain ⟨hname, ofSpec⟩ := ours _ row bound.stored bound.externalId
    have hsame : Service.sameUser (requested spec none ⟨0⟩) row = true := by
      rw [Service.sameUser, requested_externalId given, ofSpec.externalId]
      simp [Service.sameIfGiven, requested, ofSpec.friendlyName, ofSpec.source]
    rw [differs hname] at hsame
    cases hsame
  | held text row held => cases held.asked

/-- What the client learns from its lookup by external id. -/
inductive Lookup (spec : EnsureUserSpec) (s : Inner) : Except ClientError (Option User) → Prop where
  | found (row : UserRecord) (bound : Bound spec s row) :
      Lookup spec s (.ok (some (Service.userToWire row)))
  | missing (text : String) (holder : UserRecord) (held : EmailHeld spec spec.email s text holder)
      (ours : Ours spec s) : Lookup spec s (.ok none)

/-- A lookup whose handler reads at most one row. -/
theorem findUser_stands {value : String} {query : ListUsersQuery} {Post : Inner → Option UserRecord → Prop}
    (hvalue : trim value ≠ "")
    (h : Stands spec (fun s result => ∃ row, result = .ok (single row) ∧ Post s row)
      (listUsers query) s) :
    Stands spec (fun s result => ∃ row : Option UserRecord,
      result = .ok (row.map Service.userToWire) ∧ Post s row) (findUser maxRetries value query) s := by
  unfold findUser
  rw [if_neg hvalue]
  have handler : Stands spec (fun s result => ∃ row, result = .ok (single row) ∧ Post s row)
      (answer (.listUsers query)) s := h
  have send : Stands spec (fun s outcome => ∃ row, outcome = .ok ⟨200, .json (single row)⟩ ∧ Post s row)
      (sendWithRetry (.listUsers query) maxRetries) s := by
    apply send_stands (.listUsers query)
    apply handler.mono
    rintro s result ⟨row, rfl, hrow⟩
    exact ⟨rfl, row, rfl, hrow⟩
  refine send.bind fun s outcome _ houtcome => ?_
  obtain ⟨row, rfl, _⟩ := houtcome s (.refl s)
  have hpost : ∀ later, Moves spec s later → ∃ other : Option UserRecord,
      row.map Service.userToWire = other.map Service.userToWire ∧ Post later other := by
    intro later moves
    obtain ⟨other, heq, hpost⟩ := houtcome later moves
    refine ⟨other, ?_, hpost⟩
    simp only [Except.ok.injEq, Response.mk.injEq, Body.json.injEq, true_and] at heq
    have hresults : (row.map Service.userToWire).toList = (other.map Service.userToWire).toList :=
      congrArg ListResponse.results heq
    cases row <;> cases other <;> simp_all
  cases row with
  | none => exact .answer fun later moves => (hpost later moves).imp fun _ h => ⟨congrArg _ h.1, h.2⟩
  | some row =>
    exact .answer fun later moves => (hpost later moves).imp fun _ h => ⟨congrArg _ h.1, h.2⟩

/-- The lookup finds the row of the identity, or another identity holds the email for good. -/
theorem findUserByExternalId_stands (given : Given spec) (ready : Ready spec s)
    (blocked : Blocked spec spec.email s) :
    Stands spec (Lookup spec) (findUserByExternalId maxRetries spec.externalId) s := by
  have hid : nonBlank spec.externalId = some (identity spec) :=
    nonBlank_of_trim_ne _ given.externalId
  unfold findUserByExternalId
  have handler : Stands spec (fun s result => ∃ row, result = .ok (single row) ∧
      Lookup spec s (.ok (row.map Service.userToWire)))
      (listUsers ⟨lookupPage, none, none, some spec.externalId⟩) s := by
    unfold listUsers
    simp only [Option.bind_none, Option.bind_some, hid]
    refine read_stands (fun _ => rfl) fun s₁ moves => .answer fun later moves' => ?_
    refine ⟨s₁.findUserByExternalId (identity spec), rfl, ?_⟩
    cases hfind : s₁.findUserByExternalId (identity spec) with
    | some row =>
      obtain ⟨⟨k, hrow⟩, hmatch⟩ := find_values_some _ _ _ hfind
      have hkey := (moves.ready ready).ok.users.key k row hrow
      have bound : Bound spec s₁ row := ⟨hkey.symm ▸ hrow, beq_iff_eq.mp hmatch⟩
      exact .found row (bound.later moves')
    | none =>
      have hnone := (find_values_none _ _).mp hfind
      cases blocked.later moves with
      | bound row bound =>
        have hmiss := hnone _ row bound.stored
        simp [bound.externalId] at hmiss
      | held text row held =>
        have ours : Ours spec s₁ := by
          intro k other hrow hbound
          have hmiss := hnone k other hrow
          simp [hbound] at hmiss
        exact .missing text row (held.later moves') (ours.later moves')
  refine (findUser_stands maxRetries given.externalId handler).mono ?_
  rintro s result ⟨row, rfl, hlookup⟩
  exact hlookup

/-- The holder of the email is another identity, so it is reported. -/
theorem emailHolder_stands (ready : Ready spec s) {text : String} {row : UserRecord}
    (held : EmailHeld spec spec.email s text row) :
    Stands spec (fun _ result => ∃ user, result = .ok (some user)) (emailHolder maxRetries spec) s := by
  unfold emailHolder
  have hasked := held.asked
  cases hemail : spec.email with
  | none =>
    rw [hemail] at hasked
    cases hasked
  | some email =>
    rw [hemail] at hasked
    have htext : nonBlank email = some text := hasked
    have hvalue : trim email ≠ "" := (nonBlank_some htext).1 ▸ (nonBlank_some htext).2
    have handler : Stands spec (fun _ found => ∃ user : Option UserRecord,
        found = .ok (single user) ∧ user = some row)
        (listUsers ⟨lookupPage, none, some email, none⟩) s := by
      unfold listUsers
      simp only [Option.bind_none, Option.bind_some, htext]
      refine read_stands (fun _ => rfl) fun s₁ moves => .answer fun later moves' => ?_
      have held₁ := held.later moves
      refine ⟨s₁.findUserByEmail text, rfl, ?_⟩
      cases hfind : s₁.findUserByEmail text with
      | some other =>
        obtain ⟨⟨k, hother⟩, hmatch⟩ := find_values_some _ _ _ hfind
        have hkey := (moves.ready ready).ok.users.email k _ other row text hother held₁.stored
          (beq_iff_eq.mp hmatch) held₁.held
        subst hkey
        rw [held₁.stored] at hother
        exact hother.symm
      | none =>
        have hmiss := (find_values_none _ _).mp hfind _ row held₁.stored
        simp [held₁.held] at hmiss
    refine Withstands.bind (findUser_stands maxRetries hvalue handler) fun s₁ result moves h => ?_
    obtain ⟨_, rfl, rfl⟩ := h s₁ (.refl s₁)
    have hother : row.externalId ≠ some spec.externalId := by
      intro hsame
      have hnormal := (ready.ids _ row held.stored) spec.externalId hsame
      exact held.other (hsame.trans (congrArg some hnormal.2.symm))
    refine .answer fun later _ => ⟨Service.userToWire row, ?_⟩
    have hfilter : (Service.userToWire row).externalId != some spec.externalId := by
      simpa [Service.userToWire] using hother
    simp [hfilter]

theorem joined_later {s' : Inner} {username group : String} (joined : Joined s username group)
    (moves : Moves spec s s') : Joined s' username group := by
  intro hcontains
  have hgroups : s'.groups = s.groups := moves.rest .groups (by decide) (by decide)
  rw [hgroups] at hcontains
  exact moves.members _ (joined hcontains)

/-- The user joins the group, if there is such a group. -/
theorem addGroupMembership_stands (given : Given spec) {group : String} {row : UserRecord}
    (hgroup : group ∈ spec.groups) (bound : Bound spec s row) (named : row.username = spec.username) :
    Stands spec (fun s result => (result = .ok () ∨ result = .error .NotFound) ∧
      Joined s row.username group) (addGroupMembership maxRetries group row.username) s := by
  unfold addGroupMembership
  rw [segment_valid (given.groups group hgroup), segment_valid (named ▸ given.username)]
  have handler : Stands spec (fun s result => (result = .ok () ∨
      result = .error (.NotFound s!"group not found: {group}")) ∧ Joined s row.username group)
      (answer (.addMembership group row.username)) s := by
    refine .perform_bind fun s₁ moves reply s₂ exec => ?_
    have bound₁ := bound.later moves
    change s₁.addMembership group row.username = (reply, s₂) at exec
    have own := addMembership_moves hgroup bound₁
    rw [exec] at own
    refine ⟨own, .answer fun later moves => ?_⟩
    rcases addMembership_cases group bound₁ with ⟨_, h⟩ | ⟨habsent, h⟩
    · rw [h] at exec
      cases exec
      exact ⟨.inl rfl, joined_later (fun _ => (mem_insert _ _ _).mpr (.inl rfl)) moves⟩
    · rw [h] at exec
      cases exec
      refine ⟨.inr rfl, joined_later (fun hcontains => ?_) moves⟩
      rw [habsent] at hcontains
      cases hcontains
  have send : Stands spec (fun s outcome => (membershipResult outcome = .ok () ∨
      membershipResult outcome = .error .NotFound) ∧ Joined s row.username group)
      (sendWithRetry (.addMembership group row.username) maxRetries) s := by
    apply send_stands (.addMembership group row.username)
    apply handler.mono
    rintro s result ⟨rfl | rfl, joined⟩
    · exact ⟨rfl, .inl rfl, joined⟩
    · exact ⟨rfl, .inr rfl, joined⟩
  refine send.bind fun s₁ outcome _ h => ?_
  cases outcome with
  | error error => exact .answer h
  | ok response => exact .answer h

/-- What a run answers: the row of its identity, and a created user is in every group. -/
inductive Agreed (spec : EnsureUserSpec) (s : Inner) : Except ClientError EnsuredUser → Prop where
  | found (row : UserRecord) (bound : Bound spec s row) :
      Agreed spec s (.ok ⟨Service.userToWire row, false⟩)
  | created (row : UserRecord) (bound : Bound spec s row)
      (joined : ∀ group ∈ spec.groups, Joined s row.username group) :
      Agreed spec s (.ok ⟨Service.userToWire row, true⟩)

theorem joinGroups_stands (given : Given spec) {row : UserRecord} (groups : List String)
    (hgroups : ∀ group ∈ groups, group ∈ spec.groups) (bound : Bound spec s row)
    (named : row.username = spec.username) :
    Stands spec (fun s result => result = .ok ⟨Service.userToWire row, true⟩ ∧
      ∀ group ∈ groups, Joined s row.username group)
      (joinGroups maxRetries (Service.userToWire row) groups) s := by
  induction groups generalizing s with
  | nil =>
    unfold joinGroups
    exact .answer fun _ _ => ⟨rfl, by simp⟩
  | cons group groups ih =>
    have hgroup := hgroups group List.mem_cons_self
    have hrest := fun other hother => hgroups other (List.mem_cons_of_mem group hother)
    unfold joinGroups
    refine Withstands.bind (addGroupMembership_stands maxRetries given hgroup bound named)
      fun s₁ result moves h => ?_
    have hnext := Withstands.frame (ih hrest (bound.later moves)) fun later moves => (h later moves).2
    have hjoined : ∀ s result, (result = .ok ⟨Service.userToWire row, true⟩ ∧
        ∀ other ∈ groups, Joined s row.username other) ∧ Joined s row.username group →
        result = (.ok ⟨Service.userToWire row, true⟩ : Except ClientError EnsuredUser) ∧
          ∀ other ∈ group :: groups, Joined s row.username other := by
      rintro s result ⟨⟨hresult, hothers⟩, hfirst⟩
      refine ⟨hresult, fun other hmem => ?_⟩
      rcases List.mem_cons.mp hmem with rfl | hmem
      · exact hfirst
      · exact hothers other hmem
    rcases (h s₁ (.refl s₁)).1 with rfl | rfl
    · exact hnext.mono hjoined
    · exact hnext.mono hjoined

theorem joinAll_stands (given : Given spec) {row : UserRecord} (bound : Bound spec s row)
    (named : row.username = spec.username) :
    Stands spec (Agreed spec) (joinGroups maxRetries (Service.userToWire row) spec.groups) s := by
  have hjoin := joinGroups_stands maxRetries given spec.groups (fun _ h => h) bound named
  refine (hjoin.frame (Q := fun s => Bound spec s row) fun later moves => bound.later moves).mono ?_
  rintro s result ⟨⟨rfl, joined⟩, bound⟩
  exact .created row bound joined

theorem resolveConflict_stands (given : Given spec) (ready : Ready spec s)
    (blocked : Blocked spec spec.email s) :
    Stands spec (Agreed spec) (resolveConflict maxRetries spec) s := by
  unfold resolveConflict
  refine Withstands.bind (findUserByExternalId_stands maxRetries given ready blocked)
    fun s₁ found moves hfound => ?_
  have ready₁ := moves.ready ready
  cases hfound s₁ (.refl s₁) with
  | found row bound => exact .answer fun later moves => .found row (bound.later moves)
  | missing text holder held ours =>
    refine Withstands.bind (emailHolder_stands maxRetries ready₁ held) fun s₂ result moves₂ h => ?_
    obtain ⟨user, rfl⟩ := h s₂ (.refl s₂)
    refine Withstands.bind (createUser_stands maxRetries given (moves₂.ready ready₁) none)
      fun s₃ created moves₃ hcreated => ?_
    cases hcreated s₃ (.refl s₃) with
    | found row bound named => exact joinAll_stands maxRetries given bound named
    | conflict blocked => exact absurd blocked ((ours.later (moves₂.trans moves₃)).not_blocked given)

theorem createUserWithGroups_stands (given : Given spec) (ready : Ready spec s) :
    Stands spec (Agreed spec) (createUserWithGroups maxRetries spec) s := by
  unfold createUserWithGroups
  refine Withstands.bind (createUser_stands maxRetries given ready spec.email)
    fun s₁ created moves hcreated => ?_
  cases hcreated s₁ (.refl s₁) with
  | found row bound named => exact joinAll_stands maxRetries given bound named
  | conflict blocked => exact resolveConflict_stands maxRetries given (moves.ready ready) blocked

end Requests

/-! Runs. -/

/-- What may run beside the logins: calls that write nothing. -/
def ReadsOnly (call : Call) : Prop := ∀ op, call = .store op → writes op = []

theorem readsOnly_moves {spec : EnsureUserSpec} {call : Call} {s s' : Inner} {reply : call.Reply}
    (reads : ReadsOnly call) (exec : Answering call s reply s') : Moves spec s s' := by
  cases call with
  | store op =>
    have hsame : ∀ table : Table, table.Same s s' := by
      intro table
      have hnext : (Inner.exec op s).2 = s' := congrArg Prod.snd exec
      exact hnext ▸ s.exec_same (by simp [reads op rfl])
    have husers : s'.users = s.users := (hsame .users).1
    have hmembers : s'.groupMembers = s.groupMembers := hsame .groupMembers
    constructor
    · intro ready
      have hnext : (Inner.exec op s).2 = s' := congrArg Prod.snd exec
      refine ⟨hnext ▸ (s.exec_changes op).wellFormed ready.ok, ?_, ?_⟩
      · intro k row hrow
        exact ready.ids k row (husers ▸ hrow)
      · intro row hrow
        exact ready.free row (husers ▸ hrow)
    · exact fun k row hrow => husers ▸ hrow
    · exact fun k row hrow => .inl (husers ▸ hrow)
    · exact fun entry hmem => hmembers ▸ hmem
    · exact fun entry hmem => .inl (hmembers ▸ hmem)
    · exact fun table _ _ => hsame table
  | now =>
    cases exec
    exact .refl s
  | attempt request =>
    cases exec.2
    exact .refl s

section Served
variable [Core.SecretBox.Aes256Gcm] [Bootstrap.SerdeSaphyr] [SerdeJson]

/-- A store that API requests and bootstrap files left. -/
def Served (s : Inner) : Prop :=
  ∃ (ι : Type) (_ : DecidableEq ι) (request : ι → Request)
    (log : List (Record Call.Reply Inner ι)) (now : ι → Action Unit),
    Pool (Call.Exec memStore) UserText.Beside (fun i => UserText.handled (request i)) Inner.new
      log now s

omit [Core.SecretBox.Aes256Gcm] [Bootstrap.SerdeSaphyr] [SerdeJson] in
theorem writesOnly_ids {op : StoreOp}
    (may : (∃ username name, op = .setFriendlyName username name) ∨ UserText.WritesText op) :
    WritesOnly (fun row => Normalised row.externalId) op := by
  constructor
  · rintro user rfl id
    rcases may with ⟨_, _, h⟩ | writes
    · cases h
    · exact writes.externalId
  · rintro plan rfl user huser id
    rcases may with ⟨_, _, h⟩ | writes
    · cases h
    · exact (writes user huser).externalId
  · exact fun _ _ _ _ ok => ok

theorem served_ready {spec : EnsureUserSpec} {s : Inner} (served : Served s)
    (free : ∀ row, s.users[spec.username]? = some row → row.externalId = some (identity spec)) :
    Ready spec s := by
  obtain ⟨ι, _, request, log, now, pool⟩ := served
  have lawful : Lawful (Call.Exec memStore) (fun _ => True) (fun _ _ => True) :=
    ⟨fun _ _ => trivial, fun _ _ => trivial⟩
  have may : ∀ record ∈ log, UserText.MayWrite record.entry.1 := by
    intro record hmem
    cases hwho : record.who with
    | none => exact UserText.beside_mayWrite (pool.others hmem hwho)
    | some i =>
      obtain ⟨earlier, later, hlog⟩ := List.append_of_mem hmem
      exact pool.allows lawful trivial (fun i => UserText.handled_writing (request i)) hlog hwho
  have hstep : ∀ record ∈ log,
      Call.Exec memStore record.entry.1 record.before record.entry.2 record.after →
      WellFormed record.before ∧ EveryUser (fun row => Normalised row.externalId) record.before →
      WellFormed record.after ∧ EveryUser (fun row => Normalised row.externalId) record.after := by
    intro record hmem exec ⟨ok, ids⟩
    have hmay := may record hmem
    obtain ⟨who, ⟨call, reply⟩, before, after⟩ := record
    cases call with
    | store op =>
      have hafter : (Inner.exec op before).2 = after := congrArg Prod.snd exec
      subst hafter
      exact ⟨(before.exec_changes op).wellFormed ok,
        Inner.exec_everyUser (writesOnly_ids (hmay op rfl)) ids⟩
    | now => exact exec ▸ ⟨ok, ids⟩
    | attempt request => exact exec ▸ ⟨ok, ids⟩
  have hnew : EveryUser (fun row => Normalised row.externalId) Inner.new := by
    intro k row hrow
    simp [Inner.new] at hrow
  obtain ⟨ok, ids⟩ := pool.chain.keeps (P := fun s => WellFormed s ∧
    EveryUser (fun row => Normalised row.externalId) s) hstep ⟨wellFormed_new, hnew⟩
  exact ⟨ok, ids, free⟩

/-- What the logins leave: one row of the identity, and nothing else has changed but for the
groups its user joined. -/
structure OneRow (spec : EnsureUserSpec) (s₀ s : Inner) (row : UserRecord) : Prop where
  bound : Bound spec s row
  only : ∀ (k : String) (other : UserRecord), s.users[k]? = some other →
    other.externalId = some (identity spec) → other = row
  kept : ∀ old, s₀.users[row.username]? = some old → old = row
  others : ∀ k, k ≠ row.username → s.users[k]? = s₀.users[k]?
  members : ∀ entry, entry ∈ s₀.groupMembers → entry ∈ s.groupMembers
  joined : ∀ entry, entry ∈ s.groupMembers → entry ∈ s₀.groupMembers ∨
    (entry.1 ∈ spec.groups ∧ entry.2 = row.username)
  rest : ∀ table : Table, table ≠ .users → table ≠ .groupMembers → table.Same s₀ s

omit [Core.SecretBox.Aes256Gcm] [Bootstrap.SerdeSaphyr] [SerdeJson] in
theorem oneRow_of_moves {spec : EnsureUserSpec} {s₀ s : Inner} {row : UserRecord}
    (moves : Moves spec s₀ s) (ready : Ready spec s₀) (bound : Bound spec s row) :
    OneRow spec s₀ s row := by
  have ok := (moves.ready ready).ok
  have hkey : ∀ (k : String) (other : UserRecord), s.users[k]? = some other →
      other.externalId = some (identity spec) → k = row.username := fun k other hrow hid =>
    ok.users.externalId k row.username other row _ hrow bound.stored hid bound.externalId
  constructor
  · exact bound
  · intro k other hrow hid
    have hname := hkey k other hrow hid
    subst hname
    rw [bound.stored] at hrow
    exact (Option.some.inj hrow).symm
  · intro old hold
    have hstays := moves.stays _ old hold
    rw [bound.stored] at hstays
    exact (Option.some.inj hstays).symm
  · intro k hne
    cases hrow : s₀.users[k]? with
    | some other => exact moves.stays k other hrow
    | none =>
      apply Option.eq_none_iff_forall_ne_some.mpr
      intro other hother
      rcases moves.added k other hother with hold | ⟨_, ofSpec⟩
      · rw [hrow] at hold
        cases hold
      · exact hne (hkey k other hother ofSpec.externalId)
  · exact moves.members
  · intro entry hmem
    refine (moves.joined entry hmem).imp id fun ⟨hgroup, other, hother, hname⟩ => ⟨hgroup, ?_⟩
    rw [← hname]
    exact hkey _ other hother.stored hother.externalId
  · exact moves.rest

/-- Concurrent first logins agree: in every order of their requests each run can be finished,
and once one is done there is one row of the identity, which every run that is done answers
with; a run that reports a created user has put it in every group there is. -/
theorem logins_agree [DecidableEq ι] {spec : EnsureUserSpec} {maxRetries : ι → Nat}
    {s₀ s : Inner} {log : List (Record Call.Reply Inner ι)}
    {now : ι → Action (Except ClientError EnsuredUser)} (given : Given spec) (served : Served s₀)
    (free : ∀ row, s₀.users[spec.username]? = some row → row.externalId = some (identity spec))
    (pool : Pool Answering ReadsOnly (fun i => createUserWithGroups (maxRetries i) spec)
      s₀ log now s) :
    (∀ i, ∃ more now' s' answer,
      Pool Answering ReadsOnly (fun i => createUserWithGroups (maxRetries i) spec) s₀
        (log ++ more) now' s' ∧ now' i = .done answer) ∧
    ∀ i answer, now i = .done answer → ∃ row, OneRow spec s₀ s row ∧
      ∀ j answer, now j = .done answer → ∃ created,
        answer = .ok ⟨Service.userToWire row, created⟩ ∧
        (created = true → ∀ group ∈ spec.groups, Joined s row.username group) := by
  have ready := served_ready served free
  have total : ∀ call s, ∃ reply s', Answering call s reply s' := by
    intro call s
    cases call with
    | store op => exact ⟨_, _, rfl⟩
    | now => exact ⟨⟨0⟩, s, rfl⟩
    | attempt request => exact ⟨.answered, s, rfl, rfl⟩
  have standing : ∀ i, Stands spec (Agreed spec) (createUserWithGroups (maxRetries i) spec) s₀ :=
    fun i => createUserWithGroups_stands (maxRetries i) given ready
  obtain ⟨moves, stands⟩ := pool.withstands
    (fun _ _ _ _ reads exec => readsOnly_moves reads exec) standing
  have agreed : ∀ i answer, now i = .done answer → Agreed spec s answer := by
    intro i answer finished
    have h := stands i
    rw [finished] at h
    exact h s (.refl s)
  refine ⟨pool.finishes total, fun i answer finished => ?_⟩
  obtain ⟨row, bound⟩ : ∃ row, Bound spec s row := by
    cases agreed i answer finished with
    | found row bound => exact ⟨row, bound⟩
    | created row bound => exact ⟨row, bound⟩
  have oneRow := oneRow_of_moves moves ready bound
  refine ⟨row, oneRow, fun j answer finished => ?_⟩
  cases agreed j answer finished with
  | found other hother =>
    obtain rfl := oneRow.only _ other hother.stored hother.externalId
    exact ⟨false, rfl, nofun⟩
  | created other hother joined =>
    obtain rfl := oneRow.only _ other hother.stored hother.externalId
    exact ⟨true, rfl, fun _ => joined⟩

end Served

/-! Two logins of one identity whose email another user holds. -/

def sharedEmail : EnsureUserSpec :=
  ⟨" sub-1 ", "ada", some "a@x", none, "oidc", ["developers", "missing"]⟩

/-- A group, and a user with the email. -/
def before : Moment Call Call.Reply Unit Inner Unit :=
  let pick : Program.Pick Call.Reply Inner := Call.pick memStore ⟨0⟩ .answered
  ((((Moment.initial (fun _ => UserText.handled
    (.createUser ⟨"bob", some "a@x", none, none, none, some "sub-2", none⟩)) Inner.new).meanwhile
      (.store (.createGroup ⟨"developers", none, ⟨0⟩⟩)) pick).turn () pick).turn () pick)

def schedule : List Bool :=
  [false, true, true, false, false, true] ++ List.replicate 15 false ++ List.replicate 30 true

def logins : Moment Call Call.Reply (Except ClientError EnsuredUser) Inner Bool :=
  (Moment.initial (fun _ => createUserWithGroups 0 sharedEmail) before.state).play
    (schedule.map fun i => (i, Call.pick memStore ⟨0⟩ .answered))

theorem pick_answering (call : Call) (s : Inner) :
    Answering call s (Call.pick memStore ⟨0⟩ .answered call s).1
      (Call.pick memStore ⟨0⟩ .answered call s).2 := by
  cases call with
  | store op => rfl
  | now => rfl
  | attempt request => exact ⟨rfl, rfl⟩

theorem before_served :
    @Served Core.SecretBox.plainCipher UserText.readsNothing noLists before.state := by
  have honest := Call.pick_exec memStore ⟨0⟩ .answered
  have group : UserText.BesideNothing (.store (.createGroup ⟨"developers", none, ⟨0⟩⟩)) :=
    ⟨_, rfl, .inl id⟩
  exact ⟨Unit, inferInstance, _, _, _,
    ((Moment.Reached.initial.meanwhile group honest).turn () honest).turn () honest⟩

theorem logins_agree_sharedEmail : ∃ row, OneRow sharedEmail before.state logins.state row ∧
    ∀ j answer, logins.now j = .done answer → ∃ created,
      answer = .ok ⟨Service.userToWire row, created⟩ ∧
      (created = true → ∀ group ∈ sharedEmail.groups, Joined logins.state row.username group) := by
  have given : Given sharedEmail := by
    refine ⟨(validateEntityId_ok_iff "user" _).mp (by rfl), by decide, ?_⟩
    intro group hgroup
    rcases List.mem_pair.mp hgroup with rfl | rfl
    · exact (validateEntityId_ok_iff "group" _).mp (by rfl)
    · exact (validateEntityId_ok_iff "group" _).mp (by rfl)
  have free : ∀ row, before.state.users[sharedEmail.username]? = some row →
      row.externalId = some (identity sharedEmail) := by
    intro row hrow
    have hnone : before.state.users[sharedEmail.username]? = none := by decide
    rw [hnone] at hrow
    cases hrow
  have pool : Moment.Reached Answering ReadsOnly (fun _ => createUserWithGroups 0 sharedEmail)
      before.state logins := by
    apply Moment.Reached.initial.play
    intro next hnext call s
    obtain ⟨i, _, rfl⟩ := List.mem_map.mp hnext
    exact pick_answering call s
  have finished : logins.now false =
      .done (.ok ⟨⟨"ada", 0, none, none, some "oidc", none, some "sub-1"⟩, true⟩) := by
    rfl
  exact (@logins_agree Core.SecretBox.plainCipher UserText.readsNothing noLists Bool _
    sharedEmail (fun _ => 0) _ _ _ _ given before_served free pool).2 false _ finished

end LakeFsAuth.AuthzClient.FirstLogins
