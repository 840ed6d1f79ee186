import LakeFsAuth.Authz.Bootstrap
import LakeFsAuth.Authz.Handlers
import LakeFsAuth.Authz.Store.BootstrapOps
import LakeFsAuth.Authz.Store.UserTable

/-! The optional text of stored users. A create and a bootstrap file normalise it; an
update of the friendly name stores what it is given. -/
namespace LakeFsAuth.Authz.UserText
open LakeFsAuth.Core Core.Error Core.Model Core.Text Store Store.Mem Api Bootstrap Library Library.Program
open Library.OrderedMap Library.Fallible

/-- The optional text of a user, as it is stored. -/
structure TextOk (friendlyName email source externalId : Option String) : Prop where
  friendlyName : Normalised friendlyName
  email : Normalised email
  source : Normalised source
  externalId : Normalised externalId

def RowOk (row : UserRecord) : Prop :=
  TextOk row.friendlyName row.email row.source row.externalId

def UserOk (user : NewUser) : Prop :=
  TextOk user.friendlyName user.email user.source user.externalId

/-- Every user of the store has normalised text. -/
def TextsNormalised (s : Inner) : Prop :=
  ∀ (username : String) (row : UserRecord), s.users[username]? = some row → RowOk row

theorem validated_userOk {username : String} {fields : UserFields} {creationDate : Timestamp}
    {user : NewUser} (h : NewUser.validated username fields creationDate = .ok user) :
    UserOk user := by
  obtain ⟨_, _, hrest⟩ := bind_ok h
  cases hrest
  exact ⟨normalised_optionalText _, normalised_optionalText _, normalised_optionalText _,
    normalised_optionalText _⟩

/-! One operation. -/

/-- What an operation may write into the text of users. -/
def WritesText : StoreOp → Prop
  | .createUser user => UserOk user
  | .setFriendlyName _ name => Normalised (some name)
  | .applyBootstrap plan => ∀ user ∈ plan.users, UserOk user
  | _ => True

/-- An operation that writes normalised text leaves normalised text. -/
theorem exec_normalised {s : Inner} {op : StoreOp} (writes : WritesText op)
    (h : TextsNormalised s) : TextsNormalised (Inner.exec op s).2 := by
  have only : WritesOnly RowOk op := by
    constructor
    · rintro user rfl id
      exact writes
    · rintro plan rfl user huser id
      exact writes user huser
    · rintro username name rfl row ok
      exact { ok with friendlyName := writes }
  exact Inner.exec_everyUser only h

/-! The requests. -/

/-- What a request calls: a create stores normalised text, and nothing runs a plan. -/
def MayWrite (call : Call) : Prop :=
  ∀ op, call = .store op → (∃ username name, op = .setFriendlyName username name) ∨ WritesText op

theorem mayWrite_store {op : StoreOp} (h : WritesText op) : MayWrite (.store op) := by
  intro op' heq
  cases heq
  exact .inr h

/-- A request, its answer aside. -/
def handled (request : Request) : Action Unit := do
  let _ ← Handlers.handle request
  return ()

abbrev Writing (p : Action α) (calls : List (Entry Call.Reply)) : Prop :=
  Meets (Seen fun _ _ => True) (fun _ _ call => MayWrite call) (fun _ _ _ => True) p calls ()

theorem store_writing {op : StoreOp} (h : MayWrite (.store op)) {f : op.Reply → Action α}
    {calls : List (Entry Call.Reply)} (hf : ∀ reply calls, Writing (f reply) calls) :
    Writing (store op >>= f) calls :=
  ⟨h, fun reply _ _ => hf reply _⟩

theorem createUser_writing (body : UserCreation) (calls : List (Entry Call.Reply)) :
    Writing (Service.createUser body) calls := by
  unfold Service.createUser
  split
  · trivial
  · refine Meets.perform_bind (nofun : MayWrite .now) fun date _ _ => ?_
    split
    · trivial
    · rename_i requested hrequested
      have hcreate : MayWrite (.store (.createUser requested)) :=
        mayWrite_store (validated_userOk hrequested)
      refine store_writing hcreate fun created calls => Meets.bind (M := fun _ _ _ => True) ?_ ?_
      · unfold Service.createOrExisting
        split
        · trivial
        · split
          · refine store_writing (mayWrite_store (by trivial)) fun reread calls => ?_
            split
            · split <;> trivial
            · trivial
            · trivial
          · trivial
      · intros
        trivial

theorem listUsers_writing (query : ListUsersQuery) (calls : List (Entry Call.Reply)) :
    Writing (Handlers.listUsers query) calls := by
  unfold Handlers.listUsers
  split
  · split
    · trivial
    · exact store_writing (mayWrite_store (by trivial)) fun _ _ => trivial
  · exact store_writing (mayWrite_store (by trivial)) fun _ _ => trivial
  · exact store_writing (mayWrite_store (by trivial)) fun _ _ => trivial
  · exact store_writing (mayWrite_store (by trivial)) fun _ _ => trivial

theorem answer_writing (request : Request) (calls : List (Entry Call.Reply)) :
    Writing (Handlers.answer request) calls := by
  cases request with
  | listUsers query => exact listUsers_writing query calls
  | createUser body => exact createUser_writing body calls
  | healthcheck | version => trivial
  | getUser username => exact store_writing (mayWrite_store (by trivial)) fun _ _ => trivial
  | listUserGroups username params =>
    exact store_writing (mayWrite_store (by trivial)) fun _ _ => trivial
  | createCredentials cipher draw username =>
    change Writing (@Service.createCredentials cipher draw username none none) _
    unfold Service.createCredentials
    refine Meets.perform_bind (nofun : MayWrite .now) fun date _ _ => ?_
    split
    · trivial
    · refine store_writing (mayWrite_store (by trivial)) fun reply _ => ?_
      cases reply <;> trivial
  | deleteUser username => exact store_writing (mayWrite_store (by trivial)) fun _ _ => trivial
  | updateFriendlyName username name =>
    refine store_writing ?_ fun _ _ => trivial
    intro op heq
    cases heq
    exact .inl ⟨username, name, rfl⟩
  | addMembership groupId username =>
    exact store_writing (mayWrite_store (by trivial)) fun _ _ => trivial

theorem handled_writing (request : Request) : Writing (handled request) [] := by
  refine Meets.bind (M := fun _ _ _ => True) ?_ fun _ _ _ _ => trivial
  exact Meets.bind (M := fun _ _ _ => True) (answer_writing request []) fun _ _ _ _ => trivial

/-! Runs. -/

section Runs
variable [SecretBox.Aes256Gcm] [SerdeSaphyr] [Core.Validate.SerdeJson]

/-- What runs beside the requests that write users: the plan of a bootstrap file, and every
store call of the other handlers and services. -/
def Beside (call : Call) : Prop :=
  ∃ op, call = .store op ∧ (¬ WritesUsers op ∨ ∃ env nonces now yaml plan,
    parsePlanWithEnv env nonces now yaml = .ok plan ∧ op = .applyBootstrap plan)

omit [SecretBox.Aes256Gcm] [SerdeSaphyr] [Core.Validate.SerdeJson] in
theorem writesText_of_not_users {op : StoreOp} (h : ¬ WritesUsers op) : WritesText op := by
  cases op <;> first | trivial | exact absurd trivial h

theorem beside_mayWrite {call : Call} (h : Beside call) : MayWrite call := by
  obtain ⟨op, rfl, husers | ⟨env, nonces, now, yaml, plan, parsed, rfl⟩⟩ := h
  · exact mayWrite_store (writesText_of_not_users husers)
  · obtain ⟨file, _, planOf⟩ := parsePlanWithEnv_planOf parsed
    apply mayWrite_store
    intro user huser
    have row := planOf.users user huser
    exact ⟨row.friendlyName, row.email, row.source, row.externalId⟩

variable {ι : Type}

/-- A rename of a user that is there writes normalised text. -/
def CleanRename (record : Record Call.Reply Inner ι) : Prop :=
  ∀ username name, record.entry.1 = .store (.setFriendlyName username name) →
    record.before.users.contains username = true → Normalised (some name)

omit [SecretBox.Aes256Gcm] [SerdeSaphyr] [Core.Validate.SerdeJson] in
/-- A call that may write keeps the text normalised when its rename is clean. -/
theorem record_keeps {record : Record Call.Reply Inner ι} (may : MayWrite record.entry.1)
    (clean : CleanRename record)
    (exec : Call.Exec memStore record.entry.1 record.before record.entry.2 record.after)
    (h : TextsNormalised record.before) : TextsNormalised record.after := by
  obtain ⟨who, ⟨call, reply⟩, before, after⟩ := record
  cases call with
  | store op =>
    have hafter : (Inner.exec op before).2 = after := congrArg Prod.snd exec
    rw [← hafter]
    rcases may op rfl with ⟨username, name, rfl⟩ | writes
    · cases hcontains : before.users.contains username with
      | true => exact exec_normalised (clean username name rfl hcontains) h
      | false =>
        change TextsNormalised (before.setFriendlyName username name).2
        unfold Inner.setFriendlyName
        rw [(not_contains_iff _ _).mp hcontains]
        exact h
    · exact exec_normalised writes h
  | now => exact exec ▸ h
  | attempt request => exact exec ▸ h

omit [SecretBox.Aes256Gcm] [SerdeSaphyr] [Core.Validate.SerdeJson] in
/-- A rename of a user that is there stores its text as it is. -/
theorem cleanRename_of_after {record : Record Call.Reply Inner ι}
    (exec : Call.Exec memStore record.entry.1 record.before record.entry.2 record.after)
    (h : TextsNormalised record.after) : CleanRename record := by
  obtain ⟨who, ⟨call, reply⟩, before, after⟩ := record
  rintro username name rfl hcontains
  obtain ⟨row, hrow⟩ := (contains_iff _ _).mp hcontains
  have hafter : (before.setFriendlyName username name).2 = after := congrArg Prod.snd exec
  have hstored : after.users[username]? = some { row with friendlyName := some name } := by
    rw [← hafter]
    unfold Inner.setFriendlyName
    rw [hrow]
    simp only [get_insert, if_true]
  exact (h username _ hstored).friendlyName

/-- Along a run from the empty store, every state has normalised text exactly when every
update of a stored user's friendly name wrote a normalised one. -/
theorem texts_normalised_iff [DecidableEq ι] {request : ι → Request} {s : Inner}
    {log : List (Record Call.Reply Inner ι)} {now : ι → Action Unit}
    (pool : Pool (Call.Exec memStore) Beside (fun i => handled (request i)) Inner.new log now s) :
    (TextsNormalised s ∧ ∀ record ∈ log, TextsNormalised record.before) ↔
      ∀ record ∈ log, CleanRename record := by
  have lawful : Lawful (Call.Exec memStore) (fun _ => True) (fun _ _ => True) :=
    ⟨fun _ _ => trivial, fun _ _ => trivial⟩
  have may : ∀ record ∈ log, MayWrite record.entry.1 := by
    intro record hmem
    cases hwho : record.who with
    | none => exact beside_mayWrite (pool.others hmem hwho)
    | some i =>
      obtain ⟨earlier, later, hlog⟩ := List.append_of_mem hmem
      exact pool.allows lawful trivial (fun i => handled_writing (request i)) hlog hwho
  have hnew : TextsNormalised Inner.new := by
    intro username row hrow
    simp [Inner.new] at hrow
  constructor
  · rintro ⟨hlast, hbefore⟩ record hmem
    obtain ⟨earlier, later, hlog⟩ := List.append_of_mem hmem
    obtain ⟨_, exec, hlater⟩ := pool.at hlog
    apply cleanRename_of_after exec
    cases later with
    | nil => exact hlater.of_nil ▸ hlast
    | cons next later =>
      obtain ⟨hnext, _⟩ := hlater.head
      exact hnext ▸ hbefore next (by simp [hlog])
  · intro clean
    constructor
    · exact pool.chain.keeps
        (fun record hmem exec => record_keeps (may record hmem) (clean record hmem) exec) hnew
    · intro record hmem
      obtain ⟨earlier, later, hlog⟩ := List.append_of_mem hmem
      obtain ⟨hearlier, _⟩ := pool.at hlog
      apply hearlier.keeps _ hnew
      intro past hpast exec
      have hpast : past ∈ log := by simp [hlog, hpast]
      exact record_keeps (may past hpast) (clean past hpast) exec

end Runs

/-! A user is created and then renamed. -/

@[reducible] def readsNothing : SerdeSaphyr := ⟨fun _ => .ok .default⟩

def renames (name : String) (second : Bool) : Request :=
  if second then .updateFriendlyName "ada" name
  else .createUser ⟨"ada", none, some " Ada ", none, none, none, none⟩

def renamed (name : String) : Moment Call Call.Reply Unit Inner Bool :=
  (Moment.initial (fun i => handled (renames name i)) Inner.new).play
    (Call.picks memStore ⟨0⟩ [(false, .answered), (false, .answered), (true, .answered)])

abbrev BesideNothing : Call → Prop :=
  @Beside SecretBox.plainCipher readsNothing Validate.noLists

theorem renamed_pool (name : String) : Pool (Call.Exec memStore) BesideNothing
    (fun i => handled (renames name i)) Inner.new (renamed name).log (renamed name).now
      (renamed name).state :=
  Moment.Reached.initial.play (Call.picks_exec _ _ _)

theorem texts_normalised_iff_renamed :
    (TextsNormalised (renamed "Ada L.").state ∧
      ∀ record ∈ (renamed "Ada L.").log, TextsNormalised record.before) ↔
      ∀ record ∈ (renamed "Ada L.").log, CleanRename record :=
  @texts_normalised_iff SecretBox.plainCipher readsNothing Validate.noLists _ _ _ _ _ _
    (renamed_pool "Ada L.")

/-- A blank friendly name is stored. -/
theorem blank_rename_stored : ∃ (log : List (Record Call.Reply Inner Bool))
    (now : Bool → Action Unit) (s : Inner),
    Pool (Call.Exec memStore) BesideNothing (fun i => handled (renames "  " i)) Inner.new log now s ∧
      ¬ TextsNormalised s := by
  refine ⟨_, _, _, renamed_pool "  ", fun h => ?_⟩
  have hstored : (renamed "  ").state.users["ada"]? =
      some ⟨"ada", 1, ⟨0⟩, some "  ", none, none, none, none⟩ := by decide
  have hname := (h "ada" _ hstored).friendlyName "  " rfl
  have htrim : trim "  " ≠ "  " := by decide
  exact htrim hname.2

end LakeFsAuth.Authz.UserText
