import LakeFsAuth.AuthzClient.Shared

/-! Logins keep their identities apart. The answer of a login is a row that carries
its subject as the store normalises it, and a row keeps its external id until it is
deleted. -/
namespace LakeFsAuth.Authn
open Core.Text Authz Authz.Store Authz.Api AuthzClient Library Library.Program

theorem claimText_nonBlank {claims : Claims} {name text : String}
    (h : claimText claims name = some text) : nonBlank text = some (trim text) := by
  obtain ⟨_, hnonblank⟩ := Option.filter_eq_some_iff.mp h
  exact nonBlank_of_trim_ne _ (by simpa using hnonblank)

/-- One login: the provider's claims, under the settings of the service that runs it. -/
structure Login where
  settings : ProvisionSettings
  maxRetries : Nat
  claims : Claims

namespace Login
variable (login : Login)

def run : Action (Except ProvisionError EnsuredUser) :=
  login.settings.ensureUser login.maxRetries login.claims

def subject : Option String := claimText login.claims "sub"

/-- The user is a row the login was shown, and that row carries the login's subject,
trimmed. -/
def Owns (log : List (Entry Call.Reply)) (ensured : EnsuredUser) : Prop :=
  ∃ subject row, login.subject = some subject ∧ ensured.user = Service.userToWire row ∧
    Told log row ∧ row.externalId = some (trim subject)

theorem refreshFriendlyName_conveys (user : Core.Model.User) {log : List (Entry Call.Reply)} :
    Conveys (login.settings.refreshFriendlyName login.maxRetries login.claims user)
      (fun _ _ => True) log := by
  unfold ProvisionSettings.refreshFriendlyName
  split
  · exact trivial
  · split
    · exact Meets.bind (updateFriendlyName_conveys login.maxRetries _ _) fun _ _ _ _ => trivial
    · exact trivial

theorem provision_conveys (subject : String) {log : List (Entry Call.Reply)} :
    Conveys (login.settings.provision login.maxRetries login.claims subject)
      (fun log result => ∀ ensured, result = .ok ensured →
        Holds subject log ensured.user) log := by
  unfold ProvisionSettings.provision
  split
  · split
    · intro ensured h
      cases h
    · rename_i username _
      refine Meets.bind (createUserWithGroups_conveys login.maxRetries
        (login.settings.spec login.claims subject username)) fun log _ result hresult => ?_
      split
      · intro ensured h
        cases h
        exact hresult _ rfl
      · intro ensured h
        cases h
      · intro ensured h
        cases h
  · intro ensured h
    cases h

theorem run_conveys {log : List (Entry Call.Reply)} :
    Conveys login.run (fun log result => ∀ ensured, result = .ok ensured →
      login.Owns log ensured) log := by
  unfold run ProvisionSettings.ensureUser
  split
  · intro ensured h
    cases h
  · rename_i subject hsubject
    have hnonblank := claimText_nonBlank hsubject
    refine Meets.bind (findUserByExternalId_conveys login.maxRetries subject)
      fun log _ found hfound => ?_
    split
    · intro ensured h
      cases h
    · rename_i user
      obtain ⟨row, huser, htold, hid⟩ := hfound user rfl
      refine Meets.bind (login.refreshFriendlyName_conveys user).extends fun log' _ _ hlog => ?_
      intro ensured h
      cases h
      exact ⟨subject, row, hsubject, huser, htold.mono hlog.1, hid⟩
    · refine (login.provision_conveys subject).mono fun log' _ result hresult => ?_
      intro ensured h
      obtain ⟨row, huser, htold, hid⟩ := hresult ensured h
      exact ⟨subject, row, hsubject, huser, htold, hid _ hnonblank⟩

end Login

section
variable {σ ι : Type} [DecidableEq ι] {impl : StoreImpl σ} (table : UserTable impl)
  {Others : Call → Prop} {logins : ι → Login} {s₀ s : σ} {log : List (Record Call.Reply σ ι)}
  {now : ι → Action (Except ProvisionError EnsuredUser)}

theorem login_owns
    (pool : Pool (Call.Exec impl) Others (fun i => (logins i).run) s₀ log now s)
    (init : table.Inv s₀) {i : ι} {ensured : EnsuredUser}
    (finished : now i = .done (.ok ensured)) : (logins i).Owns (callsOf i log) ensured :=
  pool.answers (lawful table) init (fun i => (logins i).run_conveys) finished ensured rfl

/-- The record that showed login `i` the row its answer was taken from. -/
def Source (record : Record Call.Reply σ ι) (i : ι) (ensured : EnsuredUser) : Prop :=
  record.who = some i ∧
    ∃ row, shown record.entry = some row ∧ ensured.user = Service.userToWire row

/-- A delete of the user name between the records two logins took their answers
from. -/
def DeletedBetween (log : List (Record Call.Reply σ ι)) (i j : ι) (a b : EnsuredUser) : Prop :=
  ∃ earlier first between second later, log = earlier ++ first :: (between ++ second :: later) ∧
    (Source first i a ∧ Source second j b ∨ Source first j b ∧ Source second i a) ∧
    ∃ record ∈ between, Deletes a.user.username record.entry

theorem login_deleted_between
    (pool : Pool (Call.Exec impl) Others (fun i => (logins i).run) s₀ log now s)
    (init : table.Inv s₀) {i j : ι} {a b : EnsuredUser}
    (finished : now i = .done (.ok a)) (finished' : now j = .done (.ok b))
    (name : a.user.username = b.user.username)
    (differ : (logins i).subject.map trim ≠ (logins j).subject.map trim) :
    DeletedBetween log i j a b := by
  obtain ⟨subject, row, hsubject, huser, ⟨_, hmem, hshown⟩, hexternal⟩ :=
    login_owns table pool init finished
  obtain ⟨subject', row', hsubject', huser', ⟨_, hmem', hshown'⟩, hexternal'⟩ :=
    login_owns table pool init finished'
  obtain ⟨first, hfirst, hwho, rfl⟩ := (mem_callsOf _ _).mp hmem
  obtain ⟨second, hsecond, hwho', rfl⟩ := (mem_callsOf _ _).mp hmem'
  have source : Source first i a := ⟨hwho, row, hshown, huser⟩
  have source' : Source second j b := ⟨hwho', row', hshown', huser'⟩
  have hname : a.user.username = row.username := by rw [huser]; rfl
  have hname' : row.username = row'.username := by
    rw [huser, huser'] at name
    exact name
  have hids : row.externalId ≠ row'.externalId := by
    rw [hsubject, hsubject'] at differ
    rw [hexternal, hexternal']
    exact differ
  have hne : first ≠ second := by
    rintro rfl
    rw [hshown] at hshown'
    cases hshown'
    exact hids rfl
  obtain ⟨earlier, between, later, hlog | hlog⟩ := EventLog.split_two hfirst hsecond hne
  · refine ⟨earlier, first, between, second, later, hlog, .inl ⟨source, source'⟩, ?_⟩
    rw [hname]
    exact deleted_between table (hlog ▸ pool.chain) init hshown hshown' hname' hids
  · refine ⟨earlier, second, between, first, later, hlog, .inr ⟨source', source⟩, ?_⟩
    rw [hname, hname']
    exact deleted_between table (hlog ▸ pool.chain) init hshown' hshown hname'.symm hids.symm

theorem lookup_matches
    (pool : Pool (Call.Exec impl) Others (fun i => (logins i).run) s₀ log now s)
    (init : table.Inv s₀) {record : Record Call.Reply σ ι} (hrecord : record ∈ log)
    {externalId : String} {row : UserRecord}
    (h : record.entry = ⟨.store (.findUserByExternalId externalId), .ok (some row)⟩) :
    row.externalId = some externalId := by
  obtain ⟨earlier, later, hlog⟩ := List.append_of_mem hrecord
  obtain ⟨hchain, hexec, _⟩ := pool.at hlog
  have inv := hchain.lawful (lawful table) init
  rw [h] at hexec
  exact (lawful table).law inv hexec

theorem row_keeps_identity
    (pool : Pool (Call.Exec impl) Others (fun i => (logins i).run) s₀ log now s)
    (init : table.Inv s₀) {record : Record Call.Reply σ ι} (hrecord : record ∈ log)
    {name : String} {row : UserRecord} (stored : table.row record.before name = some row)
    (kept : ¬ Deletes name record.entry) : Same table record.after name row := by
  obtain ⟨earlier, later, hlog⟩ := List.append_of_mem hrecord
  obtain ⟨hchain, hexec, _⟩ := pool.at hlog
  have same : Same table record.before name row := ⟨row, stored, rfl, rfl⟩
  exact same.step table (hchain.lawful (lawful table) init) hexec kept

end

section Memory
open Mem Moment

variable {ι : Type} [DecidableEq ι]

/-- In every run of any logins, among any other operations, an answer is a row of the
login's own subject, lookups answer with rows of the id they ask for, a stored row
keeps its identity, and one name goes to two subjects only across a delete. -/
theorem logins_isolated (ops : List StoreOp) (logins : ι → Login)
    (log : List (Record Call.Reply Inner ι))
    (now : ι → Action (Except ProvisionError EnsuredUser)) (s : Inner)
    (pool : Pool (Call.Exec memStore) (fun _ => True) (fun i => (logins i).run)
      (Inner.new.after ops) log now s) :
    (∀ i ensured, now i = .done (.ok ensured) → (logins i).Owns (callsOf i log) ensured) ∧
    (∀ record ∈ log, ∀ externalId row,
      record.entry = ⟨.store (.findUserByExternalId externalId), .ok (some row)⟩ →
        row.externalId = some externalId) ∧
    (∀ record ∈ log, ∀ name row, userTable.row record.before name = some row →
      ¬ Deletes name record.entry → Same userTable record.after name row) ∧
    ∀ i j a b, now i = .done (.ok a) → now j = .done (.ok b) →
      a.user.username = b.user.username →
      (logins i).subject.map trim ≠ (logins j).subject.map trim → DeletedBetween log i j a b := by
  have init := Inner.after_wellFormed ops
  refine ⟨?_, ?_, ?_, ?_⟩
  · intro i ensured finished
    exact login_owns userTable pool init finished
  · intro record hrecord externalId row
    exact lookup_matches userTable pool init hrecord
  · intro record hrecord name row
    exact row_keeps_identity userTable pool init hrecord
  · intro i j a b finished finished' name differ
    exact login_deleted_between userTable pool init finished finished' name differ

/-- The settings of a service that takes the username from `preferred_username`. -/
def plainSettings : ProvisionSettings where
  usernameClaims := ["preferred_username"]
  friendlyNameClaim := "name"
  persistFriendlyName := false
  initialGroups := []
  groupsClaim := none
  groupMap := ∅
  groupMapStrict := false
  source := "oidc"
  autoProvision := true

def loginAs (subject username : String) : Login :=
  ⟨plainSettings, 0, [("preferred_username", .string username), ("sub", .string subject)]⟩

/-- The user of such a login. -/
def userOf (username subject : String) : Core.Model.User where
  username := username
  creationDate := 0
  friendlyName := none
  email := none
  source := some "oidc"
  encryptedPassword := none
  externalId := some subject

/-- The logins `false` and then `true`, on a good day. -/
def firstLogin (logins : Bool → Login) :
    Moment Call Call.Reply (Except ProvisionError EnsuredUser) Inner Bool :=
  (Moment.initial (fun i => (logins i).run) Inner.new).play
    (Call.picks memStore ⟨0⟩ (List.replicate 5 (false, .answered)))

def secondTurns (n : Nat) : List (Bool × Pick Call.Reply Inner) :=
  Call.picks memStore ⟨0⟩ (List.replicate n (true, .answered))

theorem firstLogin_reached (logins : Bool → Login) :
    Reached (Call.Exec memStore) (fun _ => True) (fun i => (logins i).run) (Inner.new.after [])
      (firstLogin logins) :=
  Reached.initial.play (Call.picks_exec memStore ⟨0⟩ _)

/-- Two subjects of one name: the user of the first is deleted before the second
logs in. -/
def successors (i : Bool) : Login := loginAs (if i then "2" else "1") "ada"

def acrossDelete : Moment Call Call.Reply (Except ProvisionError EnsuredUser) Inner Bool :=
  ((firstLogin successors).meanwhile (.store (.deleteUser "ada"))
    (Call.pick memStore ⟨0⟩ .answered)).play (secondTurns 5)

theorem logins_isolated_across_delete :
    DeletedBetween acrossDelete.log false true ⟨userOf "ada" "1", true⟩
      ⟨userOf "ada" "2", true⟩ := by
  have pool : Reached (Call.Exec memStore) (fun _ => True) _ _ acrossDelete :=
    ((firstLogin_reached successors).meanwhile trivial
      (Call.pick_exec memStore ⟨0⟩ .answered)).play (Call.picks_exec memStore ⟨0⟩ _)
  exact (logins_isolated [] successors _ _ _ pool).2.2.2 false true _ _ (by rfl) (by rfl) rfl
    (by decide)

/-- Two subjects that differ by a blank at the end. -/
def padded (i : Bool) : Login := if i then loginAs "1 " "bob" else loginAs "1" "ada"

def paddedLogins : Moment Call Call.Reply (Except ProvisionError EnsuredUser) Inner Bool :=
  (firstLogin padded).play (secondTurns 2)

def isDelete : Call → Bool
  | .store (.deleteUser _) => true
  | _ => false

/-- They are one identity to the store: both logins answer with the same user, and
nobody deletes it. -/
theorem padded_subject_shares_user :
    Reached (Call.Exec memStore) (fun _ => True) (fun i => (padded i).run) (Inner.new.after [])
      paddedLogins ∧
    (padded false).subject ≠ (padded true).subject ∧
    paddedLogins.now false = .done (.ok ⟨userOf "ada" "1", true⟩) ∧
    paddedLogins.now true = .done (.ok ⟨userOf "ada" "1", false⟩) ∧
    ∀ record ∈ paddedLogins.log, ¬ Deletes "ada" record.entry := by
  refine ⟨(firstLogin_reached padded).play (Call.picks_exec memStore ⟨0⟩ _),
    by decide, by rfl, by rfl, ?_⟩
  have calls : ∀ record ∈ paddedLogins.log, isDelete record.entry.1 = false := by decide
  intro record hrecord hdeletes
  have h := calls record hrecord
  rw [hdeletes] at h
  cases h

end Memory

end LakeFsAuth.Authn
