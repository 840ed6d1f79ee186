import LakeFsAuth.Authz.Bootstrap
import LakeFsAuth.Authz.Service
import LakeFsAuth.Authz.Store.BootstrapOps
import LakeFsAuth.Authz.Store.Frame

/-! Access keys over the history of a store: what a create leaves behind, the ways a key
disappears, and what a lookup of it answers. -/
namespace LakeFsAuth.Authz.Credentials
open LakeFsAuth.Core Core.Error Core.Model Store Store.Mem Api Bootstrap
open Library Library.Program Library.OrderedMap Library.Fallible Library.EventLog

/-- What a lookup of an access key shows. -/
structure Key where
  accessKeyId : String
  secret : String
  username : String
  deriving DecidableEq

inductive KeyEvent where
  | created (key : Key)
  | keyDeleted (username accessKeyId : String)
  | userDeleted (username : String)
  deriving DecidableEq

/-- A key ends with the delete route of its owner, or with its owner. -/
def KeyEvent.Ends : KeyEvent → Key → Prop
  | created _, _ => False
  | keyDeleted username accessKeyId, key =>
      key.username = username ∧ key.accessKeyId = accessKeyId
  | userDeleted username, key => key.username = username

instance : Events Key KeyEvent := ⟨.created, KeyEvent.Ends⟩

/-- A request for a new key. -/
structure Creation where
  draw : Service.Draw
  username : String
  accessKey : Option String
  secretKey : Option String

/-- The pair a request asks for, or the one it draws. -/
def Creation.pair (creation : Creation) : String × String :=
  Service.keyPair creation.draw creation.accessKey creation.secretKey

def Creation.key (creation : Creation) : Key :=
  ⟨creation.pair.1, creation.pair.2, creation.username⟩

section Keys
variable [SecretBox.Aes256Gcm]

def Creation.run (creation : Creation) : Action (Except ApiError CredentialsWithSecret) :=
  Service.createCredentials creation.draw creation.username creation.accessKey creation.secretKey

/-- The store holds a key. -/
def Holds (s : Inner) (key : Key) : Prop :=
  ∃ row, s.credentials[key.accessKeyId]? = some row ∧ row.username = key.username ∧
    SecretBox.openStr row.secretCiphertext = .ok key.secret

/-- The credentials of a plan that a run over a store creates: the first one of each access
key that is not there yet. -/
def missing (s : Inner) (credentials : List NewCredential) : List NewCredential :=
  credentials.filter fun credential => !s.credentials.contains credential.accessKeyId &&
    credentials.find? (·.accessKeyId == credential.accessKeyId) == some credential

/-- The key a sealed credential is. -/
def keyOf (credential : NewCredential) : Option Key :=
  match SecretBox.openStr credential.secretCiphertext with
  | .ok secret => some ⟨credential.accessKeyId, secret, credential.username⟩
  | .error _ => none

section Events
variable {ι : Type} (creation : ι → Creation)

/-- What a store call that succeeded did to the keys. -/
def eventsOf (record : Record Call.Reply Inner ι) : List KeyEvent :=
  match record.who, record.entry with
  | some i, ⟨.store (.createCredential _), .ok _⟩ => [.created (creation i).key]
  | _, ⟨.store (.deleteCredential username accessKeyId), .ok _⟩ =>
      [.keyDeleted username accessKeyId]
  | _, ⟨.store (.deleteUser username), .ok _⟩ => [.userDeleted username]
  | _, ⟨.store (.applyBootstrap plan), .ok _⟩ =>
      ((missing record.before plan.credentials).filterMap keyOf).map .created
  | _, _ => []

def events (log : List (Record Call.Reply Inner ι)) : List KeyEvent := log.flatMap (eventsOf creation)

end Events

/-! What one store operation does to the keys. -/

/-- Every secret of a store can be opened. -/
def Opens (s : Inner) : Prop :=
  ∀ (k : String) (row : CredentialRecord), s.credentials[k]? = some row →
    ∃ secret, SecretBox.openStr row.secretCiphertext = .ok secret

/-- The row a create stores is that of the credential. -/
def RowOf (credential : NewCredential) (row : CredentialRecord) : Prop :=
  row.username = credential.username ∧ row.secretCiphertext = credential.secretCiphertext

omit [SecretBox.Aes256Gcm] in
theorem insertCredential_ok {s s' : Inner} {credential : NewCredential} {stored : CredentialRecord}
    (h : s.insertCredential credential = (.ok stored, s')) :
    s.credentials[credential.accessKeyId]? = none ∧ RowOf credential stored ∧
      s' = { s with credentials := s.credentials.insert credential.accessKeyId stored } := by
  unfold Inner.insertCredential at h
  split at h
  · cases h
  · split at h
    · cases h
    · rename_i hfree
      cases h
      exact ⟨(not_contains_iff _ _).mp (Bool.not_eq_true _ ▸ hfree), ⟨rfl, rfl⟩, rfl⟩

theorem holds_insert {s : Inner} {credential : NewCredential} {row : CredentialRecord}
    {secret : String} (free : s.credentials[credential.accessKeyId]? = none)
    (rowOf : RowOf credential row)
    (opened : SecretBox.openStr credential.secretCiphertext = .ok secret) (key : Key) :
    Holds { s with credentials := s.credentials.insert credential.accessKeyId row } key ↔
      key = ⟨credential.accessKeyId, secret, credential.username⟩ ∨ Holds s key := by
  obtain ⟨accessKeyId, other, username⟩ := key
  unfold Holds
  simp only [get_insert]
  by_cases hkey : credential.accessKeyId = accessKeyId
  · subst hkey
    simp only [if_true, free, Option.some.injEq, exists_eq_left', rowOf.1, rowOf.2, opened,
      Except.ok.injEq, Key.mk.injEq, true_and, reduceCtorEq, false_and, exists_false, or_false]
    rw [@eq_comm _ credential.username, @eq_comm _ secret, and_comm]
  · simp only [if_neg hkey, Key.mk.injEq, Ne.symm hkey, false_and, false_or]

theorem opens_insert {s : Inner} {k : String} {row : CredentialRecord} (opens : Opens s)
    (opened : ∃ secret, SecretBox.openStr row.secretCiphertext = .ok secret) :
    Opens { s with credentials := s.credentials.insert k row } := by
  intro other row' hrow
  simp only [get_insert] at hrow
  split at hrow
  · cases hrow
    exact opened
  · exact opens other row' hrow

theorem deleteCredential_holds {s s' : Inner} {username accessKeyId : String}
    (h : s.deleteCredential username accessKeyId = (.ok (), s')) :
    (∀ key, Holds s' key ↔ Holds s key ∧
      ¬ (key.username = username ∧ key.accessKeyId = accessKeyId)) ∧ (Opens s → Opens s') := by
  unfold Inner.deleteCredential at h
  split at h
  · rename_i howner
    cases h
    obtain ⟨row, hrow, hname⟩ := (Option.any_eq_true _ _).mp howner
    refine ⟨fun key => ?_, fun opens k row hrow => opens k row (get_of_erase hrow).2⟩
    unfold Holds
    simp only [get_erase]
    by_cases hkey : accessKeyId = key.accessKeyId
    · subst hkey
      simp only [if_true, reduceCtorEq, false_and, exists_false, and_true, false_iff, not_and,
        not_not]
      rintro ⟨other, hother, hsame, _⟩
      rw [hrow] at hother
      cases hother
      exact hsame.symm.trans (beq_iff_eq.mp hname)
    · simp only [if_neg hkey, Ne.symm hkey, and_false, not_false_eq_true, and_true]
  · cases h

theorem deleteUser_holds {s s' : Inner} {username : String}
    (h : s.deleteUser username = (.ok (), s')) :
    (∀ key, Holds s' key ↔ Holds s key ∧ key.username ≠ username) ∧ (Opens s → Opens s') := by
  unfold Inner.deleteUser at h
  split at h
  · cases h
    refine ⟨fun key => ?_, fun opens k row hrow => opens k row (get_of_retain hrow).1⟩
    unfold Holds
    simp only [Inner.cascadeDeleteUser, get_retain, Option.filter_eq_some_iff, bne_iff_ne]
    constructor
    · rintro ⟨row, ⟨hrow, hne⟩, hname, hopen⟩
      exact ⟨⟨row, hrow, hname, hopen⟩, hname ▸ hne⟩
    · rintro ⟨⟨row, hrow, hname, hopen⟩, hne⟩
      exact ⟨row, ⟨hrow, hname ▸ hne⟩, hname, hopen⟩
  · cases h

/-- A store with the same credentials holds the same keys. -/
theorem holds_congr {s s' : Inner} (h : s'.credentials = s.credentials) (key : Key) :
    Holds s' key ↔ Holds s key := by
  unfold Holds
  rw [h]

theorem opens_congr {s s' : Inner} (h : s'.credentials = s.credentials) (opens : Opens s) :
    Opens s' := by
  intro k row hrow
  rw [h] at hrow
  exact opens k row hrow

/-! What a bootstrap run does to the keys. -/

section Bootstrap
open BootstrapWriter

omit [SecretBox.Aes256Gcm] in
theorem applyCredential_cases {s mid : Inner} {credential : NewCredential} {done : Bool}
    (h : exec (applyCredential credential) s = (.ok done, mid)) :
    (∃ row, s.credentials[credential.accessKeyId]? = some row ∧ mid = s) ∨
    (s.credentials[credential.accessKeyId]? = none ∧ ∃ row, RowOf credential row ∧
      mid = { s with credentials := s.credentials.insert credential.accessKeyId row }) := by
  obtain ⟨existing, between, hinsert, hrest⟩ := exec_bind_ok h
  rw [insertCredentialIfMissing_eq] at hinsert
  cases hstored : s.credentials[credential.accessKeyId]? with
  | some row =>
    rw [hstored] at hinsert
    cases hinsert
    dsimp only at hrest
    split at hrest
    · cases hrest
      exact .inl ⟨row, rfl, rfl⟩
    · cases hrest
  | none =>
    rw [hstored] at hinsert
    cases houtcome : s.insertCredential credential with
    | mk outcome next =>
      rw [houtcome] at hinsert
      cases outcome with
      | error error => cases hinsert
      | ok row =>
        cases hinsert
        cases hrest
        obtain ⟨_, rowOf, hnext⟩ := insertCredential_ok houtcome
        exact .inr ⟨rfl, row, rowOf, hnext⟩

/-- After the credentials of a plan, a key that was there is as it was, and a new one is
that of the first credential with its id. -/
structure Stored (credentials : List NewCredential) (s s' : Inner) : Prop where
  kept : ∀ (k : String) (row : CredentialRecord), s.credentials[k]? = some row →
    s'.credentials[k]? = some row
  unnamed : ∀ (k : String), s.credentials[k]? = none →
    credentials.find? (·.accessKeyId == k) = none → s'.credentials[k]? = none
  named : ∀ (k : String) credential, s.credentials[k]? = none →
    credentials.find? (·.accessKeyId == k) = some credential →
    ∃ row, s'.credentials[k]? = some row ∧ RowOf credential row

omit [SecretBox.Aes256Gcm] in
theorem applyEach_stored {credentials : List NewCredential} {report report' : BootstrapReport}
    {s s' : Inner}
    (h : exec (applyEach .credentials applyCredential credentials report) s = (.ok report', s')) :
    Stored credentials s s' := by
  induction credentials generalizing s report with
  | nil =>
    cases h
    exact ⟨fun _ _ h => h, fun _ h _ => h, fun _ _ _ h => by cases h⟩
  | cons credential rest ih =>
    unfold applyEach at h
    rw [List.foldlM_cons] at h
    obtain ⟨_, mid, hround, hrest⟩ := exec_bind_ok h
    obtain ⟨done, _, happly, hcount⟩ := exec_bind_ok hround
    cases hcount
    have hlater := ih hrest
    rcases applyCredential_cases happly with ⟨row, hrow, rfl⟩ | ⟨hfree, row, rowOf, rfl⟩
    · have hskip : ∀ k : String, mid.credentials[k]? = none →
          (credential :: rest).find? (·.accessKeyId == k) = rest.find? (·.accessKeyId == k) := by
        intro k hnone
        apply List.find?_cons_of_neg
        intro hk
        rw [beq_iff_eq.mp hk, hnone] at hrow
        cases hrow
      refine ⟨hlater.kept, fun k hnone => ?_, fun k other hnone => ?_⟩
      · rw [hskip k hnone]
        exact hlater.unnamed k hnone
      · rw [hskip k hnone]
        exact hlater.named k other hnone
    · have hget : ∀ k : String,
          (s.credentials.insert credential.accessKeyId row)[k]? =
            if credential.accessKeyId = k then some row else s.credentials[k]? :=
        fun k => get_insert _ _ _ _
      constructor
      · intro k old hold
        apply hlater.kept
        rw [hget, if_neg]
        · exact hold
        · rintro rfl
          rw [hfree] at hold
          cases hold
      · intro k hnone hfind
        rw [List.find?_cons] at hfind
        split at hfind
        · cases hfind
        · rename_i hne
          apply hlater.unnamed k _ hfind
          rw [hget, if_neg (by simpa using hne)]
          exact hnone
      · intro k other hnone hfind
        rw [List.find?_cons] at hfind
        split at hfind
        · rename_i heq
          cases hfind
          exact ⟨row, hlater.kept k row (by rw [hget, if_pos (by simpa using heq)]), rowOf⟩
        · rename_i hne
          apply hlater.named k other _ hfind
          rw [hget, if_neg (by simpa using hne)]
          exact hnone

omit [SecretBox.Aes256Gcm] in
/-- The loops before the credentials leave them alone. -/
theorem applyPlan_stored {plan : BootstrapPlan} {report : BootstrapReport} {s s' : Inner}
    (h : exec (applyPlan plan) s = (.ok report, s')) : Stored plan.credentials s s' := by
  have hloop {α : Type} {category : Category} {insert : α → StoreM Inner Bool}
      {entries : List α} {report report' : BootstrapReport} {s s' : Inner}
      (guarantees : ∀ entry ∈ entries,
        Guarantees (Along (Table.credentials ∉ writes ·)) (insert entry))
      (h : exec (applyEach category insert entries report) s = (.ok report', s')) :
      s'.credentials = s.credentials := by
    have along : Along (Table.credentials ∉ writes ·) s
        (exec (applyEach category insert entries report) s).2 := applyEach_along guarantees report s
    rw [h] at along
    exact along.keeps (P := fun later => later.credentials = s.credentials)
      (fun op later hop hlater => Eq.trans (later.exec_same hop) hlater) rfl
  obtain ⟨_, s₁, hpolicies, hrest⟩ := exec_bind_ok h
  obtain ⟨_, s₂, hgroups, hrest⟩ := exec_bind_ok hrest
  obtain ⟨_, s₃, husers, hrest⟩ := exec_bind_ok hrest
  obtain ⟨_, s₄, hmemberships, hrest⟩ := exec_bind_ok hrest
  obtain ⟨_, s₅, huserPolicies, hrest⟩ := exec_bind_ok hrest
  obtain ⟨_, s₆, hgroupPolicies, hcredentials⟩ := exec_bind_ok hrest
  have h₁ := hloop (fun policy _ => insertPolicyIfMissing_along policy (by simp [writes])) hpolicies
  have h₂ := hloop (fun group _ => insertGroupIfMissing_along group (by simp [writes])) hgroups
  have h₃ := hloop (fun user _ => applyUser_along user (by simp [writes])) husers
  have h₄ := hloop (fun entry _ s =>
    @Along.single _ (.addMembership entry.1 entry.2) (by simp [writes]) s) hmemberships
  have h₅ := hloop (fun entry _ s =>
    @Along.single _ (.attachPolicyToUser entry.1 entry.2) (by simp [writes]) s) huserPolicies
  have h₆ := hloop (fun entry _ s =>
    @Along.single _ (.attachPolicyToGroup entry.1 entry.2) (by simp [writes]) s) hgroupPolicies
  have hsame : s₆.credentials = s.credentials :=
    h₆.trans (h₅.trans (h₄.trans (h₃.trans (h₂.trans h₁))))
  have stored := applyEach_stored hcredentials
  constructor
  · intro k row hrow
    exact stored.kept k row (hsame ▸ hrow)
  · intro k hnone
    exact stored.unnamed k (hsame ▸ hnone)
  · intro k credential hnone
    exact stored.named k credential (hsame ▸ hnone)

theorem keyOf_eq_some {credential : NewCredential} {key : Key} :
    keyOf credential = some key ↔ credential.accessKeyId = key.accessKeyId ∧
      credential.username = key.username ∧
      SecretBox.openStr credential.secretCiphertext = .ok key.secret := by
  obtain ⟨accessKeyId, secret, username⟩ := key
  unfold keyOf
  split
  · rename_i opened hopened
    simp only [hopened, Option.some.injEq, Key.mk.injEq, Except.ok.injEq]
    tauto
  · rename_i error hfailed
    simp [hfailed]

theorem mem_missing {credentials : List NewCredential} {s : Inner} {key : Key} :
    key ∈ (missing s credentials).filterMap keyOf ↔
      s.credentials[key.accessKeyId]? = none ∧ ∃ credential,
        credentials.find? (·.accessKeyId == key.accessKeyId) = some credential ∧
        credential.username = key.username ∧
        SecretBox.openStr credential.secretCiphertext = .ok key.secret := by
  simp only [missing, List.mem_filterMap, List.mem_filter, keyOf_eq_some, Bool.and_eq_true,
    Bool.not_eq_true', beq_iff_eq]
  constructor
  · rintro ⟨credential, ⟨_, hfree, hfind⟩, hkey, hname, hopen⟩
    rw [hkey] at hfree hfind
    exact ⟨(not_contains_iff _ _).mp hfree, credential, hfind, hname, hopen⟩
  · rintro ⟨hfree, credential, hfind, hname, hopen⟩
    have hkey : credential.accessKeyId = key.accessKeyId := by
      simpa using List.find?_some hfind
    refine ⟨credential, ⟨List.mem_of_find?_eq_some hfind, ?_, ?_⟩, hkey, hname, hopen⟩
    · rw [hkey]
      exact (not_contains_iff _ _).mpr hfree
    · rw [hkey]
      exact hfind

/-- A plan adds the first missing credential of each access key. -/
theorem holds_stored {credentials : List NewCredential} {s s' : Inner}
    (stored : Stored credentials s s') (key : Key) :
    Holds s' key ↔ key ∈ (missing s credentials).filterMap keyOf ∨ Holds s key := by
  rw [mem_missing]
  cases hrow : s.credentials[key.accessKeyId]? with
  | some row => simp [Holds, stored.kept _ _ hrow, hrow]
  | none =>
    cases hfind : credentials.find? (·.accessKeyId == key.accessKeyId) with
    | none => simp [Holds, stored.unnamed _ hrow hfind, hrow]
    | some credential =>
      obtain ⟨row, hrow', rowOf⟩ := stored.named _ credential hrow hfind
      simp [Holds, hrow', hrow, rowOf.1, rowOf.2]

theorem opens_stored [SecretBox.IdealCipher] {credentials : List NewCredential} {s s' : Inner}
    (sealed : ∀ credential ∈ credentials, Sealed credential) (stored : Stored credentials s s')
    (opens : Opens s) : Opens s' := by
  intro k row' hrow'
  cases hrow : s.credentials[k]? with
  | some row =>
    rw [stored.kept _ _ hrow] at hrow'
    exact Option.some.inj hrow' ▸ opens k row hrow
  | none =>
    cases hfind : credentials.find? (·.accessKeyId == k) with
    | none =>
      rw [stored.unnamed _ hrow hfind] at hrow'
      cases hrow'
    | some credential =>
      obtain ⟨row, hrow'', rowOf⟩ := stored.named _ credential hrow hfind
      rw [hrow''] at hrow'
      cases hrow'
      obtain ⟨nonce, secret, hsealed⟩ := sealed credential (List.mem_of_find?_eq_some hfind)
      exact ⟨secret, rowOf.2 ▸ SecretBox.openStr_sealStr hsealed⟩

end Bootstrap

/-! Runs. -/

section Runs
variable {ι : Type} {creation : ι → Creation} {log : List (Record Call.Reply Inner ι)}

/-- What a request for a key calls: the clock, and one create of that key. -/
def Creates (creation : Creation) (call : Call) : Prop :=
  call = .now ∨ ∃ credential, call = .store (.createCredential credential) ∧
    keyOf credential = some creation.key

theorem run_creates [SecretBox.IdealCipher] (creation : Creation) :
    Meets (Seen fun _ _ => True) (fun _ _ call => Creates creation call) (fun _ _ _ => True)
      creation.run [] () := by
  unfold Creation.run Service.createCredentials
  refine Meets.perform_bind (.inl rfl) fun date _ _ => ?_
  split
  · trivial
  · rename_i record hsealed
    obtain ⟨ciphertext, hciphertext, hrecord⟩ := bind_ok hsealed
    cases hrecord
    refine ⟨.inr ⟨_, rfl, ?_⟩, fun reply _ _ => by cases reply <;> trivial⟩
    exact keyOf_eq_some.mpr ⟨rfl, rfl, SecretBox.openStr_sealStr hciphertext⟩

/-- The keys of a store are those its log left. -/
structure Tracked (creation : ι → Creation) (log : List (Record Call.Reply Inner ι))
    (s : Inner) : Prop where
  opens : Opens s
  tracks : Tracks (Holds s) (events creation log)

theorem events_snoc (record : Record Call.Reply Inner ι) :
    events creation (log ++ [record]) = events creation log ++ eventsOf creation record := by
  simp [events]

/-- A record that says nothing about keys leaves the credentials alone. -/
theorem Tracked.quiet {record : Record Call.Reply Inner ι} {s s' : Inner}
    (tracked : Tracked creation log s) (quiet : eventsOf creation record = [])
    (same : s'.credentials = s.credentials) : Tracked creation (log ++ [record]) s' where
  opens := opens_congr same tracked.opens
  tracks key := by
    rw [events_snoc, quiet, List.append_nil, holds_congr same]
    exact tracked.tracks key

/-- A call that fails changes nothing. -/
theorem Tracked.refused {record : Record Call.Reply Inner ι} {s s' : Inner} {α : Type}
    {outcome : StoreResult α × Inner} {error : StoreError} (tracked : Tracked creation log s)
    (sound : Sound s outcome) (exec : outcome = (.error error, s'))
    (quiet : eventsOf creation record = []) : Tracked creation (log ++ [record]) s' := by
  have same := sound.failed error (congrArg Prod.fst exec)
  rw [exec] at same
  exact tracked.quiet quiet (congrArg Inner.credentials same)

/-- A call that ends keys, and creates none. -/
theorem Tracked.ends {record : Record Call.Reply Inner ι} {s s' : Inner} {event : KeyEvent}
    (tracked : Tracked creation log s) (hevents : eventsOf creation record = [event])
    (creates : ∀ key, event ≠ .created key)
    (left : (∀ key, Holds s' key ↔ Holds s key ∧ ¬ event.Ends key) ∧ (Opens s → Opens s')) :
    Tracked creation (log ++ [record]) s' := by
  obtain ⟨holds, opens⟩ := left
  refine ⟨opens tracked.opens, ?_⟩
  rw [events_snoc, hevents]
  apply tracked.tracks.snoc
  intro key
  rw [holds key]
  exact (or_iff_right (creates key)).symm

theorem Tracked.createCredential {record : Record Call.Reply Inner ι} {s s' : Inner}
    {credential : NewCredential} {key : Key} {reply : StoreResult CredentialRecord}
    (tracked : Tracked creation log s) (ofKey : keyOf credential = some key)
    (hevents : eventsOf creation record = match reply with
      | .ok _ => [.created key]
      | .error _ => [])
    (exec : s.insertCredential credential = (reply, s')) :
    Tracked creation (log ++ [record]) s' := by
  cases reply with
  | error error => exact tracked.refused (s.insertCredential_sound credential) exec hevents
  | ok row =>
    obtain ⟨free, rowOf, rfl⟩ := insertCredential_ok exec
    obtain ⟨hkey, hname, hopen⟩ := keyOf_eq_some.mp ofKey
    constructor
    · exact opens_insert tracked.opens ⟨key.secret, rowOf.2 ▸ hopen⟩
    · rw [events_snoc, hevents]
      apply tracked.tracks.snoc
      intro other
      rw [holds_insert free rowOf hopen, hkey, hname]
      change _ ↔ KeyEvent.created key = .created other ∨ (Holds s other ∧ ¬ False)
      rw [KeyEvent.created.injEq, @eq_comm _ key, not_false_eq_true, and_true]

theorem Tracked.deleteCredential {record : Record Call.Reply Inner ι} {s s' : Inner}
    {username accessKeyId : String} {reply : StoreResult Unit}
    (tracked : Tracked creation log s)
    (hevents : eventsOf creation record = match reply with
      | .ok _ => [.keyDeleted username accessKeyId]
      | .error _ => [])
    (exec : s.deleteCredential username accessKeyId = (reply, s')) :
    Tracked creation (log ++ [record]) s' := by
  cases reply with
  | error error =>
    exact tracked.refused (s.deleteCredential_sound username accessKeyId) exec hevents
  | ok => exact tracked.ends hevents nofun (deleteCredential_holds exec)

theorem Tracked.deleteUser {record : Record Call.Reply Inner ι} {s s' : Inner}
    {username : String} {reply : StoreResult Unit} (tracked : Tracked creation log s)
    (hevents : eventsOf creation record = match reply with
      | .ok _ => [.userDeleted username]
      | .error _ => [])
    (exec : s.deleteUser username = (reply, s')) : Tracked creation (log ++ [record]) s' := by
  cases reply with
  | error error => exact tracked.refused (s.deleteUser_sound username) exec hevents
  | ok => exact tracked.ends hevents nofun (deleteUser_holds exec)

theorem Tracked.applyBootstrap [SecretBox.IdealCipher] {record : Record Call.Reply Inner ι}
    {s s' : Inner} {plan : BootstrapPlan} {reply : StoreResult BootstrapReport}
    (tracked : Tracked creation log s)
    (sealed : ∀ credential ∈ plan.credentials, Sealed credential)
    (hevents : eventsOf creation record = match reply with
      | .ok _ => ((missing s plan.credentials).filterMap keyOf).map .created
      | .error _ => [])
    (exec : s.applyBootstrap plan = (reply, s')) : Tracked creation (log ++ [record]) s' := by
  cases reply with
  | error error => exact tracked.refused (s.applyBootstrap_sound plan) exec hevents
  | ok report =>
    have stored : Stored plan.credentials s s' := by
      unfold Inner.applyBootstrap at exec
      split at exec
      · rename_i hplan
        cases exec
        exact applyPlan_stored hplan
      · cases exec
    refine ⟨opens_stored sealed stored tracked.opens, ?_⟩
    rw [events_snoc, hevents]
    apply tracked.tracks.starts
    · intro event hmem key
      obtain ⟨_, _, rfl⟩ := List.mem_map.mp hmem
      exact id
    · intro key
      rw [holds_stored stored]
      apply or_congr_left
      constructor
      · exact List.mem_map_of_mem
      · intro hmem
        obtain ⟨other, hother, heq⟩ := List.mem_map.mp hmem
        cases heq
        exact hother

variable [SerdeSaphyr] [Core.Validate.SerdeJson]

/-- What runs beside the requests for keys: the plan of a bootstrap file, and every store
call of the other handlers and services. -/
def Beside (call : Call) : Prop :=
  ∃ op, call = .store op ∧ (∀ credential, op ≠ .createCredential credential) ∧
    ∀ plan, op = .applyBootstrap plan → ∃ env nonces now yaml,
      parsePlanWithEnv env nonces now yaml = .ok plan

/-- A store call that creates no key. -/
theorem Tracked.beside [SecretBox.IdealCipher] {s s' : Inner} {op : StoreOp} {reply : op.Reply}
    (tracked : Tracked creation log s) (beside : Beside (.store op))
    (exec : Inner.exec op s = (reply, s')) :
    Tracked creation (log ++ [⟨none, ⟨.store op, reply⟩, s, s'⟩]) s' := by
  obtain ⟨_, heq, hcreate, hplan⟩ := beside
  cases heq
  by_cases hwrites : Table.credentials ∈ writes op
  · cases op with
    | createCredential credential => exact absurd rfl (hcreate credential)
    | deleteCredential username accessKeyId =>
      exact tracked.deleteCredential (by cases reply <;> rfl) exec
    | deleteUser username => exact tracked.deleteUser (by cases reply <;> rfl) exec
    | applyBootstrap plan =>
      obtain ⟨env, nonces, now, yaml, parsed⟩ := hplan plan rfl
      obtain ⟨_, _, planOf⟩ := parsePlanWithEnv_planOf parsed
      exact tracked.applyBootstrap planOf.credentials (by cases reply <;> rfl) exec
    | _ => simp [writes] at hwrites
  · have same : s'.credentials = s.credentials := by
      have same := s.exec_same hwrites
      rw [exec] at same
      exact same
    apply tracked.quiet _ same
    cases op <;> first | rfl | exact absurd (by simp [writes]) hwrites

/-- Along a run the keys of the store are those its log left. -/
theorem Pool.tracked [DecidableEq ι] [SecretBox.IdealCipher] {s : Inner}
    {now : ι → Action (Except ApiError CredentialsWithSecret)}
    (pool : Pool (Call.Exec memStore) Beside (fun i => (creation i).run) Inner.new log now s) :
    Tracked creation log s := by
  have lawful : Lawful (Call.Exec memStore) (fun _ => True) (fun _ _ => True) :=
    ⟨fun _ _ => trivial, fun _ _ => trivial⟩
  induction pool with
  | start =>
    constructor
    · intro k row hrow
      simp [Inner.new] at hrow
    · intro key
      simp [Holds, events, Inner.new, not_live_nil]
  | @own log now s s' i op next reply pool turn exec ih =>
    have meets := pool.meets lawful trivial (fun i => run_creates (creation i)) i
    rw [turn] at meets
    rcases meets.1 with rfl | ⟨credential, rfl, ofKey⟩
    · have same : s' = s := exec
      exact ih.quiet rfl (congrArg Inner.credentials same)
    · exact ih.createCredential ofKey (by cases reply <;> rfl) exec
  | @other log now s s' op reply pool allowed exec ih =>
    obtain ⟨op', rfl, _⟩ := id allowed
    exact ih.beside allowed exec

omit [SerdeSaphyr] [Core.Validate.SerdeJson] in
/-- The answer to a lookup, from the row it reads. -/
theorem lookup_answer (accessKeyId : String) (date : Timestamp) (fault : Fault) (s : Inner) :
    (run (Call.pick memStore date fault) (Service.credentialsWithSecret accessKeyId) s).1 =
      match s.credentials[accessKeyId]? with
      | none => .error (.NotFound s!"credentials not found: {accessKeyId}")
      | some row =>
          match SecretBox.openStr row.secretCiphertext with
          | .error error =>
              .error (.Internal s!"decrypt credentials secret for {accessKeyId}: {error}")
          | .ok secret => .ok (Service.withSecret row secret) := by
  have hread : Call.pick memStore date fault (.store (.getCredential accessKeyId)) s =
      (found s.credentials[accessKeyId]? "credentials" accessKeyId, s) := rfl
  unfold Service.credentialsWithSecret store perform
  rw [call_bind, run_call, hread]
  cases s.credentials[accessKeyId]? with
  | none => rfl
  | some row =>
    cases hopen : SecretBox.openStr row.secretCiphertext <;> simp [found, hopen]

/-- After any run, a lookup of an access key answers with the key of its last create and with
the id its owner has now, or with a 404 when no create of it is left. -/
theorem lookup_answers_last_create [DecidableEq ι] [SecretBox.IdealCipher] {s : Inner}
    {now : ι → Action (Except ApiError CredentialsWithSecret)}
    (pool : Pool (Call.Exec memStore) Beside (fun i => (creation i).run) Inner.new log now s)
    (accessKeyId : String) (date : Timestamp) (fault : Fault) :
    let answer :=
      (run (Call.pick memStore date fault) (Service.credentialsWithSecret accessKeyId) s).1
    (∀ key : Key, key.accessKeyId = accessKeyId → Live (events creation log) key →
      ∃ user created, s.users[key.username]? = some user ∧
        answer = .ok ⟨accessKeyId, key.secret, created, user.userId, some key.username⟩) ∧
    ((∀ key : Key, key.accessKeyId = accessKeyId → ¬ Live (events creation log) key) →
      answer = .error (.NotFound s!"credentials not found: {accessKeyId}")) := by
  have tracked := Pool.tracked pool
  have ok : WellFormed s := pool.chain.keeps
    (fun record _ exec ok => by
      obtain ⟨who, ⟨call, reply⟩, before, after⟩ := record
      cases call with
      | store op =>
        have hafter : (Inner.exec op before).2 = after := congrArg Prod.snd exec
        exact hafter ▸ (before.exec_changes op).wellFormed ok
      | now => exact exec ▸ ok
      | attempt request => exact exec ▸ ok) wellFormed_new
  intro answer
  have hanswer : answer = _ := lookup_answer accessKeyId date fault s
  rw [hanswer]
  constructor
  · rintro key rfl live
    obtain ⟨row, hrow, hname, hopen⟩ := (tracked.tracks key).mpr live
    obtain ⟨user, huser, hid⟩ := ok.credentialOwner _ row hrow
    refine ⟨user, row.creationDate.asSecond, hname ▸ huser, ?_⟩
    simp only [hrow, hopen, Service.withSecret, ok.credentialKey _ row hrow, hid, hname]
  · intro hnone
    cases hrow : s.credentials[accessKeyId]? with
    | none => rfl
    | some row =>
      obtain ⟨secret, hopen⟩ := tracked.opens accessKeyId row hrow
      exact absurd ((tracked.tracks ⟨accessKeyId, secret, row.username⟩).mp ⟨row, hrow, rfl, hopen⟩)
        (hnone _ rfl)

end Runs

end Keys

/-! A key whose owner is deleted, and which another user then creates again. -/

@[reducible] def readsNothing : SerdeSaphyr := ⟨fun _ => .ok .default⟩

def taken (second : Bool) : Creation :=
  let draw : Service.Draw := ⟨"AKDRAWN", "drawn", .zero⟩
  if second then ⟨draw, "bob", some "AK ", some "two"⟩ else ⟨draw, "ann", some " AK", some "one"⟩

def requests (second : Bool) : Action (Except ApiError CredentialsWithSecret) :=
  @Creation.run SecretBox.plainCipher (taken second)

def createUser (username : String) : Call :=
  .store (.createUser ⟨username, ⟨0⟩, none, none, none, none, none⟩)

/-- A schedule of creates of keys, with store calls of others in between. -/
def recreated : Moment Call Call.Reply (Except ApiError CredentialsWithSecret) Inner Bool :=
  let pick : Program.Pick Call.Reply Inner := Call.pick memStore ⟨0⟩ .answered
  let first := ((((Moment.initial requests Inner.new).meanwhile (createUser "ann") pick).meanwhile
    (createUser "bob") pick).turn false pick).turn false pick
  ((first.meanwhile (.store (.deleteUser "ann")) pick).turn true pick).turn true pick

theorem recreated_pool : Pool (Call.Exec memStore)
    (@Beside SecretBox.plainCipher readsNothing Validate.noLists) requests Inner.new
    recreated.log recreated.now recreated.state := by
  have honest := Call.pick_exec memStore ⟨0⟩ .answered
  have beside (username : String) :
      @Beside SecretBox.plainCipher readsNothing Validate.noLists (createUser username) :=
    ⟨_, rfl, nofun, nofun⟩
  have deletes : @Beside SecretBox.plainCipher readsNothing Validate.noLists
      (.store (.deleteUser "ann")) := ⟨_, rfl, nofun, nofun⟩
  exact ((((((Moment.Reached.initial.meanwhile (beside "ann") honest).meanwhile (beside "bob")
    honest).turn false honest).turn false honest).meanwhile deletes honest).turn true
    honest).turn true honest

theorem lookup_answers_last_create_recreated :
    ∃ user created, recreated.state.users["bob"]? = some user ∧
      (run (Call.pick memStore ⟨0⟩ .answered)
        (@Service.credentialsWithSecret SecretBox.plainCipher "AK") recreated.state).1 =
          .ok ⟨"AK", "two", created, user.userId, some "bob"⟩ := by
  have hevents : @events SecretBox.plainCipher Bool taken recreated.log =
      [.created ⟨"AK", "one", "ann"⟩, .userDeleted "ann", .created ⟨"AK", "two", "bob"⟩] := by
    decide +kernel
  have hlookup := @lookup_answers_last_create SecretBox.plainCipher Bool taken _ readsNothing
    Validate.noLists _ SecretBox.plainCipher_ideal _ _ recreated_pool "AK" ⟨0⟩ .answered
  apply hlookup.1 ⟨"AK", "two", "bob"⟩ rfl
  rw [hevents]
  exact ⟨[.created ⟨"AK", "one", "ann"⟩, .userDeleted "ann"], [], rfl, by simp⟩

end LakeFsAuth.Authz.Credentials
