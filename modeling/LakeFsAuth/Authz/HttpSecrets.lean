import LakeFsAuth.Authz.HttpEffects
import LakeFsAuth.Authz.Store.Hidden
import LakeFsAuth.Library.Twins

/-! Stored secrets leave the server by one route. Every other answer is the same over a store
that holds other secrets, whatever happens side by side. -/
namespace LakeFsAuth.Authz.Http
open Library Program LakeFsAuth.Core Core.Error Core.Json Core.Model Core.Pagination Core.Token Store Api

def Plain (call : Call) : Prop := ∀ plan, call ≠ .store (.applyBootstrap plan)

def AlikeCall : (call : Call) → call.Reply → call.Reply → Prop
  | .store op => Mem.LooksAlike op
  | .now => Eq
  | .attempt _ => Eq

/-- A call that is answered the same whatever the secrets are. -/
def Open : Call → Prop
  | .store op => Mem.secretive op = false
  | _ => True

theorem memStore_indistinct :
    Indistinct (Call.Exec Mem.memStore) Plain AlikeCall Mem.Inner.SameButSecrets := by
  intro call s reply s' t plain same exec
  cases call with
  | store op =>
    have hexec : Mem.Inner.exec op s = (reply, s') := exec
    have hplain : ∀ plan, op ≠ .applyBootstrap plan := fun plan h => plain plan (congrArg _ h)
    have halike := Mem.Inner.exec_indistinct hplain same
    rw [hexec] at halike
    exact ⟨_, _, rfl, halike⟩
  | now =>
    obtain rfl : s' = s := exec
    exact ⟨reply, t, rfl, rfl, same⟩
  | attempt request =>
    obtain rfl : s' = s := exec
    exact ⟨reply, t, rfl, rfl, same⟩

theorem open_sees_all {call : Call} (h : Open call) :
    Plain call ∧ ∀ reply reply', AlikeCall call reply reply' → reply = reply' := by
  cases call with
  | now => exact ⟨nofun, fun _ _ alike => alike⟩
  | attempt request => exact ⟨nofun, fun _ _ alike => alike⟩
  | store op =>
    constructor
    · rintro plan hplan
      cases hplan
      exact nomatch h
    · intro reply reply' alike
      cases op with
      | createCredential | getCredential | getUserCredential | listUserCredentials => exact nomatch h
      | _ => exact alike

abbrev Opens {α : Type} (p : Action α) : Prop := Only Open p

abbrev Blind {α : Type} (p : Action α) : Prop := Twin Plain AlikeCall (· = ·) p p

/-! Services. -/

section Services
variable {α : Type}

theorem blind_of_opens {p : Action α} (h : Opens p) : Blind p :=
  .of_only (h.mono fun _ => open_sees_all)

theorem blind_now {f : Timestamp → Action α} (h : ∀ time, Blind (f time)) : Blind (now >>= f) :=
  .call nofun fun time time' same => by
    cases same
    exact h time

theorem blind_store {op : StoreOp} {f : op.Reply → Action α} (plain : Plain (.store op))
    (h : ∀ reply reply', Mem.LooksAlike op reply reply' → Twin Plain AlikeCall (· = ·) (f reply) (f reply')) :
    Blind (store op >>= f) :=
  .call plain h

theorem opens_store {op : StoreOp} (h : Mem.secretive op = false) {f : op.Reply → Action α}
    (hf : ∀ reply, Opens (f reply)) : Opens (store op >>= f) :=
  .perform_bind h hf

theorem opens_storeCall {op : StoreOp} (h : Mem.secretive op = false) (wire : op.Value → α) :
    Opens (storeCall op wire) :=
  opens_store h fun _ => trivial

theorem opens_now {f : Timestamp → Action α} (h : ∀ time, Opens (f time)) : Opens (now >>= f) :=
  .perform_bind trivial h

theorem createOrExisting_opens (op : StoreOp) (h : Mem.secretive op = false)
    (created : StoreResult op.Value) (matchesRow : op.Value → Bool) (wire : op.Value → α) :
    Opens (Service.createOrExisting created (store op) matchesRow >>= fun row =>
      pure (row.map wire)) := by
  refine Only.bind ?_ fun _ => trivial
  unfold Service.createOrExisting
  split
  · trivial
  · split
    · refine opens_store h fun reply => ?_
      split
      · split <;> trivial
      · trivial
      · trivial
    · trivial

theorem createUser_opens (body : UserCreation) : Opens (Service.createUser body) := by
  unfold Service.createUser
  split
  · trivial
  · refine opens_now fun date => ?_
    split
    · trivial
    · exact opens_store rfl fun _ =>
        createOrExisting_opens (.getUser _) rfl _ _ _

theorem createGroup_opens (body : GroupCreation) : Opens (Service.createGroup body) := by
  refine opens_now fun date => ?_
  split
  · trivial
  · exact opens_store rfl fun _ =>
      createOrExisting_opens (.getGroup _) rfl _ _ _

theorem createPolicy_opens [Validate.SerdeJson] (body : Policy) :
    Opens (Service.createPolicy body) := by
  refine opens_now fun date => ?_
  split
  · trivial
  · exact opens_store rfl fun _ =>
      createOrExisting_opens (.getPolicy _) rfl _ _ _

theorem updatePolicy_opens [Validate.SerdeJson] (name : String) (body : Policy) :
    Opens (Service.updatePolicy name body) := by
  unfold Service.updatePolicy
  split
  · trivial
  · refine opens_store rfl fun reply => ?_
    split
    · trivial
    · split
      · trivial
      · refine opens_store rfl fun reply => ?_
        split <;> trivial

theorem claimTokenId_opens (body : ClaimTokenId) : Opens (Service.claimTokenId body) := by
  unfold Service.claimTokenId
  split
  · trivial
  · split
    · trivial
    · refine opens_store rfl fun reply => ?_
      split <;> trivial

theorem listUsers_opens (query : ListUsersQuery) : Opens (Handlers.listUsers query) := by
  unfold Handlers.listUsers
  split
  · split
    · trivial
    · exact opens_store rfl fun _ => trivial
  · exact opens_store rfl fun _ => trivial
  · exact opens_store rfl fun _ => trivial
  · exact opens_store rfl fun _ => trivial

theorem principal_opens (op : String → StoreOp) (h : ∀ id, Mem.secretive (op id) = false)
    (wire : (id : String) → (op id).Value → α) (query : PrincipalQuery) :
    Opens (match query.require with
      | .error error => return .error error
      | .ok id => storeCall (op id) (wire id)) := by
  cases query.require with
  | error error => trivial
  | ok id => exact opens_storeCall (h id) (wire id)

/-- What is made of the visible part of a result is the same for results that look the same. -/
theorem map_visible {β γ ε : Type} {result other : Except ε β} {visible : β → γ}
    (h : result.map visible = other.map visible) (wire : γ → α) :
    result.map (fun value => wire (visible value)) = other.map fun value => wire (visible value) := by
  have hmap (result : Except ε β) : result.map (fun value => wire (visible value)) =
      (result.map visible).map wire := by
    cases result <;> rfl
  rw [hmap, hmap, h]

/-- A reply that is sent without its secret. -/
theorem storeCall_blind {op : StoreOp} {wire : op.Value → α} (plain : Plain (.store op))
    (hides : ∀ reply reply', Mem.LooksAlike op reply reply' → reply.map wire = reply'.map wire) :
    Blind (storeCall op wire) := by
  refine blind_store plain fun reply reply' alike => ?_
  rw [hides reply reply' alike]
  exact .done rfl

theorem pageWire_hidden (page : PageOf CredentialRecord) :
    pageWire credentialsToWire (page.map Mem.hiddenRow) = pageWire credentialsToWire page := by
  unfold pageWire PageOf.map
  rw [List.map_map]
  rfl

end Services

/-! Operations. -/

section Operations
variable [SecretBox.Aes256Gcm] [Validate.SerdeJson] {draw : Service.Draw} {operation : Operation}

omit [Validate.SerdeJson] in
theorem createCredentials_blind (username : String) (accessKey secretKey : Option String) :
    Blind (Service.createCredentials draw username accessKey secretKey) := by
  refine blind_now fun time => ?_
  split
  · exact .done rfl
  · refine blind_store nofun fun reply reply' alike => ?_
    have hwire (row : CredentialRecord) (secret : String) :
        Service.withSecret (Mem.hiddenRow row) secret = Service.withSecret row secret := rfl
    cases reply with
    | error error =>
      cases reply' with
      | error error' =>
        cases alike
        exact .done rfl
      | ok other => cases alike
    | ok made =>
      cases reply' with
      | error error' => cases alike
      | ok other =>
        have hrow : Mem.hiddenRow made = Mem.hiddenRow other := Except.ok.inj alike
        simp only [← hwire made, ← hwire other, hrow]
        exact .done rfl

theorem Runs.blind {success : Nat} {α : Type} {p : Action (Except ApiError α)}
    (h : Runs draw operation success p) (other : operation ≠ .getCredentials) : Blind p := by
  cases h with
  | getCredentials key => exact absurd rfl other
  | createCredentials username accessKey secretKey => exact createCredentials_blind _ _ _
  | listUserCredentials username params =>
    refine storeCall_blind nofun fun _ _ alike => ?_
    simpa only [pageWire_hidden] using map_visible alike (pageWire credentialsToWire)
  | getCredentialsForUser username key =>
    exact storeCall_blind nofun fun _ _ alike => map_visible alike credentialsToWire
  | listUsers query => exact blind_of_opens (listUsers_opens query)
  | createUser body => exact blind_of_opens (createUser_opens body)
  | createGroup body => exact blind_of_opens (createGroup_opens body)
  | createPolicy body => exact blind_of_opens (createPolicy_opens body)
  | updatePolicy name body => exact blind_of_opens (updatePolicy_opens name body)
  | claimTokenId body => exact blind_of_opens (claimTokenId_opens body)
  | listUserPolicies username query =>
    unfold Http.listUserPolicies
    split <;> exact blind_of_opens (opens_storeCall rfl _)
  | createUserExternalPrincipal username query =>
    exact blind_of_opens (principal_opens (.createExternalPrincipal username) (fun _ => rfl) _ query)
  | deleteUserExternalPrincipal username query =>
    exact blind_of_opens (principal_opens (.deleteExternalPrincipal username) (fun _ => rfl) _ query)
  | getExternalPrincipal query =>
    exact blind_of_opens (principal_opens .getExternalPrincipal (fun _ => rfl) _ query)
  | getUser | deleteUser | updateFriendlyName | addMembership | listUserGroups
  | attachPolicyToUser | attachPolicyToGroup => exact blind_of_opens (opens_store rfl fun _ => trivial)
  | version | healthcheck => exact .done rfl
  | readyz => exact blind_of_opens (opens_store rfl fun reply => by cases reply <;> trivial)
  | _ => exact blind_of_opens (opens_storeCall rfl _)

omit [Validate.SerdeJson] in
/-- The route of the secrets itself makes one call. -/
theorem credentialsWithSecret_twin (key : String) : Twin Plain AlikeCall (fun _ _ => True)
    (Service.credentialsWithSecret key) (Service.credentialsWithSecret key) := by
  refine .call nofun fun reply reply' _ => .of_ends ?_ ?_
  · cases reply with
    | error error => trivial
    | ok record =>
      dsimp only [Program.bind]
      split <;> trivial
  · cases reply' with
    | error error => trivial
    | ok record =>
      dsimp only [Program.bind]
      split <;> trivial

end Operations

/-! The server. -/

/-- A request for a stored secret. -/
def AsksSecret (options : RouterOptions) (request : HttpRequest) : Prop :=
  ∃ guarded params, target options request = .route guarded (some .getCredentials) params

section Server
variable [NumericDate] [FromSlice] [Authn.SecureCookie.HmacSha256]
  [SecretBox.Aes256Gcm] [Validate.SerdeJson] {verifier : TokenVerifier} {options : RouterOptions}

theorem serve_twin (draw : Service.Draw) (request : HttpRequest) : Twin Plain AlikeCall
    (fun response other => ¬ AsksSecret options request → response = other)
    (serve verifier options draw request) (serve verifier options draw request) := by
  refine serve_cases (P := fun p => Twin Plain AlikeCall
      (fun response other => ¬ AsksSecret options request → response = other) p p)
    (fun _ => .done fun _ => rfl) (fun f h => .call nofun fun time time' same => ?_)
    (fun p h => h.bind fun response other same => .done fun asks => ?_) ?_
  · cases same
    exact h time
  · rw [same asks]
  · intro guarded operation params success α p write htarget hruns
    by_cases hsecret : operation = .getCredentials
    · subst hsecret
      cases hruns with
      | getCredentials key =>
        refine (credentialsWithSecret_twin key).bind fun _ _ _ => .done fun asks => ?_
        exact absurd ⟨guarded, params, htarget⟩ asks
    · exact (hruns.blind hsecret).bind fun result other same => .done fun _ => by rw [same]

variable {ι : Type} [DecidableEq ι] {Others : Call → Prop} {draws : ι → Service.Draw}
  {requests : ι → HttpRequest} {s₀ s t₀ : Mem.Inner} {log : List (Record Call.Reply Mem.Inner ι)}
  {now : ι → Action HttpResponse}

/-- Whatever a server does over one store it may do over another that holds other secrets, and
every request is answered the same there, but those that ask for a secret. -/
theorem secrets_stay_on_their_route
    (pool : Pool (Call.Exec Mem.memStore) Others
      (fun i => serve verifier options (draws i) (requests i)) s₀ log now s)
    (others : ∀ call, Others call → Plain call) (same : s₀.SameButSecrets t₀) :
    ∃ log' now' t, Pool (Call.Exec Mem.memStore) Others
        (fun i => serve verifier options (draws i) (requests i)) t₀ log' now' t ∧
      s.SameButSecrets t ∧ schedule log' = schedule log ∧
      ∀ i, ¬ AsksSecret options (requests i) → ∀ response, now i = .done response →
        now' i = .done response := by
  obtain ⟨log', now', t, pool', related, hschedule, twins⟩ :=
    pool.twin memStore_indistinct others same fun i => serve_twin (draws i) (requests i)
  refine ⟨log', now', t, pool', related, hschedule, fun i asks response hdone => ?_⟩
  have htwin := twins i
  rw [hdone] at htwin
  obtain ⟨other, hother, hsame⟩ := htwin.of_done
  rw [hother, hsame asks]

end Server

/-! A listing of credentials, over two stores that hold one key with two secrets. -/

section Once
attribute [local instance] Authn.SecureCookie.plainMac wholeSeconds compactReader
  SecretBox.plainCipher Validate.noLists

def oneKey (secret : Bytes) : Mem.Inner :=
  ((Mem.Inner.new.insertUser (.named "ann")).2.insertCredential ⟨"AK", "ann", secret, ⟨0⟩⟩).2

def listing : HttpRequest where
  verb := .GET
  path := ["auth", "users", "ann", "credentials"].map String.toList
  query := none
  authorization := none
  body := .unreadable ""

def listed : Moment Call Call.Reply HttpResponse Mem.Inner Unit :=
  (Moment.initial (fun _ => serve unchecked ⟨"", []⟩ ⟨"", "", .zero⟩ listing) (oneKey [1])).turn ()
    (Call.pick Mem.memStore ⟨0⟩ .answered)

theorem listed_pool : Pool (Call.Exec Mem.memStore) (fun _ => False)
    (fun _ => serve unchecked ⟨"", []⟩ ⟨"", "", .zero⟩ listing) (oneKey [1])
    listed.log listed.now listed.state :=
  Moment.Reached.initial.turn () (Call.pick_exec Mem.memStore ⟨0⟩ .answered)

theorem secrets_stay_on_their_route_listed : ∃ response, listed.now () = .done response ∧
    ∃ log' now' t, Pool (Call.Exec Mem.memStore) (fun _ => False)
        (fun _ => serve unchecked ⟨"", []⟩ ⟨"", "", .zero⟩ listing) (oneKey [2]) log' now' t ∧
      schedule log' = schedule listed.log ∧ now' () = .done response := by
  have hsame : (oneKey [1]).SameButSecrets (oneKey [2]) := by
    unfold Mem.Inner.SameButSecrets
    decide +kernel
  have htarget : target ⟨"", []⟩ listing = .route true (some .listUserCredentials) ["ann".toList] := rfl
  have hasks : ¬ AsksSecret ⟨"", []⟩ listing := by
    rintro ⟨_, _, hasks⟩
    exact nomatch htarget.symm.trans hasks
  obtain ⟨log', now', t, pool', _, hschedule, hanswers⟩ :=
    secrets_stay_on_their_route listed_pool (fun _ other => other.elim) hsame
  exact ⟨_, rfl, log', now', t, pool', hschedule, hanswers () hasks _ rfl⟩

end Once

end LakeFsAuth.Authz.Http
