import LakeFsAuth.Authn.LoginRuns
import LakeFsAuth.Authn.StsLogin

/-! What comes of SDK logins, however they interleave with each other and with whatever else happens
to the store: lakeFS is handed claims whose `sub` it can look up. -/
namespace LakeFsAuth.Authn.Sts
open LakeFsAuth.Core Core.Error Core.Json Core.Text Library Program
open Authz Authz.Store Authz.Api AuthzClient
open Oidc hiding exchangeCode

/-! One login. -/

/-- The answer lakeFS takes the claims from. -/
def handed (entries : List (String × Value)) : Http.HttpResponse :=
  ⟨200, .json (.object [("claims", .object entries)])⟩

theorem errorResponse_ne_handed (error : ApiError) (entries : List (String × Value)) :
    Http.errorResponse error ≠ handed entries := by
  intro h
  have hpayload := congrArg Http.HttpResponse.payload h
  simp [Http.errorResponse, handed, Wire.errorBody, Wire.Codec.struct, Wire.present] at hpayload

section Login
variable {Discovered : Type} {state : StsState} {log : List (Entry (StsReply Discovered))}

/-- An entry of a call to the authorization server. -/
def asCall (entry : Entry Call.Reply) : Entry (StsReply Discovered) := entry.right.right

theorem admitUser_returns {claims : Claims} {response : StsLoginResponse}
    (h : Returns (admitUser state claims) log (.ok response)) :
    response = ⟨flattenClaims claims⟩ ∧ (∀ name want, state.oidcValidateClaims[name]? = some want →
      (claims.lookup name).bind flattenValue = some want) ∧
    ∃ calls ensured, log = calls.map asCall ∧
      Returns (state.prov.ensureUser state.maxRetries claims) calls (.ok ensured) := by
  unfold admitUser at h
  split at h
  · cases h.of_done.2
  · rename_i hchecked
    obtain ⟨ensuring, rest, answer, rfl, hensuring, hrest⟩ := h.of_bind
    obtain ⟨outer, rfl, houter⟩ := hensuring.of_right
    obtain ⟨calls, rfl, hcalls⟩ := houter.of_right
    split at hrest
    · cases hrest.of_done.2
    · rename_i ensured
      obtain ⟨rfl, hresponse⟩ := hrest.of_done
      cases hresponse
      refine ⟨rfl, fun name want => validateClaims_ok hchecked, calls, ensured, ?_, hcalls⟩
      rw [List.append_nil, List.map_map]
      rfl

theorem admitUser_only {P : StsOp Discovered → Prop} (h : ∀ op, P (.inr op)) (claims : Claims) :
    Only P (admitUser state claims) := by
  unfold admitUser
  split
  · trivial
  · refine (Only.right h _).bind fun result => ?_
    split <;> trivial

variable [OpenIdConnect Discovered] [JsonReader]

/-- A login that was answered: what was exchanged, verified and ensured for it. -/
structure LoggedIn (state : StsState) (discovered : Discovered) (request : StsLoginRequest)
    (log : List (Entry (StsReply Discovered))) (claims : Claims) : Prop where
  steps : ∃ tokens raw, ∃ verifying : Log Discovered, ∃ ensuring ensured,
    log = ⟨.inl (.exchangeCode discovered request.code (state.pkceVerifier request)
      request.redirectUri), .ok tokens⟩ :: (verifying.map Entry.right ++ ensuring.map asCall) ∧
    Verified discovered verifying tokens anyNonce claims raw ∧
    Returns (state.prov.ensureUser state.maxRetries claims) ensuring (.ok ensured)
  checked : ∀ name want, state.oidcValidateClaims[name]? = some want →
    (claims.lookup name).bind flattenValue = some want

theorem redeem_returns {discovered : Discovered} {request : StsLoginRequest}
    {response : StsLoginResponse} (h : Returns (redeem state discovered request) log (.ok response)) :
    ∃ claims, response = ⟨flattenClaims claims⟩ ∧ LoggedIn state discovered request log claims := by
  obtain ⟨exchange, rest, answer, rfl, hexchange, hrest⟩ := h.of_bind
  rw [Returns.of_perform hexchange]
  split at hrest
  · cases hrest.of_done.2
  · rename_i tokens
    obtain ⟨verifying, admitting, verified, rfl, hverify, hadmit⟩ := hrest.of_bind
    obtain ⟨checks, rfl, hchecks⟩ := hverify.of_right
    split at hadmit
    · cases hadmit.of_done.2
    · rename_i claims raw
      obtain ⟨rfl, hchecked, calls, ensured, rfl, hcalls⟩ := admitUser_returns hadmit
      exact ⟨claims, rfl, ⟨tokens, raw, checks, calls, ensured, rfl, verifyIdToken_verified hchecks,
        hcalls⟩, hchecked⟩

/-- Once the code is exchanged, no other one is. -/
theorem redeem_after (state : StsState) (discovered : Discovered) (request : StsLoginRequest) :
    ∃ after, redeem state discovered request = exchangeCode discovered request.code
        (state.pkceVerifier request) request.redirectUri >>= after ∧
      ∀ (P : StsOp Discovered → Prop) answer, (∀ op, P (.inr op)) → Only P (after answer) := by
  refine ⟨_, rfl, fun P answer h => ?_⟩
  split
  · trivial
  · refine (Only.right h _).bind fun result => ?_
    split
    · trivial
    · exact admitUser_only h _

variable [Url.HostParser] {current : Option Discovered} {body : Http.Body}

/-- A login is refused, or redeems the code it came with. -/
theorem stsLogin_cases {P : StsHandler Discovered Http.HttpResponse → Prop}
    (refused : ∀ error, P (pure (Http.errorResponse error)))
    (redeems : ∀ discovered request, current = some discovered →
      Http.apiJson stsLoginRequest body = .ok request →
      redirectUriAllowed state.stsAllowedRedirectUris request.redirectUri = true →
      P (redeem state discovered request >>= fun result =>
        pure (Http.respond 200 (fun response => .json response.serialize) result))) :
    P (stsLogin state current body) := by
  unfold stsLogin login
  split
  · exact refused _
  · rename_i request hbody
    split
    · exact refused _
    · rename_i discovered
      split
      · rename_i hallowed
        split
        · exact refused _
        · exact redeems discovered request rfl hbody hallowed
      · exact refused _

/-- A redemption this login may make. -/
def MayRedeem (state : StsState) (current : Option Discovered) (body : Http.Body)
    (op : StsOp Discovered) : Prop :=
  ∀ discovered code verifier uri, op = .inl (.exchangeCode discovered code verifier uri) →
    ∃ request, current = some discovered ∧ Http.apiJson stsLoginRequest body = .ok request ∧
      redirectUriAllowed state.stsAllowedRedirectUris uri = true ∧ code = request.code ∧
      verifier = state.pkceVerifier request ∧ uri = request.redirectUri

/-- Exchanges of a code. -/
def redemptions : StsOp Discovered → Nat
  | .inl _ => 1
  | .inr _ => 0

theorem stsLogin_only : Only (MayRedeem state current body) (stsLogin state current body) := by
  refine stsLogin_cases (fun _ => trivial) fun discovered request hcurrent hbody hallowed => ?_
  obtain ⟨after, hredeem, honly⟩ := redeem_after state discovered request
  rw [hredeem]
  refine Only.bind (Only.perform_bind ?_ fun answer => honly _ answer fun _ => nofun) fun _ => trivial
  rintro _ _ _ _ ⟨⟩
  exact ⟨request, hcurrent, hbody, hallowed, rfl, rfl, rfl⟩

theorem stsLogin_budget : Budget redemptions final 1 (stsLogin state current body) := by
  refine stsLogin_cases (fun _ => trivial) fun discovered request hcurrent hbody hallowed => ?_
  obtain ⟨after, hredeem, honly⟩ := redeem_after state discovered request
  rw [hredeem]
  refine Budget.bind (m := 0) (Budget.perform_bind le_rfl fun answer => ?_) fun _ => trivial
  exact (honly _ answer fun _ => rfl).budget

theorem stsLogin_returns {entries : List (String × Value)}
    (h : Returns (stsLogin state current body) log (handed entries)) :
    ∃ discovered request claims, current = some discovered ∧
      Http.apiJson stsLoginRequest body = .ok request ∧
      LoggedIn state discovered request log claims ∧
      entries = (flattenClaims claims).toList.map fun claim => (claim.1, .string claim.2) := by
  revert h
  refine stsLogin_cases (P := fun p => Returns p log (handed entries) → _) (fun error h => ?_)
    fun discovered request hcurrent hbody hallowed h => ?_
  · exact absurd h.of_done.2.symm (errorResponse_ne_handed error entries)
  · obtain ⟨mine, rest, result, rfl, hredeem, hrest⟩ := h.of_bind
    obtain ⟨rfl, hresult⟩ := hrest.of_done
    rw [List.append_nil]
    cases result with
    | error error => exact absurd hresult.symm (errorResponse_ne_handed error entries)
    | ok response =>
      obtain ⟨claims, rfl, hlogged⟩ := redeem_returns hredeem
      refine ⟨discovered, request, claims, hcurrent, hbody, hlogged, ?_⟩
      simpa [handed, Http.respond, StsLoginResponse.serialize] using hresult

end Login

/-! Logins over a store. -/

section Store
variable {Discovered σ ι : Type} {impl : StoreImpl σ}

/-- The provider answers as it likes, the store as it stands. -/
def Exec (impl : StoreImpl σ) : (op : StsOp Discovered) → σ → StsReply Discovered op → σ → Prop
  | .inr (.inr asked), s, reply, s' => Call.Exec impl asked s reply s'
  | .inr (.inl _), s, _, s' => s' = s
  | .inl _, s, _, s' => s' = s

def StsLaw : (op : StsOp Discovered) → StsReply Discovered op → Prop
  | .inr (.inr asked), reply => Law asked reply
  | .inr (.inl _), _ => True
  | .inl _, _ => True

/-- The entry showed this user. -/
def Shows (entry : Entry (StsReply Discovered)) (row : UserRecord) : Prop :=
  ∃ call, entry = asCall call ∧ shown call = some row

/-- The entry deleted the user of this name. -/
def Drops (name : String) (entry : Entry (StsReply Discovered)) : Prop :=
  entry = asCall ⟨.store (.deleteUser name), .ok ()⟩

variable (table : UserTable impl)

theorem sts_lawful : Lawful (@Exec Discovered σ impl) table.Inv StsLaw where
  keeps := by
    intro op s reply s' inv exec
    cases op with
    | inl exchange =>
      obtain rfl : s' = s := exec
      exact inv
    | inr op =>
      cases op with
      | inl provider =>
        obtain rfl : s' = s := exec
        exact inv
      | inr call => exact (lawful table).keeps inv exec
  law := by
    intro op s reply s' inv exec
    cases op with
    | inl exchange => trivial
    | inr op =>
      cases op with
      | inl provider => trivial
      | inr call => exact (lawful table).law inv exec

/-- A user is the same one after a step that does not delete it. -/
theorem same_step {op : StsOp Discovered} {s s' : σ} {reply : StsReply Discovered op} {name : String}
    {row : UserRecord} (inv : table.Inv s) (exec : Exec impl op s reply s')
    (kept : ¬ Drops name ⟨op, reply⟩) (same : Same table s name row) : Same table s' name row := by
  cases op with
  | inl exchange =>
    obtain rfl : s' = s := exec
    exact same
  | inr op =>
    cases op with
    | inl provider =>
      obtain rfl : s' = s := exec
      exact same
    | inr call =>
      refine same.step table inv exec fun hdeletes => kept ?_
      exact congrArg asCall hdeletes

theorem same_along {s s' : σ} {log : List (Record (StsReply Discovered) σ ι)} {name : String}
    {row : UserRecord} (chain : Chain (Exec impl) s log s') (inv : table.Inv s)
    (kept : ∀ record ∈ log, ¬ Drops name record.entry) (same : Same table s name row) :
    Same table s' name row := by
  have h : table.Inv s' ∧ Same table s' name row := by
    refine chain.keeps (P := fun s => table.Inv s ∧ Same table s name row) ?_ ⟨inv, same⟩
    intro record hrecord exec ⟨inv, same⟩
    exact ⟨(sts_lawful table).keeps inv exec, same_step table inv exec (kept record hrecord) same⟩
  exact h.2

variable [DecidableEq ι] [OpenIdConnect Discovered] [JsonReader] [Url.HostParser] {state : StsState}
  {Others : StsOp Discovered → Prop} {current : ι → Option Discovered} {bodies : ι → Http.Body}
  {s₀ s : σ} {log : List (Record (StsReply Discovered) σ ι)}
  {now : ι → StsHandler Discovered Http.HttpResponse}

/-- The user behind an answer: a row this login was shown, of the subject it answers with, which is
still there unless its name was deleted later. -/
theorem handed_same
    (pool : Pool (Exec impl) Others (fun i => stsLogin state (current i) (bodies i)) s₀ log now s)
    (init : table.Inv s₀) {i : ι} {discovered : Discovered} {request : StsLoginRequest}
    {claims : Claims} (logged : LoggedIn state discovered request (callsOf i log) claims) :
    ∃ subject row, claimText claims "sub" = some subject ∧ row.externalId = some (trim subject) ∧
      ∃ earlier record later, log = earlier ++ record :: later ∧ record.who = some i ∧
        Shows record.entry row ∧ ((∃ gone ∈ later, Drops row.username gone.entry) ∨
          Same table s row.username row) := by
  obtain ⟨tokens, raw, verifying, ensuring, ensured, hcalls, _, hensured⟩ := logged.steps
  have hmem {entry : Entry Call.Reply} (h : entry ∈ ensuring) :
      ∃ record ∈ log, record.who = some i ∧ record.entry = asCall entry := by
    refine (mem_callsOf i log).mp ?_
    rw [hcalls]
    exact List.mem_cons_of_mem _ (List.mem_append_right _ (List.mem_map_of_mem h))
  have hlaws : ∀ entry ∈ ensuring, Law entry.1 entry.2 := by
    intro entry hentry
    obtain ⟨record, hrecord, _, hsame⟩ := hmem hentry
    obtain ⟨earlier, later, hlog⟩ := List.append_of_mem hrecord
    obtain ⟨hchain, hexec, _⟩ := pool.at hlog
    have hlaw := (sts_lawful table).law (hchain.lawful (sts_lawful table) init) hexec
    rw [hsame] at hlaw
    exact hlaw
  let login : Login := ⟨state.prov, state.maxRetries, claims⟩
  have hconveys : Conveys login.run (fun log result => ∀ ensured, result = .ok ensured →
      login.Owns log ensured) [] := login.run_conveys
  obtain ⟨subject, row, hsubject, _, ⟨entry, hentry, hshown⟩, hexternal⟩ :=
    hconveys.returned hensured hlaws ensured rfl
  obtain ⟨record, hrecord, hwho, hsame⟩ := hmem hentry
  obtain ⟨earlier, later, hlog⟩ := List.append_of_mem hrecord
  refine ⟨subject, row, hsubject, hexternal, earlier, record, later, hlog, hwho, ⟨entry, hsame, hshown⟩, ?_⟩
  by_cases hgone : ∃ gone ∈ later, Drops row.username gone.entry
  · exact .inl hgone
  · obtain ⟨hchain, hexec, hlater⟩ := pool.at hlog
    have inv := hchain.lawful (sts_lawful table) init
    have inv' := (sts_lawful table).keeps inv hexec
    rw [hsame] at hexec
    have same := shown_same table inv hexec hshown
    exact .inr (same_along table hlater inv' (fun gone hmem hdrops => hgone ⟨gone, hmem, hdrops⟩) same)

end Store

section Memory
open Mem

/-- What lakeFS asks for, with the `sub` it was handed. -/
def lookup (page : Pagination.PaginationParams) (subject : String) :
    Action (Except ApiError (Model.ListResponse Model.User)) :=
  Handlers.listUsers ⟨page, none, none, some subject⟩

/-- A lookup finds the user of the subject, and no other. -/
theorem lookup_same {s : Inner} (ok : WellFormed s) {subject : String} {row : UserRecord}
    (filled : nonBlank subject = some (trim subject)) (own : row.externalId = some (trim subject))
    (same : Same userTable s row.username row) (page : Pagination.PaginationParams) (date : Timestamp) :
    ∃ stored, stored.username = row.username ∧ stored.userId = row.userId ∧
      run (Call.pick memStore date .answered) (lookup page subject) s =
        (.ok (Handlers.single (some stored)), s) := by
  obtain ⟨stored, hstored, hid, hexternal⟩ := same
  refine ⟨stored, ok.users.key _ _ hstored, hid, ?_⟩
  have hfind : s.findUserByExternalId (trim subject) = some stored := by
    have hown := hexternal.trans own
    cases hfound : s.findUserByExternalId (trim subject) with
    | none =>
      have hnone := (OrderedMap.find_values_none _ _).mp hfound _ _ hstored
      simp [hown] at hnone
    | some other =>
      obtain ⟨⟨key, hkey⟩, hother⟩ := OrderedMap.find_values_some _ _ _ hfound
      have hsame := ok.users.externalId _ _ _ _ _ hkey hstored (beq_iff_eq.mp hother) hown
      subst hsame
      exact hkey.symm.trans hstored
  unfold lookup Handlers.listUsers
  simp only [Option.bind_none, Option.bind_some, filled]
  change ((Except.ok (s.findUserByExternalId (trim subject))).map _ |>.mapError _, s) = _
  rw [hfind]
  rfl

variable {Discovered ι : Type} [DecidableEq ι] [OpenIdConnect Discovered] [JsonReader]
  [Url.HostParser]

/-- However logins interleave, with each other and with anything else that happens to the store: a
login redeems at most the code it came with, at an allowed URI. The claims it answers with are those
of a verified token, and lakeFS finds the user of their `sub`, unless it was deleted since. -/
theorem sts_subject_is_found (state : StsState) (ops : List StoreOp) (current : ι → Option Discovered)
    (bodies : ι → Http.Body) (log : List (Record (StsReply Discovered) Inner ι))
    (now : ι → StsHandler Discovered Http.HttpResponse) (s : Inner)
    (pool : Pool (Exec memStore) (fun _ => True) (fun i => stsLogin state (current i) (bodies i))
      (Inner.new.after ops) log now s) (i : ι) :
    (∀ record ∈ log, record.who = some i → MayRedeem state (current i) (bodies i) record.entry.1) ∧
    spent redemptions (callsOf i log) ≤ 1 ∧
    ∀ entries, now i = .done (handed entries) → ∃ discovered request claims subject row,
      current i = some discovered ∧ Http.apiJson stsLoginRequest (bodies i) = .ok request ∧
      LoggedIn state discovered request (callsOf i log) claims ∧
      (∀ name text, (name, .string text) ∈ entries ↔
        (claims.lookup name).bind flattenValue = some text) ∧
      ("sub", .string subject) ∈ entries ∧ row.externalId = some (trim subject) ∧
      ∃ earlier record later, log = earlier ++ record :: later ∧ record.who = some i ∧
        Shows record.entry row ∧ ((∃ gone ∈ later, Drops row.username gone.entry) ∨
          ∀ page date, ∃ stored, stored.username = row.username ∧ stored.userId = row.userId ∧
            run (Call.pick memStore date .answered) (lookup page subject) s =
              (.ok (Handlers.single (some stored)), s)) := by
  have init := Inner.after_wellFormed ops
  refine ⟨fun record hmem hwho => pool.only (fun _ => stsLogin_only) hmem hwho,
    pool.spends (fun _ => stsLogin_budget) i, fun entries hdone => ?_⟩
  obtain ⟨discovered, request, claims, hcurrent, hbody, hlogged, rfl⟩ :=
    stsLogin_returns (pool.finished hdone)
  obtain ⟨subject, row, hsubject, hown, earlier, record, later, hlog, hwho, hshows, hend⟩ :=
    handed_same userTable pool init hlogged
  have hentries (name text : String) : (name, Value.string text) ∈
      (flattenClaims claims).toList.map (fun claim => (claim.1, Value.string claim.2)) ↔
        (claims.lookup name).bind flattenValue = some text := by
    rw [← flattenClaims_get, ← Std.ExtTreeMap.mem_toList_iff_getElem?_eq_some]
    simp
  have hsub : (claims.lookup "sub").bind flattenValue = some subject :=
    (Option.filter_eq_some_iff.mp hsubject).1
  refine ⟨discovered, request, claims, subject, row, hcurrent, hbody, hlogged, hentries,
    (hentries _ _).mpr hsub, hown, earlier, record, later, hlog, hwho, hshows, ?_⟩
  refine hend.imp_right fun same page date => ?_
  have ok : WellFormed s := pool.chain.lawful (sts_lawful userTable) init
  exact lookup_same ok (claimText_nonBlank hsubject) hown same page date

end Memory

/-! The first login of an SDK. -/

section First
open Mem Moment
attribute [local instance] Browser.adaClaims Browser.credulous Redirect.plainHosts

def sdkState : StsState where
  toAppState := Browser.adaState
  stsAllowedRedirectUris := ["http://127.0.0.1/cb"]
  stateIsPkceVerifier := true

def sdkBody : Http.Body := .json (stsLoginRequest.write ⟨"c1", "p1", "http://127.0.0.1/cb"⟩) ""

def sdkPick : Pick (StsReply Unit) Inner
  | .inl (.exchangeCode _ _ _ _), s => (.ok ⟨some "h.e30.s"⟩, s)
  | .inr (.inl (.exchangeCode _ _ _)), s => (.error .CodeRejected, s)
  | .inr (.inl .refreshForKeyError), s => (none, s)
  | .inr (.inr asked), s => Call.pick memStore ⟨0⟩ .answered asked s

def sdkRun : Moment (StsOp Unit) (StsReply Unit) Http.HttpResponse Inner Unit :=
  (Moment.initial (fun _ => stsLogin sdkState (some ()) sdkBody) Inner.new).play
    (List.replicate 6 ((), sdkPick))

theorem sdkRun_reached : Reached (Exec memStore) (fun _ => True)
    (fun _ => stsLogin sdkState (some ()) sdkBody) (Inner.new.after []) sdkRun := by
  refine Reached.initial.play fun next hnext op s => ?_
  obtain rfl : next = ((), sdkPick) := List.eq_of_mem_replicate hnext
  cases op with
  | inl exchange => cases exchange; rfl
  | inr op =>
    cases op with
    | inl provider => cases provider <;> rfl
    | inr asked => exact Call.pick_exec memStore ⟨0⟩ .answered asked s

def deletes : StsOp Unit → Bool
  | .inr (.inr asked) => isDelete asked
  | .inr (.inl _) => false
  | .inl _ => false

theorem sdkRun_keeps : ∀ record ∈ sdkRun.log, deletes record.entry.1 = false := by decide

theorem sts_subject_is_found_first : ∃ entries subject, sdkRun.now () = .done (handed entries) ∧
    ("sub", .string subject) ∈ entries ∧ ∀ page date, ∃ stored,
      run (Call.pick memStore date .answered) (lookup page subject) sdkRun.state =
        (.ok (Handlers.single (some stored)), sdkRun.state) := by
  obtain ⟨_, _, hanswer⟩ := sts_subject_is_found sdkState [] (fun _ => some ()) (fun _ => sdkBody) _ _ _
    sdkRun_reached ()
  have hdone : sdkRun.now () = .done (handed ((flattenClaims (loginAs "1" "ada").claims).toList.map
    fun claim => (claim.1, .string claim.2))) := rfl
  obtain ⟨_, _, _, subject, row, _, _, _, _, hsub, _, earlier, record, later, hlog, _, _, hend⟩ :=
    hanswer _ hdone
  refine ⟨_, subject, hdone, hsub, fun page date => ?_⟩
  rcases hend with ⟨gone, hgone, hdrops⟩ | hfound
  · have hkept := sdkRun_keeps gone
      (hlog ▸ List.mem_append_right _ (List.mem_cons_of_mem _ hgone))
    rw [hdrops] at hkept
    cases hkept
  · obtain ⟨stored, _, _, hrun⟩ := hfound page date
    exact ⟨stored, hrun⟩

end First

end LakeFsAuth.Authn.Sts
