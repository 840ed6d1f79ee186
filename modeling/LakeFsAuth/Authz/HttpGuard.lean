import LakeFsAuth.Authz.HttpCases
import LakeFsAuth.Authz.Store.Mem

/-! Who reaches the store over HTTP. However the requests of a server interleave, one that is
not let in makes no store call, and what it is answered says nothing about the store. -/
namespace LakeFsAuth.Authz.Http
open Library Program LakeFsAuth.Core Core.Error Core.Json Core.Token Store Api

section Guard
variable [NumericDate] [FromSlice] [Authn.SecureCookie.HmacSha256]

/-- A request was let in when nothing is asked, or when its token was good at a time it read. -/
def LetIn (verifier : TokenVerifier) (request : HttpRequest) (calls : List (Entry Call.Reply)) :
    Prop :=
  verifier.disabled = true ∨ ∃ token, request.authorization.bind bearerToken = some token ∧
    ∃ time : Timestamp, (⟨.now, time⟩ : Entry Call.Reply) ∈ calls ∧
      verifier.verifyAt token time.asSecond = .ok ()

/-- What a request is answered that is not let in. -/
def refusal (request : HttpRequest) : HttpResponse :=
  bodyFor request.verb (errorResponse (.Unauthorized
    (if (request.authorization.bind bearerToken).isSome then "invalid bearer token"
      else "missing bearer token")))

/-- The store calls of a request: any of one that was let in, and the ping of the probe. -/
def MayCall (verifier : TokenVerifier) (options : RouterOptions) (request : HttpRequest)
    (calls : List (Entry Call.Reply)) (op : StoreOp) : Prop :=
  (∃ operation params, target options request = .route true operation params) ∧
      LetIn verifier request calls ∨
    (∃ params, target options request = .route false (some .readyz) params) ∧ op = .ping

def Guarded (options : RouterOptions) (request : HttpRequest) : Prop :=
  isPreflight options request = false ∧
    ∃ operation params, target options request = .route true operation params

/-- What the calls of a request are judged by. -/
def CallsWell (verifier : TokenVerifier) (options : RouterOptions) (request : HttpRequest)
    (calls : List (Entry Call.Reply)) (_ : Unit) (call : Call) : Prop :=
  ∀ op, call = .store op → MayCall verifier options request calls op

/-- What the answer to a request is judged by. -/
def AnswersWell (verifier : TokenVerifier) (options : RouterOptions) (request : HttpRequest)
    (calls : List (Entry Call.Reply)) (_ : Unit) (response : HttpResponse) : Prop :=
  Guarded options request → LetIn verifier request calls ∨ response = refusal request

variable {verifier : TokenVerifier} {options : RouterOptions} {request : HttpRequest}

theorem LetIn.mono {calls calls' : List (Entry Call.Reply)} (h : LetIn verifier request calls)
    (grows : calls <+: calls') : LetIn verifier request calls' := by
  rcases h with h | ⟨token, htoken, time, hmem, hverify⟩
  · exact .inl h
  · exact .inr ⟨token, htoken, time, grows.subset hmem, hverify⟩

theorem verifyAt_error {bearer : String} {now : Int} {error : ApiError}
    (h : verifier.verifyAt bearer now = .error error) :
    error = .Unauthorized "invalid bearer token" := by
  unfold TokenVerifier.verifyAt at h
  split_ifs at h
  exact (Except.error.inj h).symm

/-- The bearer check lets a request through after its token was found good, or refuses it. -/
theorem requireAuth_meets {operation : Option Operation} {params : List Text}
    (htarget : target options request = .route true operation params)
    {next : Action HttpResponse} :
    Meets (Seen fun _ _ => True) (CallsWell verifier options request)
      (fun calls _ response => LetIn verifier request calls ∨
        bodyFor request.verb response = refusal request)
      (requireAuth verifier request.authorization next) [] () := by
  have hlet {calls : List (Entry Call.Reply)} (h : LetIn verifier request calls) :
      Meets (Seen fun _ _ => True) (CallsWell verifier options request)
        (fun calls _ response => LetIn verifier request calls ∨
          bodyFor request.verb response = refusal request) next calls () :=
    .always (fun _ _ _ grows _ _ => .inl ⟨⟨operation, params, htarget⟩, h.mono grows⟩)
      fun _ _ _ grows => .inl (h.mono grows)
  unfold requireAuth
  cases htoken : request.authorization.bind bearerToken with
  | none =>
    by_cases hdisabled : verifier.disabled = true
    · simp only [if_pos hdisabled]
      exact hlet (.inl hdisabled)
    · simp only [if_neg hdisabled]
      refine .answer (.inr ?_)
      simp [refusal, htoken]
  | some token =>
    refine .perform_bind (fun op hop => nomatch hop) fun time _ _ => ?_
    cases hverify : verifier.verifyAt token time.asSecond with
    | ok value =>
      refine hlet (.inr ⟨token, htoken, time, List.mem_append_right _ List.mem_cons_self, ?_⟩)
      exact hverify
    | error error =>
      refine .answer (.inr ?_)
      rw [verifyAt_error hverify]
      simp [refusal, htoken]

end Guard

/-! The routes that are not guarded. -/

/-- The operations a list of routes may answer with. -/
def operations (routes : List Route) : List Operation :=
  routes.flatMap fun route => route.methods.map Prod.snd

theorem operation_mem {routes : List Route} {route : Route} (h : route ∈ routes) {verb : Verb}
    {operation : Operation} (found : route.operation verb = some operation) :
    operation ∈ operations routes :=
  List.mem_flatMap.mpr ⟨route, h, List.mem_map.mpr ⟨_, route.operation_mem found, rfl⟩⟩

theorem target_unguarded {options : RouterOptions} {request : HttpRequest}
    {operation : Option Operation} {params : List Text}
    (h : target options request = .route false operation params) :
    ∀ found, operation = some found → found = .healthcheck ∨ found = .readyz := by
  have hopen : ∀ operation ∈ operations (publicRouter ++ rootRouter),
      operation = .healthcheck ∨ operation = .readyz := by decide
  intro found hfound
  obtain ⟨route, hroute, hoperation⟩ := target_route h
  exact hopen found (operation_mem hroute (hoperation.symm.trans hfound))

section Public
variable [SecretBox.Aes256Gcm] [Validate.SerdeJson]

/-- They touch the store with the ping of the probe at most. -/
theorem public_only {options : RouterOptions} {request : HttpRequest} {draw : Service.Draw}
    {operation : Option Operation} {params : List Text}
    (h : target options request = .route false operation params) :
    Only (fun call => ∀ op, call = .store op → operation = some .readyz ∧ op = .ping)
      (dispatch draw request params operation) := by
  cases operation with
  | none => trivial
  | some operation =>
    rcases target_unguarded h operation rfl with rfl | rfl
    · trivial
    · refine ⟨fun op hop => ⟨rfl, ?_⟩, fun reply => ?_⟩
      · cases hop
        rfl
      · cases reply <;> trivial

end Public

section Serve
variable [NumericDate] [FromSlice] [Authn.SecureCookie.HmacSha256]
  [SecretBox.Aes256Gcm] [Validate.SerdeJson]

/-- What a request may call, and what it is answered, whatever its calls are answered. -/
theorem serve_meets (verifier : TokenVerifier) (options : RouterOptions) (draw : Service.Draw)
    (request : HttpRequest) : Meets (Seen fun _ _ => True) (CallsWell verifier options request)
      (AnswersWell verifier options request) (serve verifier options draw request) [] () := by
  unfold serve AnswersWell
  by_cases hpreflight : isPreflight options request = true
  · rw [if_pos hpreflight]
    exact .answer fun guarded => nomatch guarded.1.symm.trans hpreflight
  rw [if_neg hpreflight]
  cases htarget : target options request with
  | unmatched =>
    refine .answer fun ⟨_, _, _, hroute⟩ => ?_
    rw [htarget] at hroute
    cases hroute
  | route guarded operation params =>
    cases guarded with
    | true =>
      exact (requireAuth_meets htarget).bind fun calls _ response h => .answer fun _ => h
    | false =>
      have hopen : ¬ Guarded options request := by
        rintro ⟨_, _, _, hroute⟩
        rw [htarget] at hroute
        cases hroute
      refine ((public_only htarget).allows fun calls _ call honly op hop => ?_).bind
        fun _ _ _ _ => .answer fun guarded => absurd guarded hopen
      obtain ⟨rfl, rfl⟩ := honly op hop
      exact .inr ⟨⟨params, htarget⟩, rfl⟩

variable {σ ι : Type} [DecidableEq ι] {impl : StoreImpl σ} {Others : Call → Prop}
  {verifier : TokenVerifier} {options : RouterOptions} {draws : ι → Service.Draw}
  {requests : ι → HttpRequest} {s₀ s : σ} {log : List (Record Call.Reply σ ι)}
  {now : ι → Action HttpResponse}

/-- However requests interleave, over any store: a request makes a store call only after it was
let in, or it is the probe and pings. One that was not let in is answered with a text that
depends on nothing but its own header. -/
theorem store_is_behind_the_bearer
    (pool : Pool (Call.Exec impl) Others
      (fun i => serve verifier options (draws i) (requests i)) s₀ log now s) (i : ι) :
    (∀ earlier record later op, log = earlier ++ record :: later → record.who = some i →
      record.entry.1 = .store op →
        MayCall verifier options (requests i) (callsOf i earlier) op) ∧
    (∀ response, now i = .done response → Guarded options (requests i) →
      ¬ LetIn verifier (requests i) (callsOf i log) → response = refusal (requests i)) := by
  have hlawful : Lawful (Call.Exec impl) (fun _ => True) (fun _ _ => True) :=
    ⟨fun _ _ => trivial, fun _ _ => trivial⟩
  have hmeets (i : ι) := serve_meets verifier options (draws i) (requests i)
  constructor
  · intro earlier record later op hlog hwho hop
    exact pool.allows hlawful trivial hmeets hlog hwho op hop
  · intro response hdone guarded hout
    have hanswer := pool.answers hlawful trivial hmeets hdone
    exact (hanswer guarded).resolve_left hout

end Serve

/-! A request with the token, next to one without. -/

section Once
attribute [local instance] Authn.SecureCookie.plainMac wholeSeconds compactReader
  SecretBox.plainCipher Validate.noLists

def staticOnly : TokenVerifier := ⟨some (SecretBox.asBytes "static"), none, internalValidation, false⟩

def openToAll : RouterOptions := ⟨"", []⟩

def knock (second : Bool) : HttpRequest where
  verb := if second then .DELETE else .GET
  path := ["auth", "users", "ann"].map String.toList
  query := none
  authorization := if second then none else some "Bearer static"
  body := .unreadable ""

def knocking (second : Bool) : Action HttpResponse :=
  serve staticOnly openToAll ⟨"", "", .zero⟩ (knock second)

def knocked : Moment Call Call.Reply HttpResponse Mem.Inner Bool :=
  let pick := Call.pick Mem.memStore ⟨0⟩ .answered
  ((Moment.initial knocking Mem.Inner.new).turn false pick).turn false pick

theorem knocked_pool : Pool (Call.Exec Mem.memStore) (fun _ => False) knocking Mem.Inner.new
    knocked.log knocked.now knocked.state :=
  have honest := Call.pick_exec Mem.memStore ⟨0⟩ .answered
  (Moment.Reached.initial.turn false honest).turn false honest

theorem store_is_behind_the_bearer_knocked :
    MayCall staticOnly openToAll (knock false) [⟨.now, ⟨0⟩⟩] (.getUser "ann") ∧
      ∃ response, knocked.now true = .done response ∧ response = refusal (knock true) := by
  have hguard (i : Bool) := store_is_behind_the_bearer knocked_pool i
  constructor
  · exact (hguard false).1 [⟨some false, ⟨.now, ⟨0⟩⟩, .new, .new⟩] _ [] (.getUser "ann") rfl rfl rfl
  · have hout : ¬ LetIn staticOnly (knock true) (callsOf true knocked.log) := by
      rintro (hdisabled | ⟨token, htoken, _⟩)
      · exact nomatch hdisabled
      · exact nomatch htoken
    have htarget : target openToAll (knock true) =
        .route true (some .deleteUser) ["ann".toList] := rfl
    exact ⟨_, rfl, (hguard true).2 _ rfl ⟨rfl, _, _, htarget⟩ hout⟩

end Once

end LakeFsAuth.Authz.Http
