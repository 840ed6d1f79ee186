import LakeFsAuth.Authn.Session
import LakeFsAuth.Authz.HttpCases
import LakeFsAuth.Authz.Store.Mem
import LakeFsAuth.AuthzClient.Queries

/-! The client and the server on two ends of a connection. What the client writes, as URL,
header and body, the server takes for the request that was meant, and the client reads what
the server answered. -/
namespace LakeFsAuth.AuthzClient
open LakeFsAuth.Core Core.Error Core.Json Core.Model Core.Pagination Core.SecretBox Core.Text Core.Token
open Authn Authn.SecureCookie Authz Authz.Api Authz.Http Authz.Store Library Library.Program

/-! What the client sends. -/

/-- Lifetime of the internal token. -/
def INTERNAL_TOKEN_TTL : Nat := 5 * 60 * 1000000000

inductive ClientAuth where
  | Static (token : String)
  | InternalJwt (key : Bytes)
  | None

/-- The bearer token of one request. -/
def ClientAuth.bearer [HmacSha256] (jti : Jwt.Uuid) (issuedAt : Int) : ClientAuth → Option String
  | Static token => some token
  | InternalJwt key => some (mintInternalTokenAt key jti INTERNAL_TOKEN_TTL issuedAt)
  | None => none

/-- `RequestBuilder::bearer_auth`. -/
def bearerAuth (token : String) : String := "Bearer " ++ token

def verb : Method → Verb
  | .GET => .GET
  | .POST => .POST
  | .PUT => .PUT
  | .DELETE => .DELETE

/-- The body of `send_json`. -/
def requestBody : Request → Option Value
  | .createUser body => some (Wire.userCreation.write body)
  | .updateFriendlyName _ friendlyName => some (Wire.friendlyNameUpdate.write ⟨friendlyName⟩)
  | _ => none

/-- A request as it arrives, if it can be sent. A body that is not there is refused with `text`. -/
def arrived (request : Request) (authorization : Option String) (text : String) (url : Url) :
    Option HttpRequest :=
  if authorization.any fun value => !value.toList.all isHeaderChar then none
  else match url.path with
    | .segments path => some {
        verb := verb request.method
        path
        query := url.query
        authorization := authorization.bind headerText
        body := match requestBody request with
          | some value => .json value text
          | none => .unreadable text }
    | .opaquePath _ => none

/-- What the functions of the client ask for, of a server with this cipher and this draw. -/
def Sent (cipher : Aes256Gcm) (draw : Service.Draw) : Request → Prop
  | .listUsers query => query.page = lookupPage ∧ query.id = none
  | .listUserGroups _ params => params.pre = none ∧ params.amount = some 1000
  | .createCredentials cipher' draw' _ => cipher' = cipher ∧ draw' = draw
  | _ => True

/-! What the server answers. -/

/-- The body of a success. -/
def payload : (request : Request) → request.Success → Payload
  | .version => json Wire.versionConfig
  | .listUsers _ => json (Wire.listResponse Wire.user)
  | .getUser _ => json Wire.user
  | .createUser _ => json Wire.user
  | .listUserGroups _ _ => json (Wire.listResponse Wire.group)
  | .createCredentials _ _ _ => json Wire.credentialsWithSecret
  | .healthcheck => noContent
  | .deleteUser _ => noContent
  | .updateFriendlyName _ _ => noContent
  | .addMembership _ _ => noContent

def toHttp (request : Request) : Except ApiError request.Success → HttpResponse :=
  respond request.successStatus (payload request)

/-- How the client reads the body of a success. -/
def readSuccess : (request : Request) → Payload → Option request.Success
  | .version, .json value => Wire.versionConfig.read value
  | .listUsers _, .json value => (Wire.listResponse Wire.user).read value
  | .getUser _, .json value => Wire.user.read value
  | .createUser _, .json value => Wire.user.read value
  | .listUserGroups _ _, .json value => (Wire.listResponse Wire.group).read value
  | .createCredentials _ _ _, .json value => Wire.credentialsWithSecret.read value
  | .healthcheck, _ => some ()
  | .deleteUser _, _ => some ()
  | .updateFriendlyName _ _, _ => some ()
  | .addMembership _ _, _ => some ()
  | _, _ => none

/-- What the client makes of a response. -/
def fromHttp (request : Request) (response : HttpResponse) : Response request.Success where
  status := response.status
  body :=
    if response.status = request.successStatus then
      match readSuccess request response.payload with
      | some value => .json value
      | none => .broken
    else match response.payload with
      | .json value => match Wire.errorBody.read value with
          | some body => .error body.message
          | none => .broken
      | _ => .broken

/-! Routing. -/

def operation : Request → Operation
  | .healthcheck => .healthcheck
  | .version => .version
  | .listUsers _ => .listUsers
  | .getUser _ => .getUser
  | .createUser _ => .createUser
  | .deleteUser _ => .deleteUser
  | .updateFriendlyName _ _ => .updateFriendlyName
  | .addMembership _ _ => .addMembership
  | .listUserGroups _ _ => .listUserGroups
  | .createCredentials _ _ _ => .createCredentials

/-- Every route but the health check asks for the token. -/
def guarded : Request → Bool
  | .healthcheck => false
  | _ => true

/-- The ids in the path. -/
def ids : Request → List String
  | .healthcheck | .version | .listUsers _ | .createUser _ => []
  | .getUser username | .deleteUser username | .updateFriendlyName username _
  | .listUserGroups username _ | .createCredentials _ _ username => [username]
  | .addMembership groupId username => [groupId, username]

section Fills
variable {parts : List Part} {segments : List Text}

theorem fills_nil (fills : List.Forall₂ Fills [] segments) : segments = [] := by
  cases fills
  rfl

theorem fills_text {literal : String} (fills : List.Forall₂ Fills (.text literal :: parts) segments) :
    ∃ rest, segments = literal.toList :: rest ∧ List.Forall₂ Fills parts rest := by
  cases fills with
  | cons fills hrest =>
    cases fills
    exact ⟨_, rfl, hrest⟩

theorem fills_id {value : String} (fills : List.Forall₂ Fills (.id value :: parts) segments)
    (nonempty : value ≠ "") :
    ∃ ch text rest, segments = (ch :: text) :: rest ∧
      SecretBox.fromUtf8 (Url.percentDecode (ch :: text)) = some value ∧
      List.Forall₂ Fills parts rest := by
  cases fills with
  | @cons _ segment _ rest fills hrest =>
    have hdecode : Url.percentDecode segment = asBytes value := fills
    cases segment with
    | nil => exact absurd (asBytes_inj.mp hdecode.symm) nonempty
    | cons ch text => exact ⟨ch, text, rest, rfl, by rw [hdecode, fromUtf8_asBytes], hrest⟩

/-- Below the users, the path of one of them. -/
theorem fills_user {username : String} (fills : List.Forall₂ Fills
      (.text "auth" :: .text "users" :: .id username :: parts) segments) (nonempty : username ≠ "") :
    ∃ ch text rest, segments = "auth".toList :: "users".toList :: (ch :: text) :: rest ∧
      SecretBox.fromUtf8 (Url.percentDecode (ch :: text)) = some username ∧
      List.Forall₂ Fills parts rest := by
  obtain ⟨_, rfl, fills₁⟩ := fills_text fills
  obtain ⟨_, rfl, fills₂⟩ := fills_text fills₁
  obtain ⟨ch, text, rest, rfl, hdecode, hrest⟩ := fills_id fills₂ nonempty
  exact ⟨ch, text, rest, rfl, hdecode, hrest⟩

end Fills

/-- The segments of a request are routed to its operation, with its ids. -/
theorem findRoute_request {request : Request} {segments : List Text}
    (fills : List.Forall₂ Fills (template request) segments) (valid : ∀ id ∈ ids request, id ≠ "") :
    ∃ route params, (if guarded request then findRoute protectedRouter segments = some (route, params)
        else findRoute protectedRouter segments = none ∧
          findRoute publicRouter segments = some (route, params)) ∧
      route.operation (verb request.method) = some (operation request) ∧
      pathParams params = some (ids request) := by
  cases request with
  | healthcheck =>
    obtain ⟨_, rfl, fills₁⟩ := fills_text fills
    obtain rfl := fills_nil fills₁
    exact ⟨_, _, ⟨rfl, rfl⟩, rfl, rfl⟩
  | version =>
    obtain ⟨_, rfl, fills₁⟩ := fills_text fills
    obtain ⟨_, rfl, fills₂⟩ := fills_text fills₁
    obtain rfl := fills_nil fills₂
    exact ⟨_, _, rfl, rfl, rfl⟩
  | listUsers query | createUser body =>
    obtain ⟨_, rfl, fills₁⟩ := fills_text fills
    obtain ⟨_, rfl, fills₂⟩ := fills_text fills₁
    obtain rfl := fills_nil fills₂
    exact ⟨_, _, rfl, rfl, rfl⟩
  | getUser username | deleteUser username =>
    obtain ⟨_, _, _, rfl, hdecode, fills₁⟩ := fills_user fills (valid username (by simp [ids]))
    obtain rfl := fills_nil fills₁
    exact ⟨_, _, rfl, rfl, by simp [pathParams, ids, hdecode]⟩
  | updateFriendlyName username _ | listUserGroups username _ | createCredentials _ _ username =>
    obtain ⟨_, _, _, rfl, hdecode, fills₁⟩ := fills_user fills (valid username (by simp [ids]))
    obtain ⟨_, rfl, fills₂⟩ := fills_text fills₁
    obtain rfl := fills_nil fills₂
    exact ⟨_, _, rfl, rfl, by simp [pathParams, ids, hdecode]⟩
  | addMembership groupId username =>
    obtain ⟨_, rfl, fills₁⟩ := fills_text fills
    obtain ⟨_, rfl, fills₂⟩ := fills_text fills₁
    obtain ⟨_, _, _, rfl, hgroup, fills₃⟩ := fills_id fills₂ (valid groupId (by simp [ids]))
    obtain ⟨_, rfl, fills₄⟩ := fills_text fills₃
    obtain ⟨_, _, _, rfl, huser, fills₅⟩ := fills_id fills₄ (valid username (by simp [ids]))
    obtain rfl := fills_nil fills₅
    exact ⟨_, _, rfl, rfl, by simp [pathParams, ids, hgroup, huser]⟩

/-! Extraction. -/

theorem queryPairs_arrived {request : Request} {query : Option Text}
    (asked : query = if queryPairs request = [] then none else some (formQuery (queryPairs request))) :
    Http.queryPairs query = queryPairs request := by
  unfold Http.queryPairs
  split at asked
  · rename_i hnil
    rw [asked, hnil]
    rfl
  · rw [asked, Option.getD_some, parse_formQuery]

theorem parseAmount_sent : parseAmount (some (Int.repr 2)) = some 2 ∧
    parseAmount (some (Int.repr 1000)) = some 1000 := by decide

theorem listUsersQuery_arrived {query : ListUsersQuery} (page : query.page = lookupPage)
    (noId : query.id = none) : listUsersQuery (queryPairs (.listUsers query)) = some query := by
  obtain ⟨_, _, email, externalId⟩ := query
  subst page noId
  cases email <;> cases externalId <;>
    simp [listUsersQuery, paginationParams, queryPairs, queryField, lookupPage, parseAmount_sent]

theorem paginationParams_arrived {username : String} {params : PaginationParams}
    (noPrefix : params.pre = none) (amount : params.amount = some 1000) :
    paginationParams (queryPairs (.listUserGroups username params)) = some params := by
  obtain ⟨_, after, _⟩ := params
  subst noPrefix amount
  cases after <;> simp [paginationParams, queryPairs, queryField, parseAmount_sent]

section Handler
variable [cipher : Aes256Gcm] [Validate.SerdeJson] {draw : Service.Draw} {http : HttpRequest}
  {params : List Text}

/-- What arrives is handled as it was meant. -/
theorem handle_request {request : Request} (sent : Sent cipher draw request)
    (hquery : Http.queryPairs http.query = queryPairs request)
    (hbody : ∀ value ∈ requestBody request, ∃ text, http.body = .json value text)
    (hparams : pathParams params = some (ids request)) :
    Http.handle draw http params (operation request) = do
      return toHttp request (← Handlers.answer request) := by
  cases request with
  | healthcheck | version => rfl
  | listUsers query =>
    have hread := listUsersQuery_arrived sent.1 sent.2
    simp only [operation, Http.handle, Http.withQuery, hquery, hread]
    rfl
  | createUser body =>
    obtain ⟨text, hjson⟩ := hbody _ rfl
    simp only [operation, Http.handle, withJson, apiJson, hjson, Wire.userCreation.read_write trivial]
    rfl
  | getUser username | deleteUser username | addMembership groupId username =>
    simp only [operation, Http.handle, path1, path2, hparams, ids]
    rfl
  | updateFriendlyName username name =>
    obtain ⟨text, hjson⟩ := hbody _ rfl
    simp only [operation, Http.handle, path1, hparams, ids, withJson, apiJson, hjson,
      Wire.friendlyNameUpdate.read_write trivial]
    rfl
  | listUserGroups username page =>
    have hread : paginationParams (queryPairs (.listUserGroups username page)) = some page :=
      paginationParams_arrived sent.1 sent.2
    simp only [operation, Http.handle, path1, hparams, ids, Http.withQuery, hquery, hread]
    rfl
  | createCredentials cipher' draw' username =>
    obtain ⟨rfl, rfl⟩ := sent
    simp only [operation, Http.handle, path1, hparams, ids, Http.withQuery, hquery]
    rfl

end Handler

/-! The way back. -/

/-- An error of the handlers is a 4xx or a 5xx. -/
def Failing (result : Except ApiError α) : Prop :=
  ∀ error, result = .error error → 400 ≤ error.statusCode ∧ error.statusCode ≤ 599

section Failing

theorem failing_ok (value : α) : Failing (.ok value) := nofun

theorem failing_invalid (message : String) : Failing (.error (.invalid message) : Except ApiError α) := by
  rintro _ ⟨⟩
  exact ⟨Nat.le_refl 400, Nat.le_add_right 400 199⟩

theorem failing_internal (detail : String) :
    Failing (.error (.Internal detail) : Except ApiError α) := by
  rintro _ ⟨⟩
  exact ⟨Nat.le_add_right 400 100, Nat.le_add_right 500 99⟩

theorem failing_toApiError (error : StoreError) : Failing (.error error.toApiError : Except ApiError α) := by
  rintro _ ⟨⟩
  cases error <;> simp [StoreError.toApiError, ApiError.notFound, ApiError.alreadyExists,
    ApiError.statusCode]

theorem failing_mapError (result : Except StoreError α) :
    Failing (result.mapError StoreError.toApiError) := by
  rintro _ h
  cases result with
  | ok value => cases h
  | error error => exact failing_toApiError error _ h

theorem failing_map {result : Except ApiError α} (f : α → β) (h : Failing result) :
    Failing (result.map f) := by
  rintro error heq
  cases result with
  | ok value => cases heq
  | error error =>
    cases heq
    exact h error rfl

theorem validateEntityId_failing (kind id : String) : Failing (Validate.validateEntityId kind id) := by
  unfold Validate.validateEntityId
  split_ifs <;> first | exact failing_invalid _ | exact failing_ok ()

theorem requestedUser_failing (body : UserCreation) (date : Timestamp) :
    Failing (Service.requestedUser body date) := by
  intro error h
  unfold Service.requestedUser NewUser.validated at h
  cases hid : Validate.validateEntityId "user" body.username with
  | ok => rw [hid] at h; cases h
  | error error' =>
    rw [hid] at h
    cases h
    exact validateEntityId_failing _ _ _ hid

theorem createOrExisting_failing (created : StoreResult UserRecord) (username : String)
    (matchesRow : UserRecord → Bool) :
    Yields Failing (Service.createOrExisting created (store (.getUser username)) matchesRow) := by
  unfold Service.createOrExisting
  cases created with
  | ok value => exact failing_ok value
  | error conflict =>
    simp only
    split
    · intro reply
      rcases reply with error | existing
      · cases error <;> exact failing_toApiError _
      · change Yields Failing (if matchesRow existing then _ else _)
        split
        · exact failing_ok existing
        · exact failing_toApiError conflict
    · exact failing_toApiError conflict

theorem answer_failing (request : Request) : Yields Failing (Handlers.answer request) := by
  cases request with
  | healthcheck | version => exact failing_ok _
  | listUsers query =>
    change Yields Failing (Handlers.listUsers query)
    unfold Handlers.listUsers
    split
    · split
      · exact failing_ok _
      · exact fun reply => failing_mapError _
    · exact fun reply => failing_mapError _
    · exact fun reply => failing_mapError _
    · exact fun reply => failing_mapError _
  | createUser body =>
    change Yields Failing (Service.createUser body)
    unfold Service.createUser
    split
    · exact failing_invalid _
    · intro date
      dsimp only [Program.bind]
      cases hrequested : Service.requestedUser body date with
      | error error =>
        intro other h
        cases h
        exact requestedUser_failing body date _ hrequested
      | ok requested =>
        intro created
        exact (createOrExisting_failing created _ _).bind fun row hrow => failing_map _ hrow
  | getUser username | deleteUser username | updateFriendlyName username _ | addMembership _ username
  | listUserGroups username _ => exact fun reply => failing_mapError _
  | createCredentials cipher draw username =>
    intro date
    dsimp only [Program.bind]
    split
    · exact failing_internal _
    · intro reply
      cases reply with
      | error error => exact failing_toApiError error
      | ok created => exact failing_ok _

end Failing

/-- The numbers of an answer are 64 bits wide. -/
def Fits : (request : Request) → request.Success → Prop
  | .version => Wire.versionConfig.Fits
  | .listUsers _ => (Wire.listResponse Wire.user).Fits
  | .getUser _ => Wire.user.Fits
  | .createUser _ => Wire.user.Fits
  | .listUserGroups _ _ => (Wire.listResponse Wire.group).Fits
  | .createCredentials _ _ _ => Wire.credentialsWithSecret.Fits
  | .healthcheck => fun _ => True
  | .deleteUser _ => fun _ => True
  | .updateFriendlyName _ _ => fun _ => True
  | .addMembership _ _ => fun _ => True

theorem readSuccess_payload {request : Request} {value : request.Success} (fits : Fits request value) :
    readSuccess request (payload request value) = some value := by
  cases request with
  | healthcheck | deleteUser _ | updateFriendlyName _ _ | addMembership _ _ => rfl
  | version => exact Wire.versionConfig.read_write fits
  | listUsers _ => exact (Wire.listResponse Wire.user).read_write fits
  | getUser _ | createUser _ => exact Wire.user.read_write fits
  | listUserGroups _ _ => exact (Wire.listResponse Wire.group).read_write fits
  | createCredentials _ _ _ => exact Wire.credentialsWithSecret.read_write fits

theorem successStatus_lt (request : Request) : request.successStatus < 400 := by
  cases request <;> simp [Request.successStatus]

/-- The client reads what the server answered. -/
theorem fromHttp_toHttp {request : Request} {result : Except ApiError request.Success}
    (failing : Failing result) (fits : ∀ value, result = .ok value → Fits request value) :
    fromHttp request (toHttp request result) = Handlers.respond request result := by
  cases result with
  | ok value =>
    have hread := readSuccess_payload (fits value rfl)
    simp only [toHttp, respond, fromHttp, hread, Handlers.respond, if_pos]
  | error error =>
    obtain ⟨low, high⟩ := failing error rfl
    have hstatus : Http.status error = error.statusCode := by
      rw [Http.status, if_pos ⟨by omega, by omega⟩]
    have hother : error.statusCode ≠ request.successStatus := by
      have := successStatus_lt request
      omega
    simp only [toHttp, respond, errorResponse, fromHttp, hstatus, if_neg hother,
      Wire.errorBody.read_write trivial, Handlers.respond]

/-! One request on the way. -/

theorem encode_nonempty {part : Part} {text : String} (h : part.encode = .ok text) :
    ∀ id, part = .id id → id ≠ "" := by
  rintro id rfl
  rintro rfl
  have invalid : ¬ Validate.ValidId "" := fun valid => valid.nonempty rfl
  obtain ⟨message, herror⟩ := segment_invalid invalid
  rw [Part.encode, herror] at h
  cases h

theorem ids_nonempty [Url.HostParser] {base : Url} {request : Request} {answer : Option Url}
    (sent : requestUrl base request = .ok answer) : ∀ id ∈ ids request, id ≠ "" := by
  intro id hid
  have hmem : Part.id id ∈ template request := by
    cases request <;> simp [ids] at hid <;> simp [template, hid]
  obtain ⟨_, hrequest, _⟩ := Fallible.map_ok sent
  obtain ⟨_, hencode, _⟩ := Fallible.map_ok hrequest
  have hparts := (Fallible.mapM_ok hencode).imp fun _ _ h => And.intro (encode_nonempty h) h
  exact ((List.forall₂_and_left _ _).mp hparts).1 _ hmem id rfl

theorem target_request {options : RouterOptions} {http : HttpRequest} {request : Request}
    {segments : List Text} (hpath : http.path = baseSegments options.basePath ++ segments)
    (hverb : http.verb = verb request.method)
    (fills : List.Forall₂ Fills (template request) segments)
    (nonempty : ∀ id ∈ ids request, id ≠ "") :
    ∃ params, target options http = .route (guarded request) (some (operation request)) params ∧
      pathParams params = some (ids request) := by
  obtain ⟨route, params, hfind, hoperation, hparams⟩ := findRoute_request fills nonempty
  refine ⟨params, ?_, hparams⟩
  unfold target
  simp only [hpath, List.prefix_append, if_true, List.drop_left, Option.bind_some, hverb]
  cases hguarded : guarded request with
  | true =>
    rw [hguarded, if_pos rfl] at hfind
    rw [hfind]
    simp only [hoperation]
  | false =>
    rw [hguarded, if_neg (by decide)] at hfind
    rw [hfind.1, hfind.2]
    simp only [hoperation]

section Trust
variable [NumericDate] [FromSlice] [SecureCookie.HmacSha256]

/-- Client and server were set up with each other: nothing is asked, or both have the static
token, or both have the secret and their clocks are close. -/
inductive Agreed (secretKey apiToken : Option String) (disabled : Bool) (issuedAt now : Int) :
    ClientAuth → Prop where
  | disabled (off : disabled = true) : Agreed secretKey apiToken disabled issuedAt now .None
  | staticToken {token} (same : apiToken.bind nonBlank = some token)
      (visible : headerText token = some token) :
      Agreed secretKey apiToken disabled issuedAt now (.Static token)
  | sharedSecret {secret} (noStatic : apiToken.bind nonBlank = none)
      (same : secretKey.bind nonBlank = some secret) (start : 0 ≤ issuedAt)
      (fresh : now ≤ Jwt.expiresAt issuedAt INTERNAL_TOKEN_TTL + LEEWAY_SECONDS) :
      Agreed secretKey apiToken disabled issuedAt now (.InternalJwt (asBytes secret))

omit [NumericDate] [FromSlice] [SecureCookie.HmacSha256] in
theorem nonBlank_again {value token : String} (h : nonBlank value = some token) :
    nonBlank token = some token := by
  obtain ⟨rfl, hfilled⟩ := nonBlank_some h
  rw [nonBlank_of_trim_ne _ (by rwa [trim_trim]), trim_trim]

omit [NumericDate] [FromSlice] [SecureCookie.HmacSha256] in
theorem nonBlank_clean {token : String} (filled : token ≠ "")
    (clean : ∀ ch ∈ token.toList, isWhitespace ch = false) : nonBlank token = some token := by
  have htrim : trim token = token := by
    have hstart : token.toList.dropWhile isWhitespace = token.toList := by
      rw [List.dropWhile_eq_self_iff]
      exact fun _ => by simp [clean _ (List.getElem_mem _)]
    have hend : token.toList.rdropWhile isWhitespace = token.toList := by
      rw [List.rdropWhile_eq_self_iff]
      exact fun _ => by simp [clean _ (List.getLast_mem _)]
    rw [trim, hstart, hend, String.ofList_toList]
  rw [nonBlank_of_trim_ne _ (by rwa [htrim]), htrim]

omit [NumericDate] [FromSlice] [SecureCookie.HmacSha256] in
theorem bearerToken_bearerAuth {token : String} (h : nonBlank token = some token) :
    bearerToken (bearerAuth token) = some token := by
  have htext : (bearerAuth token).toList = "Bearer".toList ++ ' ' :: token.toList := by
    rw [bearerAuth, String.toList_append]
    rfl
  have hname : ∀ ch ∈ "Bearer".toList, (ch != ' ') = true := Url.forall_of_all (by decide)
  have hscheme : eqIgnoreAsciiCase "Bearer" "bearer" = true := by decide
  rw [bearerToken, htext, List.dropWhile_append_of_pos hname, List.takeWhile_append_of_pos hname]
  simp [hscheme, h]

omit [NumericDate] [FromSlice] [SecureCookie.HmacSha256] in
theorem headerText_some {value : String} :
    headerText value = some value ↔ ∀ ch ∈ value.toList, isHeaderChar ch = true ∧ ch.toNat < 127 := by
  simp [headerText]

omit [NumericDate] [FromSlice] [SecureCookie.HmacSha256] in
theorem headerText_bearerAuth {token : String} (h : headerText token = some token) :
    headerText (bearerAuth token) = some (bearerAuth token) := by
  have hscheme : ∀ ch ∈ "Bearer ".toList, isHeaderChar ch = true ∧ ch.toNat < 127 :=
    Url.forall_of_all (by decide)
  rw [headerText_some] at h ⊢
  intro ch hch
  rw [bearerAuth, String.toList_append] at hch
  exact (List.mem_append.mp hch).elim (hscheme ch) (h ch)

omit [NumericDate] [FromSlice] in
/-- A minted token is in letters, digits, `-`, `_` and dots. -/
theorem minted_clean {key : Bytes} {jti : Jwt.Uuid} {ttl : Nat} {issuedAt : Int} {ch : Char}
    (h : ch ∈ (mintInternalTokenAt key jti ttl issuedAt).toList) :
    isWhitespace ch = false ∧ isHeaderChar ch = true ∧ ch.toNat < 127 := by
  let clean (byte : UInt8) : Prop := isWhitespace (Char.ofNat byte.toNat) = false ∧
    isHeaderChar (Char.ofNat byte.toNat) = true ∧ (Char.ofNat byte.toNat).toNat < 127
  have hsymbol : ∀ n, clean (Base64.urlSafe.symbol n) := by decide
  have hpad : clean Base64.pad := by decide
  have hdot : clean Jwt.dot := by decide
  have hencode (bytes : Bytes) (byte : UInt8) (h : byte ∈ Jwt.base64Url bytes) : clean byte :=
    Base64.urlSafe.encode_all hsymbol hpad h
  rw [mintInternalTokenAt, Jwt.encode, Jwt.ascii, String.toList_ofList] at h
  obtain ⟨byte, hbyte, rfl⟩ := List.mem_map.mp h
  change clean byte
  simp only [List.mem_append, List.mem_cons] at hbyte
  rcases hbyte with (h | rfl | h) | rfl | h
  · exact hencode _ _ h
  · exact hdot
  · exact hencode _ _ h
  · exact hdot
  · exact hencode _ _ h

omit [NumericDate] [FromSlice] in
theorem minted_bearer (key : Bytes) (jti : Jwt.Uuid) (ttl : Nat) (issuedAt : Int) :
    nonBlank (mintInternalTokenAt key jti ttl issuedAt) =
        some (mintInternalTokenAt key jti ttl issuedAt) ∧
      headerText (mintInternalTokenAt key jti ttl issuedAt) =
        some (mintInternalTokenAt key jti ttl issuedAt) := by
  refine ⟨nonBlank_clean ?_ fun ch hch => (minted_clean hch).1,
    headerText_some.mpr fun ch hch => (minted_clean hch).2⟩
  intro hnil
  have hlist := congrArg String.toList hnil
  simp [mintInternalTokenAt, Jwt.encode, Jwt.ascii] at hlist

/-- The token of a client is sent, and lets it in. -/
theorem agreed_letsIn {secretKey apiToken : Option String} {disabled : Bool}
    {verifier : TokenVerifier} {auth : ClientAuth} {issuedAt : Int} {date : Timestamp}
    (built : TokenVerifier.new secretKey apiToken disabled = .ok verifier)
    (agreed : Agreed secretKey apiToken disabled issuedAt date.asSecond auth) (jti : Jwt.Uuid) :
    ∃ header, (auth.bearer jti issuedAt).map bearerAuth = header ∧
      (∀ value ∈ header, headerText value = some value) ∧ letsIn verifier header date := by
  refine ⟨_, rfl, ?_⟩
  have hverify := verifyAt_iff built
  unfold letsIn
  cases agreed with
  | disabled off => exact ⟨nofun, (new_eq_ok built).1.trans off⟩
  | @staticToken token same visible =>
    obtain ⟨_, _, hblank⟩ := Option.bind_eq_some_iff.mp same
    have hbearer := bearerToken_bearerAuth (nonBlank_again hblank)
    simp only [ClientAuth.bearer, Option.map_some, Option.bind_some, hbearer]
    refine ⟨?_, (hverify token _).mpr (.inr (.inl same))⟩
    rintro _ ⟨⟩
    exact headerText_bearerAuth visible
  | @sharedSecret secret noStatic same start fresh =>
    obtain ⟨hblank, hvisible⟩ := minted_bearer (asBytes secret) jti INTERNAL_TOKEN_TTL issuedAt
    have hbearer := bearerToken_bearerAuth hblank
    simp only [ClientAuth.bearer, Option.map_some, Option.bind_some, hbearer]
    refine ⟨?_, (hverify _ _).mpr (.inr (.inr ⟨noStatic, secret, same, ?_⟩))⟩
    · rintro _ ⟨⟩
      exact headerText_bearerAuth hvisible
    · exact (decodeAt_internal (asBytes secret) jti INTERNAL_TOKEN_TTL start date.asSecond).mpr fresh

omit [NumericDate] [FromSlice] [SecureCookie.HmacSha256] in
/-- A visible header can be sent, and is read as it is. -/
theorem headers_arrive {header : Option String} (visible : ∀ value ∈ header, headerText value = some value) :
    (header.any fun value => !value.toList.all isHeaderChar) = false ∧
      header.bind headerText = header := by
  cases header with
  | none => exact ⟨rfl, rfl⟩
  | some value =>
    have hvalue := visible value rfl
    have hall : value.toList.all isHeaderChar = true :=
      List.all_eq_true.mpr fun ch hch => (headerText_some.mp hvalue ch hch).1
    exact ⟨by simp [hall], hvalue⟩

end Trust

/-! The whole way. -/

section Whole
variable [NumericDate] [FromSlice] [SecureCookie.HmacSha256] [cipher : Aes256Gcm]
  [Validate.SerdeJson]

/-- A request the server lets in runs its handler, and answers as the handler does. -/
theorem serve_request {verifier : TokenVerifier} {options : RouterOptions} {draw : Service.Draw}
    {http : HttpRequest} {request : Request} {params : List Text} {date : Timestamp}
    (hverb : http.verb = verb request.method)
    (htarget : target options http = .route (guarded request) (some (operation request)) params)
    (hhandle : Http.handle draw http params (operation request) = do
      return toHttp request (← Handlers.answer request))
    (trusted : letsIn verifier http.authorization date) {σ : Type} (impl : StoreImpl σ)
    (fault : Fault) (s : σ) :
    run (Call.pick impl date fault) (serve verifier options draw http) s =
      (toHttp request (run (Call.pick impl date fault) (Handlers.answer request) s).1,
        (run (Call.pick impl date fault) (Handlers.answer request) s).2) := by
  have hplain : http.verb ≠ .HEAD ∧ http.verb ≠ .OPTIONS := by
    rw [hverb]
    cases request.method <;> decide
  have hpreflight : isPreflight options http = false := by simp [isPreflight, hplain.2]
  have hbody (response : HttpResponse) : bodyFor http.verb response = response := if_neg hplain.1
  have hdispatch : dispatch draw http params (some (operation request)) = do
      return toHttp request (← Handlers.answer request) := hhandle
  unfold Http.serve
  simp only [hpreflight, Bool.false_eq_true, if_false, htarget, hbody]
  cases guarded request with
  | true =>
    dsimp only
    rw [run_bind, run_requireAuth trusted, hdispatch, run_bind]
    rfl
  | false =>
    dsimp only
    rw [run_bind, hdispatch, run_bind]
    rfl

/-- Between a client and a server that were set up with each other, a request goes over the wire
and comes back as if the client had called the handler. -/
theorem wire_carries_requests [Url.HostParser] {address : Text} {base : Url} {request : Request}
    {answer : Option Url} {secretKey apiToken : Option String} {disabled : Bool}
    {verifier : TokenVerifier} {options : RouterOptions} {draw : Service.Draw} {auth : ClientAuth}
    {issuedAt : Int} {date : Timestamp}
    (parsed : Url.parse none address = some base)
    (web : base.scheme = "http" ∨ base.scheme = "https")
    (place : (withSlash base).path = .segments (baseSegments options.basePath ++ [[]]))
    (built : TokenVerifier.new secretKey apiToken disabled = .ok verifier)
    (agreed : Agreed secretKey apiToken disabled issuedAt date.asSecond auth)
    (sent : requestUrl base request = .ok answer) (asks : Sent cipher draw request)
    (jti : Jwt.Uuid) (text : String) {σ : Type} (impl : StoreImpl σ) (fault : Fault) (s : σ) :
    ∃ url http, answer = some url ∧
      arrived request ((auth.bearer jti issuedAt).map bearerAuth) text url = some http ∧
      let handled := run (Call.pick impl date fault) (Handlers.answer request) s
      let served := run (Call.pick impl date fault) (serve verifier options draw http) s
      served.2 = handled.2 ∧ ((∀ value, handled.1 = .ok value → Fits request value) →
        fromHttp request served.1 = Handlers.respond request handled.1) := by
  obtain ⟨url, hanswer, asked⟩ := requestUrl_asks parsed web sent
  obtain ⟨segments, hpath, fills⟩ := asked.path _ place
  obtain ⟨header, hheader, hvisible, letIn⟩ := agreed_letsIn built agreed jti
  let http : HttpRequest := {
    verb := verb request.method
    path := baseSegments options.basePath ++ segments
    query := url.query
    authorization := header
    body := match requestBody request with
      | some value => .json value text
      | none => .unreadable text }
  have harrived : arrived request ((auth.bearer jti issuedAt).map bearerAuth) text url = some http := by
    obtain ⟨hvalid, hread⟩ := headers_arrive hvisible
    rw [hheader, arrived, hvalid, hread, hpath]
    rfl
  have hhttp : http.path = baseSegments options.basePath ++ segments := rfl
  have hverb : http.verb = verb request.method := rfl
  obtain ⟨params, htarget, hparams⟩ := target_request hhttp hverb fills (ids_nonempty sent)
  have hbody : ∀ value ∈ requestBody request, ∃ text, http.body = .json value text := by
    intro value hvalue
    refine ⟨text, ?_⟩
    change (match requestBody request with
      | some value => Http.Body.json value text
      | none => .unreadable text) = _
    rw [Option.mem_def.mp hvalue]
  have hquery : Http.queryPairs http.query = queryPairs request := queryPairs_arrived asked.query
  have hhandle := handle_request asks hquery hbody hparams
  have hserved := serve_request rfl htarget hhandle letIn impl fault s
  refine ⟨url, http, hanswer, harrived, ?_⟩
  simp only [hserved, true_and]
  exact fun fits => fromHttp_toHttp ((answer_failing request).run _ _) fits

end Whole

/-! A name that needs encoding, under a base path. -/

section Names
attribute [local instance] Redirect.plainHosts SecureCookie.plainMac wholeSeconds compactReader
  plainCipher Validate.noLists

def belowBase : RouterOptions := ⟨" api/v1/ ", []⟩

def undrawn : Service.Draw := ⟨"", "", .zero⟩

/-- A user that is not there. -/
theorem wire_carries_requests_names : ∃ url http,
    requestUrl lakeFsBase (.getUser "a b#c") = .ok (some url) ∧
    arrived (.getUser "a b#c")
      (((ClientAuth.InternalJwt (asBytes "shared")).bearer Session.nilUuid 100).map bearerAuth) "" url =
        some http ∧
    fromHttp (.getUser "a b#c") (run (Call.pick Mem.memStore ⟨360000000000⟩ .answered)
      (serve sharedOnly belowBase undrawn http) Mem.Inner.new).1 =
        ⟨404, .error "user not found: a b#c"⟩ := by
  have hsecret : (some "shared").bind nonBlank = some "shared" := by decide
  have built : TokenVerifier.new (some "shared") none false = .ok sharedOnly := by
    simp only [TokenVerifier.new, Option.bind_none, hsecret]
    rfl
  have agreed : Agreed (some "shared") none false 100 (Timestamp.asSecond ⟨360000000000⟩)
      (.InternalJwt (asBytes "shared")) :=
    .sharedSecret rfl hsecret (by decide) (by decide)
  have sent : requestUrl lakeFsBase (.getUser "a b#c") = .ok (some { lakeFsBase with
      path := .segments ["api".toList, "v1".toList, "auth".toList, "users".toList,
        "a%20b%23c".toList] }) := by decide
  have place : (withSlash lakeFsBase).path = .segments (baseSegments belowBase.basePath ++ [[]]) := by
    decide
  have asks : Sent plainCipher undrawn (.getUser "a b#c") := trivial
  obtain ⟨url, http, hurl, harrived, _, hback⟩ := wire_carries_requests lakeFs_isBase.parsed (.inl rfl)
    place built agreed sent asks Session.nilUuid "" Mem.memStore .answered Mem.Inner.new
  refine ⟨url, http, hurl ▸ sent, harrived, ?_⟩
  rw [hback fun value h => by cases h]
  rfl

end Names

end LakeFsAuth.AuthzClient
