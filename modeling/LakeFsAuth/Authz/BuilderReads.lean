import LakeFsAuth.Authz.BuilderCalls
import LakeFsAuth.Core.CursorWalks
import LakeFsAuth.Library.Interference

/-! What the read routes of the builder show of a lakeFS that answers each request in one way. The
lists of `/api/names` are read side by side, and come out as if each were read alone. -/
namespace LakeFsAuth.Authz.Builder
open Library Program LakeFsAuth.Core Core.Error Core.Json Core.Model Core.Pagination Core.Text
open Core.Validate Api Http LakeFs

/-! One walk. -/

section Walk
variable [Redirects] (lakefs : Outgoing → Except TransportError Incoming)

/-- The calls of this log were answered by `lakefs`. -/
def AnsweredBy (log : List (Entry Call.Reply)) : Prop :=
  ∀ out reply, ⟨.send out, reply⟩ ∈ log → reply = lakefs out

/-- What comes of a request, its redirects followed. -/
def followed (out : Outgoing) : Except TransportError Incoming :=
  let answer (visit : Visit) : Call.Reply visit.ask := lakefs visit.current
  settle Visit.ask Visit.hop tooManyRedirects answer maxRedirects (.first out)

/-- The pages of lakeFS, as a session sees them. -/
def pagesFor (session : Session) : LakeFsClient.Pages := fun _ url =>
  Client.reading (Wire.listResponse named).read
    (followed lakefs ⟨.GET, url, some session.header, none⟩)

variable {lakefs} {self : LakeFsClient} {session : Session} {log : List (Entry Call.Reply)}

theorem send_followed {out : Outgoing} {result : Except TransportError Incoming}
    (h : Returns (send out) log result) (answered : AnsweredBy lakefs log) :
    result = followed lakefs out :=
  follow_settles h fun visit reply hmem => answered visit.current reply hmem

theorem get_returns {α : Type} {read : Value → Option α} {path : String}
    {result : Except LakeFsError α} (h : Returns (Client.get self session read path) log result)
    (answered : AnsweredBy lakefs log) :
    result = self.get (fun url => Client.reading read
      (followed lakefs ⟨.GET, url, some session.header, none⟩)) path := by
  obtain ⟨sent, rest, reply, rfl, hsent, hrest⟩ := h.of_bind
  obtain ⟨rfl, rfl⟩ := hrest.of_done
  rw [List.append_nil] at answered
  rw [send_followed hsent answered]
  rfl

/-- A walk of calls is the walk over the pages. -/
theorem listPages_returns {path : String} {walk : CursorWalk} {names : List String}
    {result : Except LakeFsError (List String)}
    (h : Returns (Client.listPages self session path walk names) log result)
    (answered : AnsweredBy lakefs log) :
    result = walk.collect (self.namesPage (pagesFor lakefs session) path)
      (fun names error =>
        match error with
        | .TooManyPages _ => .ok names
        | .Repeated _ => .error (.Pagination path error)) names := by
  generalize hleft : walk.maxPages - walk.pages = left
  induction left using Nat.strong_induction_on generalizing walk names log with
  | h left ih =>
    rw [Client.listPages] at h
    obtain ⟨asked, rest, page, rfl, hget, hrest⟩ := h.of_bind
    have hpage := get_returns hget fun out reply hmem =>
      answered out reply (List.mem_append_left _ hmem)
    have hfetch : self.namesPage (pagesFor lakefs session) path walk.pages walk.after =
        page.map namesOf := by rw [hpage]; rfl
    cases page with
    | error error =>
      rw [CursorWalk.collect_failed hfetch]
      exact hrest.of_done.2
    | ok page =>
      have hrest' : AnsweredBy lakefs rest := fun out reply hmem =>
        answered out reply (List.mem_append_right _ hmem)
      dsimp only at hrest
      split at hrest
      · rename_i next hmore
        obtain ⟨hmax, hpages, hlt⟩ := CursorWalk.advance_more hmore
        rw [CursorWalk.collect_more hfetch hmore]
        exact ih _ (by omega) hrest hrest' rfl
      · rename_i hlast
        rw [CursorWalk.collect_last hfetch hlast]
        exact hrest.of_done.2
      · rename_i hfull
        rw [CursorWalk.collect_stopped hfetch hfull]
        exact hrest.of_done.2
      · rename_i hrepeated
        rw [CursorWalk.collect_stopped hfetch hrepeated]
        exact hrest.of_done.2

theorem listNames_returns {path : String} {result : Except LakeFsError (List String)}
    (h : Returns (Client.listNames self session path) log result)
    (answered : AnsweredBy lakefs log) :
    result = self.listNames (pagesFor lakefs session) path :=
  listPages_returns h answered

theorem orEmpty_returns {path : String} {result : Except LakeFsError (List String)}
    (h : Returns (Client.listNamesOrEmpty self session path) log result)
    (answered : AnsweredBy lakefs log) :
    result = self.listNamesOrEmpty (pagesFor lakefs session) path := by
  obtain ⟨mine, rest, listed, rfl, hlist, hrest⟩ := h.of_bind
  have hlisted := listNames_returns hlist fun out reply hmem =>
    answered out reply (List.mem_append_left _ hmem)
  rw [LakeFsClient.listNamesOrEmpty, ← hlisted]
  split at hrest
  · exact hrest.of_done.2
  · rename_i hother
    refine hrest.of_done.2.trans ?_
    cases listed with
    | ok names => rfl
    | error error =>
      cases error with
      | Forbidden path => exact absurd rfl (hother path)
      | _ => rfl

end Walk

/-! The routes. -/

section Routes
variable [Redirects] {α : Type}

/-- How a data route shows a result. -/
def shown [Display] (write : α → Value) : Except LakeFsError α → HttpResponse
  | .ok value => ⟨200, .json (write value)⟩
  | .error error => refuse (.LakeFs error)

/-- Three lists as one result: all of them, or the error of one. -/
inductive SideBySide {β γ : Type} (first : Except LakeFsError α) (second : Except LakeFsError β)
    (third : Except LakeFsError γ) : Except LakeFsError (α × β × γ) → Prop where
  | all {a : α} {b : β} {c : γ} (ha : first = .ok a) (hb : second = .ok b) (hc : third = .ok c) :
      SideBySide first second third (.ok (a, b, c))
  | first {error : LakeFsError} (h : first = .error error) : SideBySide first second third (.error error)
  | second {error : LakeFsError} (h : second = .error error) :
      SideBySide first second third (.error error)
  | third {error : LakeFsError} (h : third = .error error) : SideBySide first second third (.error error)

variable {lakefs : Outgoing → Except TransportError Incoming} {self : LakeFsClient}
  {session : Session} {log : List (Entry Call.Reply)}

omit [Redirects] in
theorem AnsweredBy.sublist {mine : List (Entry Call.Reply)} (answered : AnsweredBy lakefs log)
    (h : mine.Sublist log) : AnsweredBy lakefs mine :=
  fun out reply hmem => answered out reply (h.subset hmem)

theorem names_returns {result : Except LakeFsError (List String × List String × List String)}
    (h : Returns (Client.names self session) log result) (answered : AnsweredBy lakefs log) :
    SideBySide (self.listNamesOrEmpty (pagesFor lakefs session) "/auth/users")
      (self.listNamesOrEmpty (pagesFor lakefs session) "/auth/groups")
      (self.listNamesOrEmpty (pagesFor lakefs session) "/auth/policies") result := by
  rcases h.of_tryJoin with ⟨users, pair, left, right, rfl, husers, hpair, hleft, hright⟩ |
    ⟨error, mine, rfl, hmine, husers | hpair⟩
  · have hleft' := orEmpty_returns husers (answered.sublist hleft)
    rcases hpair.of_tryJoin with ⟨groups, policies, left', right', hok, hgroups, hpolicies, hl, hr⟩ |
      ⟨error, mine, herror, _⟩
    · obtain rfl := Except.ok.inj hok
      exact .all hleft'.symm (orEmpty_returns hgroups (answered.sublist (hl.trans hright))).symm
        (orEmpty_returns hpolicies (answered.sublist (hr.trans hright))).symm
    · cases herror
  · exact .first (orEmpty_returns husers (answered.sublist hmine)).symm
  · rcases hpair.of_tryJoin with ⟨_, _, _, _, hok, _⟩ | ⟨error', mine', herror, hm, hgroups | hpolicies⟩
    · cases hok
    · obtain rfl := Except.error.inj herror
      exact .second (orEmpty_returns hgroups (answered.sublist (hm.trans hmine))).symm
    · obtain rfl := Except.error.inj herror
      exact .third (orEmpty_returns hpolicies (answered.sublist (hm.trans hmine))).symm

omit [Redirects] in
/-- A data route shows what its question returned. -/
theorem asCaller_returns [Display] {state : BuilderState} {request : PageRequest}
    {ask : LakeFsClient → Session → Action (Except LakeFsError α)} {write : α → Value}
    {response : HttpResponse} (live : live state request = .ok (self, session))
    (h : Returns (asCaller state request ask write) log response) :
    ∃ result, Returns (ask self session) log result ∧ response = shown write result := by
  unfold asCaller at h
  rw [live] at h
  obtain ⟨mine, rest, result, rfl, hask, hrest⟩ := h.of_bind
  refine ⟨result, ?_⟩
  cases result with
  | error error =>
    obtain ⟨rfl, rfl⟩ := hrest.of_done
    exact ⟨by rwa [List.append_nil], rfl⟩
  | ok value =>
    obtain ⟨rfl, rfl⟩ := hrest.of_done
    exact ⟨by rwa [List.append_nil], rfl⟩

end Routes

section Server
variable [Display] [Redirects] [SerdeJson] {ι σ : Type} [DecidableEq ι]
  {Exec : (call : Call) → σ → call.Reply → σ → Prop} {Others : Call → Prop} {state : BuilderState}
  {requests : ι → PageRequest} {s₀ s : σ} {log : List (Record Call.Reply σ ι)}
  {now : ι → Action HttpResponse} {lakefs : Outgoing → Except TransportError Incoming}

/-- However the calls of the server interleave, those for the three lists of one request too: the
routes show what their lists are when each is read alone, and where a list fails, its error. -/
theorem lists_are_read_side_by_side
    (pool : Pool Exec Others (fun i => builderRouter state (requests i)) s₀ log now s)
    (fixed : ∀ out s reply s', Exec (.send out) s reply s' → reply = lakefs out) {i : ι}
    {client : LakeFsClient} {caller : Session}
    (live : live state (requests i) = .ok (client, caller)) (verb : (requests i).verb = .GET)
    {response : HttpResponse} (done : now i = .done response) :
    ((requests i).path = ["api", "names"].map String.toList →
      ∃ result, SideBySide (client.listNamesOrEmpty (pagesFor lakefs caller) "/auth/users")
          (client.listNamesOrEmpty (pagesFor lakefs caller) "/auth/groups")
          (client.listNamesOrEmpty (pagesFor lakefs caller) "/auth/policies") result ∧
        response = shown (fun (users, groups, policies) => .object [("users", strings users),
          ("groups", strings groups), ("policies", strings policies)]) result) ∧
    ((requests i).path = ["api", "repositories"].map String.toList →
      response = shown (fun repositories => .object [("repositories", strings repositories)])
        (client.repositories (pagesFor lakefs caller))) ∧
    ∀ param repository, param ≠ [] → pathParams [param] = some [repository] →
      (requests i).path =
        ["api".toList, "repositories".toList, param, "branches".toList] →
      response = shown (fun branches => .object [("branches", strings branches)])
        (client.branches (pagesFor lakefs caller) repository) := by
  have answered : AnsweredBy lakefs (callsOf i log) := by
    intro out reply hmem
    obtain ⟨record, hrecord, _, hentry⟩ := (mem_callsOf i log).mp hmem
    have hexec := pool.chain.exec hrecord
    rw [hentry] at hexec
    exact fixed out _ reply _ hexec
  obtain ⟨mine, rest, value, hlog, hdispatch, hend⟩ := (pool.finished done).of_bind
  obtain ⟨rfl, rfl⟩ := hend.of_done
  rw [List.append_nil] at hlog
  rw [← hlog] at hdispatch
  rw [bodyFor, verb, if_neg (by decide)]
  unfold dispatch at hdispatch
  refine ⟨fun hpath => ?_, fun hpath => ?_, fun param repository hne hparam hpath => ?_⟩
  · have hroute : findRoute (requests i).path = some ((.GET, .names), []) := by
      rw [hpath]
      rfl
    rw [hroute, verb] at hdispatch
    obtain ⟨result, hnames, hresponse⟩ := asCaller_returns live hdispatch
    exact ⟨result, names_returns hnames answered, hresponse⟩
  · have hroute : findRoute (requests i).path = some ((.GET, .repositories), []) := by
      rw [hpath]
      rfl
    rw [hroute, verb] at hdispatch
    obtain ⟨result, hlist, hresponse⟩ := asCaller_returns live hdispatch
    rw [hresponse, listNames_returns hlist answered]
    rfl
  · have hroute : findRoute (requests i).path = some ((.GET, .branches), [param]) := by
      rw [hpath]
      simp [findRoute, routes, literals, matchTemplate, hne]
    rw [hroute, verb] at hdispatch
    change Returns (branches state (requests i) [param]) _ _ at hdispatch
    unfold branches at hdispatch
    rw [hparam] at hdispatch
    obtain ⟨result, hlist, hresponse⟩ := asCaller_returns live hdispatch
    rw [hresponse, listNames_returns hlist answered]
    rfl

end Server

/-! A caller who may not list users. -/

section Partly
attribute [local instance] Validate.noLists plainDisplay withinHost

def visit : PageRequest where
  verb := .GET
  path := ["api", "names"].map String.toList
  cookie := some "internal_auth_session=abc"
  secFetchSite := none
  origin := none
  host := none
  body := .unreadable ""

def partly (out : Outgoing) : Except TransportError Incoming :=
  if out.url = "http://lakefs/auth/users?amount=1000&after=" then .ok ⟨403, none, none⟩
  else .ok ⟨200, some ((Wire.listResponse named).write ⟨⟨false, "", 1, 1000⟩, [⟨"staff"⟩]⟩), none⟩

def answersPartly : (call : Call) → Unit → call.Reply → Unit → Prop
  | .send out, _, reply, _ => reply = partly out
  | .turn, _, _, _ => True

theorem answersPartly_total (call : Call) (s : Unit) : ∃ reply s', answersPartly call s reply s' := by
  cases call with
  | send out => exact ⟨partly out, (), rfl⟩
  | turn => exact ⟨true, (), trivial⟩

def lakefs : LakeFsClient := .new "http://lakefs/"

def abc : Session := ⟨"internal_auth_session=abc"⟩

theorem lists_are_read_side_by_side_partly : ∃ log now response result,
    Pool answersPartly (fun _ => False) (fun _ : Unit => builderRouter ⟨some lakefs⟩ visit) () log now ()
    ∧ now () = .done response ∧
    SideBySide (lakefs.listNamesOrEmpty (pagesFor partly abc) "/auth/users")
      (lakefs.listNamesOrEmpty (pagesFor partly abc) "/auth/groups")
      (lakefs.listNamesOrEmpty (pagesFor partly abc) "/auth/policies") result ∧
    response = shown (fun (users, groups, policies) => .object [("users", strings users),
      ("groups", strings groups), ("policies", strings policies)]) result := by
  have opened : Pool answersPartly (fun _ => False)
      (fun _ : Unit => builderRouter ⟨some lakefs⟩ visit) () [] _ () := .start
  obtain ⟨log, now, s, response, pool, done⟩ := opened.finishes answersPartly_total ()
  have fixed (out : Outgoing) (s : Unit) (reply : Except TransportError Incoming) (s' : Unit)
      (exec : answersPartly (.send out) s reply s') : reply = partly out := exec
  have caller : live ⟨some lakefs⟩ visit = .ok (lakefs, abc) := rfl
  obtain ⟨result, hside, hresponse⟩ :=
    (lists_are_read_side_by_side pool fixed caller rfl done).1 rfl
  exact ⟨_, now, response, result, pool, done, hside, hresponse⟩

end Partly

end LakeFsAuth.Authz.Builder
