import LakeFsAuth.AuthzClient.Rules
import LakeFsAuth.Authz.LakeFs
import LakeFsAuth.Core.CursorWalks

/-! Walks over the pages of a server that misbehaves. -/
namespace LakeFsAuth.AuthzClient
open Core.Error Core.Model Core.Pagination Authz.Api Authz.LakeFs Library Library.Program

/-- The page in what came back for a request. -/
def pageOf (outcome : Except ClientError (Response (ListResponse Group))) :
    Except ClientError (ListResponse Group) :=
  outcome >>= fun response => expectStatus response 200 >>= decodeJson

/-- What came back for each request of a walk, by its number and its `after`. -/
abbrev GroupPages := Nat → String → Except ClientError (Response (ListResponse Group))

/-- The pages of the groups of a user, from where the walk stands, out of these answers. -/
def collectGroups (send : GroupPages) (username : String) (walk : CursorWalk)
    (groups : List Group) : Except ClientError (List Group) :=
  walk.collect (fun request after => pageOf (send request after))
    (fun _ error => .error (.Pagination error username)) groups

/-- `listUserGroups` out of these answers. -/
def groupsOver (send : GroupPages) (username : String) : Except ClientError (List Group) :=
  match segment username with
  | .error error => .error error
  | .ok username => collectGroups send username (.new maxPages) []

section Runs
variable {σ : Type} (pick : Pick Call.Reply σ) (maxRetries : Nat) (username : String)

/-- What comes back in a run for each request of a walk, from where the walk stands. -/
def answersOf (walk : CursorWalk) (s : σ) :
    List (Except ClientError (Response (ListResponse Group))) :=
  let (outcome, s) := (sendWithRetry (.listUserGroups username ⟨none, some walk.after, some 1000⟩)
    maxRetries).run pick s
  outcome :: match pageOf outcome with
    | .error _ => []
    | .ok page =>
        match _h : walk.advance page.pagination.nextOffset with
        | .ok (some walk) => answersOf walk s
        | _ => []
termination_by walk.maxPages - walk.pages
decreasing_by
  have := CursorWalk.advance_more _h
  omega

/-- The same, by the number of the request. -/
def answersAt (walk : CursorWalk) (s : σ) : GroupPages := fun request _ =>
  (answersOf pick maxRetries username walk s)[request - walk.pages]?.getD (.error .NonUnique)

section Answers
variable {pick maxRetries username} {walk next : CursorWalk} {s s' : σ}
  {outcome : Except ClientError (Response (ListResponse Group))}
  (sent : (sendWithRetry (.listUserGroups username ⟨none, some walk.after, some 1000⟩)
    maxRetries).run pick s = (outcome, s'))
include sent

theorem answersAt_first :
    answersAt pick maxRetries username walk s walk.pages walk.after = outcome := by
  rw [answersAt, answersOf, sent, Nat.sub_self]
  rfl

theorem answersOf_more {page : ListResponse Group} (arrived : pageOf outcome = .ok page)
    (more : walk.advance page.pagination.nextOffset = .ok (some next)) :
    answersOf pick maxRetries username walk s =
      outcome :: answersOf pick maxRetries username next s' := by
  rw [answersOf, sent]
  dsimp only
  rw [arrived]
  dsimp only
  split <;> simp_all

end Answers

/-- The client makes its list of the answers it got. -/
theorem listGroupPages_run (walk : CursorWalk) (groups : List Group) (s : σ) :
    ((listGroupPages maxRetries username walk groups).run pick s).1 =
      collectGroups (answersAt pick maxRetries username walk s) username walk groups := by
  generalize hleft : walk.maxPages - walk.pages = left
  induction left using Nat.strong_induction_on generalizing walk groups s with
  | h left ih =>
    rw [listGroupPages, run_bind]
    generalize hsent : (sendWithRetry _ maxRetries).run pick s = sent
    obtain ⟨outcome, s'⟩ := sent
    have hfirst := congrArg pageOf (answersAt_first hsent)
    unfold collectGroups
    cases outcome with
    | error error => exact (CursorWalk.collect_failed hfirst).symm
    | ok response =>
      dsimp only
      split
      · rename_i error hpage
        exact (CursorWalk.collect_failed (hfirst.trans hpage)).symm
      · rename_i page hpage
        split
        · rename_i error hadvance
          refine Eq.symm ?_
          exact CursorWalk.collect_stopped (hfirst.trans hpage) hadvance
        · rename_i hadvance
          exact (CursorWalk.collect_last (hfirst.trans hpage) hadvance).symm
        · rename_i next hadvance
          obtain ⟨hmax, hpages, hlt⟩ := CursorWalk.advance_more hadvance
          rw [CursorWalk.collect_more (hfirst.trans hpage) hadvance, ih _ (by omega) next _ s' rfl]
          refine CursorWalk.collect_congr fun request after hle => congrArg pageOf ?_
          have hindex : request - walk.pages = request - next.pages + 1 := by omega
          rw [answersAt, answersAt, answersOf_more hsent hpage hadvance, hindex,
            List.getElem?_cons_succ]

theorem listUserGroups_run {name : String} (named : segment username = .ok name) (s : σ) :
    ((listUserGroups maxRetries username).run pick s).1 =
      groupsOver (answersAt pick maxRetries name (.new maxPages) s) username := by
  rw [listUserGroups, groupsOver, named]
  exact listGroupPages_run pick maxRetries name _ _ s

end Runs

section Walks
variable {offsets : Nat → String}

/-- A page the walk reads has the cursor of an earlier page. -/
def RepeatedIn (maxPages : Nat) (offsets : Nat → String) : Prop :=
  ∃ i j, i < j ∧ j < (CursorWalk.requests offsets (.new maxPages)).length ∧ offsets j ≠ "" ∧
    offsets i = offsets j

/-- What walks come to against a server that gives these cursors. -/
structure WalksEnd (offsets : Nat → String) : Prop where
  bounded : ∀ maxPages, (CursorWalk.requests offsets (.new maxPages)).length ≤ max 1 maxPages
  distinct : ∀ maxPages, CursorWalk.Distinct (CursorWalk.requests offsets (.new maxPages))
  groups : ∀ (send : GroupPages) (username : String),
    CursorWalk.Follows (fun request after => pageOf (send request after)) offsets →
    RepeatedIn maxPages offsets → ∃ error, groupsOver send username = .error error
  /-- So does the client in every run in which the pages that come back carry the cursors. -/
  runs : ∀ {σ : Type} (pick : Pick Call.Reply σ) (maxRetries : Nat) (username name : String) (s : σ),
    segment username = .ok name →
    CursorWalk.Follows (fun request after =>
      pageOf (answersAt pick maxRetries name (.new maxPages) s request after)) offsets →
    RepeatedIn maxPages offsets →
    ∃ error, ((listUserGroups maxRetries username).run pick s).1 = .error error
  names : ∀ (client : LakeFsClient) (send : LakeFsClient.Pages) (path : String),
    CursorWalk.Follows (client.namesPage send path) offsets →
    RepeatedIn Authz.LakeFs.maxPages offsets → ∃ error, client.listNames send path = .error error

theorem RepeatedIn.at_once {maxPages : Nat} (repeated : RepeatedIn maxPages offsets)
    (repeats : CursorWalk.RepeatsAtOnce offsets) :
    ∃ j, CursorWalk.Continues offsets (j + 1) ∧ j + 1 < maxPages ∧ offsets j = offsets (j + 1) := by
  obtain ⟨i, j, hlt, hread, hcursor, hsame⟩ := repeated
  obtain ⟨_, hcontinues, hlimit⟩ :=
    (CursorWalk.new_requests_getElem? maxPages j _).mp (List.getElem?_eq_getElem hread)
  obtain rfl := repeats i j hlt hcontinues hcursor hsame
  exact ⟨i, hcontinues, by omega, hsame⟩

/-- Walks end as they should exactly when a cursor that comes again comes again at once. -/
theorem walksEnd_iff (offsets : Nat → String) :
    WalksEnd offsets ↔ CursorWalk.RepeatsAtOnce offsets := by
  constructor
  · exact fun ends => CursorWalk.repeatsAtOnce_of_distinct ends.distinct
  · intro repeats
    have groups (send : GroupPages) (username : String)
        (follows : CursorWalk.Follows (fun request after => pageOf (send request after)) offsets)
        (repeated : RepeatedIn maxPages offsets) : ∃ error, groupsOver send username = .error error := by
      obtain ⟨j, hcontinues, hlimit, hsame⟩ := repeated.at_once repeats
      unfold groupsOver
      cases segment username with
      | error error => exact ⟨error, rfl⟩
      | ok username =>
        exact CursorWalk.collect_repeated _ _ follows (fun _ _ => ⟨_, rfl⟩) hcontinues hlimit hsame
    refine ⟨CursorWalk.requests_length, fun _ => CursorWalk.requests_distinct _ repeats, groups,
      fun pick maxRetries username name s named follows repeated => ?_,
      fun client send path follows repeated => ?_⟩
    · rw [listUserGroups_run pick maxRetries username named s]
      exact groups _ username follows repeated
    · obtain ⟨j, hcontinues, hlimit, hsame⟩ := repeated.at_once repeats
      exact CursorWalk.collect_repeated _ _ follows (fun _ _ => ⟨_, rfl⟩) hcontinues hlimit hsame

/-- Two cursors in turn. -/
def alternating (n : Nat) : String := if n % 2 = 0 then "a" else "b"

theorem alternating_goes (n : Nat) : CursorWalk.Goes alternating n := by
  cases n with
  | zero => constructor <;> decide
  | succ n =>
    obtain h | h := Nat.mod_two_eq_zero_or_one n
    · have hnext : (n + 1) % 2 = 1 := by omega
      simp [CursorWalk.Goes, CursorWalk.before, alternating, h, hnext]
    · have hnext : (n + 1) % 2 = 0 := by omega
      simp [CursorWalk.Goes, CursorWalk.before, alternating, h, hnext]

/-- A page of one name. -/
def alternatingPage (request : Nat) (_ : String) :
    Except TransportError (Response (ListResponse Named)) :=
  .ok ⟨200, .json ⟨⟨true, alternating request, 1, maxPage⟩, [⟨"repo"⟩]⟩⟩

/-- Two cursors in turn are asked for again and again, and the names are listed as if all pages had
been read. -/
theorem alternating_cursors_accepted :
    ¬ WalksEnd alternating ∧ ∃ names,
      (LakeFsClient.new "http://lakefs:8000/api/v1").repositories alternatingPage = .ok names := by
  constructor
  · intro ends
    have repeats := CursorWalk.repeatsAtOnce_of_distinct ends.distinct
    exact absurd (repeats 0 2 (by decide) (fun k _ => alternating_goes k) (by decide) rfl) (by decide)
  · have follows : CursorWalk.Follows ((LakeFsClient.new "http://lakefs:8000/api/v1").namesPage
        alternatingPage "/repositories") alternating := by
      intro n after page h
      cases h
      rfl
    have last : 19 < Authz.LakeFs.maxPages := by decide
    obtain ⟨_, _, error, herror, _⟩ | ⟨items, hitems⟩ :=
      CursorWalk.collect_reaches Authz.LakeFs.maxPages _ follows
        (fun k _ => alternating_goes k) (.inr last)
    · cases herror
    · have hpage : (LakeFsClient.new "http://lakefs:8000/api/v1").namesPage alternatingPage
          "/repositories" 19 (CursorWalk.before alternating 19) =
            .ok ⟨⟨true, alternating 19, 1, maxPage⟩, ["repo"]⟩ := rfl
      have hadvance := CursorWalk.advance_full Authz.LakeFs.maxPages (alternating_goes 19) le_rfl
      refine ⟨items ++ ["repo"], hitems.trans ?_⟩
      rw [CursorWalk.collect_stopped hpage hadvance]

end Walks

end LakeFsAuth.AuthzClient
