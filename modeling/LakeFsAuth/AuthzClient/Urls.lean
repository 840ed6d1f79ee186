import LakeFsAuth.AuthzClient.Client
import LakeFsAuth.Authn.Redirect
import LakeFsAuth.Authz.LakeFs
import LakeFsAuth.Library.Fallible
import LakeFsAuth.Library.UrlSegments

/-! The URLs both clients ask for. A path is a template with ids of others in it. -/
namespace LakeFsAuth.AuthzClient
open Core.Model Core.Pagination Core.SecretBox Core.Text Core.Validate Authn Authz.Api Authz.LakeFs
open Library

/-- A segment of a template. -/
inductive Part where
  | text (literal : String)
  | id (value : String)

/-- The path of a request below the base. -/
def template : Request → List Part
  | .healthcheck => [.text "healthcheck"]
  | .version => [.text "config", .text "version"]
  | .listUsers _ | .createUser _ => [.text "auth", .text "users"]
  | .getUser username | .deleteUser username => [.text "auth", .text "users", .id username]
  | .updateFriendlyName username _ =>
      [.text "auth", .text "users", .id username, .text "friendly_name"]
  | .addMembership groupId username =>
      [.text "auth", .text "groups", .id groupId, .text "members", .id username]
  | .listUserGroups username _ => [.text "auth", .text "users", .id username, .text "groups"]
  | .createCredentials _ _ username =>
      [.text "auth", .text "users", .id username, .text "credentials"]

/-- One segment of the path. What the server would refuse with a 400 never leaves the client. -/
def Part.encode : Part → Except ClientError String
  | .text literal => .ok literal
  | .id value => (segment value).map pathSegment

def requestPath (request : Request) : Except ClientError String :=
  ((template request).mapM Part.encode).map ("/".intercalate ·)

/-- The query pairs of a request. -/
def queryPairs : Request → List (String × String)
  | .listUsers query =>
      (query.externalId.map ("external_id", ·)).toList ++ (query.email.map ("email", ·)).toList ++
        (query.page.amount.map fun amount => ("amount", toString amount)).toList
  | .listUserGroups _ params =>
      (params.after.map ("after", ·)).toList ++
        (params.amount.map fun amount => ("amount", toString amount)).toList
  | _ => []

/-- `application/x-www-form-urlencoded`. -/
def formEncode (text : String) : Text :=
  text.toList.flatMap fun ch =>
    if ch = ' ' then ['+']
    else Url.percentEncode (fun ch => !(ch.isAlphanum || ch ∈ ['*', '-', '.', '_'])) ch

def formQuery (pairs : List (String × String)) : Text :=
  ['&'].intercalate (pairs.map fun pair => formEncode pair.1 ++ '=' :: formEncode pair.2)

/-- `query_pairs_mut`, on a URL without a query. -/
def withQuery (pairs : List (String × String)) (url : Url) : Url :=
  if pairs = [] then url
  else { url with query := some (formQuery pairs) }

/-- The base, with a slash at the end of its path. -/
def withSlash (base : Url) : Url :=
  match base.path with
  | .segments list =>
      if list.getLast? = some [] then base else { base with path := .segments (list ++ [[]]) }
  | .opaquePath _ => base

/-- The URL of a request, if `join` answers one. -/
def requestUrl [Url.HostParser] (base : Url) (request : Request) : Except ClientError (Option Url) :=
  (requestPath request).map fun path =>
    (Url.parse (some (withSlash base)) path.toList).map (withQuery (queryPairs request))

/-- A segment of a path, for the part of the template it stands for. -/
def Fills : Part → Text → Prop
  | .text literal, segment => segment = literal.toList
  | .id value, segment => Url.percentDecode segment = asBytes value

/-- A URL at the place of its base, with the segments of a template and with this query. -/
structure Asks (base : Url) (parts : List Part) (query : Option Text) (url : Url) : Prop where
  place : url.site = base.site
  path : ∀ list, base.path = .segments (list ++ [[]]) →
    ∃ segments, url.path = .segments (list ++ segments) ∧ List.Forall₂ Fills parts segments
  query : url.query = query
  fragment : url.fragment = none

/-! One segment. -/

theorem percentDecode_pathSegment (value : String) :
    Url.percentDecode (pathSegment value).toList = asBytes value := by
  have hpercent : pathSegmentSet '%' = true := by decide
  have hdecode := Url.percentDecode_encode hpercent value.toList []
  rw [List.append_nil] at hdecode
  rw [pathSegment, String.toList_ofList, hdecode, asBytes_eq]
  exact List.append_nil _

/-- An encoded name is a segment of its own, unless it is a dot segment. -/
theorem pathSegment_kept {value : String} (single : value ≠ ".") (double : value ≠ "..") :
    Url.Kept (pathSegment value).toList where
  plain := by
    rw [pathSegment, String.toList_ofList]
    exact Url.plainText_encode value.toList
  single := by
    by_contra hdot
    have hdecode := Url.percentDecode_singleDot (by simpa using hdot)
    rw [percentDecode_pathSegment] at hdecode
    exact single (asBytes_inj.mp (hdecode.trans (by decide)))
  double := by
    by_contra hdot
    have hdecode := Url.percentDecode_doubleDot (by simpa using hdot)
    rw [percentDecode_pathSegment] at hdecode
    exact double (asBytes_inj.mp (hdecode.trans (by decide)))

/-! The paths of the authorization API. -/

/-- The literals of the templates. -/
def literals : List String :=
  ["healthcheck", "config", "version", "auth", "users", "friendly_name", "groups", "members",
    "credentials", "repositories", "branches"]

theorem literals_kept : ∀ literal ∈ literals, Url.Kept literal.toList ∧ literal.toList ≠ [] := by
  have hall : ∀ literal ∈ literals,
      literal.toList.all (fun ch => decide (ch = '%' ∨ Url.isUnreserved ch = true)) = true ∧
      Url.isSingleDot literal.toList = false ∧ Url.isDoubleDot literal.toList = false ∧
      literal.toList ≠ [] := by decide
  intro literal h
  obtain ⟨hplain, hsingle, hdouble, hfilled⟩ := hall literal h
  exact ⟨⟨Url.forall_of_all hplain, hsingle, hdouble⟩, hfilled⟩

theorem template_literals {request : Request} {literal : String}
    (h : .text literal ∈ template request) : literal ∈ literals := by
  cases request <;> simp [template] at h <;> simp [literals] <;> tauto

theorem template_ne_nil (request : Request) : template request ≠ [] := by
  cases request <;> simp [template]

theorem encode_kept {part : Part} {segment : String}
    (hpart : ∀ literal, part = .text literal → literal ∈ literals) (h : part.encode = .ok segment) :
    Url.Kept segment.toList ∧ segment.toList ≠ [] ∧ Fills part segment.toList := by
  cases part with
  | text literal =>
    cases h
    obtain ⟨hkept, hfilled⟩ := literals_kept segment (hpart segment rfl)
    exact ⟨hkept, hfilled, rfl⟩
  | id value =>
    by_cases valid : ValidId value
    · rw [Part.encode, segment_valid valid] at h
      cases h
      have hdecode := percentDecode_pathSegment value
      refine ⟨pathSegment_kept (fun h => valid.noDots (.inl h)) (fun h => valid.noDots (.inr h)),
        fun hnil => ?_, hdecode⟩
      rw [hnil] at hdecode
      exact valid.nonempty (asBytes_inj.mp hdecode.symm)
    · obtain ⟨message, herror⟩ := segment_invalid valid
      rw [Part.encode, herror] at h
      cases h

theorem encode_each {parts : List Part} {segments : List String}
    (hparts : ∀ literal, .text literal ∈ parts → literal ∈ literals)
    (h : List.Forall₂ (fun part segment => part.encode = .ok segment) parts segments) :
    List.Forall₂ Fills parts (segments.map String.toList) ∧
      ∀ segment ∈ segments.map String.toList, Url.Kept segment ∧ segment ≠ [] := by
  induction h with
  | nil => exact ⟨.nil, by simp⟩
  | cons hfirst hrest ih =>
    obtain ⟨hfills, hkept⟩ := ih fun literal hmem => hparts literal (List.mem_cons_of_mem _ hmem)
    obtain ⟨kept, filled, fills⟩ := encode_kept
      (fun literal heq => hparts literal (heq ▸ List.mem_cons_self)) hfirst
    exact ⟨.cons fills hfills, List.forall_mem_cons.mpr ⟨⟨kept, filled⟩, hkept⟩⟩

theorem withSlash_spec {base : Url} {list : List Text} (hpath : base.path = .segments list) :
    (withSlash base).site = base.site ∧ ∃ list, (withSlash base).path = .segments (list ++ [[]]) := by
  unfold withSlash
  rw [hpath]
  dsimp only
  split
  · rename_i hlast
    obtain ⟨front, rfl⟩ := List.getLast?_eq_some_iff.mp hlast
    exact ⟨rfl, front, hpath⟩
  · exact ⟨rfl, list, rfl⟩

section Join
variable [Url.HostParser]

/-- A request that is sent asks for its template below the base. -/
theorem requestUrl_asks {address : Text} {base : Url} {request : Request} {answer : Option Url}
    (parsed : Url.parse none address = some base)
    (web : base.scheme = "http" ∨ base.scheme = "https")
    (sent : requestUrl base request = .ok answer) :
    ∃ url, answer = some url ∧ Asks (withSlash base) (template request)
      (if queryPairs request = [] then none else some (formQuery (queryPairs request))) url := by
  have hweb := Url.isWeb_of_http web
  obtain ⟨list, hpath⟩ := Url.path_of_web hweb parsed
  obtain ⟨hsite, list, hlist⟩ := withSlash_spec hpath
  have hscheme : (withSlash base).scheme = base.scheme := congrArg Prod.fst hsite
  obtain ⟨path, hrequest, hanswer⟩ := Fallible.map_ok sent
  obtain ⟨segments, hencode, hjoin⟩ := Fallible.map_ok hrequest
  have hparts := Fallible.mapM_ok hencode
  obtain ⟨hfills, hkept⟩ := encode_each (fun _ => template_literals) hparts
  have hfilled : segments.map String.toList ≠ [] := by
    intro hnil
    rw [hnil, List.forall₂_nil_right_iff] at hfills
    exact template_ne_nil request hfills
  have hjoined : Url.parse (some (withSlash base)) path.toList = some { withSlash base with
      path := .segments (list ++ segments.map String.toList), query := none, fragment := none } := by
    rw [← hjoin, String.toList_intercalate]
    refine Url.parse_join (by rwa [Url.IsWeb, hscheme]) hlist hfilled ?_
      fun segment hsegment => (hkept segment hsegment).1
    exact fun segment hhead => (hkept segment (List.mem_of_mem_head? hhead)).2
  rw [hjoined] at hanswer
  refine ⟨_, hanswer.symm, ?_⟩
  unfold withQuery
  constructor
  · split <;> rfl
  · intro other hother
    obtain rfl : list = other := by
      have heq := hlist.symm.trans hother
      simpa using heq
    exact ⟨_, by split <;> rfl, hfills⟩
  · split <;> rfl
  · split <;> rfl

/-! The branches of a repository. -/

/-- The URL that is asked for a page of the branches. -/
def branchesUrl (client : LakeFsClient) (repository after : String) : Option Url :=
  Url.parse none (client.endpoint ++ (LakeFsClient.branchesPath repository ++
    LakeFsClient.pageQuery after)).toList

/-- The endpoint is a base URL: with a slash after it, a URL of the web without a query and a
fragment. -/
structure IsBase (client : LakeFsClient) (base : Url) : Prop where
  parsed : Url.parse none (client.endpoint ++ "/").toList = some base
  web : base.scheme = "http" ∨ base.scheme = "https"
  bare : base.Bare

/-- Every page of the branches of a repository is asked for by that name. -/
def BranchesAsked (client : LakeFsClient) (base : Url) (repository : String) : Prop :=
  ∀ after, ∃ url, branchesUrl client repository after = some url ∧
    Asks base [.text "repositories", .id repository, .text "branches"]
      (some (LakeFsClient.pageQuery after).toList.tail) url

omit [Url.HostParser] in
theorem pageQuery_shape (after : String) : ∃ query,
    (LakeFsClient.pageQuery after).toList = '?' :: query ∧
      ∀ ch ∈ query, ch ≠ '#' ∧ Url.specialQuerySet ch = false ∧ Url.isTrimmed ch = false := by
  have hkeys : ∀ ch ∈ "amount=1000&after=".toList,
      ch ≠ '#' ∧ Url.specialQuerySet ch = false ∧ Url.isTrimmed ch = false :=
    Url.forall_of_all (by decide)
  refine ⟨"amount=1000&after=".toList ++ (pathSegment after).toList, ?_, fun ch hch => ?_⟩
  · have htext : LakeFsClient.pageQuery after = "?amount=1000&after=" ++ pathSegment after := by
      rfl
    rw [htext, String.toList_append]
    rfl
  · rcases List.mem_append.mp hch with h | h
    · exact hkeys ch h
    · rw [pathSegment, String.toList_ofList] at h
      have keeps := (Url.plainText_encode after.toList).keeps h
      exact ⟨keeps.mark.2.1, keeps.query, keeps.trimmed⟩

omit [Url.HostParser] in
theorem readTail_query {url : Url} {query : Text} (special : Url.isSpecial url.scheme = true)
    (clean : ∀ ch ∈ query, ch ≠ '#' ∧ Url.specialQuerySet ch = false ∧ Url.isTrimmed ch = false) :
    url.readTail ('?' :: query) = { url with query := some query } := by
  have htake : query.takeWhile (· != '#') = query := by
    rw [List.takeWhile_eq_self_iff]
    intro ch hch
    simp [(clean ch hch).1]
  have hdrop : query.dropWhile (· != '#') = [] := by
    rw [List.dropWhile_eq_nil_iff]
    intro ch hch
    simp [(clean ch hch).1]
  have hencode : query.flatMap (Url.percentEncode Url.specialQuerySet) = query := by
    rw [List.flatMap_congr (g := fun ch => [ch]), List.flatMap_singleton']
    intro ch hch
    rw [Url.percentEncode, if_neg (by simp [(clean ch hch).2.1])]
  change url.readQuery query = _
  unfold Url.readQuery
  dsimp only
  rw [hdrop, htake, special, if_pos rfl, hencode]

/-- The name is added to the path as a segment that may be a dot segment. -/
theorem branchesUrl_eq {client : LakeFsClient} {base : Url} (isBase : IsBase client base)
    {list : List Text} (hlist : base.path = .segments (list ++ [[]])) (repository after : String) :
    branchesUrl client repository after = some { base with
      path := .segments (Url.addSegment base.scheme (list ++ ["repositories".toList])
        (pathSegment repository).toList true ++ ["branches".toList])
      query := some (LakeFsClient.pageQuery after).toList.tail } := by
  have hweb := Url.isWeb_of_http isBase.web
  obtain ⟨query, hquery, hclean⟩ := pageQuery_shape after
  have plain : Url.PlainText (pathSegment repository).toList := by
    rw [pathSegment, String.toList_ofList]
    exact Url.plainText_encode repository.toList
  have htext : (client.endpoint ++ (LakeFsClient.branchesPath repository ++
      LakeFsClient.pageQuery after)).toList = client.endpoint.toList ++ '/' ::
        ("repositories".toList ++ '/' :: ((pathSegment repository).toList ++
          '/' :: ("branches".toList ++ '?' :: query))) := by
    have hpath : LakeFsClient.branchesPath repository =
        "/repositories/" ++ pathSegment repository ++ "/branches" := rfl
    rw [hpath]
    simp only [String.toList_append, hquery, List.append_assoc]
    rfl
  have hparsed := isBase.parsed
  rw [String.toList_append] at hparsed
  obtain ⟨list', hlist', hmore⟩ := Url.parse_extend hweb hparsed isBase.bare
  obtain rfl : list' = list := by
    have heq := hlist'.symm.trans hlist
    simpa using heq
  have hread : Url.readSegments base.scheme list' [] ("repositories".toList ++ '/' ::
      ((pathSegment repository).toList ++ '/' :: ("branches".toList ++ '?' :: query))) =
        (Url.addSegment base.scheme (list' ++ ["repositories".toList])
          (pathSegment repository).toList true ++ ["branches".toList], '?' :: query) := by
    have hname := literals_kept "repositories" (by decide)
    have hends := literals_kept "branches" (by decide)
    rw [Url.readSegments_plain hname.1.plain, List.nil_append, Url.readSegments_slash,
      Url.addSegment_kept hweb.2 hname.1, Url.readSegments_plain plain, List.nil_append,
      Url.readSegments_slash, Url.readSegments_plain hends.1.plain, List.nil_append,
      Url.readSegments_ends hweb.1 _ (.inr ⟨query, rfl⟩), Url.addSegment_kept hweb.2 hends.1]
  have htrimmed : ∀ ch ∈ "repositories".toList ++ '/' :: ((pathSegment repository).toList ++
      '/' :: ("branches".toList ++ '?' :: query)), Url.isTrimmed ch = false := by
    have hliterals : ∀ ch ∈ "repositories/branches?".toList, Url.isTrimmed ch = false :=
      Url.forall_of_all (by decide)
    intro ch hch
    simp only [List.mem_append, List.mem_cons] at hch
    rcases hch with h | rfl | h | rfl | h | rfl | h
    · exact hliterals ch (List.mem_append_left "/branches?".toList h)
    · decide
    · exact (plain.keeps h).trimmed
    · decide
    · exact hliterals ch (List.mem_append_right "repositories/".toList (List.mem_append_left ['?'] h))
    · decide
    · exact (hclean ch h).2.2
  have htail (path : List Text) : ({ base with path := .segments path } : Url).readTail
      ('?' :: query) = { base with path := .segments path, query := some query } :=
    readTail_query hweb.1 hclean
  rw [branchesUrl, htext, hmore _ htrimmed, Url.readPath_eq, hread]
  dsimp only
  rw [htail, hquery]
  rfl

omit [Url.HostParser] in
/-- A dot segment is dropped, with the segment before it if it is a double dot. -/
theorem addSegment_dots (scheme : String) (path : List Text) :
    Url.addSegment scheme path (pathSegment ".").toList true = path ∧
      Url.addSegment scheme path (pathSegment "..").toList true = Url.shorten scheme path := by
  have hsingle : Url.isSingleDot (pathSegment ".").toList = true ∧
      Url.isDoubleDot (pathSegment ".").toList = false := by decide
  have hdouble : Url.isDoubleDot (pathSegment "..").toList = true := by decide
  simp [Url.addSegment, hsingle, hdouble]

theorem branchesAsked_iff {client : LakeFsClient} {base : Url} (isBase : IsBase client base)
    (repository : String) :
    BranchesAsked client base repository ↔ repository ≠ "." ∧ repository ≠ ".." := by
  have hweb := Url.isWeb_of_http isBase.web
  obtain ⟨list, hlist, _⟩ := Url.parse_extend hweb
    (by rw [← isBase.parsed, String.toList_append]; rfl) isBase.bare
  constructor
  · intro asked
    obtain ⟨url, hurl, asks⟩ := asked ""
    rw [branchesUrl_eq isBase hlist] at hurl
    obtain ⟨segments, hpath, hfills⟩ := asks.path list hlist
    have hthree := hfills.length_eq
    cases hurl
    simp only [UrlPath.segments.injEq] at hpath
    have hlength := congrArg List.length hpath
    constructor
    · rintro rfl
      rw [(addSegment_dots _ _).1] at hlength
      simp at hlength hthree
      omega
    · rintro rfl
      rw [(addSegment_dots _ _).2] at hlength
      have hshort := Url.length_shorten_le base.scheme (list ++ ["repositories".toList])
      simp at hlength hthree hshort
      omega
  · rintro ⟨single, double⟩ after
    have kept := pathSegment_kept single double
    refine ⟨_, branchesUrl_eq isBase hlist repository after, rfl, fun other hother => ?_, rfl,
      isBase.bare.2⟩
    obtain rfl : list = other := by
      have heq := hlist.symm.trans hother
      simpa using heq
    refine ⟨["repositories".toList, (pathSegment repository).toList, "branches".toList], ?_, ?_⟩
    · rw [Url.addSegment_kept hweb.2 kept]
      simp
    · exact .cons rfl (.cons (percentDecode_pathSegment repository) (.cons rfl .nil))

/-- A request asks for its template, and a page of the branches of a repository too, unless the
name of the repository is a dot segment. -/
theorem ids_stay_segments :
    (∀ (address : Text) (base : Url) (request : Request) (answer : Option Url),
      Url.parse none address = some base → base.scheme = "http" ∨ base.scheme = "https" →
      requestUrl base request = .ok answer →
      ∃ url, answer = some url ∧ Asks (withSlash base) (template request)
        (if queryPairs request = [] then none else some (formQuery (queryPairs request))) url) ∧
    ∀ (client : LakeFsClient) (base : Url) (repository : String), IsBase client base →
      (BranchesAsked client base repository ↔ repository ≠ "." ∧ repository ≠ "..") :=
  ⟨fun _ _ _ _ parsed web sent => requestUrl_asks parsed web sent,
    fun _ _ repository isBase => branchesAsked_iff isBase repository⟩

end Join

/-! Runs with the hosts of `plainHosts`. -/

section Plain
attribute [local instance] Redirect.plainHosts

def lakeFs : LakeFsClient := .new "http://lakefs.example.com:8000/api/v1"

def lakeFsBase : Url :=
  { Url.blank "http" with
    host := some "lakefs.example.com".toList, port := some 8000
    path := .segments ["api".toList, "v1".toList, []] }

theorem lakeFs_isBase : IsBase lakeFs lakeFsBase where
  parsed := by decide
  web := .inl rfl
  bare := ⟨rfl, rfl⟩

/-- A user named with a space and a number sign, and a repository named by two dots and a slash. -/
theorem ids_stay_segments_names :
    (∃ url, requestUrl lakeFsBase (.getUser "a b#c") = .ok (some url) ∧
      Asks lakeFsBase [.text "auth", .text "users", .id "a b#c"] none url) ∧
    BranchesAsked lakeFs lakeFsBase "../" := by
  obtain ⟨requests, branches⟩ := ids_stay_segments
  have sent : requestUrl lakeFsBase (.getUser "a b#c") = .ok (some { lakeFsBase with
      path := .segments ["api".toList, "v1".toList, "auth".toList, "users".toList,
        "a%20b%23c".toList] }) := by decide
  obtain ⟨url, hurl, asks⟩ := requests _ _ _ _ lakeFs_isBase.parsed (.inl rfl) sent
  exact ⟨⟨url, hurl ▸ sent, asks⟩, (branches _ _ "../" lakeFs_isBase).mpr (by decide)⟩

/-- The branches of the repository `..` are asked for at the path above it. -/
theorem double_dot_collapses :
    branchesUrl lakeFs ".." "" = some { lakeFsBase with
      path := .segments ["api".toList, "v1".toList, "branches".toList]
      query := some "amount=1000&after=".toList } ∧
    ¬∀ (client : LakeFsClient) (base : Url) (repository : String), IsBase client base →
      BranchesAsked client base repository := by
  have hurl : branchesUrl lakeFs ".." "" = some { lakeFsBase with
      path := .segments ["api".toList, "v1".toList, "branches".toList]
      query := some "amount=1000&after=".toList } := by decide
  refine ⟨hurl, fun all => ?_⟩
  exact (branchesAsked_iff lakeFs_isBase "..").mp (all _ _ ".." lakeFs_isBase) |>.2 rfl

end Plain

end LakeFsAuth.AuthzClient
