import LakeFsAuth.Authz.Store.SameWrites

/-! The operations that read, run against both stores. A page of a table is cut from
the rows `LIKE` and the cursor leave, ordered by the key, and those are the rows a page
of a sorted map is cut from. -/
namespace LakeFsAuth.Authz.Store.Mem
open Std Core.Pagination Core.Text Library Library.OrderedMap Library.Relational Pg

/-! Pages. -/

theorem like_startsWith (pre key : String) :
    like '\\' (escapeLikePrefix pre ++ "%").toList key.toList = true ↔
      pre.toList <+: key.toList := by
  have hpattern : (escapeLikePrefix pre ++ "%").toList =
      pre.toList.flatMap escapeLiteral ++ ['%'] := by
    unfold escapeLikePrefix
    rw [String.toList_append, String.toList_ofList]
    rfl
  rw [hpattern, like_literals]

theorem like_likePattern (query : PageQuery) (text : String) :
    like '\\' (likePattern query).toList text.toList = startsWith text query.pre := by
  rw [Bool.eq_iff_iff, startsWith_iff]
  exact like_startsWith query.pre text

theorem fromOverfetch_map (f : α → β) (rows : List α) (limit : Int) (key : β → String) :
    PageOf.fromOverfetch (rows.map f) limit key =
      (PageOf.fromOverfetch rows limit (key ∘ f)).map f := by
  unfold PageOf.fromOverfetch PageOf.map
  dsimp only
  rw [List.length_map]
  split
  · simp only [← List.map_take, List.getLast?_map, Option.map_map]
  · rfl

theorem fromOverfetch_congr (rows : List α) (limit : Int) {key key' : α → String}
    (h : ∀ row ∈ rows, key row = key' row) :
    PageOf.fromOverfetch rows limit key = PageOf.fromOverfetch rows limit key' := by
  unfold PageOf.fromOverfetch
  dsimp only
  split
  · congr 1
    cases hlast : (rows.take (max limit 0).toNat).getLast? with
    | none => rfl
    | some row =>
      have hmem := List.mem_of_mem_take (List.mem_of_getLast? hlast)
      simp only [Option.map_some, h row hmem]
  · rfl

theorem samePage_eq {page other : PageOf α} (h : SamePage Eq page other) : page = other := by
  obtain ⟨hitems, hnext⟩ := h
  rw [List.forall₂_eq_eq_eq] at hitems
  cases page
  cases other
  exact congrArg₂ PageOf.mk hitems hnext

theorem mem_fromOverfetch {rows : List α} {limit : Int} {key : α → String} {row : α}
    (h : row ∈ (PageOf.fromOverfetch rows limit key).items) : row ∈ rows := by
  unfold PageOf.fromOverfetch at h
  dsimp only at h
  split at h
  · exact List.mem_of_mem_take h
  · exact h

section Page
variable {rows : List (String × α)} {table : List β} {image : α → β} {key : β → String}

/-- The rows a list statement fetches are the rows of the sorted list, as they are stored. -/
theorem fetchRows_eq (sorted : (rows.map Prod.fst).Pairwise (· < ·))
    (lists : Lists table fun row => ∃ k a, (k, a) ∈ rows ∧ image a = row)
    (hkey : ∀ k a, (k, a) ∈ rows → key (image a) = k) (query : PageQuery) :
    fetchRows key query table =
      ((rows.filter fun row => startsWith row.1 query.pre && decide (query.after < row.1)).take
        query.fetchLimit.toNat).map fun row => image row.2 := by
  set kept := rows.filter fun row => startsWith row.1 query.pre && decide (query.after < row.1)
    with hkept
  have hkeys : (kept.map fun row => image row.2).map key = kept.map Prod.fst := by
    rw [List.map_map]
    apply List.map_congr_left
    intro row hrow
    exact hkey row.1 row.2 (List.mem_of_mem_filter hrow)
  unfold fetchRows
  rw [List.map_take]
  congr 1
  apply (lists.filter _).orderBy_eq
  · rw [hkeys]
    exact sorted.sublist (List.filter_sublist.map _)
  · intro row
    simp only [List.mem_map, hkept, List.mem_filter, like_likePattern, Prod.exists]
    constructor
    · rintro ⟨k, a, ⟨hmem, hp⟩, rfl⟩
      exact ⟨⟨k, a, hmem, rfl⟩, by rw [hkey k a hmem]; exact hp⟩
    · rintro ⟨⟨k, a, hmem, rfl⟩, hp⟩
      rw [hkey k a hmem] at hp
      exact ⟨k, a, ⟨hmem, hp⟩, rfl⟩

theorem fetchPage_same (sorted : (rows.map Prod.fst).Pairwise (· < ·))
    (lists : Lists table fun row => ∃ k a, (k, a) ∈ rows ∧ image a = row)
    (hkey : ∀ k a, (k, a) ∈ rows → key (image a) = k) {same : α → β → Prop}
    (hsame : ∀ k a, (k, a) ∈ rows → same a (image a)) (query : PageQuery) :
    SamePage same (pageSorted rows query) (fetchPage key query table) := by
  unfold fetchPage
  rw [pageSorted_rows, fetchRows_eq sorted lists hkey query, fromOverfetch_map]
  set fetched := (rows.filter fun row =>
    startsWith row.1 query.pre && decide (query.after < row.1)).take query.fetchLimit.toNat
  have hmem : ∀ row ∈ fetched, row ∈ rows := fun row hrow =>
    List.mem_of_mem_filter (List.mem_of_mem_take hrow)
  have hcursor : ∀ row ∈ fetched, (key ∘ fun row => image row.2) row = row.1 := fun row hrow =>
    hkey row.1 row.2 (hmem row hrow)
  rw [fromOverfetch_congr fetched query.limit hcursor]
  refine ⟨?_, rfl⟩
  unfold PageOf.map
  rw [List.forall₂_map_left_iff, List.forall₂_map_right_iff, List.forall₂_same]
  intro row hrow
  exact hsame row.1 row.2 (hmem row (mem_fromOverfetch hrow))

/-- The pattern of a prefix matches the keys that start with it, and a statement over it, run on
a table in any order, has the page of the rows in the order of their keys. -/
theorem fetchPage_plain {table sorted : List β} {column : β → String}
    (hsorted : (sorted.map column).Pairwise (· < ·)) (hperm : table.Perm sorted)
    (query : PageQuery) :
    (∀ pre key : String, like '\\' (escapeLikePrefix pre ++ "%").toList key.toList = true ↔
      pre.toList <+: key.toList) ∧
    fetchPage column query table =
      pageSorted (sorted.map fun row => (column row, row)) query := by
  refine ⟨like_startsWith, ?_⟩
  have hkeys : ((sorted.map fun row => (column row, row)).map Prod.fst).Pairwise (· < ·) := by
    rwa [List.map_map]
  have hnodup : sorted.Nodup :=
    (List.pairwise_map.mp hsorted).imp fun h heq => absurd (heq ▸ h) (lt_irrefl _)
  have lists : Lists table fun row =>
      ∃ k a, (k, a) ∈ sorted.map (fun row => (column row, row)) ∧ id a = row := by
    refine ⟨hperm.nodup_iff.mpr hnodup, fun row => ?_⟩
    simp [hperm.mem_iff]
  have hkey : ∀ k a, (k, a) ∈ sorted.map (fun row => (column row, row)) → column (id a) = k := by
    intro k a h
    obtain ⟨row, _, heq⟩ := List.mem_map.mp h
    cases heq
    rfl
  have hpage : SamePage Eq (pageSorted (sorted.map fun row => (column row, row)) query)
      (fetchPage column query table) := fetchPage_same hkeys lists hkey (fun _ _ _ => rfl) query
  exact (samePage_eq hpage).symm

/-- A prefix that is itself a pattern, over a table that was not filled in order. -/
theorem fetchPage_plain_pattern :
    (∀ pre key : String, like '\\' (escapeLikePrefix pre ++ "%").toList key.toList = true ↔
      pre.toList <+: key.toList) ∧
    fetchPage id ⟨"a_", "", 1, by decide, by decide⟩ ["a_2", "ab1", "a_1"] =
      pageSorted [("a_1", "a_1"), ("a_2", "a_2"), ("ab1", "ab1")]
        ⟨"a_", "", 1, by decide, by decide⟩ := by
  have hperm : ["a_2", "ab1", "a_1"].Perm ["a_1", "a_2", "ab1"] := by decide
  exact fetchPage_plain (by decide) hperm _

/-- A page with rows proves the owner exists, so the two orders of the check agree. -/
theorem fetchOwnedPage_same {page : PageOf α} {owner owner' : StoreResult Unit}
    {same : α → β → Prop} {query : PageQuery} (hpage : SamePage same page (fetchPage key query table))
    (howner : SameAnswer Eq owner owner')
    (hproof : page.items ≠ [] → owner = .ok ()) :
    SameAnswer (SamePage same) (owner.map fun _ => page)
      (fetchOwnedPage key query table owner') := by
  unfold fetchOwnedPage
  dsimp only
  split
  · rcases owner with error | ⟨⟩ <;> rcases owner' with error' | ⟨⟩
    · exact howner
    · exact howner.elim
    · exact howner.elim
    · exact hpage
  · rename_i hitems
    have hne : page.items ≠ [] := by
      intro hnil
      have hforall := hpage.1
      rw [hnil, List.forall₂_nil_left_iff] at hforall
      exact hitems hforall
    rw [hproof hne]
    exact hpage

end Page

/-! Single rows. -/

theorem found_same {row : Option α} {image : α → β} {same : α → β → Prop}
    (h : ∀ a, same a (image a)) (entity id : String) :
    SameAnswer same (found row entity id) (fetchOne (row.map image).toList entity id) := by
  cases row with
  | none => exact rfl
  | some a => exact h a

theorem find_same {table : List β} {column : β → String} {image : String → α → β}
    {map : BTreeMap α} (keeps : Keeps table column image map) {p : β → Bool} {q : α → Bool}
    (hp : ∀ (k : String) (a : α), map[k]? = some a → p (image k a) = q a)
    (unique : ∀ (k k' : String) (a a' : α), map[k]? = some a → map[k']? = some a' →
      q a = true → q a' = true → k = k')
    {same : α → β → Prop} (h : ∀ k a, same a (image k a)) :
    Option.Rel same ((values map).find? q) (table.filter p).head? := by
  cases hfind : (values map).find? q with
  | none =>
    rw [keeps.head_none fun k a ha => (hp k a ha).trans ((find_values_none map q).mp hfind k a ha)]
    exact .none
  | some a =>
    obtain ⟨⟨k, ha⟩, hq⟩ := find_values_some map q a hfind
    rw [keeps.head_of_unique ha ((hp k a ha).trans hq) fun k' a' ha' hp' =>
      unique k' k a' a ha' ha ((hp k' a' ha').symm.trans hp') hq]
    exact .some (h k a)

/-! Listings. -/

/-- A row in a listing proves that the listing has its owner. -/
theorem Listing.owner_of_row (l : Listing) {s : Inner} (ok : WellFormed s) {k : String} {row : l.Row}
    (h : (k, row) ∈ l.rows s) : l.requireOwner s = .ok () := by
  rw [Listing.requireOwner_ok_iff]
  have hholds := (l.mem_rows ok k).mp ⟨row, h⟩
  cases l with
  | users | groups | policies => trivial
  | groupMembers groupId => exact ok.memberGroup groupId k hholds
  | userGroups username => exact ok.memberUser k username hholds
  | userPolicies username => exact ok.userPolicyUser username k hholds
  | effectiveUserPolicies username =>
    rcases hholds with hdirect | ⟨groupId, hmember, _⟩
    · exact ok.userPolicyUser username k hdirect
    · exact ok.memberUser groupId username hmember
  | groupPolicies groupId => exact ok.groupPolicyGroup groupId k hholds
  | userCredentials username =>
    obtain ⟨credential, hrow, rfl⟩ := hholds
    obtain ⟨user, owner, _⟩ := ok.credentialOwner k credential hrow
    exact ⟨user, owner⟩
  | userExternalPrincipals username =>
    obtain ⟨principal, hrow, rfl⟩ := hholds
    exact ok.principalOwner k principal hrow

/-- A listing and the statement behind it, when the statement has the listing's rows. -/
theorem Listing.read_same (l : Listing) {s : Inner} (ok : WellFormed s) {table : List β}
    (image : l.Row → β) {key : β → String} {same : l.Row → β → Prop}
    (lists : Lists table fun row => ∃ k a, (k, a) ∈ l.rows s ∧ image a = row)
    (hkey : ∀ a, key (image a) = l.key a) (hsame : ∀ a, same a (image a))
    {owner : StoreResult Unit} (howner : SameAnswer Eq (l.requireOwner s) owner)
    (query : PageQuery) :
    SameAnswer (SamePage same) (l.read query s) (fetchOwnedPage key query table owner) := by
  rw [Listing.read_eq]
  apply fetchOwnedPage_same _ howner
  · intro hitems
    obtain ⟨cut, heq, hsub, _⟩ := pageSorted_eq (l.rows s) query
    rw [heq] at hitems
    obtain ⟨row, hrow⟩ := List.exists_mem_of_ne_nil cut fun hnil => hitems (by rw [hnil]; rfl)
    exact l.owner_of_row ok (hsub.subset hrow)
  · exact fetchPage_same (l.rows_sorted s) lists
      (fun k a hrow => (hkey a).trans (l.key_of_mem ok hrow)) (fun k a _ => hsame a) query

/-- A join of a table with the far ends of some links has the rows under those names. -/
theorem join_selected {table : List β} {column : β → String} {image : α → β} {map : BTreeMap α}
    (keeps : Keeps table column (fun _ => image) map) {links : List (String × String)}
    {far : String × String → String} {names : List String} (hnames : Lists (links.map far) (· ∈ names)) :
    Lists (links.flatMap fun row => table.filter fun other => column other == far row)
      fun row => ∃ k a, (k, a) ∈ selected map names ∧ image a = row := by
  have hjoin := hnames.join keeps
  rw [List.flatMap_map] at hjoin
  apply hjoin.congr
  intro row
  simp only [mem_selected]

section Reads
variable [JiffSqlx] {ρ : Int → Int} {s : Inner} {db : Database}

namespace Sim

theorem getUser (sim : Sim ρ s db) (near : ColumnKeepsDates) (username : String) :
    SameAnswer (SameUser ρ) (s.getUser username) (db.getUser username) := by
  unfold Inner.getUser Database.getUser
  rw [sim.usersNamed]
  exact found_same (same_userImage near) _ _

theorem getGroup (sim : Sim ρ s db) (near : ColumnKeepsDates) (groupId : String) :
    SameAnswer SameGroup (s.getGroup groupId) (db.getGroup groupId) := by
  unfold Inner.getGroup Database.getGroup
  rw [sim.groupsNamed]
  exact found_same (same_groupImage near) _ _

theorem getPolicy (sim : Sim ρ s db) (near : ColumnKeepsDates) (name : String) :
    SameAnswer SamePolicy (s.getPolicy name) (db.getPolicy name) := by
  unfold Inner.getPolicy Database.getPolicy
  rw [sim.policiesNamed]
  exact found_same (same_policyImage near) _ _

theorem getCredential (sim : Sim ρ s db) (near : ColumnKeepsDates) (accessKeyId : String) :
    SameAnswer (SameCredential ρ) (s.getCredential accessKeyId) (db.getCredential accessKeyId) := by
  unfold Inner.getCredential Database.getCredential
  rw [sim.joined_key]
  exact found_same (same_credentialView near) _ _

theorem getUserCredential (sim : Sim ρ s db) (near : ColumnKeepsDates)
    (username accessKeyId : String) :
    SameAnswer (SameCredential ρ) (s.getUserCredential username accessKeyId)
      (db.getUserCredential username accessKeyId) := by
  have hrows : db.credentials.filter (fun row =>
      row.accessKeyId == accessKeyId && row.username == username) =
      ((s.credentials[accessKeyId]?.filter fun cred => cred.username == username).map
        credentialImage).toList := by
    have hkey := sim.credentials.rows_of_key accessKeyId
    have hswap : db.credentials.filter (fun row =>
        row.accessKeyId == accessKeyId && row.username == username) =
        (db.credentials.filter fun row => row.accessKeyId == accessKeyId).filter
          fun row => row.username == username := by
      rw [List.filter_filter]
      apply List.filter_congr
      intro row _
      rw [Bool.and_comm]
    rw [hswap, hkey]
    cases s.credentials[accessKeyId]? with
    | none => rfl
    | some credential =>
      cases hname : credential.username == username <;>
        simp [Option.filter_some, credentialImage, hname]
  unfold Inner.getUserCredential Database.getUserCredential
  rw [hrows]
  cases hrow : s.credentials[accessKeyId]?.filter fun cred => cred.username == username with
  | none => exact rfl
  | some credential =>
    obtain ⟨hstored, _⟩ := Option.filter_eq_some_iff.mp hrow
    obtain ⟨user, owner, current⟩ := sim.ok.credentialOwner accessKeyId credential hstored
    have hjoined := sim.joined_row credential owner current
    simp only [Option.map_some, Option.toList_some, hjoined]
    exact same_credentialView near _

theorem getExternalPrincipal (sim : Sim ρ s db) (principalId : String) :
    SameAnswer Eq (s.getExternalPrincipal principalId) (db.getExternalPrincipal principalId) := by
  unfold Inner.getExternalPrincipal Database.getExternalPrincipal
  rw [sim.externalPrincipals.rows_of_key]
  exact found_same (fun _ => rfl) _ _

/-- An id that was never issued is no row's id, as long as the renaming is injective. -/
theorem findUserById (sim : Sim ρ s db) (near : ColumnKeepsDates) (injective : ρ.Injective)
    (userId : Int) :
    Option.Rel (SameUser ρ) (s.findUserById userId) (db.findUserById (ρ userId)) := by
  apply find_same sim.users _ _ fun _ => same_userImage near
  · intro k row _
    rw [Bool.eq_iff_iff, beq_iff_eq, beq_iff_eq]
    exact injective.eq_iff
  · intro k k' row row' hrow hrow' hq hq'
    rw [beq_iff_eq] at hq hq'
    exact sim.ok.users.id k k' row row' hrow hrow' (hq.trans hq'.symm)

theorem findUserByEmail (sim : Sim ρ s db) (near : ColumnKeepsDates) (email : String) :
    Option.Rel (SameUser ρ) (s.findUserByEmail email) (db.findUserByEmail email) := by
  apply find_same sim.users _ _ fun _ => same_userImage near
  · exact fun _ _ _ => rfl
  · intro k k' row row' hrow hrow' hq hq'
    rw [beq_iff_eq] at hq hq'
    exact sim.ok.users.email k k' row row' email hrow hrow' hq hq'

theorem findUserByExternalId (sim : Sim ρ s db) (near : ColumnKeepsDates)
    (externalId : String) :
    Option.Rel (SameUser ρ) (s.findUserByExternalId externalId)
      (db.findUserByExternalId externalId) := by
  apply find_same sim.users _ _ fun _ => same_userImage near
  · exact fun _ _ _ => rfl
  · intro k k' row row' hrow hrow' hq hq'
    rw [beq_iff_eq] at hq hq'
    exact sim.ok.users.externalId k k' row row' externalId hrow hrow' hq hq'

end Sim

namespace Sim

theorem userExists (sim : Sim ρ s db) (username : String) :
    SameAnswer Eq (s.requireUser username) (db.userExists username) := by
  unfold Inner.requireUser Mem.require Database.userExists
  rw [sim.usersNamed, ExtTreeMap.contains_eq_isSome_getElem?]
  cases s.users[username]? with
  | none => exact rfl
  | some user => exact rfl

theorem groupExists (sim : Sim ρ s db) (groupId : String) :
    SameAnswer Eq (s.requireGroup groupId) (db.groupExists groupId) := by
  unfold Inner.requireGroup Mem.require Database.groupExists
  rw [sim.groupsNamed, ExtTreeMap.contains_eq_isSome_getElem?]
  cases s.groups[groupId]? with
  | none => exact rfl
  | some group => exact rfl

theorem listUsers (sim : Sim ρ s db) (near : ColumnKeepsDates) (query : PageQuery) :
    SamePage (SameUser ρ) (s.listUsers query) (db.listUsers query) := by
  apply fetchPage_same (toList_keys_sorted s.users) _ _ fun _ a _ => same_userImage near a
  · apply sim.users.lists.congr
    intro row
    simp only [ExtTreeMap.mem_toList_iff_getElem?_eq_some]
  · exact fun k a hrow => sim.ok.users.key k a (ExtTreeMap.mem_toList_iff_getElem?_eq_some.mp hrow)

theorem listGroups (sim : Sim ρ s db) (near : ColumnKeepsDates) (query : PageQuery) :
    SamePage SameGroup (s.listGroups query) (db.listGroups query) := by
  apply fetchPage_same (toList_keys_sorted s.groups) _ _ fun _ a _ => same_groupImage near a
  · apply sim.groups.lists.congr
    intro row
    simp only [ExtTreeMap.mem_toList_iff_getElem?_eq_some]
  · exact fun k a hrow => sim.ok.groupKey k a (ExtTreeMap.mem_toList_iff_getElem?_eq_some.mp hrow)

theorem listPolicies (sim : Sim ρ s db) (near : ColumnKeepsDates) (query : PageQuery) :
    SamePage SamePolicy (s.listPolicies query) (db.listPolicies query) := by
  apply fetchPage_same (toList_keys_sorted s.policies) _ _ fun _ a _ => same_policyImage near a
  · apply sim.policies.lists.congr
    intro row
    simp only [ExtTreeMap.mem_toList_iff_getElem?_eq_some]
  · exact fun k a hrow => sim.ok.policyKey k a (ExtTreeMap.mem_toList_iff_getElem?_eq_some.mp hrow)

theorem listGroupMembers (sim : Sim ρ s db) (near : ColumnKeepsDates) (groupId : String)
    (query : PageQuery) :
    SameAnswer (SamePage (SameUser ρ)) (s.listGroupMembers groupId query)
      (db.listGroupMembers groupId query) := by
  apply (Listing.groupMembers groupId).read_same sim.ok (userImage ρ) _ (fun _ => rfl) (same_userImage near)
    (sim.groupExists groupId) query
  apply join_selected sim.users
  apply (sim.groupMembers.seconds groupId).congr
  exact fun k => (mem_seconds _ _ _).symm

theorem listUserGroups (sim : Sim ρ s db) (near : ColumnKeepsDates) (username : String)
    (query : PageQuery) :
    SameAnswer (SamePage SameGroup) (s.listUserGroups username query)
      (db.listUserGroups username query) := by
  apply (Listing.userGroups username).read_same sim.ok groupImage _ (fun _ => rfl) (same_groupImage near)
    (sim.userExists username) query
  apply join_selected sim.groups
  apply (sim.groupMembers.firsts username).congr
  exact fun k => (mem_firsts _ _ _).symm

theorem listUserPolicies (sim : Sim ρ s db) (near : ColumnKeepsDates) (username : String)
    (query : PageQuery) :
    SameAnswer (SamePage SamePolicy) (s.listUserPolicies username query)
      (db.listUserPolicies username query) := by
  apply (Listing.userPolicies username).read_same sim.ok policyImage _ (fun _ => rfl) (same_policyImage near)
    (sim.userExists username) query
  apply join_selected sim.policies
  apply (sim.userPolicies.seconds username).congr
  exact fun k => (mem_seconds _ _ _).symm

theorem listGroupPolicies (sim : Sim ρ s db) (near : ColumnKeepsDates) (groupId : String)
    (query : PageQuery) :
    SameAnswer (SamePage SamePolicy) (s.listGroupPolicies groupId query)
      (db.listGroupPolicies groupId query) := by
  apply (Listing.groupPolicies groupId).read_same sim.ok policyImage _ (fun _ => rfl) (same_policyImage near)
    (sim.groupExists groupId) query
  apply join_selected sim.policies
  apply (sim.groupPolicies.seconds groupId).congr
  exact fun k => (mem_seconds _ _ _).symm

theorem listUserExternalPrincipals (sim : Sim ρ s db) (username : String) (query : PageQuery) :
    SameAnswer (SamePage Eq) (s.listUserExternalPrincipals username query)
      (db.listUserExternalPrincipals username query) := by
  apply (Listing.userExternalPrincipals username).read_same sim.ok (fun row => row) _ (fun _ => rfl)
    (fun _ => rfl) (sim.userExists username) query
  apply (sim.externalPrincipals.lists.filter _).congr
  intro row
  simp only [Listing.rows, List.mem_filter, ExtTreeMap.mem_toList_iff_getElem?_eq_some]
  constructor
  · rintro ⟨⟨k, a, ha, rfl⟩, hname⟩
    exact ⟨k, a, ⟨ha, hname⟩, rfl⟩
  · rintro ⟨k, a, ⟨ha, hname⟩, rfl⟩
    exact ⟨⟨k, a, ha, rfl⟩, hname⟩

theorem listEffectiveUserPolicies (sim : Sim ρ s db) (near : ColumnKeepsDates)
    (username : String) (query : PageQuery) :
    SameAnswer (SamePage SamePolicy) (s.listEffectiveUserPolicies username query)
      (db.listEffectiveUserPolicies username query) := by
  have hnames : Lists (db.effectivePolicyNames username)
      (· ∈ (s.effectivePolicyNames username).toList) := by
    refine ⟨List.nodup_dedup _, fun name => ?_⟩
    rw [ExtTreeSet.mem_toList, Listing.mem_effectivePolicyNames]
    unfold Database.effectivePolicyNames union
    rw [List.mem_dedup, List.mem_append, (sim.userPolicies.seconds username).mem]
    apply or_congr_right
    simp only [List.mem_map, List.mem_filter, sim.groupPolicies.mem, List.any_eq_true,
      sim.groupMembers.mem, beq_iff_eq, Prod.exists, exists_eq_right]
    constructor
    · rintro ⟨groupId, hattached, member, user, ⟨hmember, rfl⟩, rfl⟩
      exact ⟨member, hmember, hattached⟩
    · rintro ⟨groupId, hmember, hattached⟩
      exact ⟨groupId, hattached, groupId, username, ⟨hmember, rfl⟩, rfl⟩
  apply (Listing.effectiveUserPolicies username).read_same sim.ok policyImage _ (fun _ => rfl)
    (same_policyImage near) (sim.userExists username) query
  apply (sim.policies.semijoin hnames).congr
  intro row
  simp only [Listing.rows, mem_selected]

theorem listUserCredentials (sim : Sim ρ s db) (near : ColumnKeepsDates) (username : String)
    (query : PageQuery) :
    SameAnswer (SamePage (SameCredential ρ)) (s.listUserCredentials username query)
      (db.listUserCredentials username query) := by
  -- The join adds the id of the row's user, which the store has as a copy.
  let joined (row : CredentialRow) : CredentialRecord :=
    ⟨row.accessKeyId, row.username, ρ ((s.users[row.username]?.map (·.userId)).getD 0),
      row.secretCiphertext, row.creationDate⟩
  have hjoined : ∀ (k : String) (credential : CredentialRecord),
      s.credentials[k]? = some credential →
      joined (credentialImage credential) = credentialView ρ credential := by
    intro k credential hrow
    obtain ⟨user, owner, current⟩ := sim.ok.credentialOwner k credential hrow
    simp only [joined, credentialImage, owner, Option.map_some, Option.getD_some, current]
    rfl
  have hinjective : joined.Injective := by
    intro row other heq
    cases row
    cases other
    simp_all [joined]
  have hrows : db.joinedCredentials (db.credentials.filter fun row => row.username == username) =
      (db.credentials.filter fun row => row.username == username).map joined := by
    unfold Database.joinedCredentials
    rw [← List.flatMap_singleton' (List.map _ _), List.flatMap_map]
    apply List.flatMap_congr
    intro row hrow
    obtain ⟨k, credential, hstored, rfl⟩ :=
      (sim.credentials.mem row).mp (List.mem_of_mem_filter hrow)
    obtain ⟨user, owner, current⟩ := sim.ok.credentialOwner k credential hstored
    have hone := sim.joined_row credential owner current
    unfold Database.joinedCredentials at hone
    rw [List.flatMap_singleton] at hone
    rw [hone, hjoined k credential hstored]
  apply (Listing.userCredentials username).read_same sim.ok (credentialView ρ) _ (fun _ => rfl)
    (same_credentialView near) (sim.userExists username) query
  rw [hrows]
  apply ((sim.credentials.lists.filter _).map hinjective).congr
  intro row
  simp only [Listing.rows, List.mem_filter, ExtTreeMap.mem_toList_iff_getElem?_eq_some]
  constructor
  · rintro ⟨_, ⟨⟨k, a, ha, rfl⟩, hname⟩, rfl⟩
    exact ⟨k, a, ⟨ha, hname⟩, (hjoined k a ha).symm⟩
  · rintro ⟨k, a, ⟨ha, hname⟩, rfl⟩
    exact ⟨_, ⟨⟨k, a, ha, rfl⟩, hname⟩, hjoined k a ha⟩

end Sim
end Reads

end LakeFsAuth.Authz.Store.Mem
