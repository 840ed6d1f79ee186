import LakeFsAuth.Authz.Store.Run
import LakeFsAuth.Library.Keyset

/-! The listings of the store, taken together: each one checks its owner, then
pages rows that are sorted by their keys. -/
namespace LakeFsAuth.Authz.Store.Mem
open Std Core.Pagination Core.Text Library Library.OrderedMap

section Rows
variable {α : Type}

/-- The rows of a table under the given names, each with its name. -/
def selected (table : BTreeMap α) (names : List String) : List (String × α) :=
  names.filterMap fun name => table[name]?.map fun row => (name, row)

theorem mem_selected {table : BTreeMap α} {names : List String} {k : String} {row : α} :
    (k, row) ∈ selected table names ↔ k ∈ names ∧ table[k]? = some row := by
  simp only [selected, List.mem_filterMap, Option.map_eq_some_iff, Prod.mk.injEq]
  constructor
  · rintro ⟨name, hname, row', hrow, rfl, rfl⟩
    exact ⟨hname, hrow⟩
  · rintro ⟨hname, hrow⟩
    exact ⟨k, hname, row, hrow, rfl, rfl⟩

theorem selected_keys_sublist (table : BTreeMap α) (names : List String) :
    List.Sublist ((selected table names).map Prod.fst) names := by
  induction names with
  | nil => exact List.Sublist.slnil
  | cons name names ih =>
    unfold selected at ih ⊢
    rw [List.filterMap_cons]
    cases table[name]? with
    | none => exact ih.cons name
    | some row => exact ih.cons_cons name

theorem toList_keys_sorted (table : BTreeMap α) :
    (table.toList.map Prod.fst).Pairwise (· < ·) := by
  rw [List.pairwise_map]
  exact ExtTreeMap.ordered_keys_toList.imp compare_lt_iff_lt.mp

theorem toList_sorted (names : ExtTreeSet String) : names.toList.Pairwise (· < ·) :=
  ExtTreeSet.ordered_toList.imp compare_lt_iff_lt.mp

private theorem pair_lt {a b : String × String} (h : pairCompare a b = .lt) :
    a.1 < b.1 ∨ a.1 = b.1 ∧ a.2 < b.2 := by
  simp only [pairCompare, compareLex, compareOn, Ordering.then_eq_lt, compare_lt_iff_lt] at h
  exact h.imp_right fun h => ⟨LawfulEqOrd.eq_of_compare h.1, h.2⟩

/-- The second components under one first component come out sorted. -/
theorem seconds_sorted (pairs : PairSet) (first : String) :
    ((pairs.toList.filter fun (a, _) => a == first).map Prod.snd).Pairwise (· < ·) := by
  rw [List.pairwise_map]
  refine List.Pairwise.imp_of_mem ?_ (ExtTreeSet.ordered_toList.filter _)
  intro a b ha hb hlt
  have ha := beq_iff_eq.mp (List.mem_filter.mp ha).2
  have hb := beq_iff_eq.mp (List.mem_filter.mp hb).2
  rcases pair_lt hlt with h | h
  · rw [ha, hb] at h
    exact absurd h (lt_irrefl first)
  · exact h.2

/-- The first components under one second component come out sorted. -/
theorem firsts_sorted (pairs : PairSet) (second : String) :
    ((pairs.toList.filter fun (_, b) => b == second).map Prod.fst).Pairwise (· < ·) := by
  rw [List.pairwise_map]
  refine List.Pairwise.imp_of_mem ?_ (ExtTreeSet.ordered_toList.filter _)
  intro a b ha hb hlt
  have ha := beq_iff_eq.mp (List.mem_filter.mp ha).2
  have hb := beq_iff_eq.mp (List.mem_filter.mp hb).2
  rcases pair_lt hlt with h | h
  · exact h
  · rw [ha, hb] at h
    exact absurd h.2 (lt_irrefl second)

theorem mem_seconds (pairs : PairSet) (first k : String) :
    k ∈ (pairs.toList.filter fun (a, _) => a == first).map Prod.snd ↔ (first, k) ∈ pairs := by
  simp only [List.mem_map, List.mem_filter, ExtTreeSet.mem_toList, beq_iff_eq]
  constructor
  · rintro ⟨⟨a, b⟩, ⟨hmem, rfl⟩, rfl⟩
    exact hmem
  · exact fun hmem => ⟨(first, k), ⟨hmem, rfl⟩, rfl⟩

theorem mem_firsts (pairs : PairSet) (second k : String) :
    k ∈ (pairs.toList.filter fun (_, b) => b == second).map Prod.fst ↔ (k, second) ∈ pairs := by
  simp only [List.mem_map, List.mem_filter, ExtTreeSet.mem_toList, beq_iff_eq]
  constructor
  · rintro ⟨⟨a, b⟩, ⟨hmem, rfl⟩, rfl⟩
    exact hmem
  · exact fun hmem => ⟨(k, second), ⟨hmem, rfl⟩, rfl⟩

end Rows

inductive Listing where
  | users
  | groups
  | policies
  | groupMembers (groupId : String)
  | userGroups (username : String)
  | userPolicies (username : String)
  | effectiveUserPolicies (username : String)
  | groupPolicies (groupId : String)
  | userCredentials (username : String)
  | userExternalPrincipals (username : String)

namespace Listing

abbrev Row : Listing → Type
  | users | groupMembers _ => UserRecord
  | groups | userGroups _ => GroupRecord
  | policies | userPolicies _ | effectiveUserPolicies _ | groupPolicies _ => PolicyRecord
  | userCredentials _ => CredentialRecord
  | userExternalPrincipals _ => ExternalPrincipalRecord

/-- The column a listing is sorted by. -/
def key : (l : Listing) → l.Row → String
  | users | groupMembers _ => UserRecord.username
  | groups | userGroups _ => GroupRecord.id
  | policies | userPolicies _ | effectiveUserPolicies _ | groupPolicies _ => PolicyRecord.name
  | userCredentials _ => CredentialRecord.accessKeyId
  | userExternalPrincipals _ => ExternalPrincipalRecord.id

/-- The operation of the store behind the listing. -/
def read : (l : Listing) → PageQuery → Inner → StoreResult (PageOf l.Row)
  | users, query, s => .ok (s.listUsers query)
  | groups, query, s => .ok (s.listGroups query)
  | policies, query, s => .ok (s.listPolicies query)
  | groupMembers groupId, query, s => s.listGroupMembers groupId query
  | userGroups username, query, s => s.listUserGroups username query
  | userPolicies username, query, s => s.listUserPolicies username query
  | effectiveUserPolicies username, query, s => s.listEffectiveUserPolicies username query
  | groupPolicies groupId, query, s => s.listGroupPolicies groupId query
  | userCredentials username, query, s => s.listUserCredentials username query
  | userExternalPrincipals username, query, s => s.listUserExternalPrincipals username query

/-- The user or the group a listing belongs to is present. -/
def HasOwner (s : Inner) : Listing → Prop
  | users | groups | policies => True
  | groupMembers groupId | groupPolicies groupId => ∃ group, s.groups[groupId]? = some group
  | userGroups username | userPolicies username | effectiveUserPolicies username
  | userCredentials username | userExternalPrincipals username =>
      ∃ user, s.users[username]? = some user

/-- The keys that belong in the listing. -/
def Holds (s : Inner) (k : String) : Listing → Prop
  | users => ∃ user, s.users[k]? = some user
  | groups => ∃ group, s.groups[k]? = some group
  | policies => ∃ policy, s.policies[k]? = some policy
  | groupMembers groupId => (groupId, k) ∈ s.groupMembers
  | userGroups username => (k, username) ∈ s.groupMembers
  | userPolicies username => (username, k) ∈ s.userPolicies
  | effectiveUserPolicies username => (username, k) ∈ s.userPolicies ∨
      ∃ groupId, (groupId, username) ∈ s.groupMembers ∧ (groupId, k) ∈ s.groupPolicies
  | groupPolicies groupId => (groupId, k) ∈ s.groupPolicies
  | userCredentials username =>
      ∃ credential, s.credentials[k]? = some credential ∧ credential.username = username
  | userExternalPrincipals username =>
      ∃ principal, s.externalPrincipals[k]? = some principal ∧ principal.username = username

def requireOwner (s : Inner) : Listing → StoreResult Unit
  | users | groups | policies => .ok ()
  | groupMembers groupId | groupPolicies groupId => s.requireGroup groupId
  | userGroups username | userPolicies username | effectiveUserPolicies username
  | userCredentials username | userExternalPrincipals username => s.requireUser username

def rows (s : Inner) : (l : Listing) → List (String × l.Row)
  | users => s.users.toList
  | groups => s.groups.toList
  | policies => s.policies.toList
  | groupMembers groupId => selected s.users
      ((s.groupMembers.toList.filter fun (group, _) => group == groupId).map Prod.snd)
  | userGroups username => selected s.groups
      ((s.groupMembers.toList.filter fun (_, member) => member == username).map Prod.fst)
  | userPolicies username => selected s.policies (s.userPolicyNames username)
  | effectiveUserPolicies username =>
      selected s.policies (s.effectivePolicyNames username).toList
  | groupPolicies groupId => selected s.policies
      ((s.groupPolicies.toList.filter fun (group, _) => group == groupId).map Prod.snd)
  | userCredentials username => s.credentials.toList.filter fun (_, credential) =>
      credential.username == username
  | userExternalPrincipals username => s.externalPrincipals.toList.filter fun (_, principal) =>
      principal.username == username

/-- Every listing is its owner check and then a page of its rows. -/
theorem read_eq (l : Listing) (query : PageQuery) (s : Inner) :
    l.read query s = (l.requireOwner s).map fun _ => pageSorted (l.rows s) query := by
  cases l with
  | users | groups | policies => rfl
  | groupMembers groupId =>
    simp only [read, Inner.listGroupMembers, requireOwner, rows, selected, List.filterMap_map]
    cases s.requireGroup groupId <;> rfl
  | userGroups username =>
    simp only [read, Inner.listUserGroups, requireOwner, rows, selected, List.filterMap_map]
    cases s.requireUser username <;> rfl
  | userPolicies username =>
    simp only [read, Inner.listUserPolicies, requireOwner]
    cases s.requireUser username <;> rfl
  | effectiveUserPolicies username =>
    simp only [read, Inner.listEffectiveUserPolicies, requireOwner]
    cases s.requireUser username <;> rfl
  | groupPolicies groupId =>
    simp only [read, Inner.listGroupPolicies, requireOwner]
    cases s.requireGroup groupId <;> rfl
  | userCredentials username =>
    simp only [read, Inner.listUserCredentials, requireOwner]
    cases s.requireUser username <;> rfl
  | userExternalPrincipals username =>
    simp only [read, Inner.listUserExternalPrincipals, requireOwner]
    cases s.requireUser username <;> rfl

theorem requireOwner_ok_iff (l : Listing) (s : Inner) :
    l.requireOwner s = .ok () ↔ l.HasOwner s := by
  cases l with
  | users | groups | policies => simp [requireOwner, HasOwner]
  | groupMembers groupId | groupPolicies groupId =>
    exact (require_ok_iff _ _ _).trans (contains_iff _ _)
  | userGroups username | userPolicies username | effectiveUserPolicies username
  | userCredentials username | userExternalPrincipals username =>
    exact (require_ok_iff _ _ _).trans (contains_iff _ _)

/-- A listing answers exactly when its owner is there. -/
theorem read_ok_iff (l : Listing) (query : PageQuery) (s : Inner) (page : PageOf l.Row) :
    l.read query s = .ok page ↔ l.HasOwner s ∧ page = pageSorted (l.rows s) query := by
  rw [read_eq, ← requireOwner_ok_iff]
  cases l.requireOwner s with
  | error error => simp [Except.map]
  | ok => simp [Except.map, eq_comm]

theorem rows_sorted (l : Listing) (s : Inner) :
    ((l.rows s).map Prod.fst).Pairwise (· < ·) := by
  cases l with
  | users => exact toList_keys_sorted s.users
  | groups => exact toList_keys_sorted s.groups
  | policies => exact toList_keys_sorted s.policies
  | groupMembers groupId =>
    exact (seconds_sorted s.groupMembers groupId).sublist (selected_keys_sublist _ _)
  | userGroups username =>
    exact (firsts_sorted s.groupMembers username).sublist (selected_keys_sublist _ _)
  | userPolicies username =>
    exact (seconds_sorted s.userPolicies username).sublist (selected_keys_sublist _ _)
  | effectiveUserPolicies username =>
    exact (toList_sorted (s.effectivePolicyNames username)).sublist (selected_keys_sublist _ _)
  | groupPolicies groupId =>
    exact (seconds_sorted s.groupPolicies groupId).sublist (selected_keys_sublist _ _)
  | userCredentials username =>
    exact (toList_keys_sorted s.credentials).sublist (List.filter_sublist.map _)
  | userExternalPrincipals username =>
    exact (toList_keys_sorted s.externalPrincipals).sublist (List.filter_sublist.map _)

theorem mem_effectivePolicyNames (s : Inner) (username k : String) :
    k ∈ s.effectivePolicyNames username ↔ (effectiveUserPolicies username).Holds s k := by
  simp only [Inner.effectivePolicyNames, ExtTreeSet.mem_insertMany_list, ExtTreeSet.mem_ofList,
    List.contains_iff_mem, Inner.userPolicyNames, mem_seconds, Holds]
  refine or_congr_right ?_
  simp only [List.mem_map, List.mem_filter, ExtTreeSet.mem_toList, ExtTreeSet.contains_iff_mem,
    ExtTreeSet.mem_ofList, List.contains_iff_mem]
  constructor
  · rintro ⟨⟨groupId, policy⟩, ⟨hmem, pair, ⟨hpair, hmember⟩, rfl⟩, rfl⟩
    refine ⟨pair.1, ?_, hmem⟩
    rw [← beq_iff_eq.mp hmember]
    exact hpair
  · rintro ⟨groupId, hmember, hmem⟩
    exact ⟨(groupId, k), ⟨hmem, (groupId, username), ⟨hmember, beq_self_eq_true _⟩, rfl⟩, rfl⟩

private theorem selected_iff {table : BTreeMap α} {names : List String} {k : String}
    (h : k ∈ names → ∃ row, table[k]? = some row) :
    (∃ row, (k, row) ∈ selected table names) ↔ k ∈ names := by
  simp only [mem_selected]
  constructor
  · rintro ⟨row, hmem, _⟩
    exact hmem
  · intro hmem
    obtain ⟨row, hrow⟩ := h hmem
    exact ⟨row, hmem, hrow⟩

/-- In a well-formed store the rows of a listing are the rows that belong in it. -/
theorem mem_rows (l : Listing) {s : Inner} (ok : WellFormed s) (k : String) :
    (∃ row, (k, row) ∈ l.rows s) ↔ l.Holds s k := by
  cases l with
  | users | groups | policies =>
    simp only [rows, Holds, ExtTreeMap.mem_toList_iff_getElem?_eq_some]
  | groupMembers groupId =>
    refine (selected_iff fun hmem => ?_).trans (mem_seconds _ _ _)
    exact ok.memberUser groupId k ((mem_seconds _ _ _).mp hmem)
  | userGroups username =>
    refine (selected_iff fun hmem => ?_).trans (mem_firsts _ _ _)
    exact ok.memberGroup k username ((mem_firsts _ _ _).mp hmem)
  | userPolicies username =>
    refine (selected_iff fun hmem => ?_).trans (mem_seconds _ _ _)
    exact ok.userPolicyPolicy username k ((mem_seconds _ _ _).mp hmem)
  | effectiveUserPolicies username =>
    have hnames := (ExtTreeSet.mem_toList (k := k)).trans (mem_effectivePolicyNames s username k)
    refine (selected_iff fun hmem => ?_).trans hnames
    rcases hnames.mp hmem with hdirect | ⟨groupId, _, hgroup⟩
    · exact ok.userPolicyPolicy username k hdirect
    · exact ok.groupPolicyPolicy groupId k hgroup
  | groupPolicies groupId =>
    refine (selected_iff fun hmem => ?_).trans (mem_seconds _ _ _)
    exact ok.groupPolicyPolicy groupId k ((mem_seconds _ _ _).mp hmem)
  | userCredentials username | userExternalPrincipals username =>
    simp only [rows, Holds, List.mem_filter, ExtTreeMap.mem_toList_iff_getElem?_eq_some,
      beq_iff_eq]

theorem key_of_mem (l : Listing) {s : Inner} (ok : WellFormed s) {k : String} {row : l.Row}
    (h : (k, row) ∈ l.rows s) : l.key row = k := by
  cases l with
  | users => exact ok.users.key k row (ExtTreeMap.mem_toList_iff_getElem?_eq_some.mp h)
  | groups => exact ok.groupKey k row (ExtTreeMap.mem_toList_iff_getElem?_eq_some.mp h)
  | policies => exact ok.policyKey k row (ExtTreeMap.mem_toList_iff_getElem?_eq_some.mp h)
  | groupMembers groupId => exact ok.users.key k row (mem_selected.mp h).2
  | userGroups username => exact ok.groupKey k row (mem_selected.mp h).2
  | userPolicies username | effectiveUserPolicies username | groupPolicies groupId =>
    exact ok.policyKey k row (mem_selected.mp h).2
  | userCredentials username =>
    exact ok.credentialKey k row
      (ExtTreeMap.mem_toList_iff_getElem?_eq_some.mp (List.mem_filter.mp h).1)
  | userExternalPrincipals username =>
    exact ok.principalKey k row
      (ExtTreeMap.mem_toList_iff_getElem?_eq_some.mp (List.mem_filter.mp h).1)

end Listing

/-! A page is a cut of the keys that match its prefix. -/

private theorem take_overfetch (rows : List α) (limit : Nat) :
    (limit < (rows.take (limit + 1)).length ↔ limit < rows.length) ∧
    (rows.take (limit + 1)).take limit = rows.take limit ∧
    (¬ limit < rows.length → rows.take (limit + 1) = rows) := by
  refine ⟨?_, ?_, ?_⟩
  · rw [List.length_take]
    omega
  · rw [List.take_take, Nat.min_eq_left (Nat.le_succ limit)]
  · exact fun h => List.take_of_length_le (by omega)

/-- The rows of a page, still with their keys, and its cursor. -/
theorem pageSorted_eq (rows : List (String × α)) (query : PageQuery) :
    ∃ cutRows : List (String × α),
      pageSorted rows query = ⟨cutRows.map Prod.snd,
        (Keyset.cut ((rows.map Prod.fst).filter (startsWith · query.pre)) query.after
          query.limit.toNat).2⟩ ∧
      List.Sublist cutRows rows ∧
      cutRows.map Prod.fst =
        (Keyset.cut ((rows.map Prod.fst).filter (startsWith · query.pre)) query.after
          query.limit.toNat).1 := by
  have hlimit := query.limit_pos
  have hfetch : query.fetchLimit.toNat = query.limit.toNat + 1 := by
    unfold PageQuery.fetchLimit
    omega
  have hmax : max query.limit 0 = query.limit := max_eq_left (by omega)
  set tail := rows.filter fun row =>
    startsWith row.1 query.pre && decide (query.after < row.1) with htail
  have hkeys : ((rows.map Prod.fst).filter (startsWith · query.pre)).filter
      (query.after < ·) = tail.map Prod.fst := by
    rw [List.filter_filter, List.filter_map]
    congr 1
    apply List.filter_congr
    intro row _
    simp [Bool.and_comm]
  have hsub : List.Sublist tail rows := List.filter_sublist
  obtain ⟨hlong, htake, hall⟩ := take_overfetch tail query.limit.toNat
  rw [pageSorted_rows]
  unfold Keyset.cut PageOf.fromOverfetch
  simp only [hkeys, List.length_map, ← htail, hfetch, hmax, hlong, htake]
  split
  · refine ⟨tail.take query.limit.toNat, ?_, (List.take_sublist _ _).trans hsub, ?_⟩
    · rw [← List.map_take, List.getLast?_map]
      rfl
    · rw [List.map_take]
  · rename_i hshort
    rw [hall hshort]
    exact ⟨tail, rfl, hsub, rfl⟩

end LakeFsAuth.Authz.Store.Mem
