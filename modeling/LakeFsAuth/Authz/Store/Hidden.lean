import LakeFsAuth.Authz.Store.Frame

/-! The in-memory store without its secrets. No operation but the reads of credentials can tell
a store from one with other ciphertexts. -/
namespace LakeFsAuth.Authz.Store.Mem
open Std Core.Pagination Library.OrderedMap

/-- A row without its secret. -/
def hiddenRow (row : CredentialRecord) : CredentialRecord := { row with secretCiphertext := [] }

section Map
variable {β γ : Type} (m : BTreeMap β) (f : String → β → γ)

theorem map_retain {keep : String → β → Bool} {keep' : String → γ → Bool}
    (same : ∀ k row, keep' k (f k row) = keep k row) :
    (m.map f).filter keep' = (m.filter keep).map f := by
  ext k
  rw [get_retain, ExtTreeMap.getElem?_map, ExtTreeMap.getElem?_map, get_retain]
  cases m[k]? <;> simp [Option.filter, same]

theorem map_erase (k : String) : (m.map f).erase k = (m.erase k).map f := by
  ext a
  rw [get_erase, ExtTreeMap.getElem?_map, ExtTreeMap.getElem?_map, get_erase]
  split <;> rfl

end Map

namespace Inner
variable (self : Inner)

def hidden : Inner := { self with credentials := self.credentials.map fun _ row => hiddenRow row }

/-- Stores that differ in their secrets only. -/
def SameButSecrets (s t : Inner) : Prop := s.hidden = t.hidden

theorem hidden_hidden : self.hidden.hidden = self.hidden := by
  unfold hidden
  rw [ExtTreeMap.map_map]
  rfl

end Inner

def hiddenReply : (op : StoreOp) → op.Reply → op.Reply
  | .createCredential _ => Except.map hiddenRow
  | .getCredential _ => Except.map hiddenRow
  | .getUserCredential _ _ => Except.map hiddenRow
  | .listUserCredentials _ _ => Except.map fun page => page.map hiddenRow
  | _ => id

/-- Replies that differ in secrets only. -/
def LooksAlike (op : StoreOp) (reply other : op.Reply) : Prop := hiddenReply op reply = hiddenReply op other

/-- The operations that read or write a ciphertext, and the bootstrap run. -/
def secretive : StoreOp → Bool
  | .createCredential _ | .getCredential _ | .getUserCredential _ _ | .listUserCredentials _ _ => true
  | .applyBootstrap _ => true
  | _ => false

namespace Inner
variable (self : Inner)

/-- The others do the same on a store without its secrets. -/
theorem exec_plain {op : StoreOp} (plain : secretive op = false) :
    exec op self.hidden = ((exec op self).1, (exec op self).2.hidden) := by
  cases op with
  | createCredential | getCredential | getUserCredential | listUserCredentials | applyBootstrap =>
    exact nomatch plain
  | createUser user =>
    change self.hidden.insertUser user = ((self.insertUser user).1, (self.insertUser user).2.hidden)
    unfold insertUser emailTaken externalIdTaken hidden
    dsimp only
    split_ifs <;> rfl
  | setFriendlyName username name =>
    change self.hidden.setFriendlyName username name =
      ((self.setFriendlyName username name).1, (self.setFriendlyName username name).2.hidden)
    unfold setFriendlyName hidden
    dsimp only
    cases self.users[username]? <;> rfl
  | createGroup group =>
    change self.hidden.insertGroup group =
      ((self.insertGroup group).1, (self.insertGroup group).2.hidden)
    unfold insertGroup hidden
    split <;> rfl
  | deleteGroup groupId =>
    change self.hidden.deleteGroup groupId =
      ((self.deleteGroup groupId).1, (self.deleteGroup groupId).2.hidden)
    unfold deleteGroup hidden
    split <;> rfl
  | createPolicy policy =>
    change self.hidden.insertPolicy policy =
      ((self.insertPolicy policy).1, (self.insertPolicy policy).2.hidden)
    unfold insertPolicy hidden
    split <;> rfl
  | updatePolicy policy =>
    change self.hidden.updatePolicy policy =
      ((self.updatePolicy policy).1, (self.updatePolicy policy).2.hidden)
    unfold updatePolicy hidden
    dsimp only
    cases self.policies[policy.name]? <;> rfl
  | deletePolicy name =>
    change self.hidden.deletePolicy name =
      ((self.deletePolicy name).1, (self.deletePolicy name).2.hidden)
    unfold deletePolicy hidden
    split <;> rfl
  | addMembership groupId username =>
    change self.hidden.addMembership groupId username =
      ((self.addMembership groupId username).1, (self.addMembership groupId username).2.hidden)
    unfold addMembership requireGroup requireUser hidden
    dsimp only
    cases require (self.groups.contains groupId) "group" groupId <;>
      cases require (self.users.contains username) "user" username <;> rfl
  | removeMembership groupId username =>
    change self.hidden.removeMembership groupId username =
      ((self.removeMembership groupId username).1, (self.removeMembership groupId username).2.hidden)
    unfold removeMembership hidden
    split <;> rfl
  | attachPolicyToUser username policy =>
    change self.hidden.attachPolicyToUser username policy =
      ((self.attachPolicyToUser username policy).1,
        (self.attachPolicyToUser username policy).2.hidden)
    unfold attachPolicyToUser requireUser requirePolicy hidden
    dsimp only
    cases require (self.users.contains username) "user" username <;>
      cases require (self.policies.contains policy) "policy" policy <;> rfl
  | detachPolicyFromUser username policy =>
    change self.hidden.detachPolicyFromUser username policy =
      ((self.detachPolicyFromUser username policy).1,
        (self.detachPolicyFromUser username policy).2.hidden)
    unfold detachPolicyFromUser hidden
    split <;> rfl
  | attachPolicyToGroup groupId policy =>
    change self.hidden.attachPolicyToGroup groupId policy =
      ((self.attachPolicyToGroup groupId policy).1,
        (self.attachPolicyToGroup groupId policy).2.hidden)
    unfold attachPolicyToGroup requireGroup requirePolicy hidden
    dsimp only
    cases require (self.groups.contains groupId) "group" groupId <;>
      cases require (self.policies.contains policy) "policy" policy <;> rfl
  | detachPolicyFromGroup groupId policy =>
    change self.hidden.detachPolicyFromGroup groupId policy =
      ((self.detachPolicyFromGroup groupId policy).1,
        (self.detachPolicyFromGroup groupId policy).2.hidden)
    unfold detachPolicyFromGroup hidden
    split <;> rfl
  | createExternalPrincipal username principalId =>
    change self.hidden.createExternalPrincipal username principalId =
      ((self.createExternalPrincipal username principalId).1,
        (self.createExternalPrincipal username principalId).2.hidden)
    unfold createExternalPrincipal requireUser hidden
    dsimp only
    cases require (self.users.contains username) "user" username with
    | error error => rfl
    | ok =>
      dsimp only
      split <;> rfl
  | deleteExternalPrincipal username principalId =>
    change self.hidden.deleteExternalPrincipal username principalId =
      ((self.deleteExternalPrincipal username principalId).1,
        (self.deleteExternalPrincipal username principalId).2.hidden)
    unfold deleteExternalPrincipal hidden
    split <;> rfl
  | claimTokenId tokenId expiresAt =>
    change self.hidden.claimTokenId tokenId expiresAt =
      ((self.claimTokenId tokenId expiresAt).1, (self.claimTokenId tokenId expiresAt).2.hidden)
    unfold claimTokenId hidden
    split <;> rfl
  | deleteUser username =>
    change self.hidden.deleteUser username =
      ((self.deleteUser username).1, (self.deleteUser username).2.hidden)
    unfold deleteUser cascadeDeleteUser hidden
    dsimp only
    split
    · rw [map_retain]
      exact fun _ _ => rfl
    · rfl
  | deleteCredential username accessKeyId =>
    change self.hidden.deleteCredential username accessKeyId =
      ((self.deleteCredential username accessKeyId).1,
        (self.deleteCredential username accessKeyId).2.hidden)
    have howner : (self.hidden.credentials[accessKeyId]?.any fun cred => cred.username == username) =
        self.credentials[accessKeyId]?.any fun cred => cred.username == username := by
      simp only [hidden, ExtTreeMap.getElem?_map]
      cases self.credentials[accessKeyId]? <;> rfl
    unfold deleteCredential
    rw [howner]
    split
    · simp only [hidden, map_erase]
    · rfl
  | _ => rfl

theorem insertCredential_hidden (credential : NewCredential) :
    LooksAlike (.createCredential credential) (self.hidden.insertCredential credential).1
        (self.insertCredential credential).1 ∧
      (self.hidden.insertCredential credential).2.hidden = (self.insertCredential credential).2.hidden := by
  have hcontains : self.hidden.credentials.contains credential.accessKeyId =
      self.credentials.contains credential.accessKeyId := ExtTreeMap.contains_map
  have husers : self.hidden.users = self.users := rfl
  unfold insertCredential
  rw [hcontains, husers]
  cases self.users[credential.username]? with
  | none => exact ⟨rfl, self.hidden_hidden⟩
  | some user =>
    dsimp only
    split
    · exact ⟨rfl, self.hidden_hidden⟩
    · refine ⟨rfl, ?_⟩
      simp only [hidden, Inner.mk.injEq, true_and, and_true]
      ext k
      simp only [ExtTreeMap.getElem?_map, get_insert]
      split
      · rfl
      · cases self.credentials[k]? <;> rfl

theorem pageSorted_map {β γ : Type} (f : β → γ) (rows : List (String × β)) (query : PageQuery) :
    pageSorted (rows.map fun row => (row.1, f row.2)) query = (pageSorted rows query).map f := by
  rw [pageSorted_rows, pageSorted_rows]
  simp only [List.filter_map, Function.comp_def, ← List.map_take]
  unfold PageOf.fromOverfetch
  simp only [List.length_map]
  split
  · simp only [PageOf.map, ← List.map_take, List.map_map, List.getLast?_map, Option.map_map]
    rfl
  · simp only [PageOf.map, List.map_map]
    rfl

/-- What an operation answers and leaves is the same but for secrets. -/
theorem exec_hidden {op : StoreOp} (plain : ∀ plan, op ≠ .applyBootstrap plan) :
    LooksAlike op (exec op self.hidden).1 (exec op self).1 ∧
      (exec op self.hidden).2.hidden = (exec op self).2.hidden := by
  by_cases hop : secretive op = true
  · cases op with
    | createCredential credential => exact self.insertCredential_hidden credential
    | getCredential accessKeyId =>
      refine ⟨?_, self.hidden_hidden⟩
      change Except.map hiddenRow (self.hidden.getCredential accessKeyId) =
        Except.map hiddenRow (self.getCredential accessKeyId)
      simp only [getCredential, hidden, ExtTreeMap.getElem?_map]
      cases self.credentials[accessKeyId]? <;> rfl
    | getUserCredential username accessKeyId =>
      refine ⟨?_, self.hidden_hidden⟩
      change Except.map hiddenRow (self.hidden.getUserCredential username accessKeyId) =
        Except.map hiddenRow (self.getUserCredential username accessKeyId)
      simp only [getUserCredential, hidden, ExtTreeMap.getElem?_map]
      cases self.credentials[accessKeyId]? with
      | none => rfl
      | some row =>
        simp only [Option.map_some, Option.filter_some, hiddenRow]
        split <;> rfl
    | listUserCredentials username query =>
      refine ⟨?_, self.hidden_hidden⟩
      change Except.map (PageOf.map hiddenRow) (self.hidden.listUserCredentials username query) =
        Except.map (PageOf.map hiddenRow) (self.listUserCredentials username query)
      have hrows : self.hidden.credentials.toList.filter (fun row => row.2.username == username) =
          (self.credentials.toList.filter fun row => row.2.username == username).map fun row =>
            (row.1, hiddenRow row.2) := by
        simp only [hidden, ExtTreeMap.toList_map, List.filter_map]
        rfl
      have howner : self.hidden.requireUser username = self.requireUser username := rfl
      unfold listUserCredentials
      rw [howner]
      cases self.requireUser username with
      | error error => rfl
      | ok =>
        change Except.ok (PageOf.map hiddenRow (pageSorted (List.filter _ _) query)) =
          Except.ok (PageOf.map hiddenRow (pageSorted (List.filter _ _) query))
        rw [hrows, pageSorted_map]
        simp only [PageOf.map, List.map_map]
        rfl
    | applyBootstrap plan => exact absurd rfl (plain plan)
    | _ => exact nomatch hop
  · rw [self.exec_plain (Bool.not_eq_true _ ▸ hop)]
    exact ⟨rfl, hidden_hidden _⟩

theorem exec_indistinct {op : StoreOp} (plain : ∀ plan, op ≠ .applyBootstrap plan) {s t : Inner}
    (same : SameButSecrets s t) : LooksAlike op (exec op s).1 (exec op t).1 ∧
      SameButSecrets (exec op s).2 (exec op t).2 := by
  obtain ⟨hs, hs'⟩ := s.exec_hidden plain
  obtain ⟨ht, ht'⟩ := t.exec_hidden plain
  rw [same] at hs hs'
  exact ⟨hs.symm.trans ht, hs'.symm.trans ht'⟩

end Inner

end LakeFsAuth.Authz.Store.Mem
