import LakeFsAuth.Authz.Store.Frame

/-! An operation of the in-memory store that is done once more changes nothing: a create finds
its row, a delete finds none, and the rest write what is there. -/
namespace LakeFsAuth.Authz.Store.Mem
open Std Library.OrderedMap

/-- What a create asks for again, at another time: the key and the owner of its row. -/
def Again (op op' : StoreOp) : Prop :=
  match op with
  | .createUser user => ∃ date, op' = .createUser { user with creationDate := date }
  | .createGroup group => ∃ date, op' = .createGroup { group with creationDate := date }
  | .createPolicy policy => ∃ date, op' = .createPolicy { policy with creationDate := date }
  | .createCredential credential => ∃ date ciphertext, op' = .createCredential
      { credential with creationDate := date, secretCiphertext := ciphertext }
  | .applyBootstrap _ => False
  | _ => op' = op

theorem insert_again (pairs : PairSet) (pair : String × String) :
    (pairs.insert pair).insert pair = pairs.insert pair :=
  insert_of_mem _ pair ((mem_insert pairs pair pair).mpr (.inl rfl))

namespace Inner
variable (self : Inner)

theorem insertUser_again (user : NewUser) (date : Timestamp) :
    ((self.insertUser user).2.insertUser { user with creationDate := date }).2 =
      (self.insertUser user).2 := by
  unfold insertUser
  split_ifs with huser hemail hid <;> simp_all

theorem insertGroup_again (group : NewGroup) (date : Timestamp) :
    ((self.insertGroup group).2.insertGroup { group with creationDate := date }).2 =
      (self.insertGroup group).2 := by
  unfold insertGroup
  split_ifs with h <;> simp_all

theorem insertPolicy_again (policy : NewPolicy) (date : Timestamp) :
    ((self.insertPolicy policy).2.insertPolicy { policy with creationDate := date }).2 =
      (self.insertPolicy policy).2 := by
  unfold insertPolicy
  split_ifs with h <;> simp_all

theorem insertCredential_again (credential : NewCredential) (date : Timestamp) (ciphertext : Core.Model.Bytes) :
    ((self.insertCredential credential).2.insertCredential
      { credential with creationDate := date, secretCiphertext := ciphertext }).2 =
      (self.insertCredential credential).2 := by
  unfold insertCredential
  cases huser : self.users[credential.username]? with
  | none => simp [huser]
  | some user => split_ifs with h <;> simp_all

theorem deleteUser_again (username : String) :
    ((self.deleteUser username).2.deleteUser username).2 = (self.deleteUser username).2 := by
  unfold deleteUser
  split_ifs with h <;> simp_all [cascadeDeleteUser]

theorem setFriendlyName_again (username name : String) :
    ((self.setFriendlyName username name).2.setFriendlyName username name).2 =
      (self.setFriendlyName username name).2 := by
  unfold setFriendlyName
  cases huser : self.users[username]? with
  | none => simp [huser]
  | some user => simp [insert_insert]

theorem updatePolicy_again (policy : NewPolicy) :
    ((self.updatePolicy policy).2.updatePolicy policy).2 = (self.updatePolicy policy).2 := by
  unfold updatePolicy
  cases hpolicy : self.policies[policy.name]? with
  | none => simp [hpolicy]
  | some slot => simp [insert_insert, rewritten]

theorem deleteGroup_again (groupId : String) :
    ((self.deleteGroup groupId).2.deleteGroup groupId).2 = (self.deleteGroup groupId).2 := by
  unfold deleteGroup
  split_ifs with h <;> simp_all [cascadeDeleteGroup]

theorem deletePolicy_again (name : String) :
    ((self.deletePolicy name).2.deletePolicy name).2 = (self.deletePolicy name).2 := by
  unfold deletePolicy
  split_ifs with h <;> simp_all [cascadeDeletePolicy]

theorem addMembership_again (groupId username : String) :
    ((self.addMembership groupId username).2.addMembership groupId username).2 =
      (self.addMembership groupId username).2 := by
  unfold addMembership requireGroup requireUser require
  by_cases hgroup : groupId ∈ self.groups <;> by_cases huser : username ∈ self.users <;>
    simp [hgroup, huser, insert_again]

theorem attachPolicyToUser_again (username policy : String) :
    ((self.attachPolicyToUser username policy).2.attachPolicyToUser username policy).2 =
      (self.attachPolicyToUser username policy).2 := by
  unfold attachPolicyToUser requireUser requirePolicy require
  by_cases huser : username ∈ self.users <;> by_cases hpolicy : policy ∈ self.policies <;>
    simp [huser, hpolicy, insert_again]

theorem attachPolicyToGroup_again (groupId policy : String) :
    ((self.attachPolicyToGroup groupId policy).2.attachPolicyToGroup groupId policy).2 =
      (self.attachPolicyToGroup groupId policy).2 := by
  unfold attachPolicyToGroup requireGroup requirePolicy require
  by_cases hgroup : groupId ∈ self.groups <;> by_cases hpolicy : policy ∈ self.policies <;>
    simp [hgroup, hpolicy, insert_again]

theorem detachPolicyFromUser_again (username policy : String) :
    ((self.detachPolicyFromUser username policy).2.detachPolicyFromUser username policy).2 =
      (self.detachPolicyFromUser username policy).2 := by
  unfold detachPolicyFromUser
  split_ifs with h <;> simp_all

theorem detachPolicyFromGroup_again (groupId policy : String) :
    ((self.detachPolicyFromGroup groupId policy).2.detachPolicyFromGroup groupId policy).2 =
      (self.detachPolicyFromGroup groupId policy).2 := by
  unfold detachPolicyFromGroup
  split_ifs with h <;> simp_all

theorem removeMembership_again (groupId username : String) :
    ((self.removeMembership groupId username).2.removeMembership groupId username).2 =
      (self.removeMembership groupId username).2 := by
  unfold removeMembership
  split_ifs with h <;> simp_all

theorem deleteCredential_again (username accessKeyId : String) :
    ((self.deleteCredential username accessKeyId).2.deleteCredential username accessKeyId).2 =
      (self.deleteCredential username accessKeyId).2 := by
  unfold deleteCredential
  split_ifs with h <;> simp_all

theorem createExternalPrincipal_again (username principalId : String) :
    ((self.createExternalPrincipal username principalId).2.createExternalPrincipal username
      principalId).2 = (self.createExternalPrincipal username principalId).2 := by
  unfold createExternalPrincipal requireUser require
  by_cases huser : username ∈ self.users <;>
    by_cases hprincipal : principalId ∈ self.externalPrincipals <;> simp [huser, hprincipal]

theorem deleteExternalPrincipal_again (username principalId : String) :
    ((self.deleteExternalPrincipal username principalId).2.deleteExternalPrincipal username
      principalId).2 = (self.deleteExternalPrincipal username principalId).2 := by
  unfold deleteExternalPrincipal
  split_ifs with h <;> simp_all

theorem claimTokenId_again (tokenId : String) (expiresAt : Timestamp) :
    ((self.claimTokenId tokenId expiresAt).2.claimTokenId tokenId expiresAt).2 =
      (self.claimTokenId tokenId expiresAt).2 := by
  unfold claimTokenId
  split_ifs with h <;> simp_all

theorem deleteExpiredTokenIds_again (now : Timestamp) :
    ((self.deleteExpiredTokenIds now).2.deleteExpiredTokenIds now).2 =
      (self.deleteExpiredTokenIds now).2 := by
  unfold deleteExpiredTokenIds
  simp only [Inner.mk.injEq, true_and]
  ext tokenId
  simp only [get_retain, Option.filter_filter, Bool.and_self]

/-- Done once more, an operation leaves the store as it is. -/
theorem exec_again {op op' : StoreOp} (again : Again op op') :
    (exec op' (exec op self).2).2 = (exec op self).2 := by
  cases op with
  | createUser user =>
    obtain ⟨date, rfl⟩ := again
    exact self.insertUser_again user date
  | createGroup group =>
    obtain ⟨date, rfl⟩ := again
    exact self.insertGroup_again group date
  | createPolicy policy =>
    obtain ⟨date, rfl⟩ := again
    exact self.insertPolicy_again policy date
  | createCredential credential =>
    obtain ⟨date, ciphertext, rfl⟩ := again
    exact self.insertCredential_again credential date ciphertext
  | applyBootstrap plan => exact again.elim
  | deleteUser username =>
    cases again
    exact self.deleteUser_again username
  | setFriendlyName username name =>
    cases again
    exact self.setFriendlyName_again username name
  | deleteGroup groupId =>
    cases again
    exact self.deleteGroup_again groupId
  | updatePolicy policy =>
    cases again
    exact self.updatePolicy_again policy
  | deletePolicy name =>
    cases again
    exact self.deletePolicy_again name
  | addMembership groupId username =>
    cases again
    exact self.addMembership_again groupId username
  | removeMembership groupId username =>
    cases again
    exact self.removeMembership_again groupId username
  | attachPolicyToUser username policy =>
    cases again
    exact self.attachPolicyToUser_again username policy
  | detachPolicyFromUser username policy =>
    cases again
    exact self.detachPolicyFromUser_again username policy
  | attachPolicyToGroup groupId policy =>
    cases again
    exact self.attachPolicyToGroup_again groupId policy
  | detachPolicyFromGroup groupId policy =>
    cases again
    exact self.detachPolicyFromGroup_again groupId policy
  | deleteCredential username accessKeyId =>
    cases again
    exact self.deleteCredential_again username accessKeyId
  | createExternalPrincipal username principalId =>
    cases again
    exact self.createExternalPrincipal_again username principalId
  | deleteExternalPrincipal username principalId =>
    cases again
    exact self.deleteExternalPrincipal_again username principalId
  | claimTokenId tokenId expiresAt =>
    cases again
    exact self.claimTokenId_again tokenId expiresAt
  | deleteExpiredTokenIds now =>
    cases again
    exact self.deleteExpiredTokenIds_again now
  | _ =>
    cases again
    rfl

end Inner

end LakeFsAuth.Authz.Store.Mem
