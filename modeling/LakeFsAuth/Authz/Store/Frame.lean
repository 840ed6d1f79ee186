import LakeFsAuth.Authz.Store.Mem

/-! What the operations of the in-memory store leave alone, table by table. -/
namespace LakeFsAuth.Authz.Store.Mem

inductive Table where
  | users
  | groups
  | policies
  | groupMembers
  | userPolicies
  | groupPolicies
  | credentials
  | externalPrincipals
  | claimedTokenIds
  deriving DecidableEq

/-- A table has the same rows in both stores. The users come with their counter. -/
def Table.Same (s s' : Inner) : Table → Prop
  | users => s'.users = s.users ∧ s'.nextUserId = s.nextUserId
  | groups => s'.groups = s.groups
  | policies => s'.policies = s.policies
  | groupMembers => s'.groupMembers = s.groupMembers
  | userPolicies => s'.userPolicies = s.userPolicies
  | groupPolicies => s'.groupPolicies = s.groupPolicies
  | credentials => s'.credentials = s.credentials
  | externalPrincipals => s'.externalPrincipals = s.externalPrincipals
  | claimedTokenIds => s'.claimedTokenIds = s.claimedTokenIds

theorem Table.Same.refl (s : Inner) (table : Table) : table.Same s s := by
  cases table <;> simp [Table.Same]

theorem Table.Same.trans {s mid s' : Inner} {table : Table} (h : table.Same s mid)
    (h' : table.Same mid s') : table.Same s s' := by
  cases table with
  | users => exact ⟨h'.1.trans h.1, h'.2.trans h.2⟩
  | _ => exact Eq.trans h' h

/-- The tables an operation may write. A bootstrap run may write all a plan names. -/
def writes : StoreOp → List Table
  | .createUser _ | .setFriendlyName _ _ => [.users]
  | .deleteUser _ => [.users, .groupMembers, .userPolicies, .credentials, .externalPrincipals]
  | .createGroup _ => [.groups]
  | .deleteGroup _ => [.groups, .groupMembers, .groupPolicies]
  | .createPolicy _ | .updatePolicy _ => [.policies]
  | .deletePolicy _ => [.policies, .userPolicies, .groupPolicies]
  | .addMembership _ _ | .removeMembership _ _ => [.groupMembers]
  | .attachPolicyToUser _ _ | .detachPolicyFromUser _ _ => [.userPolicies]
  | .attachPolicyToGroup _ _ | .detachPolicyFromGroup _ _ => [.groupPolicies]
  | .createCredential _ | .deleteCredential _ _ => [.credentials]
  | .createExternalPrincipal _ _ | .deleteExternalPrincipal _ _ => [.externalPrincipals]
  | .claimTokenId _ _ | .deleteExpiredTokenIds _ => [.claimedTokenIds]
  | .applyBootstrap _ => [.users, .groups, .policies, .groupMembers, .userPolicies,
      .groupPolicies, .credentials, .externalPrincipals, .claimedTokenIds]
  | _ => []

namespace Inner
variable (self : Inner)

/-- The other tables stay as they are. -/
theorem exec_same {op : StoreOp} {table : Table} (h : table ∉ writes op) :
    table.Same self (exec op self).2 := by
  cases op with
  | applyBootstrap plan => cases table <;> simp [writes] at h
  | createUser user =>
    change table.Same self (self.insertUser user).2
    unfold insertUser
    split
    · exact .refl self table
    · split
      · exact .refl self table
      · split
        · exact .refl self table
        · cases table <;> simp [writes, Table.Same] at h ⊢
  | setFriendlyName username name =>
    change table.Same self (self.setFriendlyName username name).2
    unfold setFriendlyName
    split <;> cases table <;> simp [writes, Table.Same] at h ⊢
  | deleteUser username =>
    change table.Same self (self.deleteUser username).2
    unfold deleteUser cascadeDeleteUser
    split <;> cases table <;> simp [writes, Table.Same] at h ⊢
  | createGroup group =>
    change table.Same self (self.insertGroup group).2
    unfold insertGroup
    split <;> cases table <;> simp [writes, Table.Same] at h ⊢
  | deleteGroup groupId =>
    change table.Same self (self.deleteGroup groupId).2
    unfold deleteGroup cascadeDeleteGroup
    split <;> cases table <;> simp [writes, Table.Same] at h ⊢
  | createPolicy policy =>
    change table.Same self (self.insertPolicy policy).2
    unfold insertPolicy
    split <;> cases table <;> simp [writes, Table.Same] at h ⊢
  | updatePolicy policy =>
    change table.Same self (self.updatePolicy policy).2
    unfold updatePolicy
    split <;> cases table <;> simp [writes, Table.Same] at h ⊢
  | deletePolicy name =>
    change table.Same self (self.deletePolicy name).2
    unfold deletePolicy cascadeDeletePolicy
    split <;> cases table <;> simp [writes, Table.Same] at h ⊢
  | addMembership groupId username =>
    change table.Same self (self.addMembership groupId username).2
    unfold addMembership
    split <;> cases table <;> simp [writes, Table.Same] at h ⊢
  | removeMembership groupId username =>
    change table.Same self (self.removeMembership groupId username).2
    unfold removeMembership
    split <;> cases table <;> simp [writes, Table.Same] at h ⊢
  | attachPolicyToUser username policy =>
    change table.Same self (self.attachPolicyToUser username policy).2
    unfold attachPolicyToUser
    split <;> cases table <;> simp [writes, Table.Same] at h ⊢
  | detachPolicyFromUser username policy =>
    change table.Same self (self.detachPolicyFromUser username policy).2
    unfold detachPolicyFromUser
    split <;> cases table <;> simp [writes, Table.Same] at h ⊢
  | attachPolicyToGroup groupId policy =>
    change table.Same self (self.attachPolicyToGroup groupId policy).2
    unfold attachPolicyToGroup
    split <;> cases table <;> simp [writes, Table.Same] at h ⊢
  | detachPolicyFromGroup groupId policy =>
    change table.Same self (self.detachPolicyFromGroup groupId policy).2
    unfold detachPolicyFromGroup
    split <;> cases table <;> simp [writes, Table.Same] at h ⊢
  | createCredential credential =>
    change table.Same self (self.insertCredential credential).2
    unfold insertCredential
    split
    · exact .refl self table
    · split <;> cases table <;> simp [writes, Table.Same] at h ⊢
  | deleteCredential username key =>
    change table.Same self (self.deleteCredential username key).2
    unfold deleteCredential
    split <;> cases table <;> simp [writes, Table.Same] at h ⊢
  | createExternalPrincipal username principalId =>
    change table.Same self (self.createExternalPrincipal username principalId).2
    unfold createExternalPrincipal
    split
    · exact .refl self table
    · split <;> cases table <;> simp [writes, Table.Same] at h ⊢
  | deleteExternalPrincipal username principalId =>
    change table.Same self (self.deleteExternalPrincipal username principalId).2
    unfold deleteExternalPrincipal
    split <;> cases table <;> simp [writes, Table.Same] at h ⊢
  | claimTokenId tokenId expiresAt =>
    change table.Same self (self.claimTokenId tokenId expiresAt).2
    unfold claimTokenId
    split <;> cases table <;> simp [writes, Table.Same] at h ⊢
  | deleteExpiredTokenIds now =>
    change table.Same self (self.deleteExpiredTokenIds now).2
    unfold deleteExpiredTokenIds
    cases table <;> simp [writes, Table.Same] at h ⊢
  | getUser _ | findUserById _ | findUserByEmail _ | findUserByExternalId _ | listUsers _
  | getGroup _ | listGroups _ | getPolicy _ | listPolicies _ | listGroupMembers _ _
  | listUserGroups _ _ | listUserPolicies _ _ | listEffectiveUserPolicies _ _
  | listGroupPolicies _ _ | getCredential _ | getUserCredential _ _
  | listUserCredentials _ _ | getExternalPrincipal _ | listUserExternalPrincipals _ _
  | ping => exact .refl self table

end Inner

end LakeFsAuth.Authz.Store.Mem
