import LakeFsAuth.Core.Pagination
import LakeFsAuth.Authz.Store.Types

/-! The storage contract. Every handler works against these operations; a store
is an implementation of all of them. -/
namespace LakeFsAuth.Authz.Store
open Core.Pagination

inductive StoreOp where
  | createUser (user : NewUser)
  | getUser (username : String)
  | findUserById (userId : Int)
  | findUserByEmail (email : String)
  | findUserByExternalId (externalId : String)
  | deleteUser (username : String)
  | listUsers (query : PageQuery)
  | setFriendlyName (username friendlyName : String)
  | createGroup (group : NewGroup)
  | getGroup (groupId : String)
  | deleteGroup (groupId : String)
  | listGroups (query : PageQuery)
  | createPolicy (policy : NewPolicy)
  | getPolicy (name : String)
  | updatePolicy (policy : NewPolicy)
  | deletePolicy (name : String)
  | listPolicies (query : PageQuery)
  | addMembership (groupId username : String)
  | removeMembership (groupId username : String)
  | listGroupMembers (groupId : String) (query : PageQuery)
  | listUserGroups (username : String) (query : PageQuery)
  | attachPolicyToUser (username policy : String)
  | detachPolicyFromUser (username policy : String)
  | listUserPolicies (username : String) (query : PageQuery)
  | listEffectiveUserPolicies (username : String) (query : PageQuery)
  | attachPolicyToGroup (groupId policy : String)
  | detachPolicyFromGroup (groupId policy : String)
  | listGroupPolicies (groupId : String) (query : PageQuery)
  | createCredential (credential : NewCredential)
  | getCredential (accessKeyId : String)
  | getUserCredential (username accessKeyId : String)
  | deleteCredential (username accessKeyId : String)
  | listUserCredentials (username : String) (query : PageQuery)
  | createExternalPrincipal (username principalId : String)
  | deleteExternalPrincipal (username principalId : String)
  | getExternalPrincipal (principalId : String)
  | listUserExternalPrincipals (username : String) (query : PageQuery)
  | claimTokenId (tokenId : String) (expiresAt : Timestamp)
  | deleteExpiredTokenIds (now : Timestamp)
  | ping
  | applyBootstrap (plan : BootstrapPlan)
  deriving DecidableEq

/-- What an operation answers with when it succeeds. -/
abbrev StoreOp.Value : StoreOp → Type
  | createUser _ | getUser _ => UserRecord
  | findUserById _ | findUserByEmail _ | findUserByExternalId _ => Option UserRecord
  | listUsers _ | listGroupMembers _ _ => PageOf UserRecord
  | createGroup _ | getGroup _ => GroupRecord
  | listGroups _ | listUserGroups _ _ => PageOf GroupRecord
  | createPolicy _ | getPolicy _ | updatePolicy _ => PolicyRecord
  | listPolicies _ | listUserPolicies _ _ | listEffectiveUserPolicies _ _
  | listGroupPolicies _ _ => PageOf PolicyRecord
  | createCredential _ | getCredential _ | getUserCredential _ _ => CredentialRecord
  | listUserCredentials _ _ => PageOf CredentialRecord
  | getExternalPrincipal _ => ExternalPrincipalRecord
  | listUserExternalPrincipals _ _ => PageOf ExternalPrincipalRecord
  | deleteExpiredTokenIds _ => Nat
  | applyBootstrap _ => BootstrapReport
  | deleteUser _ | setFriendlyName _ _ | deleteGroup _ | deletePolicy _
  | addMembership _ _ | removeMembership _ _
  | attachPolicyToUser _ _ | detachPolicyFromUser _ _
  | attachPolicyToGroup _ _ | detachPolicyFromGroup _ _
  | deleteCredential _ _ | createExternalPrincipal _ _ | deleteExternalPrincipal _ _
  | claimTokenId _ _ | ping => Unit

abbrev StoreOp.Reply (op : StoreOp) : Type := StoreResult op.Value

/-- A store over states `σ`: each operation is one atomic step. -/
structure StoreImpl (σ : Type) where
  exec : (op : StoreOp) → σ → op.Reply × σ

end LakeFsAuth.Authz.Store
