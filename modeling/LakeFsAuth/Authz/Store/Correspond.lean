import LakeFsAuth.Authz.Store.Listing
import LakeFsAuth.Authz.Store.Pg
import LakeFsAuth.Library.Keyed

/-! When two answers are the same, and when a database holds what the in-memory store
holds. The ids of users differ by a renaming, and a date loses what its column does not
keep. -/
namespace LakeFsAuth.Authz.Store
open Core.Pagination

/-- The outcomes a caller can tell apart. -/
inductive OutcomeClass where
  | NotFound
  | AlreadyExists
  | WrongIdentity
  | Backend
  deriving DecidableEq

def StoreError.outcomeClass : StoreError → OutcomeClass
  | NotFound _ _ => .NotFound
  | AlreadyExists _ _ => .AlreadyExists
  | WrongIdentity _ _ => .WrongIdentity
  | Backend _ => .Backend

/-- Less than a second apart. -/
def Near (time other : Timestamp) : Prop :=
  -1000000000 < time.nanos - other.nanos ∧ time.nanos - other.nanos < 1000000000

instance (time other : Timestamp) : Decidable (Near time other) :=
  inferInstanceAs (Decidable (_ ∧ _))

section Same
variable (ρ : Int → Int)

def SameUser (row other : UserRecord) : Prop :=
  Near row.creationDate other.creationDate ∧
    other = { row with userId := ρ row.userId, creationDate := other.creationDate }

def SameGroup (row other : GroupRecord) : Prop :=
  Near row.creationDate other.creationDate ∧
    other = { row with creationDate := other.creationDate }

def SamePolicy (row other : PolicyRecord) : Prop :=
  Near row.creationDate other.creationDate ∧
    other = { row with creationDate := other.creationDate }

def SameCredential (row other : CredentialRecord) : Prop :=
  Near row.creationDate other.creationDate ∧
    other = { row with userId := ρ row.userId, creationDate := other.creationDate }

/-- The same rows in the same order, and the same cursor. -/
def SamePage (same : α → β → Prop) (page : PageOf α) (other : PageOf β) : Prop :=
  List.Forall₂ same page.items other.items ∧ page.nextOffset = other.nextOffset

/-- The same rows up to the renaming of user ids and the sub-second part of a date. -/
def SameValue : (op : StoreOp) → op.Value → op.Value → Prop
  | .createUser _ | .getUser _ => SameUser ρ
  | .findUserById _ | .findUserByEmail _ | .findUserByExternalId _ => Option.Rel (SameUser ρ)
  | .listUsers _ | .listGroupMembers _ _ => SamePage (SameUser ρ)
  | .createGroup _ | .getGroup _ => SameGroup
  | .listGroups _ | .listUserGroups _ _ => SamePage SameGroup
  | .createPolicy _ | .getPolicy _ | .updatePolicy _ => SamePolicy
  | .listPolicies _ | .listUserPolicies _ _ | .listEffectiveUserPolicies _ _
  | .listGroupPolicies _ _ => SamePage SamePolicy
  | .createCredential _ | .getCredential _ | .getUserCredential _ _ => SameCredential ρ
  | .listUserCredentials _ _ => SamePage (SameCredential ρ)
  | .getExternalPrincipal _ => Eq
  | .listUserExternalPrincipals _ _ => SamePage Eq
  | .deleteExpiredTokenIds _ => Eq
  | .applyBootstrap _ => Eq
  | .deleteUser _ | .setFriendlyName _ _ | .deleteGroup _ | .deletePolicy _
  | .addMembership _ _ | .removeMembership _ _
  | .attachPolicyToUser _ _ | .detachPolicyFromUser _ _
  | .attachPolicyToGroup _ _ | .detachPolicyFromGroup _ _
  | .deleteCredential _ _ | .createExternalPrincipal _ _ | .deleteExternalPrincipal _ _
  | .claimTokenId _ _ | .ping => Eq

/-- The same outcome class, and on success the same value. -/
abbrev SameAnswer (same : α → β → Prop) : StoreResult α → StoreResult β → Prop :=
  Library.Fallible.Matches (fun error other => error.outcomeClass = other.outcomeClass) same

def SameReply (op : StoreOp) (reply other : op.Reply) : Prop :=
  SameAnswer (SameValue ρ op) reply other

/-- An operation whose user id is renamed for the store that runs it. -/
def StoreImpl.execRenamed (store : StoreImpl σ) : (op : StoreOp) → σ → op.Reply × σ
  | .findUserById userId, state => store.exec (.findUserById (ρ userId)) state
  | op, state => store.exec op state

end Same

namespace Mem
open Library.Relational Pg

/-- Two renamings agree on the ids issued so far. -/
def AgreeUpTo (issued : Int) (ρ ρ' : Int → Int) : Prop :=
  ∀ userId, 1 ≤ userId → userId ≤ issued → ρ' userId = ρ userId

theorem AgreeUpTo.refl (issued : Int) (ρ : Int → Int) : AgreeUpTo issued ρ ρ :=
  fun _ _ _ => rfl

theorem AgreeUpTo.trans {issued later : Int} {ρ ρ' ρ'' : Int → Int}
    (h : AgreeUpTo issued ρ ρ') (h' : AgreeUpTo later ρ' ρ'') (hle : issued ≤ later) :
    AgreeUpTo issued ρ ρ'' := by
  intro userId hpos hissued
  rw [h' userId hpos (by omega), h userId hpos hissued]

section Image
variable (ρ : Int → Int) [JiffSqlx]

/-! The row a record is stored as. -/

def userImage (row : UserRecord) : UserRecord :=
  { row with userId := ρ row.userId, creationDate := JiffSqlx.toSqlx row.creationDate }

def groupImage (row : GroupRecord) : GroupRecord :=
  { row with creationDate := JiffSqlx.toSqlx row.creationDate }

def policyImage (row : PolicyRecord) : PolicyRecord :=
  { row with creationDate := JiffSqlx.toSqlx row.creationDate }

def credentialImage (row : CredentialRecord) : CredentialRow :=
  ⟨row.accessKeyId, row.username, row.secretCiphertext, JiffSqlx.toSqlx row.creationDate⟩

/-- The row with its user joined in. -/
def credentialView (row : CredentialRecord) : CredentialRecord :=
  { row with userId := ρ row.userId, creationDate := JiffSqlx.toSqlx row.creationDate }

/-- The database holds what the store holds, under the renaming. -/
structure Sim (s : Inner) (db : Database) : Prop where
  ok : WellFormed s
  users : Keeps db.users (·.username) (fun _ => userImage ρ) s.users
  groups : Keeps db.groups (·.id) (fun _ => groupImage) s.groups
  policies : Keeps db.policies (·.name) (fun _ => policyImage) s.policies
  groupMembers : Lists db.groupMembers (· ∈ s.groupMembers)
  userPolicies : Lists db.userPolicies (· ∈ s.userPolicies)
  groupPolicies : Lists db.groupPolicies (· ∈ s.groupPolicies)
  credentials : Keeps db.credentials (·.accessKeyId) (fun _ => credentialImage) s.credentials
  externalPrincipals : Keeps db.externalPrincipals (·.id) (fun _ row => row) s.externalPrincipals
  claimedTokenIds : Keeps db.claimedTokenIds Prod.fst
    (fun tokenId expiresAt => (tokenId, JiffSqlx.toSqlx expiresAt)) s.claimedTokenIds
  issued : ∀ userId, 1 ≤ userId → userId ≤ s.nextUserId →
    1 ≤ ρ userId ∧ ρ userId ≤ db.userIdSeq
  distinct : ∀ userId other, 1 ≤ userId → userId ≤ s.nextUserId →
    1 ≤ other → other ≤ s.nextUserId → ρ userId = ρ other → userId = other
  seqNonneg : 0 ≤ db.userIdSeq

end Image

section Image
variable {ρ : Int → Int} [JiffSqlx]

theorem sim_new : Sim ρ Inner.new Database.new where
  ok := wellFormed_new
  users := .empty _ _
  groups := .empty _ _
  policies := .empty _ _
  groupMembers := Lists.nil.congr (by simp [Inner.new])
  userPolicies := Lists.nil.congr (by simp [Inner.new])
  groupPolicies := Lists.nil.congr (by simp [Inner.new])
  credentials := .empty _ _
  externalPrincipals := .empty _ _
  claimedTokenIds := .empty _ _
  issued := by
    intro userId hpos hle
    simp only [Inner.new] at hle
    omega
  distinct := by
    intro userId other hpos hle
    simp only [Inner.new] at hle
    omega
  seqNonneg := by simp [Database.new]

/-- Only the ids that were issued matter. -/
theorem Sim.of_agree {s : Inner} {db : Database} (sim : Sim ρ s db) {ρ' : Int → Int}
    (agree : AgreeUpTo s.nextUserId ρ ρ') : Sim ρ' s db :=
  { sim with
    users := sim.users.congr fun k row hrow => by
      have huser := agree row.userId (sim.ok.users.idPos k row hrow)
        (sim.ok.users.idIssued k row hrow)
      simp only [userImage, huser]
    issued := fun userId hpos hle => by
      rw [agree userId hpos hle]
      exact sim.issued userId hpos hle
    distinct := fun userId other hpos hle hpos' hle' heq => by
      rw [agree userId hpos hle, agree other hpos' hle'] at heq
      exact sim.distinct userId other hpos hle hpos' hle' heq }

end Image

end Mem

end LakeFsAuth.Authz.Store
