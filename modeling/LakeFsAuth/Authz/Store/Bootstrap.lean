import LakeFsAuth.Authz.Store.Types
import LakeFsAuth.Library.Fallible

/-! The bootstrap loop, written once for every store. -/
namespace LakeFsAuth.Authz.Store

/-- A fallible step of a store. The state survives a failure, as it does behind
a `&mut` reference. -/
abbrev StoreM (σ α : Type) := Library.Fallible.Step StoreError σ α

/-- The inserts of a bootstrap run. Each one creates the row when it is missing
and reports whether it did; none of them updates. -/
class BootstrapWriter (W : Type) where
  insertPolicyIfMissing : NewPolicy → StoreM W Bool
  insertGroupIfMissing : NewGroup → StoreM W Bool
  /-- The stored row when the username was already taken. -/
  insertUserIfMissing : NewUser → StoreM W (Option UserRecord)
  insertMembershipIfMissing : String → String → StoreM W Bool
  insertUserPolicyIfMissing : String → String → StoreM W Bool
  insertGroupPolicyIfMissing : String → String → StoreM W Bool
  /-- The stored row when the access key already existed. -/
  insertCredentialIfMissing : NewCredential → StoreM W (Option CredentialRecord)

/-- One row more in one of two counters. -/
def tally (created skipped : UInt32) (wasCreated : Bool) : UInt32 × UInt32 :=
  if wasCreated then (created + 1, skipped) else (created, skipped + 1)

/-- The categories of a report. Both kinds of attachment share one counter. -/
inductive Category where
  | policies
  | groups
  | users
  | memberships
  | attachments
  | credentials
  deriving DecidableEq

namespace BootstrapCounts

def get (counts : BootstrapCounts) : Category → UInt32
  | .policies => counts.policies
  | .groups => counts.groups
  | .users => counts.users
  | .memberships => counts.memberships
  | .attachments => counts.attachments
  | .credentials => counts.credentials

def set (counts : BootstrapCounts) (n : UInt32) : Category → BootstrapCounts
  | .policies => { counts with policies := n }
  | .groups => { counts with groups := n }
  | .users => { counts with users := n }
  | .memberships => { counts with memberships := n }
  | .attachments => { counts with attachments := n }
  | .credentials => { counts with credentials := n }

@[simp] theorem get_zero (category : Category) : zero.get category = 0 := by
  cases category <;> rfl

@[simp] theorem get_set (counts : BootstrapCounts) (n : UInt32) (category other : Category) :
    (counts.set n category).get other = if other = category then n else counts.get other := by
  cases category <;> cases other <;> rfl

@[simp] theorem set_get (counts : BootstrapCounts) (category : Category) :
    counts.set (counts.get category) category = counts := by
  cases category <;> rfl

end BootstrapCounts

/-- How many entries of a category a plan has. -/
def BootstrapPlan.entries (plan : BootstrapPlan) : Category → Nat
  | .policies => plan.policies.length
  | .groups => plan.groups.length
  | .users => plan.users.length
  | .memberships => plan.memberships.length
  | .attachments => plan.userPolicies.length + plan.groupPolicies.length
  | .credentials => plan.credentials.length

def BootstrapPlan.size (plan : BootstrapPlan) : Nat :=
  plan.policies.length + plan.groups.length + plan.users.length + plan.memberships.length +
    plan.userPolicies.length + plan.groupPolicies.length + plan.credentials.length

theorem BootstrapPlan.entries_le_size (plan : BootstrapPlan) (category : Category) :
    plan.entries category ≤ plan.size := by
  cases category <;> simp only [entries, size] <;> omega

def BootstrapReport.count (report : BootstrapReport) (category : Category)
    (wasCreated : Bool) : BootstrapReport :=
  let (created, skipped) :=
    tally (report.created.get category) (report.skipped.get category) wasCreated
  ⟨report.created.set created category, report.skipped.set skipped category⟩

/-- One loop of a plan: insert every entry and count what was created. -/
def applyEach {α W : Type} (category : Category) (insert : α → StoreM W Bool) (entries : List α)
    (report : BootstrapReport) : StoreM W BootstrapReport :=
  entries.foldlM (fun report entry => do
    let done ← insert entry
    return report.count category done) report

section Plan
variable {W : Type} [BootstrapWriter W]
open BootstrapWriter

/-- An existing user must be the identity the entry describes. -/
def applyUser (user : NewUser) : StoreM W Bool := do
  match ← insertUserIfMissing user with
  | none => return true
  | some existing =>
      if user.sameIdentityAs existing then return false
      else throw (.wrongIdentity "user" user.username)

/-- Existing credentials must belong to the entry's user. -/
def applyCredential (credential : NewCredential) : StoreM W Bool := do
  match ← insertCredentialIfMissing credential with
  | none => return true
  | some existing =>
      if existing.username = credential.username then return false
      else throw (.wrongIdentity "credentials" credential.accessKeyId)

/-- Applies a plan through the writer, creating only missing rows. -/
def applyPlan (plan : BootstrapPlan) : StoreM W BootstrapReport := do
  let report ← applyEach .policies insertPolicyIfMissing plan.policies .zero
  let report ← applyEach .groups insertGroupIfMissing plan.groups report
  let report ← applyEach .users applyUser plan.users report
  let report ← applyEach .memberships
    (fun (groupId, username) => insertMembershipIfMissing groupId username)
    plan.memberships report
  let report ← applyEach .attachments
    (fun (username, policy) => insertUserPolicyIfMissing username policy)
    plan.userPolicies report
  let report ← applyEach .attachments
    (fun (groupId, policy) => insertGroupPolicyIfMissing groupId policy)
    plan.groupPolicies report
  applyEach .credentials applyCredential plan.credentials report

end Plan

end LakeFsAuth.Authz.Store
