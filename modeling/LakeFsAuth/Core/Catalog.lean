import LakeFsAuth.Core.Validate

/-! The lakeFS action catalog: every action, and the resource each one is checked against. -/
namespace LakeFsAuth.Core.Catalog
open Validate

/-- The resource an action is checked against. -/
inductive ResourceKind where
  | all
  | repository
  | object
  | branch
  | tag
  | storageNamespace
  | user
  | group
  | policy
  | externalPrincipal
  | catalogNamespace
  | catalogTable
  | catalogView
  deriving DecidableEq

/-- The id, the ARN template, and the names of the fields of the template in its order. -/
structure KindSpec where
  id : String
  template : String
  fields : List String

namespace ResourceKind

def spec : ResourceKind → KindSpec
  | all => ⟨"all", "*", []⟩
  | repository => ⟨"repository", "arn:lakefs:fs:::repository/\x7brepository\x7d", ["repository"]⟩
  | object =>
      ⟨"object", "arn:lakefs:fs:::repository/\x7brepository\x7d/object/\x7bpath\x7d",
        ["repository", "path"]⟩
  | branch =>
      ⟨"branch", "arn:lakefs:fs:::repository/\x7brepository\x7d/branch/\x7bbranch\x7d",
        ["repository", "branch"]⟩
  | tag =>
      ⟨"tag", "arn:lakefs:fs:::repository/\x7brepository\x7d/tag/\x7btag\x7d",
        ["repository", "tag"]⟩
  | storageNamespace =>
      ⟨"namespace", "arn:lakefs:fs:::namespace/\x7bnamespace\x7d", ["namespace"]⟩
  | user => ⟨"user", "arn:lakefs:auth:::user/\x7buser\x7d", ["user"]⟩
  | group => ⟨"group", "arn:lakefs:auth:::group/\x7bgroup\x7d", ["group"]⟩
  | policy => ⟨"policy", "arn:lakefs:auth:::policy/\x7bpolicy\x7d", ["policy"]⟩
  | externalPrincipal =>
      ⟨"external_principal", "arn:lakefs:auth:::externalPrincipal/\x7bprincipal\x7d",
        ["principal"]⟩
  | catalogNamespace =>
      ⟨"catalog_namespace", "arn:lakefs:catalog:::namespace/\x7brepository\x7d/\x7bnamespace\x7d",
        ["repository", "namespace"]⟩
  | catalogTable =>
      ⟨"catalog_table", "arn:lakefs:catalog:::table/\x7brepository\x7d/\x7bnamespace\x7d/\x7btable\x7d",
        ["repository", "namespace", "table"]⟩
  | catalogView =>
      ⟨"catalog_view", "arn:lakefs:catalog:::view/\x7brepository\x7d/\x7bnamespace\x7d/\x7bview\x7d",
        ["repository", "namespace", "view"]⟩

def template (kind : ResourceKind) : String := kind.spec.template

def fields (kind : ResourceKind) : List String := kind.spec.fields

end ResourceKind

/-- One action and the kinds it is checked against, from the most specific to the least. -/
structure ActionSpec where
  name : String
  resources : List ResourceKind

/-- Every action lakeFS defines. -/
def actions : List ActionSpec :=
  [⟨"fs:ReadRepository", [.repository]⟩, ⟨"fs:CreateRepository", [.repository]⟩,
    ⟨"fs:UpdateRepository", [.repository]⟩, ⟨"fs:AttachStorageNamespace", [.storageNamespace]⟩,
    ⟨"fs:ImportFromStorage", [.storageNamespace]⟩, ⟨"fs:ImportCancel", [.branch]⟩,
    ⟨"fs:DeleteRepository", [.repository]⟩, ⟨"fs:ListRepositories", [.all]⟩,
    ⟨"fs:ReadObject", [.object]⟩, ⟨"fs:WriteObject", [.object, .branch]⟩,
    ⟨"fs:DeleteObject", [.object]⟩, ⟨"fs:ListObjects", [.repository]⟩,
    ⟨"fs:CreateCommit", [.branch, .repository]⟩, ⟨"fs:ReadCommit", [.repository]⟩,
    ⟨"fs:ListCommits", [.repository]⟩, ⟨"fs:CreateBranch", [.branch, .repository]⟩,
    ⟨"fs:DeleteBranch", [.branch]⟩, ⟨"fs:ReadBranch", [.branch]⟩, ⟨"fs:RevertBranch", [.branch]⟩,
    ⟨"fs:ListBranches", [.repository]⟩, ⟨"fs:CreateTag", [.tag, .repository]⟩,
    ⟨"fs:DeleteTag", [.tag]⟩, ⟨"fs:ReadTag", [.tag]⟩, ⟨"fs:ListTags", [.repository]⟩,
    ⟨"fs:ReadConfig", [.all]⟩, ⟨"auth:ReadUser", [.user]⟩, ⟨"auth:CreateUser", [.user]⟩,
    ⟨"auth:DeleteUser", [.user]⟩, ⟨"auth:ListUsers", [.all]⟩, ⟨"auth:ReadGroup", [.group]⟩,
    ⟨"auth:CreateGroup", [.group]⟩, ⟨"auth:DeleteGroup", [.group]⟩, ⟨"auth:ListGroups", [.all]⟩,
    ⟨"auth:AddGroupMember", [.group]⟩, ⟨"auth:RemoveGroupMember", [.group]⟩,
    ⟨"auth:ReadPolicy", [.policy]⟩, ⟨"auth:CreatePolicy", [.policy]⟩,
    ⟨"auth:UpdatePolicy", [.policy]⟩, ⟨"auth:DeletePolicy", [.policy]⟩,
    ⟨"auth:ListPolicies", [.all]⟩, ⟨"auth:AttachPolicy", [.user, .group, .policy]⟩,
    ⟨"auth:DetachPolicy", [.user, .group, .policy]⟩, ⟨"auth:ReadCredentials", [.user]⟩,
    ⟨"auth:CreateCredentials", [.user]⟩, ⟨"auth:DeleteCredentials", [.user]⟩,
    ⟨"auth:ListCredentials", [.user]⟩, ⟨"auth:CreateUserExternalPrincipal", [.user]⟩,
    ⟨"auth:DeleteUserExternalPrincipal", [.user]⟩,
    ⟨"auth:ReadExternalPrincipal", [.externalPrincipal]⟩, ⟨"ci:ReadAction", [.repository]⟩,
    ⟨"retention:PrepareGarbageCollectionCommits", [.repository]⟩,
    ⟨"retention:GetGarbageCollectionRules", [.repository]⟩,
    ⟨"retention:SetGarbageCollectionRules", [.repository]⟩,
    ⟨"retention:PrepareGarbageCollectionUncommitted", [.repository]⟩,
    ⟨"branches:GetBranchProtectionRules", [.repository]⟩,
    ⟨"branches:SetBranchProtectionRules", [.repository]⟩, ⟨"pr:ReadPullRequest", [.repository]⟩,
    ⟨"pr:WritePullRequest", [.repository]⟩, ⟨"pr:ListPullRequests", [.repository]⟩,
    ⟨"catalog:ListNamespaces", [.catalogNamespace]⟩,
    ⟨"catalog:GetNamespace", [.catalogNamespace]⟩,
    ⟨"catalog:CreateNamespace", [.catalogNamespace]⟩,
    ⟨"catalog:UpdateNamespace", [.catalogNamespace]⟩,
    ⟨"catalog:DeleteNamespace", [.catalogNamespace]⟩, ⟨"catalog:ListTables", [.catalogTable]⟩,
    ⟨"catalog:ReadTable", [.catalogTable]⟩, ⟨"catalog:CreateTable", [.catalogTable]⟩,
    ⟨"catalog:UpdateTable", [.catalogTable]⟩, ⟨"catalog:DeleteTable", [.catalogTable]⟩,
    ⟨"catalog:ListViews", [.catalogView]⟩, ⟨"catalog:ReadView", [.catalogView]⟩,
    ⟨"catalog:CreateView", [.catalogView]⟩, ⟨"catalog:UpdateView", [.catalogView]⟩,
    ⟨"catalog:DeleteView", [.catalogView]⟩]

theorem actions_valid : ∀ action ∈ actions, validateAction action.name = .ok () := by
  decide +kernel

end LakeFsAuth.Core.Catalog
