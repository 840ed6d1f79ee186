import LakeFsAuth.Authn.Claims
import LakeFsAuth.AuthzClient.Client
import Mathlib.Data.List.Destutter

/-! Turns verified OIDC claims into a lakeFS user through the authorization API. -/
namespace LakeFsAuth.Authn
open Std Core.Error Core.Text Core.Validate Authz.Api AuthzClient

inductive ProvisionError where
  | MissingSubject
  | NoUsernameClaim (names : String)
  | InvalidUsername (username reason : String)
  | UsernameCollision
  | UnknownIdentity
  | Authz (error : ClientError)
  deriving DecidableEq

structure ProvisionSettings where
  /-- Claims tried in order when deriving the username. -/
  usernameClaims : List String
  friendlyNameClaim : String
  persistFriendlyName : Bool
  initialGroups : List String
  groupsClaim : Option String
  groupMap : ExtTreeMap String String
  groupMapStrict : Bool
  source : String
  autoProvision : Bool

/-- True when the provider says the email is not verified. A missing claim is trusted. -/
def emailIsUnverified (claims : Claims) : Bool :=
  ((claims.lookup "email_verified").bind flattenValue).any
    fun value => eqIgnoreAsciiCase value "false"

/-- The rules of the authorization API, plus no whitespace. -/
def validateUsername (username : String) : Except ProvisionError Unit :=
  match validateEntityId "user" username with
  | .error error => .error (.InvalidUsername username error.publicMessage)
  | .ok () =>
      if username.toList.any isWhitespace then
        .error (.InvalidUsername username "it contains whitespace")
      else .ok ()

/-- The `email` claim, unless the provider marks it unverified. -/
def verifiedEmail (claims : Claims) : Option String :=
  if emailIsUnverified claims then none else claimText claims "email"

namespace ProvisionSettings
variable (settings : ProvisionSettings)

/-- First non-empty configured claim, rejected when it cannot be a lakeFS
username. An unverified `email` claim is skipped. -/
def deriveUsername (claims : Claims) : Except ProvisionError String :=
  let emailUnverified := emailIsUnverified claims
  let candidates := settings.usernameClaims.filter fun name =>
    !(emailUnverified && name == "email")
  match firstClaim claims candidates with
  | none => .error (.NoUsernameClaim (", ".intercalate settings.usernameClaims))
  | some (_, value) => do
      let username := trim value
      validateUsername username
      return username

/-- The group a name stands for: what the map says, or the name itself unless
the mapping is strict. -/
def mapGroup (group : String) : Option String :=
  match settings.groupMap[group]? with
  | some mapped => some mapped
  | none => if settings.groupMapStrict then none else some group

/-- Groups the user joins on creation. -/
def resolveGroups (claims : Claims) : List String :=
  match (settings.groupsClaim.bind fun name => claims.lookup name).bind GroupsClaim.deserialize with
  | none => settings.initialGroups
  | some parsed =>
      let groups := ((parsed.values.filterMap settings.mapGroup).mergeSort (· ≤ ·)).destutter
        (· ≠ ·)
      if groups = [] then
        if settings.groupMapStrict then groups else settings.initialGroups
      else groups

/-- What the claims of a new identity ask for. -/
def spec (claims : Claims) (subject username : String) : EnsureUserSpec where
  externalId := subject
  username := username
  email := verifiedEmail claims
  friendlyName := (claimText claims settings.friendlyNameClaim).filter
    fun _ => settings.persistFriendlyName
  source := settings.source
  groups := settings.resolveGroups claims

variable (maxRetries : Nat)

/-- Keeps the stored friendly name up to date. A failure is only logged. -/
def refreshFriendlyName (claims : Claims) (user : Core.Model.User) : Action Unit :=
  match claimText claims settings.friendlyNameClaim with
  | none => return ()
  | some name =>
      if settings.persistFriendlyName ∧ user.friendlyName ≠ some name then do
        let _ ← updateFriendlyName maxRetries user.username name
        return ()
      else return ()

/-- The create of an identity that was not found. It runs to its end even when
the request that started it is dropped. -/
def provision (claims : Claims) (subject : String) :
    Action (Except ProvisionError EnsuredUser) :=
  if settings.autoProvision then
    match settings.deriveUsername claims with
    | .error error => return .error error
    | .ok username => do
        match ← createUserWithGroups maxRetries (settings.spec claims subject username) with
        | .ok ensured => return .ok ensured
        | .error .AlreadyExists => return .error .UsernameCollision
        | .error other => return .error (.Authz other)
  else return .error .UnknownIdentity

/-- Finds or creates the lakeFS user behind these claims. -/
def ensureUser (claims : Claims) : Action (Except ProvisionError EnsuredUser) :=
  match claimText claims "sub" with
  | none => return .error .MissingSubject
  | some subject => do
      match ← findUserByExternalId maxRetries subject with
      | .error error => return .error (.Authz error)
      | .ok (some user) => do
          settings.refreshFriendlyName maxRetries claims user
          return .ok ⟨user, false⟩
      | .ok none => settings.provision maxRetries claims subject

end ProvisionSettings

end LakeFsAuth.Authn
