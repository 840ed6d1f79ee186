import LakeFsAuth.Authn.Provision

/-! An email the provider marks unverified. Logins that differ in nothing else are the same login. -/
namespace LakeFsAuth.Authn
open Core.Text AuthzClient

/-- The provider sends `email_verified`, and it reads as false. -/
def MarksUnverified (claims : Claims) : Prop :=
  ∃ text, (claims.lookup "email_verified").bind flattenValue = some text ∧
    text.toList.map Char.toLower = "false".toList

/-- The claims agree on everything but the email. -/
def SameButEmail (claims claims' : Claims) : Prop :=
  ∀ name, name ≠ "email" → claims.lookup name = claims'.lookup name

theorem MarksUnverified.unverified {claims : Claims} (marks : MarksUnverified claims) :
    emailIsUnverified claims = true := by
  obtain ⟨text, htext, hfalse⟩ := marks
  have hlower : "false".toList.map Char.toLower = "false".toList := by decide
  simp only [emailIsUnverified, htext, Option.any_some, eqIgnoreAsciiCase, hfalse, hlower, beq_self_eq_true]

namespace SameButEmail
variable {claims claims' : Claims} (same : SameButEmail claims claims')
include same

theorem claimText {name : String} (hname : name ≠ "email") :
    Authn.claimText claims name = Authn.claimText claims' name := by
  rw [Authn.claimText, same name hname, Authn.claimText]

/-- No candidate is the email. -/
theorem firstClaim {names : List String} (hnames : ∀ name ∈ names, name ≠ "email") :
    Authn.firstClaim claims names = Authn.firstClaim claims' names := by
  induction names with
  | nil => rfl
  | cons name names ih =>
    have hfirst := same.claimText (hnames name List.mem_cons_self)
    have hrest := ih fun other hother => hnames other (List.mem_cons_of_mem _ hother)
    simp only [Authn.firstClaim, List.findSome?_cons, hfirst] at hrest ⊢
    rw [hrest]

variable (marks : MarksUnverified claims) (marks' : MarksUnverified claims')
include marks marks'

theorem deriveUsername (settings : ProvisionSettings) :
    settings.deriveUsername claims = settings.deriveUsername claims' := by
  have hcandidates : ∀ name ∈ settings.usernameClaims.filter (fun name => !(true && name == "email")),
      name ≠ "email" := by
    intro name hname
    simpa using (List.mem_filter.mp hname).2
  simp only [ProvisionSettings.deriveUsername, marks.unverified, marks'.unverified,
    same.firstClaim hcandidates]

theorem spec {settings : ProvisionSettings} (hfriendly : settings.friendlyNameClaim ≠ "email")
    (hgroups : settings.resolveGroups claims = settings.resolveGroups claims') (subject username : String) :
    settings.spec claims subject username = settings.spec claims' subject username ∧
      (settings.spec claims subject username).email = none := by
  constructor
  · simp only [ProvisionSettings.spec, verifiedEmail, marks.unverified, marks'.unverified, if_true,
      same.claimText hfriendly, hgroups]
  · simp only [ProvisionSettings.spec, verifiedEmail, marks.unverified, if_true]

end SameButEmail

theorem SameButEmail.resolveGroups {claims claims' : Claims} (same : SameButEmail claims claims')
    {settings : ProvisionSettings} (hclaim : settings.groupsClaim ≠ some "email") :
    settings.resolveGroups claims = settings.resolveGroups claims' := by
  have hread : (settings.groupsClaim.bind fun name => claims.lookup name) =
      settings.groupsClaim.bind fun name => claims'.lookup name := by
    cases hname : settings.groupsClaim with
    | none => rfl
    | some name =>
      have hne : name ≠ "email" := fun h => hclaim (h ▸ hname)
      simpa using same name hne
  simp only [ProvisionSettings.resolveGroups, hread]

/-- An email that is marked unverified has no influence: the derived username, the groups, and
everything `ensure_user` asks of the authorization server are the same, and the create carries no
email. -/
theorem unverified_email_unseen (settings : ProvisionSettings)
    (friendly : settings.friendlyNameClaim ≠ "email") (groups : settings.groupsClaim ≠ some "email")
    {claims claims' : Claims} (same : SameButEmail claims claims') (marks : MarksUnverified claims)
    (marks' : MarksUnverified claims') :
    settings.deriveUsername claims = settings.deriveUsername claims' ∧
    settings.resolveGroups claims = settings.resolveGroups claims' ∧
    (∀ maxRetries, settings.ensureUser maxRetries claims = settings.ensureUser maxRetries claims') ∧
    ∀ subject username, settings.spec claims subject username = settings.spec claims' subject username ∧
      (settings.spec claims subject username).email = none := by
  have husername := same.deriveUsername marks marks' settings
  have hgroups := same.resolveGroups groups
  have hspec := same.spec marks marks' friendly hgroups
  have hsubject : claimText claims "sub" = claimText claims' "sub" := same.claimText (by decide)
  have hfriendly := same.claimText friendly
  refine ⟨husername, hgroups, fun maxRetries => ?_, hspec⟩
  have hprovision (subject : String) : settings.provision maxRetries claims subject =
      settings.provision maxRetries claims' subject := by
    simp only [ProvisionSettings.provision, husername, (hspec subject _).1]
  have hrefresh (user : Core.Model.User) : settings.refreshFriendlyName maxRetries claims user =
      settings.refreshFriendlyName maxRetries claims' user := by
    simp only [ProvisionSettings.refreshFriendlyName, hfriendly]
  simp only [ProvisionSettings.ensureUser, hsubject, hprovision, hrefresh]

/-- The username is the email, where there is one. -/
def emailFirst : ProvisionSettings where
  usernameClaims := ["email", "preferred_username"]
  friendlyNameClaim := "name"
  persistFriendlyName := true
  initialGroups := []
  groupsClaim := some "groups"
  groupMap := ∅
  groupMapStrict := false
  source := "oidc"
  autoProvision := true

/-- What the provider says of a user that has not proved its address. -/
def unproved : Claims := [("email_verified", .bool false), ("preferred_username", .string "eve"),
    ("sub", .string "7")]

theorem unverified_email_unseen_forged :
    emailFirst.ensureUser 3 (("email", .string "ada@corp.test") :: unproved) = emailFirst.ensureUser 3 unproved := by
  have marks (claims : Claims) (h : claims.lookup "email_verified" = some (.bool false)) :
      MarksUnverified claims := ⟨"false", by rw [h]; rfl, by decide⟩
  refine (unverified_email_unseen emailFirst (by decide) (by decide) (fun name hname => ?_)
    (marks _ rfl) (marks _ rfl)).2.2.1 3
  rw [List.lookup_cons, beq_false_of_ne hname]

end LakeFsAuth.Authn
