import LakeFsAuth.Authz.Store.Trace
import LakeFsAuth.Authz.Store.BootstrapRun
import LakeFsAuth.Authn.Isolation
import LakeFsAuth.AuthzClient.Rollback
import LakeFsAuth.AuthzClient.AllOrNothing
import LakeFsAuth.Authz.Store.Agreement
import LakeFsAuth.Authz.PolicyUpdates
import LakeFsAuth.Authz.TokenIds
import LakeFsAuth.Authz.Identities
import LakeFsAuth.Authz.UserText
import LakeFsAuth.Authz.Credentials
import LakeFsAuth.AuthzClient.FirstLogins
import LakeFsAuth.Authn.KeyRefresh
import LakeFsAuth.Authn.LoginRuns
import LakeFsAuth.Authn.GobGrammar
import LakeFsAuth.Authn.GobIntegers
import LakeFsAuth.Authn.Groups
import LakeFsAuth.Authn.UnverifiedEmail
import LakeFsAuth.Authz.BootstrapRows
import LakeFsAuth.Authz.Creates
import LakeFsAuth.AuthzClient.UnknownGroups
import LakeFsAuth.AuthzClient.Retries
import LakeFsAuth.AuthzClient.GroupPages
import LakeFsAuth.AuthzClient.Urls
import LakeFsAuth.Authn.Sts
import LakeFsAuth.Authn.AllowedHosts
import LakeFsAuth.Authn.KeyValues
import LakeFsAuth.Authz.PolicyBuilder
import LakeFsAuth.Authz.PolicyArns
import LakeFsAuth.Authn.CookieSize
import LakeFsAuth.Authz.PolicyCreates
import LakeFsAuth.Core.Wire
import LakeFsAuth.Library.Form
import LakeFsAuth.Core.Token
import LakeFsAuth.Library.Commit
import LakeFsAuth.Library.Twins
import LakeFsAuth.Authz.Store.Again
import LakeFsAuth.Authz.Store.Hidden
import LakeFsAuth.Authz.Http
import LakeFsAuth.Authz.HttpCases
import LakeFsAuth.Authz.HttpGuard
import LakeFsAuth.Authz.HttpEffects
import LakeFsAuth.Authz.HttpRepeats
import LakeFsAuth.Authz.HttpSecrets
import LakeFsAuth.AuthzClient.Queries
import LakeFsAuth.AuthzClient.OverHttp
import LakeFsAuth.Library.Join
import LakeFsAuth.Authz.Builder
import LakeFsAuth.Authz.BuilderCalls
import LakeFsAuth.Authz.BuilderReads
import LakeFsAuth.Authn.StsLogin
import LakeFsAuth.Authn.StsRuns
import LakeFsAuth.Authn.Discovery
import LakeFsAuth.Authn.Logout
import LakeFsAuth.Core.Metrics
