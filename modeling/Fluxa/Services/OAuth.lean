import Fluxa.Services.Auth

/-!
# Services — OAuth

`services/oauth.rs`: signing in with an identity that a provider reports.  A request to the provider is one statement, whose reply the environment supplies.
-/

namespace Fluxa
open Interleave Db

/-- `SUPPORTED_OAUTH_PROVIDERS`. -/
def supportedOAuthProviders : List String := ["google", "github"]

/-- `OAuthIdentity`. -/
structure OAuthIdentity where
  subject : String
  email : String
  emailVerified : Bool
deriving DecidableEq, Repr

/-- Text that is set and not blank. -/
def configured (value : Option String) : Bool := value.any fun v => !isBlank v

/-- `oauth_provider(..).is_some()`: the client id and the secret are configured. -/
def Cli.oauthProvider (c : Cli) (provider : String) : Bool :=
  if provider = "google" then configured c.oauthGoogleClientId && configured c.oauthGoogleClientSecret
  else if provider = "github" then
    configured c.oauthGithubClientId && configured c.oauthGithubClientSecret
  else false

/-- A string that is there and not empty. -/
def nonEmptyStr (v : Value) : Option String := v.asStr?.filter fun s => s ≠ ""

/-- A request to the provider, with the texts of its errors. -/
def fetchJson (requestFailed rejected invalid : String) : Service Value :=
  .atomic .quiet (fun _ => true) fun e s =>
    match e.reply with
    | .failed => (.error (.internal (requestFailed ++ e.detail)), s)
    | .rejected => (.error (.unauthorized rejected), s)
    | .success none => (.error (.internal (invalid ++ e.detail)), s)
    | .success (some body) => (.ok body, s)

/-- The access token is not modelled: it only appears in the requests that follow. -/
def exchangeCode : Service Unit := do
  let payload ← fetchJson "OAuth token request failed: "
    "the OAuth provider rejected the authorization code" "invalid OAuth token response: "
  let _ ← Prog.okOr (nonEmptyStr (payload.get "access_token"))
    (.unauthorized "the OAuth provider did not return an access token")
  return ()

def fetchUserinfoJson : Service Value :=
  fetchJson "OAuth userinfo request failed: " "the OAuth provider rejected the access token"
    "invalid OAuth userinfo response: "

def googleIdentity (payload : Value) : Except AppError OAuthIdentity :=
  match nonEmptyStr (payload.get "sub") with
  | none => .error (.unauthorized "the OAuth provider did not return a subject")
  | some subject =>
    match nonEmptyStr (payload.get "email") with
    | none => .error (.forbidden "the google account does not expose an email address")
    | some email =>
      let emailVerified :=
        match payload.get "email_verified" with
        | .bool b => b
        | .str s => s = "true"
        | _ => false
      .ok ⟨subject, email, emailVerified⟩

/-- The entry has the field, and it is true. -/
def isTrue (entry : Value) (field : String) : Bool := ((entry.get field).asBool?).getD false

/-- The address that `github_identity` picks: a verified one, the primary one first. -/
def githubEmail (emails : Value) : Option String :=
  let entries := emails.asArray?.getD []
  let entry := (entries.find? fun v => isTrue v "primary" && isTrue v "verified").or
    (entries.find? fun v => isTrue v "verified")
  entry.bind fun v => nonEmptyStr (v.get "email")

def githubSubject (payload : Value) : Option String :=
  match payload.get "id" with
  | .num n => some (toString n)
  | .str s => if s = "" then none else some s
  | _ => none

def githubIdentity (payload : Value) : Service OAuthIdentity := do
  let subject ← Prog.okOr (githubSubject payload)
    (.unauthorized "the OAuth provider did not return a subject")
  let emails ← fetchUserinfoJson
  let email ← Prog.okOr (githubEmail emails)
    (.forbidden "the github account has no verified email address")
  return ⟨subject, email, true⟩

def fetchIdentity (provider : String) : Service OAuthIdentity := do
  let payload ← fetchUserinfoJson
  if provider = "google" then .lift (googleIdentity payload)
  else if provider = "github" then githubIdentity payload
  else .fail (.internal "unsupported OAuth provider")

def normalizeIdentityEmail (email : String) : Except AppError String :=
  let email := toAsciiLowercase (trim email)
  if email.toList.contains '@' then .ok email
  else .error (.unauthorized "the OAuth provider returned an invalid email address")

/-- The provider has reported the identity; if it has verified the address, the history notes
it. -/
def noteReported (provider : String) (identity : OAuthIdentity) (email : String) : Service Unit :=
  note fun _ h =>
    if identity.emailVerified then
      { h with reported := (provider, identity.subject, email) :: h.reported }
    else h

def recordLoginAudit (tenantId userId : Uuid) (provider : String) : Service Unit :=
  recordEvent (some tenantId) (some userId) "user" (some userId) "auth.login_succeeded"
    (.obj [("method", .str "oauth"), ("provider", .str provider)])

/-- Mark the address as verified where the provider has verified the user's address. -/
def markIfReported (identity : OAuthIdentity) (email : String) (user : UserRecord) :
    Service UserRecord :=
  if identity.emailVerified && user.email = email then markUserEmailVerified user.id email
  else return user

/-- An identity that is linked to a user. -/
def loginLinked (app : App) (provider : String) (identity : OAuthIdentity) (email : String)
    (tenantId : Option Uuid) (origin : Nat) (userId : Uuid) : Service AuthSession := do
  let user ← getUserById userId
  let user ← markIfReported identity email user
  ensureEmailVerified app user
  let membership ← resolveMembership user.id tenantId
  recordLoginAudit membership.tenantId user.id provider
  issueNewSession app user membership origin

/-- An identity whose address belongs to a user. -/
def linkAndLogin (app : App) (provider : String) (identity : OAuthIdentity) (email : String)
    (tenantId : Option Uuid) (origin : Nat) (user : UserRecord) : Service AuthSession := do
  linkOAuthAccount user.id provider identity.subject
  let user ← markUserEmailVerified user.id email
  let membership ← resolveMembership user.id tenantId
  recordEvent (some membership.tenantId) (some user.id) "user" (some user.id) "auth.oauth_linked"
    (.obj [("provider", .str provider)])
  recordLoginAudit membership.tenantId user.id provider
  issueNewSession app user membership origin

/-- An identity of a new user. -/
def provisionAndLogin (app : App) (provider : String) (identity : OAuthIdentity) (email : String)
    (tenantName : Option String) (origin : Nat) : Service AuthSession := do
  let password ← generateRandom
  let passwordHash ← hashPassword app password
  let (user, membership) ← createUserWithTenant email passwordHash (workspaceName tenantName email)
  linkOAuthAccount user.id provider identity.subject
  let user ← markUserEmailVerified user.id email
  recordEvent (some membership.tenantId) (some user.id) "user" (some user.id) "user.registered"
    (.obj [("method", .str "oauth"), ("provider", .str provider)])
  recordLoginAudit membership.tenantId user.id provider
  issueNewSession app user membership origin

def oauthLogin (app : App) (provider : String) (tenantId : Option Uuid)
    (tenantName : Option String) : Service AuthSession := do
  Prog.ensure (supportedOAuthProviders.contains provider)
    (.validation ("unsupported OAuth provider; supported providers: " ++
      ", ".intercalate supportedOAuthProviders))
  Prog.ensure (app.config.oauthProvider provider)
    (.validation s!"the {provider} OAuth provider is not configured")
  exchangeCode
  let identity ← fetchIdentity provider
  let origin ← credentialCheck
  let email ← .lift (normalizeIdentityEmail identity.email)
  noteReported provider identity email
  match ← getOAuthAccountUser provider identity.subject with
  | some userId => loginLinked app provider identity email tenantId origin userId
  | none =>
    Prog.ensure identity.emailVerified
      (.forbidden s!"the {provider} account email address is not verified")
    match ← getUserByEmail email with
    | some user => linkAndLogin app provider identity email tenantId origin user
    | none => provisionAndLogin app provider identity email tenantName origin

end Fluxa
