import Fluxa.Db.Memberships
import Fluxa.Services.Account
import Fluxa.State.Cache
import Fluxa.State.Text

/-!
# Services — sessions

The JSON web tokens of `auth.rs` and `services/auth.rs`.

A session goes back to a credential check: the verification of a password, the exchange of an authorization code or a registration.  `credentialCheck` gives each check its number, and the number travels with the session as a parameter and in the `origin` of tokens; nothing else depends on it.
-/

namespace Fluxa
open Interleave Db

/-! ### JSON web tokens -/

/-- `leeway` of `Validation::new`, in seconds. -/
def leeway : Nat := 60

/-- The validation of `exp`: the token is accepted at time `now`. -/
def accepted (token : Jwt) (now : Time) : Bool := now.timestamp ≤ token.exp + leeway

def decodeToken (token : Jwt) (expectedType : TokenType) : Service TokenClaims :=
  .atomic .quiet (fun _ => true) fun e s =>
    if token ∈ s.history.minted ∧ accepted token e.now then
      if token.tokenType = expectedType then (.ok token, s)
      else (.error (.unauthorized s!"expected {expectedType.asStr} token"), s)
    else (.error (tokenError e.detail), s)

def decodeAccessToken (token : Jwt) : Service TokenClaims := decodeToken token .access

def decodeRefreshToken (token : Jwt) : Service TokenClaims := decodeToken token .refresh

/-- `TokenPair`. -/
structure TokenPair where
  accessToken : Jwt
  refreshToken : Jwt
  expiresInSeconds : Nat

/-- Sign the tokens. -/
def encode (tokens : List TokenClaims) : Service Unit :=
  note fun _ h => { h with minted := tokens ++ h.minted }

def issueTokenPair (app : App) (user : UserRecord) (membership : MembershipRecord)
    (refreshTokenId : Uuid) (origin : Nat) : Service TokenPair := do
  let now ← utcNow
  let jti ← newUuid
  let accessClaims : TokenClaims :=
    { sub := user.id, tenantId := membership.tenantId, role := membership.role,
      tokenType := .access, jti, iat := now.timestamp,
      exp := (now + app.config.accessTokenTtl).timestamp, origin }
  let refreshClaims : TokenClaims :=
    { sub := user.id, tenantId := membership.tenantId, role := membership.role,
      tokenType := .refresh, jti := refreshTokenId, iat := now.timestamp,
      exp := (now + app.config.refreshTokenTtl).timestamp, origin }
  encode [accessClaims, refreshClaims]
  return ⟨accessClaims, refreshClaims, app.config.accessTokenMinutes * 60⟩

/-! ### Sessions -/

/-- A credential check has succeeded; returns its number. -/
def credentialCheck : Service Nat :=
  .atomic .quiet (fun _ => true) fun _ s =>
    (.ok s.history.checks, { s with history.checks := s.history.checks + 1 })

/-- `AuthSession`. -/
structure AuthSession where
  accessToken : Jwt
  refreshToken : Jwt
  expiresInSeconds : Nat
  user : UserRecord
  membership : MembershipRecord

/-- The session of a token pair. -/
def AuthSession.of (tokens : TokenPair) (user : UserRecord) (membership : MembershipRecord) :
    AuthSession :=
  ⟨tokens.accessToken, tokens.refreshToken, tokens.expiresInSeconds, user, membership⟩

def refreshExpiry (app : App) : Service Time := do
  let now ← utcNow
  return now + app.config.refreshTokenTtl

def issueSession (app : App) (user : UserRecord) (membership : MembershipRecord)
    (refreshTokenId : Uuid) (origin : Nat) : Service AuthSession := do
  let expiresAt ← refreshExpiry app
  createRefreshToken refreshTokenId user.id membership.tenantId expiresAt origin
  let tokens ← issueTokenPair app user membership refreshTokenId origin
  return .of tokens user membership

/-- `issue_session(state, user, membership, Uuid::new_v4())`. -/
def issueNewSession (app : App) (user : UserRecord) (membership : MembershipRecord)
    (origin : Nat) : Service AuthSession := do
  let refreshTokenId ← newUuid
  issueSession app user membership refreshTokenId origin

def ensureEmailVerified (app : App) (user : UserRecord) : Service Unit :=
  Prog.ensure (!(app.config.requireEmailVerification && user.emailVerifiedAt.isNone))
    (.forbidden "email address is not verified")

def resolveMembership (userId : Uuid) (tenantId : Option Uuid) : Service MembershipRecord := do
  match tenantId with
  | some tenantId =>
    Prog.okOr (← getMembership userId tenantId) (.unauthorized "membership not found")
  | none => Prog.okOr (← getDefaultMembership userId) (.unauthorized "membership not found")

/-- The name of the tenant that a registration creates. -/
def workspaceName (tenantName : Option String) (email : String) : String :=
  (tenantName.filter fun name => !isBlank name).getD (beforeFirst '@' email ++ " Workspace")

def register (app : App) (email password : String) (tenantName : Option String) :
    Service AuthSession := do
  let passwordHash ← hashPassword app password
  let origin ← credentialCheck
  let (user, membership) ← createUserWithTenant email passwordHash (workspaceName tenantName email)
  sendVerificationEmail app user
  recordEvent (some membership.tenantId) (some user.id) "user" (some user.id) "user.registered"
    (.obj [])
  issueNewSession app user membership origin

/-- The audit of a login that fails. -/
def recordLoginFailed (userId : Option Uuid) (reason : String) : Service Unit :=
  recordEvent none userId "user" userId "auth.login_failed" (.obj [("reason", .str reason)])

/-- `login` for a user whose password is correct. -/
def loginVerified (app : App) (user : UserRecord) (tenantId : Option Uuid) :
    Service AuthSession := do
  let origin ← credentialCheck
  ensureEmailVerified app user
  let membership ← resolveMembership user.id tenantId
  recordEvent (some membership.tenantId) (some user.id) "user" (some user.id)
    "auth.login_succeeded" (.obj [])
  issueNewSession app user membership origin

def login (app : App) (email password : String) (tenantId : Option Uuid) :
    Service AuthSession := do
  match ← getUserByEmail email with
  | none =>
    recordLoginFailed none "unknown_email"
    .fail (.unauthorized "invalid credentials")
  | some user =>
    match verifyPassword app password user.passwordHash with
    | .error error =>
      recordLoginFailed (some user.id) "invalid_password"
      .fail error
    | .ok () => loginVerified app user tenantId

def refresh (app : App) (refreshToken : Jwt) (tenantId : Option Uuid) : Service AuthSession := do
  let claims ← decodeRefreshToken refreshToken
  let recorded ← Prog.okOr (← getRefreshToken claims.jti) (.unauthorized "refresh token not found")
  let now ← utcNow
  Prog.ensure (recorded.revokedAt.isNone && now < recorded.expiresAt)
    (.unauthorized "refresh token is expired or revoked")
  let user ← getUserById claims.sub
  ensureEmailVerified app user
  let membership ← resolveMembership user.id (tenantId.or (some recorded.tenantId))
  let nextRefreshId ← newUuid
  let expiresAt ← refreshExpiry app
  rotateRefreshToken claims.jti nextRefreshId user.id membership.tenantId expiresAt
  let tokens ← issueTokenPair app user membership nextRefreshId recorded.origin
  recordEvent (some membership.tenantId) (some user.id) "user" (some user.id)
    "auth.token_refreshed" (.obj [])
  return .of tokens user membership

def denyAccessToken (accessToken : Jwt) : Service Unit := do
  match ← (decodeAccessToken accessToken).attempt with
  | .error _ => return ()
  | .ok claims =>
    let now ← utcNow
    -- Truncated subtraction is zero just where the source's difference is at most zero.
    let remainingSeconds := claims.exp - now.timestamp
    if remainingSeconds = 0 then return ()
    else Cache.denyAccessToken claims.jti remainingSeconds

def logout (refreshToken : Jwt) (accessToken : Option Jwt) : Service Unit := do
  let claims ← decodeRefreshToken refreshToken
  revokeRefreshToken claims.jti
  recordEvent none (some claims.sub) "user" (some claims.sub) "auth.logged_out" (.obj [])
  match accessToken with
  | some accessToken => denyAccessToken accessToken
  | none => return ()

/-- `switch_tenant`; `origin` is that of the access token presented. -/
def switchTenant (app : App) (userId tenantId : Uuid) (origin : Nat) : Service AuthSession := do
  let user ← getUserById userId
  let membership ← Prog.okOr (← getMembership userId tenantId)
    (.notFound "tenant membership not found")
  issueNewSession app user membership origin

def listSessions (userId : Uuid) : Service (List RefreshTokenRecord) :=
  listActiveRefreshTokens userId

def revokeSession (app : App) (tenantId userId sessionId : Uuid) : Service Unit := do
  let revoked ← revokeUserRefreshToken userId sessionId
  Prog.ensure revoked (.notFound "session not found")
  recordEvent (some tenantId) (some userId) "user" (some userId) "auth.session_revoked"
    (.obj [("session_id", .str (app.lib.uuidString sessionId))])

def logoutAll (tenantId userId : Uuid) (accessToken : Jwt) : Service Unit := do
  revokeAllUserRefreshTokens userId
  denyAccessToken accessToken
  recordEvent (some tenantId) (some userId) "user" (some userId) "auth.logged_out_everywhere"
    (.obj [])

end Fluxa
