import Fluxa.Db.Accounts
import Fluxa.Db.Notifications
import Fluxa.Db.RefreshTokens
import Fluxa.Services.Audit

/-!
# Services — accounts

The passwords of `auth.rs`, `tokens.rs`, and `services/account.rs`: verification of addresses, password reset, and changes of credentials.
-/

namespace Fluxa
open Interleave Db

/-! ### Passwords -/

/-- `AuthService::hash_password`, with a fresh salt. -/
def hashPassword (app : App) (password : String) : Service String := do
  let salt ← generateRandom
  match app.lib.hashPassword salt password with
  | .ok hash => return hash
  | .error error => .fail (.internal ("failed to hash password: " ++ error))

/-- `AuthService::verify_password`. -/
def verifyPassword (app : App) (password hash : String) : Except AppError Unit :=
  match app.lib.verifyPassword password hash with
  | .ok true => .ok ()
  | .ok false => .error (.unauthorized "invalid credentials")
  | .error error => .error (.unauthorized ("invalid password hash: " ++ error))

/-- `verify_password(..)` where any error reads `current password is incorrect`. -/
def verifyCurrentPassword (app : App) (password hash : String) : Except AppError Unit :=
  (verifyPassword app password hash).mapError fun _ =>
    .unauthorized "current password is incorrect"

/-! ### Account tokens -/

/-- The notification that carries an account token. -/
def tokenNotification (app : App) (user : UserRecord) (kind : NotificationKind) (token : String)
    (expiresAt : Time) : NewNotification :=
  { tenantId := none, userId := some user.id, kind, recipient := user.email
    payload := .obj [("token", .str token), ("expires_at", .str (app.lib.rfc3339 expiresAt))]
    dedupeKey := none }

def createAndEnqueueToken (app : App) (user : UserRecord) (tokenKind : TokenKind)
    (notificationKind : NotificationKind) (ttl : Nat) : Service Unit := do
  let token ← generateRandom
  let now ← utcNow
  let expiresAt := now + ttl
  let _ ← createUserToken user.id tokenKind (app.lib.sha256Hex token) expiresAt user.email
  let _ ← enqueueNotification (tokenNotification app user notificationKind token expiresAt)
    app.config.maxJobAttempts
  return ()

/-- `send_verification_email`: errors are swallowed. -/
def sendVerificationEmail (app : App) (user : UserRecord) : Service Unit :=
  if user.emailVerifiedAt.isSome then return ()
  else do
    let _ ← (createAndEnqueueToken app user .emailVerification .emailVerification
      app.config.emailVerificationTtl).attempt
    return ()

def verifyEmail (app : App) (token : String) : Service Unit := do
  let record ← consumeUserToken .emailVerification (app.lib.sha256Hex token)
  let user ← markUserEmailVerified record.userId record.address
  recordEvent none (some user.id) "user" (some user.id) "account.email_verified" (.obj [])

def resendVerification (app : App) (email : String) : Service Unit := do
  match ← getUserByEmail email with
  | some user => sendVerificationEmail app user
  | none => return ()

def requestPasswordReset (app : App) (email : String) : Service Unit := do
  match ← getUserByEmail email with
  | some user =>
    let _ ← (createAndEnqueueToken app user .passwordReset .passwordReset
      app.config.passwordResetTtl).attempt
    return ()
  | none => return ()

/-! ### Changes of credentials -/

def confirmPasswordReset (app : App) (token newPassword : String) : Service Unit := do
  let record ← consumeUserToken .passwordReset (app.lib.sha256Hex token)
  let passwordHash ← hashPassword app newPassword
  let user ← updateUserPassword record.userId passwordHash
  revokeAllUserRefreshTokens user.id
  recordEvent none (some user.id) "user" (some user.id) "account.password_reset_completed"
    (.obj [])

def changePassword (app : App) (userId : Uuid) (currentPassword newPassword : String) :
    Service Unit := do
  let user ← getUserById userId
  .lift (verifyCurrentPassword app currentPassword user.passwordHash)
  let passwordHash ← hashPassword app newPassword
  let _ ← updateUserPassword user.id passwordHash
  revokeAllUserRefreshTokens user.id
  recordEvent none (some user.id) "user" (some user.id) "account.password_changed" (.obj [])

def changeEmail (app : App) (userId : Uuid) (currentPassword newEmail : String) :
    Service UserRecord := do
  let user ← getUserById userId
  .lift (verifyCurrentPassword app currentPassword user.passwordHash)
  let updated ← updateUserEmail user.id newEmail
  sendVerificationEmail app updated
  recordEvent none (some user.id) "user" (some user.id) "account.email_changed" (.obj [])
  return updated

end Fluxa
