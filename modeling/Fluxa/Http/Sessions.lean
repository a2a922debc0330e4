import Fluxa.Http.Helpers
import Fluxa.Services.OAuth

/-!
# Http — the routes of accounts and sessions

The handlers of `http/handlers.rs` for registration, sessions and credentials.  The routes of signed-in users run behind `protectedMiddleware`; their handlers take the access token presented.
-/

namespace Fluxa.Http
open Interleave Db

def register (app : App) (email password : String) (tenantName : Option String) :
    Service AuthSession := do
  let email ← .lift (normalizeEmail email)
  .lift (validatePassword password)
  Fluxa.register app email password tenantName

def login (app : App) (email password : String) (tenantId : Option Uuid) :
    Service AuthSession := do
  let email ← .lift (normalizeEmail email)
  Fluxa.login app email password tenantId

def oauthLogin (app : App) (provider code redirectUri : String) (tenantId : Option Uuid)
    (tenantName : Option String) : Service AuthSession := do
  Prog.ensure (!isBlank code) (.validation "code must not be empty")
  Prog.ensure (!isBlank redirectUri) (.validation "redirect_uri must not be empty")
  Fluxa.oauthLogin app (toAsciiLowercase (trim provider)) tenantId tenantName

def verifyEmail (app : App) (token : String) : Service Unit := do
  Prog.ensure (!isBlank token) (.validation "token must not be empty")
  Fluxa.verifyEmail app (trim token)

def resendVerification (app : App) (email : String) : Service Unit := do
  let email ← .lift (normalizeEmail email)
  Fluxa.resendVerification app email

def requestPasswordReset (app : App) (email : String) : Service Unit := do
  let email ← .lift (normalizeEmail email)
  Fluxa.requestPasswordReset app email

def confirmPasswordReset (app : App) (token newPassword : String) : Service Unit := do
  Prog.ensure (!isBlank token) (.validation "token must not be empty")
  .lift (validatePassword newPassword)
  Fluxa.confirmPasswordReset app (trim token) newPassword

def changePassword (app : App) (bearer : Jwt) (currentPassword newPassword : String) :
    Service Unit := do
  let user ← protectedMiddleware bearer
  .lift (validatePassword newPassword)
  Fluxa.changePassword app user.userId currentPassword newPassword

def changeEmail (app : App) (bearer : Jwt) (currentPassword newEmail : String) :
    Service UserRecord := do
  let user ← protectedMiddleware bearer
  let email ← .lift (normalizeEmail newEmail)
  Fluxa.changeEmail app user.userId currentPassword email

def switchTenant (app : App) (bearer : Jwt) (tenantId : Uuid) : Service AuthSession := do
  let user ← protectedMiddleware bearer
  Fluxa.switchTenant app user.userId tenantId user.origin

def listSessions (bearer : Jwt) : Service (List RefreshTokenRecord) := do
  let user ← protectedMiddleware bearer
  Fluxa.listSessions user.userId

def revokeSession (app : App) (bearer : Jwt) (sessionId : Uuid) : Service Unit := do
  let user ← protectedMiddleware bearer
  Fluxa.revokeSession app user.tenantId user.userId sessionId

def logoutAllSessions (bearer : Jwt) : Service Unit := do
  let user ← protectedMiddleware bearer
  Fluxa.logoutAll user.tenantId user.userId bearer

end Fluxa.Http
