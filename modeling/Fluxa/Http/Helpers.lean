import Fluxa.Services.Auth

/-!
# Http — helpers and middleware

`http/helpers.rs` and the middleware of protected routes, without its rate limit: a request that the limit turns away does nothing.
-/

namespace Fluxa
open Interleave Db

def normalizeEmail (email : String) : Except AppError String :=
  let email := toAsciiLowercase (trim email)
  if email.toList.contains '@' then .ok email else .error (.validation "email must be valid")

/-- `COMMON_PASSWORDS`. -/
def commonPasswords : List String :=
  ["1234567890", "123456789012", "password123", "password1234", "passw0rd123", "qwertyuiop",
    "1q2w3e4r5t6y", "iloveyou123", "adminadmin", "letmein12345", "welcome12345", "abc123456789"]

def validatePassword (password : String) : Except AppError Unit :=
  if password.utf8ByteSize < 10 then
    .error (.validation "password must be at least 10 characters")
  else if password.utf8ByteSize > 128 then
    .error (.validation "password must be at most 128 characters")
  else if commonPasswords.contains (toAsciiLowercase password) then
    .error (.validation "password is too common; choose a stronger password")
  else .ok ()

def ensureAdminRole : MembershipRole → Except AppError Unit
  | .owner | .admin => .ok ()
  | .member => .error (.forbidden "owner or admin role required for this action")

def ensureTaskWriteRole : MembershipRole → Except AppError Unit
  | .owner | .admin | .member => .ok ()

def ensureActiveTenant (activeTenantId requestedTenantId : Uuid) : Except AppError Unit :=
  if activeTenantId = requestedTenantId then .ok () else .error (.notFound "tenant not found")

/-- `AuthenticatedUser`.  `origin` is that of the access token. -/
structure AuthenticatedUser where
  userId : Uuid
  tenantId : Uuid
  role : MembershipRole
  origin : Nat
deriving DecidableEq, Repr

/-- `protected_middleware` up to the handler. -/
def protectedMiddleware (token : Jwt) : Service AuthenticatedUser := do
  let claims ← decodeAccessToken token
  let denied ← Cache.isAccessTokenDenied claims.jti
  Prog.ensure (!denied) (.unauthorized "access token has been revoked")
  let membership ← Prog.okOr (← getMembership claims.sub claims.tenantId)
    (.unauthorized "membership not found")
  return ⟨claims.sub, claims.tenantId, membership.role, claims.origin⟩

end Fluxa
