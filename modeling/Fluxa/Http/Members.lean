import Fluxa.Http.Idempotency
import Fluxa.Services.Memberships

/-!
# Http — the routes of invitations and members

The handlers of `http/handlers.rs` for the members of a tenant.  They get the authenticated user of the request.
-/

namespace Fluxa.Http
open Interleave Db

/-- `user.role` and the tenant of the path are those of a request for owners and admins. -/
def ensureTenantAdmin (user : AuthenticatedUser) (tenantId : Uuid) : Except AppError Unit := do
  ensureActiveTenant user.tenantId tenantId
  ensureAdminRole user.role

/-- `validate_role` of a field of a payload. -/
def parseRole (role : String) : Except AppError MembershipRole :=
  validateRole (toAsciiLowercase (trim role))

/-- The JSON of `InvitationResponse`. -/
def invitationResponseValue (app : App) (i : InvitationRecord) : Value :=
  .obj [("id", .str (app.lib.uuidString i.id)), ("tenant_id", .str (app.lib.uuidString i.tenantId)),
    ("email", .str i.email), ("role", .str i.role.asStr),
    ("expires_at", .str (app.lib.jsonTime i.expiresAt)),
    ("created_at", .str (app.lib.jsonTime i.createdAt))]

/-- The response with the status `CREATED` and the given body. -/
def createdResponse (body : Value) : StoredResponse := ⟨201, body⟩

def createInvitation (app : App) (user : AuthenticatedUser) (tenantId : Uuid)
    (idempotencyKey : Option String) (email role : String) : Service StoredResponse := do
  .lift (ensureTenantAdmin user tenantId)
  let email ← .lift (normalizeEmail email)
  let role ← .lift (parseRole role)
  let key ← .lift (requiredIdempotencyKey idempotencyKey)
  idempotent app ⟨tenantId, "invitations:create", key⟩ (.ok ())
    (fun _ => Fluxa.createInvitation app tenantId user.role user.userId email role)
    fun created => createdResponse
      (.obj [("invitation", invitationResponseValue app created.invitation),
        ("token", .str created.token)])

def revokeInvitation (user : AuthenticatedUser) (tenantId invitationId : Uuid) : Service Unit := do
  .lift (ensureTenantAdmin user tenantId)
  Fluxa.revokeInvitation tenantId user.userId invitationId

def acceptInvitation (app : App) (user : AuthenticatedUser) (tenantId : Uuid) (token : String) :
    Service MembershipRecord := do
  Prog.ensure (!isBlank token) (.validation "token must not be empty")
  Fluxa.acceptInvitation app tenantId user.userId (trim token)

def updateMemberRole (user : AuthenticatedUser) (tenantId memberId : Uuid) (role : String) :
    Service TenantMemberRecord := do
  .lift (ensureTenantAdmin user tenantId)
  let role ← .lift (parseRole role)
  Fluxa.updateMemberRole tenantId user.role user.userId memberId role

def removeMember (user : AuthenticatedUser) (tenantId memberId : Uuid) : Service Unit := do
  .lift (ensureTenantAdmin user tenantId)
  Fluxa.removeMember tenantId user.role user.userId memberId

end Fluxa.Http
