import Fluxa.Db.Accounts
import Fluxa.Db.Invitations
import Fluxa.Db.Memberships
import Fluxa.Db.Notifications
import Fluxa.Db.RefreshTokens
import Fluxa.Services.Audit

/-!
# Services — memberships

`services/memberships.rs`: invitations, changing a member's role and removing a member.
-/

namespace Fluxa
open Interleave Db

/-- `matches!(role, Owner | Admin)`. -/
def MembershipRole.privileged : MembershipRole → Bool
  | .owner | .admin => true
  | .member => false

/-! ### Invitations -/

/-- `CreatedInvitation`. -/
structure CreatedInvitation where
  invitation : InvitationRecord
  token : String

/-- The roles that a member with the given role may invite others with. -/
def ensureInvitable (actorRole : MembershipRole) : MembershipRole → Except AppError Unit
  | .owner =>
    .error (.validation "owners cannot be invited; promote an existing member instead")
  | .admin =>
    if actorRole = .owner then .ok ()
    else .error (.forbidden "owner role required to invite an admin")
  | .member => .ok ()

/-- The address is not that of a member already. -/
def ensureNotMember (tenantId : Uuid) (email : String) : Service Unit := do
  match ← getUserByEmail email with
  | none => return ()
  | some user =>
    let membership ← getMembership user.id tenantId
    Prog.ensure membership.isNone (.conflict "user is already a member of this tenant")

/-- The notification that carries an invitation. -/
def invitationNotification (app : App) (tenantId : Uuid) (email : String) (role : MembershipRole)
    (token : String) (expiresAt : Time) : NewNotification :=
  { tenantId := some tenantId, userId := none, kind := .tenantInvitation, recipient := email
    payload := .obj [("role", .str role.asStr), ("token", .str token),
      ("expires_at", .str (app.lib.rfc3339 expiresAt))]
    dedupeKey := none }

/-- The error of `create_invitation`, where a conflict is that of a pending invitation. -/
def invitationError : AppError → AppError
  | .conflict _ => .conflict "a pending invitation already exists for this email"
  | other => other

def createInvitation (app : App) (tenantId : Uuid) (actorRole : MembershipRole)
    (actorUserId : Uuid) (email : String) (role : MembershipRole) :
    Service CreatedInvitation := do
  Prog.lift (ensureInvitable actorRole role)
  ensureNotMember tenantId email
  let token ← generateRandom
  let now ← utcNow
  let expiresAt := now + app.config.invitationTtl
  let created ← (Db.createInvitation tenantId email role (app.lib.sha256Hex token) expiresAt
    actorUserId).attempt
  let invitation ← Prog.lift (created.mapError invitationError)
  -- A failure to enqueue is swallowed.
  let _ ← (enqueueNotification
    (invitationNotification app tenantId email role token expiresAt)
    app.config.maxJobAttempts).attempt
  recordEvent (some tenantId) (some actorUserId) "invitation" (some invitation.id)
    "invitation.created" (.obj [("email", .str email), ("role", .str role.asStr)])
  return ⟨invitation, token⟩

def listInvitations (tenantId : Uuid) : Service (List InvitationRecord) :=
  listPendingInvitations tenantId

def revokeInvitation (tenantId actorUserId invitationId : Uuid) : Service Unit := do
  Db.revokeInvitation tenantId invitationId
  recordEvent (some tenantId) (some actorUserId) "invitation" (some invitationId)
    "invitation.revoked" (.obj [])

def acceptInvitation (app : App) (tenantId userId : Uuid) (token : String) :
    Service MembershipRecord := do
  let user ← getUserById userId
  let membership ← Db.acceptInvitation tenantId (app.lib.sha256Hex token) user.id user.email
  recordEvent (some tenantId) (some userId) "membership" (some userId) "invitation.accepted"
    (.obj [("role", .str membership.role.asStr)])
  return membership

/-! ### Members -/

/-- The check of both functions before they take the owner role from a member: `count <= 1` is a
conflict. -/
def ensureOwnerRetained (tenantId : Uuid) (takesOwner : Bool) : Service Unit :=
  if takesOwner then do
    let owners ← countTenantOwners tenantId
    Prog.ensure (1 < owners) (.conflict "a tenant must retain at least one owner")
  else return ()

def updateMemberRole (tenantId : Uuid) (actorRole : MembershipRole)
    (actorUserId targetUserId : Uuid) (newRole : MembershipRole) : Service TenantMemberRecord := do
  let target ← Prog.okOr (← getTenantMember tenantId targetUserId) (.notFound "member not found")
  let currentRole := target.role
  Prog.ensure (!(currentRole.privileged || newRole.privileged) || actorRole = .owner)
    (.forbidden "owner role required to change owner or admin roles")
  ensureOwnerRetained tenantId (currentRole = .owner && newRole ≠ .owner)
  let updated ← Prog.okOr (← updateMembershipRole tenantId targetUserId newRole)
    (.notFound "member not found")
  recordEvent (some tenantId) (some actorUserId) "membership" (some targetUserId)
    "member.role_updated" (.obj [("from", .str currentRole.asStr), ("to", .str newRole.asStr)])
  return updated

def removeMember (tenantId : Uuid) (actorRole : MembershipRole)
    (actorUserId targetUserId : Uuid) : Service Unit := do
  let target ← Prog.okOr (← getTenantMember tenantId targetUserId) (.notFound "member not found")
  let targetRole := target.role
  Prog.ensure (!targetRole.privileged || actorRole = .owner)
    (.forbidden "owner role required to remove an owner or admin")
  ensureOwnerRetained tenantId (targetRole = .owner)
  let deleted ← deleteMembership tenantId targetUserId
  Prog.ensure deleted (.notFound "member not found")
  revokeUserTenantRefreshTokens targetUserId tenantId
  recordEvent (some tenantId) (some actorUserId) "membership" (some targetUserId)
    "member.removed" (.obj [("role", .str targetRole.asStr)])

end Fluxa
