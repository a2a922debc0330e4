import Fluxa.State.AppState

/-!
# Db — memberships

`db/memberships.rs`.  Each function is one statement.
-/

namespace Fluxa.Db
open Interleave

/-- The membership joined with its tenant. -/
def joinTenant (s : AppState) (m : MembershipRow) : Option MembershipRecord :=
  (s.db.tenants.find? m.tenantId).map fun t =>
    { tenantId := m.tenantId, tenantName := t.name, userId := m.userId, role := m.role,
      createdAt := m.createdAt }

/-- The membership joined with its user. -/
def joinUser (s : AppState) (m : MembershipRow) : Option TenantMemberRecord :=
  (s.db.users.find? m.userId).map fun u =>
    { userId := m.userId, email := u.email, displayName := u.displayName, role := m.role,
      joinedAt := m.createdAt }

def getMembership (userId tenantId : Uuid) : Service (Option MembershipRecord) :=
  select fun _ s => (s.db.memberships.find? (tenantId, userId)).bind (joinTenant s)

def getDefaultMembership (userId : Uuid) : Service (Option MembershipRecord) :=
  select fun _ s =>
    let joined := (s.db.memberships.select fun m => m.userId = userId).filterMap (joinTenant s)
    -- `LIMIT 1`: of equally old memberships, the one that the table holds first.
    (joined.insertionSort fun a b => a.createdAt ≤ b.createdAt).head?

def getTenantMember (tenantId userId : Uuid) : Service (Option TenantMemberRecord) :=
  select fun _ s => (s.db.memberships.find? (tenantId, userId)).bind (joinUser s)

/-- The memberships that `update_membership_role` and `delete_membership` address. -/
def isMembership (tenantId userId : Uuid) (m : MembershipRow) : Bool :=
  m.tenantId = tenantId && m.userId = userId

/-- A change of the role leaves the key of a membership alone. -/
theorem keepsKey_role (role : MembershipRole) :
    Relational.Table.KeepsKey (fun m : MembershipRow => (m.tenantId, m.userId))
      fun m => { m with role } :=
  ⟨fun _ => rfl⟩

def updateMembershipRole (tenantId userId : Uuid) (role : MembershipRole) :
    Service (Option TenantMemberRecord) :=
  sql (.membershipWrite tenantId userId (some role)) fun _ s =>
    -- `FROM users u .. u.id = tm.user_id`: without the user's row nothing is updated.
    match (s.db.memberships.find? (tenantId, userId)).bind (joinUser s) with
    | none => (.ok none, s)
    | some target => (.ok (some { target with role }), { s with
        db.memberships := s.db.memberships.update (isMembership tenantId userId)
          (fun m => { m with role }) (keepsKey_role role) })

def deleteMembership (tenantId userId : Uuid) : Service Bool :=
  sql (.membershipWrite tenantId userId none) fun _ s =>
    (.ok (s.db.memberships.any (isMembership tenantId userId)), { s with
      db.memberships := s.db.memberships.delete (isMembership tenantId userId) })

/-- The memberships that `count_tenant_owners` counts. -/
def isOwnerOf (tenantId : Uuid) (m : MembershipRow) : Bool :=
  m.tenantId = tenantId && m.role = .owner

/-- `SELECT COUNT(*) .. WHERE tenant_id = $1 AND role = 'owner'`. -/
def tenantOwners (s : AppState) (tenantId : Uuid) : Nat :=
  s.db.memberships.count (isOwnerOf tenantId)

def countTenantOwners (tenantId : Uuid) : Service Nat :=
  select fun _ s => tenantOwners s tenantId

end Fluxa.Db
