import Fluxa.State.AppState
import Fluxa.State.Text

/-!
# Db — invitations

`db/invitations.rs`.  The acceptance is a transaction of several statements that holds the lock on its invitation's row; any failure in it rolls it back.  A statement that finds the row waits for the transaction to end.
-/

namespace Fluxa.Db
open Interleave

/-- An open acceptance holds the lock on an invitation with the property `p`. -/
def invitationLocked (p : InvitationRecord → Bool) (s : AppState) : Bool :=
  s.db.acceptTxs.any fun T => p T.invitation

/-- The invitation is in the way of a new one: by its token, or because it is pending for the same
address. -/
def conflictsWith (invitation i : InvitationRecord) : Bool :=
  i.tokenHash = invitation.tokenHash ||
    i.tenantId = invitation.tenantId && i.email = invitation.email && i.acceptedAt.isNone &&
      i.revokedAt.isNone

/-- Another invitation is in the way of a new one. -/
def invitationTaken (s : AppState) (invitation : InvitationRecord) : Bool :=
  s.db.invitations.any (conflictsWith invitation)

def createInvitation (tenantId : Uuid) (email : String) (role : MembershipRole) (tokenHash : String)
    (expiresAt : Time) (createdBy : Uuid) : Service InvitationRecord := do
  let id ← newUuid
  let now ← utcNow
  let invitation : InvitationRecord :=
    { id, tenantId, email, role, tokenHash, expiresAt, acceptedAt := none, revokedAt := none,
      createdBy, createdAt := now }
  sqlWhen .quiet (fun s => !invitationLocked (conflictsWith invitation) s) fun e s =>
    -- `CHECK (role IN ('admin', 'member'))`.
    if role = .owner then (.error (databaseError e.detail), s)
    else if invitationTaken s invitation then (.error uniqueViolation, s)
    else
      match s.db.invitations.insert invitation with
      | some invitations => (.ok invitation, { s with
          db.invitations := invitations
          history := noteCreated e .invitation id s.history })
      | none => (.error uniqueViolation, s)

/-- The invitation has been neither accepted nor revoked. -/
def isPendingInvitation (i : InvitationRecord) : Bool := i.acceptedAt.isNone && i.revokedAt.isNone

/-- `ORDER BY created_at DESC, id DESC`. -/
def orderInvitations (invitations : List InvitationRecord) : List InvitationRecord :=
  invitations.insertionSort fun a b =>
    b.createdAt < a.createdAt ∨ a.createdAt = b.createdAt ∧ b.id ≤ a.id

def listPendingInvitations (tenantId : Uuid) : Service (List InvitationRecord) :=
  select fun e s => orderInvitations <| s.db.invitations.select fun i =>
    i.tenantId = tenantId && isPendingInvitation i && e.now < i.expiresAt

/-- The invitation that `revoke_invitation` may revoke. -/
def isRevocable (tenantId invitationId : Uuid) (i : InvitationRecord) : Bool :=
  i.id = invitationId && i.tenantId = tenantId && isPendingInvitation i

def revokeInvitation (tenantId invitationId : Uuid) : Service Unit :=
  sqlWhen .quiet (fun s => !invitationLocked (isRevocable tenantId invitationId) s) fun e s =>
    if s.db.invitations.any (isRevocable tenantId invitationId) then
      (.ok (), { s with
        db.invitations := s.db.invitations.update (isRevocable tenantId invitationId)
          fun i => { i with revokedAt := some e.now } })
    else (.error (.notFound "invitation not found"), s)

/-! ### The acceptance -/

/-- The invitations that `accept_invitation` may accept. -/
def isAcceptable (tenantId : Uuid) (tokenHash : String) (now : Time) (i : InvitationRecord) : Bool :=
  i.tenantId = tenantId && i.tokenHash = tokenHash && isPendingInvitation i && i.expiresAt > now

/-- The transaction of the call is no longer open. -/
def endAcceptTx (pid : Nat) (s : AppState) : AppState :=
  { s with db.acceptTxs := s.db.acceptTxs.filter fun T => T.pid ≠ pid }

/-- The call's open transaction is `T`. -/
def putAcceptTx (T : AcceptTx) (s : AppState) : AppState :=
  { s with db.acceptTxs := T :: s.db.acceptTxs.filter fun T' => T'.pid ≠ T.pid }

/-- A statement in the call's transaction, which waits until `ready`; a failure rolls the
transaction back. -/
def inAcceptTx {A : Type} (ready : AppState → Bool)
    (run : Env → AppState → Except AppError (A × AppState)) : Service A :=
  .atomic .quiet ready fun e s =>
    match e.fault, run e s with
    | .none, .ok (a, s') => (.ok a, s')
    | .none, .error x => (.error x, endAcceptTx e.pid s)
    | _, _ => (.error (databaseError e.detail), endAcceptTx e.pid s)

/-- `Utc::now()` of an acceptance. -/
def acceptanceTime : Service Time :=
  .atomic .quiet (fun _ => true) fun e s =>
    (.ok e.now, { s with history.acceptClocks := (e.pid, e.now) :: s.history.acceptClocks })

/-- `BEGIN` and `UPDATE tenant_invitations SET accepted_at = $3 .. RETURNING`. -/
def markAccepted (tenantId : Uuid) (tokenHash : String) (now : Time) : Service AcceptTx :=
  inAcceptTx (fun s => !invitationLocked (isAcceptable tenantId tokenHash now) s) fun e s =>
    match (s.db.invitations.select (isAcceptable tenantId tokenHash now)).head? with
    | none => .error (.notFound "invitation is invalid, expired, or revoked")
    | some invitation =>
      let T : AcceptTx := { pid := e.pid, invitation, acceptedAt := now, membership := none }
      .ok (T, putAcceptTx T s)

/-- The transaction is dropped with an error, and so rolled back. -/
def dropAcceptTx {A : Type} (error : AppError) : Service A :=
  .atomic .quiet (fun _ => true) fun e s => (.error error, endAcceptTx e.pid s)

/-- The membership that the transaction is to insert. -/
def AcceptTx.memberFor (T : AcceptTx) (userId : Uuid) : MembershipRow :=
  ⟨T.invitation.tenantId, userId, T.invitation.role, T.acceptedAt⟩

/-- Another open acceptance has inserted a membership of the same user in the same tenant. -/
def memberLocked (T : AcceptTx) (userId : Uuid) (s : AppState) : Bool :=
  s.db.acceptTxs.any fun T' => T'.pid ≠ T.pid && T'.membership.any fun m =>
    m.tenantId = T.invitation.tenantId && m.userId = userId

/-- `INSERT INTO tenant_memberships .. RETURNING`. -/
def insertMember (T : AcceptTx) (userId : Uuid) : Service (AcceptTx × MembershipRecord) :=
  inAcceptTx (fun s => !memberLocked T userId s) fun e s =>
    match s.db.memberships.insert (AcceptTx.memberFor T userId),
        s.db.tenants.find? T.invitation.tenantId with
    | none, _ => .error uniqueViolation
    | some _, none => .error (databaseError e.detail)
    | some _, some tenant =>
      let T := { T with membership := some (AcceptTx.memberFor T userId) }
      .ok ((T, ⟨T.invitation.tenantId, tenant.name, userId, T.invitation.role, T.acceptedAt⟩),
        putAcceptTx T s)

/-- The tables with the changes of the transaction.  Its locks have kept the invitation as it was
found, and the place of the membership free. -/
def applyAcceptance (T : AcceptTx) (s : AppState) : Option AppState := do
  let m ← T.membership
  let memberships ← s.db.memberships.insert m
  if s.db.invitations.find? T.invitation.id = some T.invitation then
    some { s with
      db.memberships := memberships
      db.invitations := s.db.invitations.update (fun i => i.id = T.invitation.id)
        fun i => { i with acceptedAt := some T.acceptedAt }
      history.joined := (T.pid, T.invitation.id, m) :: s.history.joined }
  else none

/-- What an acceptance changes when it is committed. -/
theorem applyAcceptance_eq_some {T : AcceptTx} {s s' : AppState}
    (h : applyAcceptance T s = some s') :
    ∃ m memberships, T.membership = some m ∧ s.db.memberships.insert m = some memberships ∧
      s.db.invitations.find? T.invitation.id = some T.invitation ∧ s' = { s with
        db.memberships := memberships
        db.invitations := s.db.invitations.update (fun i => i.id = T.invitation.id)
          fun i => { i with acceptedAt := some T.acceptedAt }
        history.joined := (T.pid, T.invitation.id, m) :: s.history.joined } := by
  simp only [applyAcceptance, bind, Option.bind_eq_some_iff] at h
  obtain ⟨m, hm, memberships, hins, h⟩ := h
  split at h
  · exact ⟨m, memberships, hm, hins, ‹_›, (Option.some.inj h).symm⟩
  · cases h

/-- `COMMIT`. -/
def commitAcceptance (T : AcceptTx) : Service Unit :=
  .atomic .commitAcceptance (fun _ => true) fun e s =>
    match e.fault, applyAcceptance T s with
    | .failed, _ | _, none => (.error (databaseError e.detail), endAcceptTx e.pid s)
    | fault, some s' =>
      (if fault = .none then .ok () else .error (databaseError e.detail), endAcceptTx e.pid s')

def acceptInvitation (tenantId : Uuid) (tokenHash : String) (userId : Uuid) (userEmail : String) :
    Service MembershipRecord := do
  let now ← acceptanceTime
  let T ← markAccepted tenantId tokenHash now
  if toAsciiLowercase T.invitation.email ≠ toAsciiLowercase userEmail then
    dropAcceptTx (.forbidden "invitation was issued for a different email address")
  else
    let (T, membership) ← insertMember T userId
    commitAcceptance T
    return membership

end Fluxa.Db
