import Fluxa.State.AppState

/-!
# Db — accounts

`db/users.rs`, `db/user_tokens.rs` and `db/oauth_accounts.rs`.  A transaction is one statement, at its commit, except that the rows which an `UPDATE` in it finds are those of an earlier snapshot.
-/

namespace Fluxa.Db
open Interleave

/-! ### Users -/

/-- Some user has the address. -/
def emailTaken (s : AppState) (email : String) : Bool := s.db.users.any fun u => u.email = email

def createUserWithTenant (email passwordHash tenantName : String) :
    Service (UserRecord × MembershipRecord) := do
  let now ← utcNow
  let userId ← newUuid
  let tenantId ← newUuid
  let user : UserRecord :=
    { id := userId, email, passwordHash, displayName := none, emailVerifiedAt := none,
      createdAt := now }
  let membership : MembershipRecord :=
    { tenantId, tenantName, userId, role := .owner, createdAt := now }
  sql .quiet fun _ s =>
    if emailTaken s email then (.error uniqueViolation, s)
    else
      match s.db.users.insert user, s.db.tenants.insert ⟨tenantId, tenantName, now⟩,
          s.db.memberships.insert ⟨tenantId, userId, .owner, now⟩ with
      | some users, some tenants, some memberships =>
        (.ok (user, membership), { s with
          db.users := users
          db.tenants := tenants
          db.memberships := memberships })
      | _, _, _ => (.error uniqueViolation, s)

def getUserByEmail (email : String) : Service (Option UserRecord) :=
  select fun _ s => (s.db.users.select fun u => u.email = email).head?

/-- The result of a statement that finds no user. -/
def userNotFound : AppError := .notFound "user not found"

def getUserById (userId : Uuid) : Service UserRecord := do
  Prog.okOr (← select fun _ s => s.db.users.find? userId) userNotFound

/-- `UPDATE users SET .. WHERE id = $1 RETURNING ..`. -/
def updateUser (event : Event) (userId : Uuid) (f : Env → UserRecord → UserRecord)
    (hf : ∀ e, Relational.Table.KeepsKey UserRecord.id (f e)) : Service UserRecord :=
  sql event fun e s =>
    match s.db.users.find? userId with
    | none => (.error userNotFound, s)
    | some u =>
      (.ok (f e u), { s with db.users := s.db.users.update (fun u => u.id = userId) (f e) (hf e) })

/-- `mark_user_email_verified`.  The address for the sake of which it is called is no parameter of
the source; the statement does not use it. -/
def markUserEmailVerified (userId : Uuid) (address : String) : Service UserRecord :=
  updateUser (.markVerified userId address) userId
    (fun e u => { u with emailVerifiedAt := some (u.emailVerifiedAt.getD e.now) })
    fun _ => ⟨fun _ => rfl⟩

def updateUserPassword (userId : Uuid) (passwordHash : String) : Service UserRecord :=
  updateUser .quiet userId (fun _ u => { u with passwordHash }) fun _ => ⟨fun _ => rfl⟩

/-- The assignments of `update_user_email`. -/
def withEmail (email : String) (u : UserRecord) : UserRecord :=
  { u with email, emailVerifiedAt := none }

def updateUserEmail (userId : Uuid) (email : String) : Service UserRecord :=
  sql (.setEmail userId email) fun _ s =>
    match s.db.users.find? userId with
    | none => (.error userNotFound, s)
    | some u =>
      if s.db.users.any fun v => v.email = email && v.id ≠ userId then (.error uniqueViolation, s)
      else
        (.ok (withEmail email u), { s with
          db.users := s.db.users.update (fun v => v.id = userId) (withEmail email) })

/-! ### Account tokens -/

/-- The tokens that `create_user_token` invalidates. -/
def isPending (userId : Uuid) (kind : TokenKind) (t : UserTokenRecord) : Bool :=
  t.userId = userId && t.kind = kind && t.usedAt.isNone

/-- `create_user_token`.  The address to which the token will be sent is no parameter of the
source; it is recorded with the row. -/
def createUserToken (userId : Uuid) (kind : TokenKind) (tokenHash : String) (expiresAt : Time)
    (address : String) : Service UserTokenRecord := do
  let pending ← select fun _ s => (s.db.userTokens.select (isPending userId kind)).map (·.id)
  let id ← newUuid
  sql (.issueUserToken id userId kind tokenHash address pending) fun e s =>
    let record : UserTokenRecord :=
      { id, userId, kind, tokenHash, expiresAt, usedAt := none, createdAt := e.now, address }
    let table := s.db.userTokens.update (fun t => pending.contains t.id && isPending userId kind t)
      fun t => { t with usedAt := some e.now }
    if s.db.userTokens.any fun t => t.tokenHash = tokenHash then (.error uniqueViolation, s)
    else
      match table.insert record with
      | some table => (.ok record, { s with db.userTokens := table })
      | none => (.error uniqueViolation, s)

/-- The tokens that `consume_user_token` may consume. -/
def isConsumable (kind : TokenKind) (tokenHash : String) (now : Time) (t : UserTokenRecord) :
    Bool :=
  t.kind = kind && t.tokenHash = tokenHash && t.usedAt.isNone && t.expiresAt > now

/-- The history after a call has consumed a token: of a verification token it notes the user and
the address as well. -/
def History.afterConsumption (pid : Nat) (t : UserTokenRecord) (h : History) : History :=
  if t.kind = .emailVerification then
    { h with uses := (t.id, pid) :: h.uses, consumed := (t.userId, t.address) :: h.consumed }
  else { h with uses := (t.id, pid) :: h.uses }

def consumeUserToken (kind : TokenKind) (tokenHash : String) : Service UserTokenRecord :=
  sql .quiet fun e s =>
    match (s.db.userTokens.select (isConsumable kind tokenHash e.now)).head? with
    | none => (.error (.unauthorized "token is invalid or expired"), s)
    | some t => (.ok { t with usedAt := some e.now }, { s with
        db.userTokens := s.db.userTokens.update (isConsumable kind tokenHash e.now)
          fun t => { t with usedAt := some e.now }
        history := History.afterConsumption e.pid t s.history })

/-! ### Provider accounts -/

/-- The row of `oauth_accounts` for the provider's identity. -/
def isOAuthAccount (provider providerSubject : String) (a : OAuthAccountRow) : Bool :=
  a.provider = provider && a.providerSubject = providerSubject

def getOAuthAccountUser (provider providerSubject : String) : Service (Option Uuid) :=
  select fun _ s =>
    ((s.db.oauthAccounts.select (isOAuthAccount provider providerSubject)).head?).map (·.userId)

def linkOAuthAccount (userId : Uuid) (provider providerSubject : String) : Service Unit := do
  let id ← newUuid
  let now ← utcNow
  sql .quiet fun _ s =>
    if s.db.oauthAccounts.any (isOAuthAccount provider providerSubject) then
      (.error (.conflict "this provider account is already linked"), s)
    else
      match s.db.oauthAccounts.insert ⟨id, userId, provider, providerSubject, now⟩ with
      | some table => (.ok (), { s with db.oauthAccounts := table })
      | none => (.error uniqueViolation, s)

end Fluxa.Db
