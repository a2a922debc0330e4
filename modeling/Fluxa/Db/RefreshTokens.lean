import Fluxa.State.AppState

/-!
# Db — refresh tokens

`db/refresh_tokens.rs` and the purge of `db/retention.rs`.

Under READ COMMITTED an `UPDATE` or `DELETE` finds its rows in the snapshot it starts with, waits until no other transaction holds a lock on them, and applies itself to those that still satisfy its `WHERE` clause.  So it is two statements here: `tokenSnapshot` and one that waits for the locks.  A rotation is a transaction: its `UPDATE` locks the old row, and the commit makes the update and the insertion visible together.
-/

namespace Fluxa.Db
open Interleave

/-- A transaction holds the lock on the token's row. -/
def tokenLocked (s : AppState) (id : Uuid) : Bool := (s.db.tokenLocks.map (·.1)).contains id

/-- None of the rows is locked. -/
def tokensUnlocked (ids : List Uuid) (s : AppState) : Bool := ids.all fun id => !tokenLocked s id

/-- The statement's time, and the rows that its `WHERE` clause selects in its snapshot. -/
def tokenSnapshot (clause : Time → RefreshTokenRecord → Bool)
    (record : Env → AppState → History) : Service (Time × List Uuid) :=
  .atomic .quiet (fun _ => true) fun e s =>
    (.ok (e.now, (s.db.refreshTokens.select (clause e.now)).map (·.id)),
      { s with history := record e s })

/-- Set `revoked_at` to `COALESCE(revoked_at, at)`. -/
def coalesceRevoked (revokedAt : Time) (t : RefreshTokenRecord) : RefreshTokenRecord :=
  { t with revokedAt := some (t.revokedAt.getD revokedAt) }

/-- `UPDATE refresh_tokens SET revoked_at = COALESCE(revoked_at, $n) WHERE ..`; returns how many
rows it changed. -/
def revokeTokens (clause : Time → RefreshTokenRecord → Bool)
    (record : Env → AppState → History) (revokedAt : Time) : Service Nat := do
  let (now, ids) ← tokenSnapshot clause record
  sqlWhen .quiet (tokensUnlocked ids) fun _ s =>
    let p := fun t => ids.contains t.id && clause now t
    (.ok (s.db.refreshTokens.count p),
      { s with db.refreshTokens := s.db.refreshTokens.update p (coalesceRevoked revokedAt) })

def createRefreshToken (tokenId userId tenantId : Uuid) (expiresAt : Time) (origin : Nat) :
    Service Unit := do
  let now ← utcNow
  sql (.issueToken userId origin) fun _ s =>
    match s.db.refreshTokens.insert
        { id := tokenId, userId, tenantId, expiresAt, revokedAt := none, replacedBy := none,
          createdAt := now, origin } with
    | some table => (.ok (), { s with db.refreshTokens := table })
    | none => (.error uniqueViolation, s)

def getRefreshToken (tokenId : Uuid) : Service (Option RefreshTokenRecord) :=
  select fun _ s => s.db.refreshTokens.find? tokenId

/-- The rows that `rotate_refresh_token` may rotate at time `now`. -/
def rotatable (tokenId : Uuid) (now : Time) (t : RefreshTokenRecord) : Bool :=
  t.id = tokenId && t.revokedAt.isNone && t.expiresAt > now

/-- The state in which call `pid` holds no lock. -/
def releaseLocks (pid : Nat) (s : AppState) : AppState :=
  { s with db.tokenLocks := s.db.tokenLocks.filter fun l => l.2 ≠ pid }

/-- The assignments of `rotate_refresh_token`. -/
def rotated (now : Time) (next : Uuid) (t : RefreshTokenRecord) : RefreshTokenRecord :=
  { t with revokedAt := some now, replacedBy := some next }

/-- The commit of a rotation: the old row is revoked and points to the new one, which goes back
to the same credential check. -/
def commitRotation (previous : Uuid) (row : RefreshTokenRecord) (e : Env) (s : AppState) :
    Except AppError Unit × AppState :=
  let origin := ((s.db.refreshTokens.find? previous).map (·.origin)).getD 0
  let table := s.db.refreshTokens.update (fun t => t.id = previous) (rotated row.createdAt row.id)
  match table.insert { row with origin } with
  | some table =>
    (.ok (), releaseLocks e.pid
      { s with
        db.refreshTokens := table
        history.rotations := (previous, row.id, e.pid) :: s.history.rotations })
  | none => (.error uniqueViolation, releaseLocks e.pid s)

def rotateRefreshToken (previousTokenId nextTokenId userId tenantId : Uuid) (expiresAt : Time) :
    Service Unit := do
  let now ← utcNow
  let (_, ids) ← tokenSnapshot (fun _ => rotatable previousTokenId now) fun _ s => s.history
  let updated ← Prog.atomic .quiet (tokensUnlocked ids) fun e s =>
    let n := s.db.refreshTokens.count fun t => ids.contains t.id && rotatable previousTokenId now t
    -- An error of the statement rolls the transaction back.
    if e.fault ≠ .none then (.error (databaseError e.detail), s)
    else if n = 0 then (.ok n, s)
    else (.ok n, { s with db.tokenLocks := (previousTokenId, e.pid) :: s.db.tokenLocks })
  Prog.ensure (updated ≠ 0) (.unauthorized "refresh token is expired or already revoked")
  let row : RefreshTokenRecord :=
    { id := nextTokenId, userId, tenantId, expiresAt, revokedAt := none, replacedBy := none,
      createdAt := now, origin := 0 }
  .atomic (.rotateToken userId) (fun _ => true) fun e s =>
    match e.fault with
    | .none => commitRotation previousTokenId row e s
    | .failed => (.error (databaseError e.detail), releaseLocks e.pid s)
    | .lost => (.error (databaseError e.detail), (commitRotation previousTokenId row e s).2)

def revokeRefreshToken (tokenId : Uuid) : Service Unit := do
  let now ← utcNow
  let _ ← revokeTokens (fun _ t => t.id = tokenId) (fun _ s => s.history) now
  return ()

def revokeUserTenantRefreshTokens (userId tenantId : Uuid) : Service Unit := do
  let now ← utcNow
  let _ ← revokeTokens
    (fun _ t => t.userId = userId && t.tenantId = tenantId && t.revokedAt.isNone)
    (fun _ s => s.history) now
  return ()

def revokeAllUserRefreshTokens (userId : Uuid) : Service Unit := do
  let now ← utcNow
  let _ ← revokeTokens (fun _ t => t.userId = userId && t.revokedAt.isNone)
    (fun e s => { s.history with
      terminating := Function.update s.history.terminating e.pid
        (some (userId, s.db.refreshTokens.rows.map (·.id))) })
    now
  return ()

/-- Most recent first, among rows of equal age in the order of the table. -/
def newestFirst (rows : List RefreshTokenRecord) : List RefreshTokenRecord :=
  rows.insertionSort fun a b => b.createdAt ≤ a.createdAt

/-- The active refresh tokens of the user at time `now`, newest first. -/
def activeRefreshTokens (s : AppState) (userId : Uuid) (now : Time) : List RefreshTokenRecord :=
  newestFirst <| s.db.refreshTokens.select fun t =>
    t.userId = userId && t.revokedAt.isNone && t.expiresAt > now

def listActiveRefreshTokens (userId : Uuid) : Service (List RefreshTokenRecord) :=
  select fun e s => activeRefreshTokens s userId e.now

def revokeUserRefreshToken (userId tokenId : Uuid) : Service Bool := do
  let now ← utcNow
  let changed ← revokeTokens
    (fun stmtNow t => t.id = tokenId && t.userId = userId && t.revokedAt.isNone &&
      t.expiresAt > stmtNow)
    (fun _ s => s.history) now
  return changed > 0

/-- Microseconds in `days` days. -/
def daysInterval (days : Nat) : Nat := seconds (days * 24 * 60 * 60)

/-- The rows past their retention: `t < now() - interval`. -/
def olderThan (now : Time) (days : Nat) (t : Time) : Bool := t + daysInterval days < now

def purgeStaleRefreshTokens (retentionDays : Nat) : Service Nat := do
  let clause := fun (now : Time) (t : RefreshTokenRecord) =>
    olderThan now retentionDays t.expiresAt ||
      (match t.revokedAt with
        | some r => olderThan now retentionDays r
        | none => false)
  let (now, ids) ← tokenSnapshot clause fun _ s => s.history
  sqlWhen .quiet (tokensUnlocked ids) fun _ s =>
    let p := fun t => ids.contains t.id && clause now t
    (.ok (s.db.refreshTokens.count p), { s with db.refreshTokens := s.db.refreshTokens.delete p })

end Fluxa.Db
