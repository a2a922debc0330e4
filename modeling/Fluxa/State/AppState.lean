import Fluxa.Interleave.System
import Fluxa.Relational.Table
import Fluxa.State.Config

/-!
# State — the shared state

What the processes of the service share: the database, Redis and the artifact storage, and the environment inputs that single statements receive.  A service is a program of statements on this state (`Service`); every SQL statement outside a transaction, every Redis command, every storage operation and every call of a clock or a random generator is one statement.

`History` is no part of the program: it records what has happened, for statements about runs.  No service reads it, apart from the check that a JSON web token was signed here (`minted`), which stands for the signature.
-/

namespace Fluxa
open Interleave Relational

/-! ### The database -/

/-- An open transaction that replaces the labels of a task, with its changes to `task_labels`,
which nobody else sees. -/
structure LabelTx where
  /-- The call whose transaction it is. -/
  pid : Nat
  taskId : Uuid
  /-- The labels asked for. -/
  wanted : List Uuid
  /-- The labels that its `DELETE` has found to delete. -/
  found : List Uuid
  deleted : List Uuid
  inserted : List Uuid
deriving DecidableEq, Repr

/-- An open transaction that registers a webhook.  It holds the lock on the row of its tenant;
nobody else sees the rows that it has inserted. -/
structure WebhookTx where
  /-- The call whose transaction it is. -/
  pid : Nat
  tenantId : Uuid
  inserted : List WebhookRecord
deriving DecidableEq, Repr

/-- An open transaction that accepts an invitation.  It holds the lock on the invitation's row;
nobody else sees that it has been accepted, nor the membership that has been inserted. -/
structure AcceptTx where
  /-- The call whose transaction it is. -/
  pid : Nat
  /-- The row as it was found. -/
  invitation : InvitationRecord
  acceptedAt : Time
  membership : Option MembershipRow
deriving DecidableEq, Repr

/-- The tables. -/
structure Database where
  users : Table UserRecord UserRecord.id
  tenants : Table TenantRecord TenantRecord.id
  memberships : Table MembershipRow fun m => (m.tenantId, m.userId)
  invitations : Table InvitationRecord InvitationRecord.id
  refreshTokens : Table RefreshTokenRecord RefreshTokenRecord.id
  oauthAccounts : Table OAuthAccountRow OAuthAccountRow.id
  userTokens : Table UserTokenRecord UserTokenRecord.id
  projects : Table ProjectRecord ProjectRecord.id
  labels : Table LabelRecord LabelRecord.id
  taskLabels : Table TaskLabelRow fun r => (r.taskId, r.labelId)
  tasks : Table TaskRecord TaskRecord.id
  taskAudit : Table TaskAuditRecord TaskAuditRecord.id
  comments : Table CommentRecord CommentRecord.id
  attachments : Table AttachmentRecord AttachmentRecord.id
  webhooks : Table WebhookRecord WebhookRecord.id
  webhookDeliveries : Table WebhookDeliveryRecord OutboxRow.key
  jobs : Table BackgroundJobRecord BackgroundJobRecord.id
  notifications : Table NotificationRecord OutboxRow.key
  preferences : Table PreferenceRow fun r => (r.userId, r.kind)
  auditLog : Table AuditEventRecord AuditEventRecord.id
  /-- The rows of `refresh_tokens` that an open transaction has updated, and the call whose
  transaction it is. -/
  tokenLocks : List (Uuid × Nat)
  /-- The open transactions that replace labels. -/
  labelTxs : List LabelTx
  /-- The open transactions that register webhooks. -/
  webhookTxs : List WebhookTx
  /-- The open transactions that accept invitations. -/
  acceptTxs : List AcceptTx
deriving Inhabited

/-! ### Redis and storage -/

/-- `StoredResponse`. -/
structure StoredResponse where
  status : Nat
  body : Value

/-- What `CacheStore::idempotency_key` is built from. -/
structure IdempotencyKey where
  tenantId : Uuid
  route : String
  key : String
deriving DecidableEq, Repr

/-- The value under an idempotency key: the marker `__pending__` or a response. -/
inductive IdempotencyValue where
  | pending
  | ready (response : StoredResponse)

/-- A Redis key: its value, and when it expires, if ever. -/
structure Entry (α : Type) where
  value : α
  expiresAt : Option Time

/-- The entry is still there at time `now`. -/
def Entry.live {α : Type} (e : Entry α) (now : Time) : Bool :=
  match e.expiresAt with
  | some t => now < t
  | none => true

/-- What `task_list_cache_key` and `task_detail_cache_key` are built from. -/
inductive TaskCacheKey where
  | list (tenantId : Uuid) (version : Nat) (filters : TaskFilters) (cursorToken : Option String)
      (limit : Nat)
  | detail (tenantId : Uuid) (version : Nat) (taskId : Uuid)
deriving DecidableEq, Repr

/-- `TaskPage`. -/
structure TaskPage where
  data : List TaskRecord
  nextCursor : Option String
deriving DecidableEq, Repr

/-- A cached answer.  `asOf` is no part of it: it is the number of changes that had been committed
when the answer was computed. -/
structure CachedTasks where
  answer : TaskPage ⊕ TaskRecord
  asOf : Nat

/-- The answer as a page, with its stamp. -/
def CachedTasks.page? (c : CachedTasks) : Option (TaskPage × Nat) :=
  c.answer.getLeft?.map fun page => (page, c.asOf)

/-- The answer as a task, with its stamp. -/
def CachedTasks.task? (c : CachedTasks) : Option (TaskRecord × Nat) :=
  c.answer.getRight?.map fun task => (task, c.asOf)

/-- The keys of Redis that the modelled functions use. -/
structure Cache where
  idempotency : IdempotencyKey → Option (Entry IdempotencyValue)
  /-- The denylist of access tokens, by `jti`. -/
  denylist : Uuid → Option (Entry Unit)
  /-- The cache version of each tenant. -/
  versions : Uuid → Nat
  /-- The bumps of each tenant's version so far, for statements about runs: the version reached,
  and the number of changes committed until then. -/
  bumps : Uuid → List (Nat × Nat)
  /-- The cached answers about tasks. -/
  tasks : TaskCacheKey → Option (Entry CachedTasks)
  /-- The job queue. -/
  jobQueue : List Uuid

instance : Inhabited Cache :=
  ⟨⟨fun _ => none, fun _ => none, fun _ => 0, fun _ => [], fun _ => none, []⟩⟩

/-! ### Tokens -/

/-- The `token_type` of a JSON web token. -/
inductive TokenType where
  | access
  | refresh
deriving DecidableEq, Repr

def TokenType.asStr : TokenType → String
  | .access => "access"
  | .refresh => "refresh"

/-- `TokenClaims`.  `origin` is no claim: it is the number of the credential check that the
session goes back to. -/
structure TokenClaims where
  sub : Uuid
  tenantId : Uuid
  role : MembershipRole
  tokenType : TokenType
  jti : Uuid
  iat : Nat
  exp : Nat
  origin : Nat
deriving DecidableEq, Repr

/-- A JSON web token, given by the claims that it carries.  Its HS256 signature is genuine when
the claims are among those `minted`. -/
abbrev Jwt := TokenClaims

/-! ### What has happened so far -/

/-- The resources that the idempotent handlers create. -/
inductive ResourceKind where
  | invitation
  | project
  | label
  | webhook
  | comment
  | attachment
  | task
  | export
deriving DecidableEq, Repr

/-- A record of the run, for statements about it. -/
structure History where
  /-- The identifiers generated so far, each with the call that generated it. -/
  issued : List (Uuid × Nat)
  /-- The JSON web tokens signed so far. -/
  minted : List TokenClaims
  /-- The rotations committed so far: the old token, the new one, and the call. -/
  rotations : List (Uuid × Uuid × Nat)
  /-- How many credential checks have succeeded so far. -/
  checks : Nat
  /-- The session terminations whose revoking statement has started and that have not returned
  yet, by their call: the user, and the refresh tokens there were when the statement started. -/
  terminating : Nat → Option (Uuid × List Uuid)
  /-- The session terminations that have returned, with the number of checks until then. -/
  terminated : List (Nat × Uuid × Nat)
  /-- The claims `(job, attempts)` obtained so far, with the call that obtained them. -/
  claims : List (Uuid × Nat × Nat)
  /-- The claims `(job, attempts)` that a lease recovery has ended. -/
  recovered : List (Uuid × Nat)
  /-- The outcomes written so far: the claim `(job, attempts)` and whether it was a success. -/
  outcomes : List (Uuid × Nat × Bool)
  /-- The looks for a recent retention sweep so far, the newest first: the call and the time. -/
  looked : List (Nat × Time)
  /-- The retention sweeps created so far, the newest first, each with the time of its creation. -/
  sweeps : List (Uuid × Time)
  /-- The claims on messages of an outbox so far, each with the call and the messages that it has
  got: a claim's number is its place in the list. -/
  leases : List (Nat × List Uuid)
  /-- The verification tokens consumed so far: their user and the address they were sent to. -/
  consumed : List (Uuid × String)
  /-- The account tokens consumed so far, each with the call. -/
  uses : List (Uuid × Nat)
  /-- The identities that a provider has reported as verified: provider, subject, address. -/
  reported : List (String × String × String)
  /-- The requests authorised so far: the call, the tenant, the user, and the role of the user's
  membership. -/
  authorised : List (Nat × Uuid × Uuid × MembershipRole)
  /-- What the acceptances of invitations have read from the clock so far, each with the call. -/
  acceptClocks : List (Nat × Time)
  /-- The invitations accepted so far, the newest first: the call, the invitation and the membership
  that it has yielded. -/
  joined : List (Nat × Uuid × MembershipRow)
  /-- The users that a create or update of a task set as its assignee. -/
  assigned : List (Uuid × Uuid)
  /-- The changes of tasks, labels and projects committed so far: the call of each. -/
  commits : List Nat
  /-- The replacements of labels committed so far, the newest first: the call, the task and the
  labels asked for. -/
  replaced : List (Nat × Uuid × List Uuid)
  /-- The notifications put into the outbox so far. -/
  enqueued : List NewNotification
  /-- The resources committed on behalf of idempotent requests. -/
  created : List (Nat × ResourceKind × Uuid)
  /-- The requests to which the commit of their resource was reported as a failure. -/
  unreported : List Nat
  /-- The idempotency keys claimed so far, the newest first, each with the request that has claimed
  it. -/
  keyClaims : List (Nat × IdempotencyKey)
  /-- The responses stored so far under idempotency keys, each with the request. -/
  stored : List (Nat × IdempotencyKey × StoredResponse)
  /-- The requests whose deletion of their idempotency key has taken effect. -/
  released : List Nat
deriving Inhabited

/-- The shared state. -/
structure AppState where
  db : Database
  cache : Cache
  storage : String → Option Bytes
  history : History

instance : Inhabited AppState := ⟨⟨default, default, fun _ => none, default⟩⟩

/-! ### The environment of a statement -/

/-- What becomes of a statement on the database or of a Redis command. -/
inductive Fault where
  /-- It is executed and its result arrives. -/
  | none
  /-- It is not executed; the caller gets an error. -/
  | failed
  /-- It is executed, but its result is lost; the caller gets an error. -/
  | lost
deriving DecidableEq, Repr

/-- The reply of a provider to a request. -/
inductive HttpReply where
  /-- No reply. -/
  | failed
  /-- A reply without a success status. -/
  | rejected
  /-- A reply with a success status, and its body where that is JSON. -/
  | success (body : Option Value)

/-- The inputs of one statement. -/
structure Env where
  /-- The call that executes the statement. -/
  pid : Nat
  /-- The clock. -/
  now : Time
  /-- The identifier that a call of `Uuid::new_v4` returns. -/
  uuid : Uuid
  /-- The identifiers that the database generates in one statement, row by row. -/
  rowUuid : Nat → Uuid
  /-- The rows that other transactions hold locked when the statement runs. -/
  locked : Uuid → Bool
  /-- The order in which the database returns rows that an `ORDER BY` leaves tied. -/
  rank : Uuid → Nat
  /-- What the random generator returns, encoded as text. -/
  random : String
  /-- What becomes of the statement. -/
  fault : Fault
  /-- The text of the error, where there is one. -/
  detail : String
  /-- The reply of the provider, where one is asked. -/
  reply : HttpReply
  /-- How many bytes of a file a failing operation has written. -/
  written : Nat

instance : Inhabited Env := ⟨⟨0, 0, 0, id, fun _ => false, fun _ => 0, "", .none, "", .failed, 0⟩⟩

/-- What a statement is about, where the conditions on runs speak of it. -/
inductive Event where
  | quiet
  /-- A membership is given the role, or deleted when there is none. -/
  | membershipWrite (tenantId userId : Uuid) (role : Option MembershipRole)
  /-- The outcome of the execution that obtained claim number `attempts` is written. -/
  | outcome (job : Uuid) (attempts : Nat)
  /-- A refresh token that goes back to credential check number `origin` is inserted. -/
  | issueToken (userId : Uuid) (origin : Nat)
  /-- A rotation is committed. -/
  | rotateToken (userId : Uuid)
  /-- A session termination returns. -/
  | returnTermination
  /-- An account token is issued that will be sent to `address`; the call has found the unused
  tokens `known` before. -/
  | issueUserToken (id userId : Uuid) (kind : TokenKind) (tokenHash address : String)
      (known : List Uuid)
  /-- A user is given an address. -/
  | setEmail (userId : Uuid) (email : String)
  /-- A user's email is marked as verified, for the sake of `address`. -/
  | markVerified (userId : Uuid) (address : String)
  /-- The row of an attachment is inserted. -/
  | insertAttachment
  /-- A job of the type is inserted for the tenant. -/
  | insertJob (jobType : JobType) (tenantId : Option Uuid)
  /-- A task is updated, or created. -/
  | taskWrite
  /-- Messages of an outbox are claimed. -/
  | claimMessages
  /-- A message is sent under a claim. -/
  | sendMessage (id : Uuid) (claim : Nat)
  /-- The outcome of a claim on a message is written. -/
  | endMessage (id : Uuid) (claim : Nat)
  /-- A message is put back to be delivered again. -/
  | redeliver (id : Uuid)
  /-- A replacement of labels is committed. -/
  | commitLabels
  /-- The acceptance of an invitation is committed. -/
  | commitAcceptance
  /-- A statement that follows a commit, and with which the call can still fail. -/
  | afterCommit
deriving DecidableEq, Repr

/-- A program of the service. -/
abbrev Service := Prog Event Env AppState AppError

/-- Note the commit of a resource by an idempotent request. -/
def noteCreated (e : Env) (kind : ResourceKind) (id : Uuid) (h : History) : History :=
  { h with
    created := (e.pid, kind, id) :: h.created
    unreported := if e.fault = .none then h.unreported else e.pid :: h.unreported }

/-! ### Kinds of statements -/

/-- A statement on the database that waits until `ready`. -/
def sqlWhen {A : Type} (event : Event) (ready : AppState → Bool)
    (run : Env → AppState → Except AppError A × AppState) : Service A :=
  .atomic event ready fun e s =>
    match e.fault with
    | .none => run e s
    | .failed => (.error (databaseError e.detail), s)
    | .lost => (.error (databaseError e.detail), (run e s).2)

/-- A statement on the database that need not wait. -/
def sql {A : Type} (event : Event) (run : Env → AppState → Except AppError A × AppState) :
    Service A :=
  sqlWhen event (fun _ => true) run

/-- A `SELECT`. -/
def select {A : Type} (run : Env → AppState → A) : Service A :=
  sql .quiet fun e s => (.ok (run e s), s)

/-- A `SELECT`, whose result is stamped with the number of changes committed before. -/
def selectAsOf {A : Type} (run : Env → AppState → A) : Service (A × Nat) :=
  select fun e s => (run e s, s.history.commits.length)

/-- A Redis command. -/
def redisAs {A : Type} (event : Event) (run : Env → AppState → A × AppState) : Service A :=
  .atomic event (fun _ => true) fun e s =>
    match e.fault with
    | .none => (.ok (run e s).1, (run e s).2)
    | .failed => (.error (redisError e.detail), s)
    | .lost => (.error (redisError e.detail), (run e s).2)

def redis {A : Type} (run : Env → AppState → A × AppState) : Service A := redisAs .quiet run

/-- `Utc::now()`. -/
def utcNow : Service Time := .atomic .quiet (fun _ => true) fun e s => (.ok e.now, s)

/-- `Uuid::new_v4()`. -/
def newUuid : Service Uuid :=
  .atomic .quiet (fun _ => true) fun e s =>
    (.ok e.uuid, { s with history.issued := (e.uuid, e.pid) :: s.history.issued })

/-- A value of the random generator. -/
def generateRandom : Service String :=
  .atomic .quiet (fun _ => true) fun e s => (.ok e.random, s)

/-- Note something in the history. -/
def note (record : Env → History → History) : Service Unit :=
  .atomic .quiet (fun _ => true) fun e s => (.ok (), { s with history := record e s.history })

/-- The inputs that the platform can supply to a statement of call `i`: a generated identifier
has not been generated before, and nothing fails in returning. -/
def admissible (i : Nat) (event : Event) (e : Env) (s : AppState) : Bool :=
  e.pid = i && !(s.history.issued.map (·.1)).contains e.uuid &&
    (event ≠ .returnTermination || e.fault = .none)

/-! ### Libraries -/

/-- The parts of an `http::Uri` that are read. -/
structure Uri where
  scheme : Option String
  host : Option String
deriving DecidableEq, Repr

/-- The third-party functions that the services call. -/
structure Libraries where
  /-- Argon2 with a salt; an error has a text. -/
  hashPassword : (salt password : String) → Except String String
  /-- Argon2 verification; an error when the stored hash does not parse. -/
  verifyPassword : (password hash : String) → Except String Bool
  /-- The SHA-256 digest in hexadecimal. -/
  sha256Hex : String → String
  uuidString : Uuid → String
  /-- `serde_json::from_value` of a string to an identifier. -/
  parseUuid : String → Option Uuid
  rfc3339 : Time → String
  /-- How `serde` writes a time. -/
  jsonTime : Time → String
  /-- `serde_json::from_value` of a string to a time. -/
  parseTime : String → Option Time
  /-- `DateTime::parse_from_rfc3339`; an error has a text. -/
  parseRfc3339 : String → Except String Time
  /-- `LOWER` of the database. -/
  lower : String → String
  /-- `serde_json::to_vec`. -/
  jsonBytes : Value → Bytes
  /-- `URL_SAFE_NO_PAD.encode`. -/
  base64Encode : Bytes → String
  /-- `URL_SAFE_NO_PAD.decode`; an error has a text. -/
  base64Decode : String → Except String Bytes
  /-- `serde_json::to_vec` of a cursor, whose time is under the given field name. -/
  cursorJson : (field : String) → Time × Uuid → Bytes
  /-- `serde_json::from_slice` to a cursor; an error has a text. -/
  parseCursorJson : (field : String) → Bytes → Except String (Time × Uuid)
  parseUri : String → Option Uri
  /-- `to_tsvector(title, description) @@ websearch_to_tsquery(query)`. -/
  textSearch : (query title : String) → (description : Option String) → Bool
  /-- `text ILIKE pattern`. -/
  ilike : (pattern text : String) → Bool

/-- Plain functions in the place of the libraries, for runs on fixed inputs. -/
instance : Inhabited Libraries := ⟨{
  hashPassword := fun _ password => .ok password
  verifyPassword := fun password hash => .ok (password = hash)
  sha256Hex := id
  uuidString := fun id => toString id
  parseUuid := fun text => text.toNat?
  rfc3339 := fun t => toString t
  jsonTime := fun t => toString t
  parseTime := fun text => text.toNat?
  parseRfc3339 := fun text => text.toNat?.elim (.error "") .ok
  lower := id
  jsonBytes := fun _ => []
  base64Encode := fun bytes => String.ofList (bytes.map fun b => Char.ofNat b.toNat)
  base64Decode := fun text => .ok (text.toList.map fun c => c.toNat.toUInt8)
  cursorJson := fun _ c => List.replicate c.1 0 ++ 1 :: List.replicate c.2 0
  parseCursorJson := fun _ bytes =>
    let time := (bytes.takeWhile (· = 0)).length
    .ok (time, bytes.length - time - 1)
  parseUri := fun _ => none
  textSearch := fun _ _ _ => false
  ilike := fun _ _ => false }⟩

/-- The configuration and the libraries, which a run does not change. -/
structure App where
  config : Cli
  lib : Libraries
deriving Inhabited

end Fluxa
