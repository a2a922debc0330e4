import Fluxa.Relational.Outbox
import Fluxa.State.Error

/-!
# State — rows

The rows of the PostgreSQL tables (`domain/*.rs`, `migrations/*.sql`) and the enumerations in their columns.  A text column under a `CHECK (... IN ...)` constraint is an enumeration here, so a value outside of it cannot be stored; `asStr` and `fromStr` are the translations of the source.  Identifiers are natural numbers, times are microseconds since the epoch, the resolution of `TIMESTAMPTZ`.
-/

namespace Fluxa
open Relational

/-- `serde_json::Value`. -/
inductive Value where
  | null
  | bool (b : Bool)
  | num (n : Int)
  | str (s : String)
  | arr (values : List Value)
  | obj (fields : List (String × Value))

namespace Value

/-- `value["field"]`, which is null where there is no such field. -/
def get (v : Value) (field : String) : Value :=
  match v with
  | .obj fields => ((fields.find? fun f => f.1 = field).map (·.2)).getD .null
  | _ => .null

/-- The field, where it is there. -/
def field? (v : Value) (field : String) : Option Value :=
  match v with
  | .obj fields => (fields.find? fun f => f.1 = field).map (·.2)
  | _ => none

def asStr? : Value → Option String
  | .str s => some s
  | _ => none

def asBool? : Value → Option Bool
  | .bool b => some b
  | _ => none

def asArray? : Value → Option (List Value)
  | .arr values => some values
  | _ => none

/-- The JSON of an optional string. -/
def ofOption : Option String → Value
  | some s => .str s
  | none => .null

end Value

/-- `uuid::Uuid`. -/
abbrev Uuid := Nat

/-- `DateTime<Utc>`, in microseconds since the epoch. -/
abbrev Time := Nat

/-- `timestamp()`: whole seconds since the epoch. -/
def Time.timestamp (t : Time) : Nat := t / 1000000

/-- A duration of `n` seconds, in microseconds. -/
def seconds (n : Nat) : Nat := n * 1000000

/-! ### Users, tenants and memberships -/

/-- `MembershipRole`. -/
inductive MembershipRole where
  | owner
  | admin
  | member
deriving DecidableEq, Repr

def MembershipRole.asStr : MembershipRole → String
  | .owner => "owner"
  | .admin => "admin"
  | .member => "member"

/-- `FromStr for MembershipRole`. -/
def MembershipRole.fromStr (value : String) : Except AppError MembershipRole :=
  if value = "owner" then .ok .owner
  else if value = "admin" then .ok .admin
  else if value = "member" then .ok .member
  else .error (.validation ("unsupported role: " ++ value))

def validateRole (value : String) : Except AppError MembershipRole := MembershipRole.fromStr value

@[simp] theorem MembershipRole.fromStr_asStr (r : MembershipRole) : fromStr r.asStr = .ok r := by
  cases r <;> decide

/-- `UserRecord`. -/
structure UserRecord where
  id : Uuid
  email : String
  passwordHash : String
  displayName : Option String
  emailVerifiedAt : Option Time
  createdAt : Time
deriving DecidableEq, Repr

/-- `TenantRecord`. -/
structure TenantRecord where
  id : Uuid
  name : String
  createdAt : Time
deriving DecidableEq, Repr

/-- A row of `tenant_memberships`. -/
structure MembershipRow where
  tenantId : Uuid
  userId : Uuid
  role : MembershipRole
  createdAt : Time
deriving DecidableEq, Repr

/-- `MembershipRecord`: a membership joined with its tenant. -/
structure MembershipRecord where
  tenantId : Uuid
  tenantName : String
  userId : Uuid
  role : MembershipRole
  createdAt : Time
deriving DecidableEq, Repr

/-- `TenantMemberRecord`: a membership joined with its user. -/
structure TenantMemberRecord where
  userId : Uuid
  email : String
  displayName : Option String
  role : MembershipRole
  joinedAt : Time
deriving DecidableEq, Repr

/-- `InvitationRecord`. -/
structure InvitationRecord where
  id : Uuid
  tenantId : Uuid
  email : String
  role : MembershipRole
  tokenHash : String
  expiresAt : Time
  acceptedAt : Option Time
  revokedAt : Option Time
  createdBy : Uuid
  createdAt : Time
deriving DecidableEq, Repr

/-! ### Sessions and accounts -/

/-- `RefreshTokenRecord`.  `origin` is no column: it is the number of the credential check that
the session goes back to, recorded for the statements about where sessions come from. -/
structure RefreshTokenRecord where
  id : Uuid
  userId : Uuid
  tenantId : Uuid
  expiresAt : Time
  revokedAt : Option Time
  replacedBy : Option Uuid
  createdAt : Time
  origin : Nat
deriving DecidableEq, Repr

/-- A row of `oauth_accounts`. -/
structure OAuthAccountRow where
  id : Uuid
  userId : Uuid
  provider : String
  providerSubject : String
  createdAt : Time
deriving DecidableEq, Repr

/-- The kinds of single-use account tokens. -/
inductive TokenKind where
  | emailVerification
  | passwordReset
deriving DecidableEq, Repr

/-- `UserTokenRecord`.  `address` is no column: it is the address to which the token was sent. -/
structure UserTokenRecord where
  id : Uuid
  userId : Uuid
  kind : TokenKind
  tokenHash : String
  expiresAt : Time
  usedAt : Option Time
  createdAt : Time
  address : String
deriving DecidableEq, Repr

/-! ### Projects, labels and tasks -/

/-- `ProjectRecord`. -/
structure ProjectRecord where
  id : Uuid
  tenantId : Uuid
  name : String
  description : Option String
  createdBy : Uuid
  updatedBy : Uuid
  createdAt : Time
  updatedAt : Time
  archivedAt : Option Time
deriving DecidableEq, Repr

/-- `LabelRecord`. -/
structure LabelRecord where
  id : Uuid
  tenantId : Uuid
  name : String
  color : Option String
  createdBy : Uuid
  updatedBy : Uuid
  createdAt : Time
  updatedAt : Time
deriving DecidableEq, Repr

/-- A row of `task_labels`. -/
structure TaskLabelRow where
  taskId : Uuid
  labelId : Uuid
deriving DecidableEq, Repr

/-- `TaskStatus`. -/
inductive TaskStatus where
  | open
  | inProgress
  | done
  | archived
deriving DecidableEq, Repr

def TaskStatus.asStr : TaskStatus → String
  | .open => "open"
  | .inProgress => "in_progress"
  | .done => "done"
  | .archived => "archived"

/-- `FromStr for TaskStatus`, which is `validate_task_status`. -/
def validateTaskStatus (value : String) : Except AppError TaskStatus :=
  if value = "open" then .ok .open
  else if value = "in_progress" then .ok .inProgress
  else if value = "done" then .ok .done
  else if value = "archived" then .ok .archived
  else .error (.validation ("unsupported task status: " ++ value))

@[simp] theorem validateTaskStatus_asStr (s : TaskStatus) :
    validateTaskStatus s.asStr = .ok s := by
  cases s <;> decide

/-- `TaskPriority`. -/
inductive TaskPriority where
  | low
  | medium
  | high
  | urgent
deriving DecidableEq, Repr

def TaskPriority.asStr : TaskPriority → String
  | .low => "low"
  | .medium => "medium"
  | .high => "high"
  | .urgent => "urgent"

/-- `FromStr for TaskPriority`, which is `validate_task_priority`. -/
def validateTaskPriority (value : String) : Except AppError TaskPriority :=
  if value = "low" then .ok .low
  else if value = "medium" then .ok .medium
  else if value = "high" then .ok .high
  else if value = "urgent" then .ok .urgent
  else .error (.validation ("unsupported task priority: " ++ value))

@[simp] theorem validateTaskPriority_asStr (p : TaskPriority) :
    validateTaskPriority p.asStr = .ok p := by
  cases p <;> decide

/-- `TaskRecord`. -/
structure TaskRecord where
  id : Uuid
  tenantId : Uuid
  projectId : Option Uuid
  title : String
  description : Option String
  status : TaskStatus
  priority : TaskPriority
  assigneeId : Option Uuid
  dueAt : Option Time
  createdBy : Uuid
  updatedBy : Uuid
  createdAt : Time
  updatedAt : Time
deriving DecidableEq, Repr

/-- `CommentRecord`. -/
structure CommentRecord where
  id : Uuid
  taskId : Uuid
  tenantId : Uuid
  authorId : Uuid
  body : String
  createdAt : Time
  updatedAt : Time
deriving DecidableEq, Repr

/-- `[u8]`. -/
abbrev Bytes := List UInt8

/-- `AttachmentRecord`.  `content` is no column: it is what has been uploaded. -/
structure AttachmentRecord where
  id : Uuid
  taskId : Uuid
  tenantId : Uuid
  uploadedBy : Uuid
  fileName : String
  contentType : String
  sizeBytes : Nat
  storageKey : String
  createdAt : Time
  content : Bytes
deriving DecidableEq, Repr

/-- `WebhookRecord`. -/
structure WebhookRecord where
  id : Uuid
  tenantId : Uuid
  url : String
  secret : String
  events : List String
  isActive : Bool
  createdBy : Uuid
  createdAt : Time
  updatedAt : Time
deriving DecidableEq, Repr

/-! ### Jobs and notifications -/

/-- `JobStatus`. -/
inductive JobStatus where
  | queued
  | running
  | completed
  | deadLetter
deriving DecidableEq, Repr

/-- `JobType`. -/
inductive JobType where
  | taskExport
  | dueReminderSweep
  | retentionSweep
deriving DecidableEq, Repr

/-- `TaskFilters`. -/
structure TaskFilters where
  status : Option TaskStatus
  priority : Option TaskPriority
  projectId : Option Uuid
  assigneeId : Option Uuid
  labelId : Option Uuid
  dueBefore : Option Time
  dueAfter : Option Time
  updatedAfter : Option Time
  q : Option String
deriving DecidableEq, Repr

/-- `ExportFormat`. -/
inductive ExportFormat where
  | json
  | csv
deriving DecidableEq, Repr

def ExportFormat.asStr : ExportFormat → String
  | .json => "json"
  | .csv => "csv"

def ExportFormat.contentType : ExportFormat → String
  | .json => "application/json"
  | .csv => "text/csv"

def ExportFormat.extension (f : ExportFormat) : String := f.asStr

/-- What the `payload` column of a job holds: one of the three objects that the service writes
there and later decodes. -/
inductive JobPayload where
  | taskExport (tenantId requestedBy : Uuid) (filters : TaskFilters) (format : ExportFormat)
  | dueReminder (tenantId : Option Uuid)
  | empty
deriving DecidableEq, Repr

/-- `BackgroundJobRecord`. -/
structure BackgroundJobRecord where
  id : Uuid
  tenantId : Option Uuid
  jobType : JobType
  status : JobStatus
  attempts : Nat
  maxAttempts : Nat
  scheduledAt : Time
  startedAt : Option Time
  finishedAt : Option Time
  payload : JobPayload
  resultPayload : Option Value
  lastError : Option String

/-- The kinds of notifications (`notify.rs`). -/
inductive NotificationKind where
  | tenantInvitation
  | emailVerification
  | passwordReset
  | taskDueSoon
  | taskOverdue
  | taskCommented
deriving DecidableEq, Repr

def NotificationKind.asStr : NotificationKind → String
  | .tenantInvitation => "tenant_invitation"
  | .emailVerification => "email_verification"
  | .passwordReset => "password_reset"
  | .taskDueSoon => "task_due_soon"
  | .taskOverdue => "task_overdue"
  | .taskCommented => "task_commented"

/-- `NewNotification`. -/
structure NewNotification where
  tenantId : Option Uuid
  userId : Option Uuid
  kind : NotificationKind
  recipient : String
  payload : Value
  dedupeKey : Option String

/-- `NotificationRecord`.  Where the outbox says `delivered`, the columns `status` and `sent_at` say
`sent`. -/
structure NotificationRecord extends OutboxColumns Uuid where
  tenantId : Option Uuid
  userId : Option Uuid
  kind : NotificationKind
  recipient : String
  payload : Value
  dedupeKey : Option String
  readAt : Option Time
  createdAt : Time

instance : OutboxRow NotificationRecord Uuid where
  columns := NotificationRecord.toOutboxColumns
  modify f r := { r with toOutboxColumns := f r.toOutboxColumns }
  columns_modify _ _ := rfl

/-- A row of `notification_preferences`. -/
structure PreferenceRow where
  userId : Uuid
  kind : NotificationKind
  enabled : Bool
deriving DecidableEq, Repr

/-- `AuditEventRecord`. -/
structure AuditEventRecord where
  id : Uuid
  tenantId : Option Uuid
  actorUserId : Option Uuid
  subjectType : String
  subjectId : Option Uuid
  eventType : String
  payload : Value
  createdAt : Time

/-- `TaskAuditRecord`. -/
structure TaskAuditRecord where
  id : Uuid
  taskId : Option Uuid
  tenantId : Uuid
  actorUserId : Uuid
  eventType : String
  payload : Value
  createdAt : Time

/-- `WebhookDeliveryRecord`. -/
structure WebhookDeliveryRecord extends OutboxColumns Uuid where
  webhookId : Uuid
  tenantId : Uuid
  eventType : String
  payload : Value
  createdAt : Time

instance : OutboxRow WebhookDeliveryRecord Uuid where
  columns := WebhookDeliveryRecord.toOutboxColumns
  modify f r := { r with toOutboxColumns := f r.toOutboxColumns }
  columns_modify _ _ := rfl

end Fluxa
