import Fluxa.Http.Members
import Fluxa.Services.Attachments
import Fluxa.Services.Comments
import Fluxa.Services.Jobs

/-!
# Http — the routes of tasks

The handlers of `http/handlers.rs` that change tasks, comments and attachments, and the one that asks for an export, with their payloads (`http/dto.rs`).
-/

namespace Fluxa
open Interleave Db

def UpdateTaskInput.validate (input : UpdateTaskInput) : Except AppError UpdateTaskInput :=
  if input.title.any isBlank then .error (.validation "title cannot be empty") else .ok input

/-- `FromStr for ExportFormat`. -/
def ExportFormat.fromStr (value : String) : Except AppError ExportFormat :=
  if value = "json" then .ok .json
  else if value = "csv" then .ok .csv
  else .error (.validation s!"unsupported export format: {value} (expected json or csv)")

@[simp] theorem ExportFormat.fromStr_asStr (f : ExportFormat) : fromStr f.asStr = .ok f := by
  cases f <;> decide

def TaskFilters.validate (filters : TaskFilters) : Except AppError TaskFilters := .ok filters

def JobStatus.asStr : JobStatus → String
  | .queued => "queued"
  | .running => "running"
  | .completed => "completed"
  | .deadLetter => "dead_letter"

def JobType.asStr : JobType → String
  | .taskExport => "task_export"
  | .dueReminderSweep => "due_reminder_sweep"
  | .retentionSweep => "retention_sweep"

/-- The JSON of a job's payload. -/
def JobPayload.toValue (app : App) : JobPayload → Value
  | .taskExport tenantId requestedBy filters format =>
    Jobs.ExportJobPayload.toValue app ⟨tenantId, requestedBy, filters, format⟩
  | .dueReminder tenantId => .obj [("tenant_id", idValue app tenantId)]
  | .empty => .obj []

namespace Jobs

def jobResponseValue (app : App) (job : BackgroundJobRecord) : Value :=
  .obj [("id", .str (app.lib.uuidString job.id)), ("tenant_id", idValue app job.tenantId),
    ("job_type", .str job.jobType.asStr), ("status", .str job.status.asStr),
    ("attempts", .num job.attempts), ("max_attempts", .num job.maxAttempts),
    ("scheduled_at", .str (app.lib.jsonTime job.scheduledAt)),
    ("started_at", timeValue app job.startedAt), ("finished_at", timeValue app job.finishedAt),
    ("payload", job.payload.toValue app), ("result_payload", job.resultPayload.getD .null),
    ("last_error", .ofOption job.lastError)]

end Jobs

namespace Http

def normalizeOptionalChoice (value : Option String) : Option String :=
  value.map fun value => toAsciiLowercase (trim value)

def parseOptionalDatetime (app : App) (value : Option String) (field : String) :
    Except AppError (Option Time) :=
  value.mapM fun value =>
    match app.lib.parseRfc3339 (trim value) with
    | .ok time => .ok time
    | .error error => .error (.validation s!"{field} must be an RFC3339 timestamp: {error}")

/-! ### Tasks -/

/-- `TaskPayload`. -/
structure TaskPayload where
  projectId : Option Uuid
  title : String
  description : Option String
  status : Option String
  priority : Option String
  assigneeId : Option Uuid
  dueAt : Option Time
deriving DecidableEq, Repr

/-- The input that `create_task` makes of its payload. -/
def TaskPayload.toInput (payload : TaskPayload) : Except AppError CreateTaskInput := do
  let status ← (normalizeOptionalChoice payload.status).mapM validateTaskStatus
  let priority ← (normalizeOptionalChoice payload.priority).mapM validateTaskPriority
  CreateTaskInput.validate
    { projectId := payload.projectId, title := payload.title, description := payload.description,
      status, priority, assigneeId := payload.assigneeId, dueAt := payload.dueAt }

/-- `TaskPatchPayload`. -/
structure TaskPatchPayload where
  projectId : Option (Option Uuid)
  title : Option String
  description : Option (Option String)
  status : Option String
  priority : Option String
  assigneeId : Option (Option Uuid)
  dueAt : Option (Option Time)
deriving DecidableEq, Repr

/-- The input that `update_task` makes of its payload. -/
def TaskPatchPayload.toInput (payload : TaskPatchPayload) : Except AppError UpdateTaskInput := do
  let status ← (normalizeOptionalChoice payload.status).mapM validateTaskStatus
  let priority ← (normalizeOptionalChoice payload.priority).mapM validateTaskPriority
  UpdateTaskInput.validate
    { projectId := payload.projectId, title := payload.title, description := payload.description,
      status, priority, assigneeId := payload.assigneeId, dueAt := payload.dueAt }

def createTask (app : App) (user : AuthenticatedUser) (idempotencyKey : Option String)
    (payload : TaskPayload) : Service StoredResponse := do
  .lift (ensureTaskWriteRole user.role)
  let key ← .lift (requiredIdempotencyKey idempotencyKey)
  idempotent app ⟨user.tenantId, "tasks:create", key⟩ payload.toInput
    (fun input => Tasks.createTask app user.tenantId user.userId input)
    fun task => createdResponse (taskResponseValue app task)

def updateTask (app : App) (user : AuthenticatedUser) (taskId : Uuid)
    (payload : TaskPatchPayload) : Service Value := do
  .lift (ensureTaskWriteRole user.role)
  let input ← .lift payload.toInput
  return taskResponseValue app (← Tasks.updateTask app user.tenantId taskId user.userId input)

/-- The JSON of `BulkTaskStatusResponse`. -/
def bulkTaskStatusResponseValue (app : App) (tasks : List TaskRecord) : Value :=
  .obj [("updated", .num tasks.length), ("data", .arr (tasks.map (taskResponseValue app)))]

def bulkUpdateTaskStatus (app : App) (user : AuthenticatedUser) (taskIds : List Uuid)
    (status : String) : Service Value := do
  .lift (ensureTaskWriteRole user.role)
  let status ← .lift (validateTaskStatus (trim status))
  return bulkTaskStatusResponseValue app
    (← Tasks.bulkUpdateTaskStatus app user.tenantId user.userId taskIds status)

def deleteTask (app : App) (user : AuthenticatedUser) (taskId : Uuid) : Service Unit := do
  .lift (ensureAdminRole user.role)
  Tasks.archiveTask app user.tenantId taskId user.userId

def restoreTask (app : App) (user : AuthenticatedUser) (taskId : Uuid) : Service Value := do
  .lift (ensureTaskWriteRole user.role)
  return taskResponseValue app (← Tasks.restoreTask app user.tenantId taskId user.userId)

/-! ### Comments -/

/-- The JSON of `CommentResponse`. -/
def commentResponseValue (app : App) (c : CommentRecord) : Value :=
  .obj [("id", .str (app.lib.uuidString c.id)), ("task_id", .str (app.lib.uuidString c.taskId)),
    ("author_id", .str (app.lib.uuidString c.authorId)), ("body", .str c.body),
    ("created_at", .str (app.lib.jsonTime c.createdAt)),
    ("updated_at", .str (app.lib.jsonTime c.updatedAt))]

def createTaskComment (app : App) (user : AuthenticatedUser) (taskId : Uuid)
    (idempotencyKey : Option String) (body : String) : Service StoredResponse := do
  .lift (ensureTaskWriteRole user.role)
  let body ← .lift (validateCommentBody body)
  let key ← .lift (requiredIdempotencyKey idempotencyKey)
  idempotent app ⟨user.tenantId, "comments:create", key⟩ (.ok ())
    (fun _ => Comments.createComment app user.tenantId taskId user.userId body)
    fun comment => createdResponse (commentResponseValue app comment)

def updateTaskComment (app : App) (user : AuthenticatedUser) (taskId commentId : Uuid)
    (body : String) : Service Value := do
  .lift (ensureTaskWriteRole user.role)
  let body ← .lift (validateCommentBody body)
  return commentResponseValue app
    (← Comments.updateComment user.tenantId taskId commentId user.userId body)

def deleteTaskComment (app : App) (user : AuthenticatedUser) (taskId commentId : Uuid) :
    Service Unit :=
  Comments.deleteComment app user.tenantId taskId commentId user.userId user.role

/-! ### Attachments -/

/-- The JSON of `AttachmentResponse`. -/
def attachmentResponseValue (app : App) (a : AttachmentRecord) : Value :=
  let taskId := app.lib.uuidString a.taskId
  let id := app.lib.uuidString a.id
  .obj [("id", .str id), ("task_id", .str taskId),
    ("uploaded_by", .str (app.lib.uuidString a.uploadedBy)), ("file_name", .str a.fileName),
    ("content_type", .str a.contentType), ("size_bytes", .num a.sizeBytes),
    ("download_path", .str s!"/v1/tasks/{taskId}/attachments/{id}/download"),
    ("created_at", .str (app.lib.jsonTime a.createdAt))]

/-- The checks of an upload's body. -/
def checkAttachmentBody (app : App) (body : Bytes) : Except AppError Unit :=
  if body = [] then .error (.validation "attachment body must not be empty")
  else if body.length > app.config.maxAttachmentSizeBytes then
    .error (.payloadTooLarge
      s!"attachment exceeds the maximum size of {app.config.maxAttachmentSizeBytes} bytes")
  else .ok ()

def uploadTaskAttachment (app : App) (user : AuthenticatedUser) (taskId : Uuid)
    (fileName : String) (contentType idempotencyKey : Option String) (body : Bytes) :
    Service StoredResponse := do
  .lift (ensureTaskWriteRole user.role)
  let fileName ← .lift (validateAttachmentFileName fileName)
  .lift (checkAttachmentBody app body)
  let key ← .lift (requiredIdempotencyKey idempotencyKey)
  idempotent app ⟨user.tenantId, "attachments:create", key⟩ (.ok ())
    (fun _ => Attachments.uploadAttachment app user.tenantId taskId user.userId fileName
      (normalizeAttachmentContentType contentType) body)
    fun attachment => createdResponse (attachmentResponseValue app attachment)

def deleteTaskAttachment (app : App) (user : AuthenticatedUser) (taskId attachmentId : Uuid) :
    Service Unit :=
  Attachments.deleteAttachment app user.tenantId taskId attachmentId user.userId user.role

/-! ### Exports -/

/-- `ExportRequest`. -/
structure ExportRequest where
  status : Option String
  priority : Option String
  projectId : Option Uuid
  assigneeId : Option Uuid
  labelId : Option Uuid
  dueBefore : Option String
  dueAfter : Option String
  updatedAfter : Option String
  q : Option String
  format : Option String
deriving DecidableEq, Repr

def ExportRequest.exportFormat (request : ExportRequest) : Except AppError ExportFormat :=
  match normalizeOptionalChoice request.format with
  | some value => ExportFormat.fromStr value
  | none => .ok .json

def ExportRequest.intoFilters (app : App) (request : ExportRequest) :
    Except AppError TaskFilters := do
  let status ← (normalizeOptionalChoice request.status).mapM validateTaskStatus
  let priority ← (normalizeOptionalChoice request.priority).mapM validateTaskPriority
  let dueBefore ← parseOptionalDatetime app request.dueBefore "due_before"
  let dueAfter ← parseOptionalDatetime app request.dueAfter "due_after"
  let updatedAfter ← parseOptionalDatetime app request.updatedAfter "updated_after"
  TaskFilters.validate
    { status, priority, projectId := request.projectId, assigneeId := request.assigneeId,
      labelId := request.labelId, dueBefore, dueAfter, updatedAfter,
      q := request.q.filter fun value => !isBlank value }

/-- The format and the filters of a request. -/
def ExportRequest.toInput (app : App) (request : ExportRequest) :
    Except AppError (ExportFormat × TaskFilters) := do
  let format ← request.exportFormat
  let filters ← request.intoFilters app
  return (format, filters)

/-- The response with the status `ACCEPTED` and the given body. -/
def acceptedResponse (body : Value) : StoredResponse := ⟨202, body⟩

def createExport (app : App) (user : AuthenticatedUser) (idempotencyKey : Option String)
    (payload : ExportRequest) : Service StoredResponse := do
  .lift (ensureAdminRole user.role)
  let key ← .lift (requiredIdempotencyKey idempotencyKey)
  idempotent app ⟨user.tenantId, "exports:create", key⟩ (payload.toInput app)
    (fun input => Jobs.createExportJob app user.tenantId user.userId input.2 input.1)
    fun job => acceptedResponse (Jobs.jobResponseValue app job)

end Http

end Fluxa
