import Fluxa.Db.Jobs
import Fluxa.Db.Notifications
import Fluxa.Db.RefreshTokens
import Fluxa.Services.Tasks

/-!
# Services — jobs

`services/jobs.rs`: creating, dispatching, recovering and processing background jobs.  The export loop is given with a bound on its rounds, after which it waits for ever: a run of the program is a run here under every bound that is large enough.
-/

namespace Fluxa
open Interleave Db

namespace Jobs

/-- `EXPORT_CHUNK_SIZE`. -/
def exportChunkSize : Nat := 500

/-- `REMINDER_CANDIDATE_LIMIT`. -/
def reminderCandidateLimit : Nat := 500

def createExportJob (app : App) (tenantId requestedBy : Uuid) (filters : TaskFilters)
    (format : ExportFormat) : Service BackgroundJobRecord := do
  let job ← createJob (some tenantId) .taskExport
    (.taskExport tenantId requestedBy filters format) app.config.maxJobAttempts
  Cache.enqueueJob job.id
  return job

def getTenantJob (jobId tenantId : Uuid) : Service BackgroundJobRecord := do
  let job ← Prog.okOr (← getJob jobId) (.notFound "job not found")
  Prog.ensure (job.tenantId = some tenantId) (.notFound "job not found")
  return job

/-- `JobResultResponse`. -/
structure JobResult where
  jobId : Uuid
  jobType : JobType
  finishedAt : Option Time
  result : Value

/-- `TryFrom<&BackgroundJobRecord> for JobResultResponse`. -/
def JobResult.ofJob (job : BackgroundJobRecord) : Except AppError JobResult :=
  match job.resultPayload with
  | some result => .ok ⟨job.id, job.jobType, job.finishedAt, result⟩
  | none => .error (.internal "completed job is missing result payload")

def getTenantJobResult (jobId tenantId : Uuid) : Service JobResult := do
  let job ← getTenantJob jobId tenantId
  match job.status with
  | .completed => .lift (JobResult.ofJob job)
  | .queued | .running => .fail (.conflict "job result is not ready")
  | .deadLetter => .fail (.conflict "job did not complete successfully")

/-- Put the job, if there is one, into the queue. -/
def enqueueCreated : Option BackgroundJobRecord → Service Unit
  | some job => Cache.enqueueJob job.id
  | none => return ()

def enqueueDueReminderSweep (app : App) (tenantId : Option Uuid) :
    Service (Option BackgroundJobRecord) := do
  let job ← ensureDueReminderJob tenantId app.config.maxJobAttempts
  enqueueCreated job
  return job

def enqueueRetentionSweep (app : App) : Service (Option BackgroundJobRecord) := do
  let job ← ensureRetentionJob app.config.retentionSweepIntervalHours app.config.maxJobAttempts
  enqueueCreated job
  return job

/-- Put the jobs into the queue. -/
def enqueueAll : List Uuid → Service Unit
  | [] => return ()
  | jobId :: jobIds => do
    Cache.enqueueJob jobId
    enqueueAll jobIds

def dispatchReadyJobs (limit : Nat) : Service Unit := do
  enqueueAll (← listReadyJobIds limit)

def reapStaleJobs (app : App) : Service Unit := do
  let _ ← requeueStaleJobs app.config.jobLease
  return ()

/-! ### Payloads -/

/-- `ExportJobPayload`. -/
structure ExportJobPayload where
  tenantId : Uuid
  requestedBy : Uuid
  filters : TaskFilters
  format : ExportFormat
deriving DecidableEq, Repr

/-- `TaskFilters::export_payload`. -/
def exportPayload (app : App) (filters : TaskFilters) : Value :=
  .obj [("status", .ofOption (filters.status.map TaskStatus.asStr)),
    ("priority", .ofOption (filters.priority.map TaskPriority.asStr)),
    ("project_id", idValue app filters.projectId), ("assignee_id", idValue app filters.assigneeId),
    ("label_id", idValue app filters.labelId), ("due_before", timeValue app filters.dueBefore),
    ("due_after", timeValue app filters.dueAfter),
    ("updated_after", timeValue app filters.updatedAfter), ("q", .ofOption filters.q)]

/-- The JSON object that `create_export_job` stores. -/
def ExportJobPayload.toValue (app : App) (p : ExportJobPayload) : Value :=
  .obj [("tenant_id", .str (app.lib.uuidString p.tenantId)),
    ("requested_by", .str (app.lib.uuidString p.requestedBy)),
    ("filters", exportPayload app p.filters), ("format", .str p.format.asStr)]

/-- A string that `parse` accepts, decoded. -/
def decodeStr {α : Type} (parse : String → Option α) : Value → Option α
  | .str text => parse text
  | _ => none

/-- A nullable field: null, or absent, is no value. -/
def decodeOption {α : Type} (parse : String → Option α) : Value → Option (Option α)
  | .null => some none
  | v => (decodeStr parse v).map some

/-- `serde_json::from_value` of an object to `TaskFilters`. -/
def decodeFilters (app : App) : Value → Option TaskFilters
  | .obj fields => do
    let v := Value.obj fields
    let status ← decodeOption (fun text => (validateTaskStatus text).toOption) (v.get "status")
    let priority ←
      decodeOption (fun text => (validateTaskPriority text).toOption) (v.get "priority")
    let projectId ← decodeOption app.lib.parseUuid (v.get "project_id")
    let assigneeId ← decodeOption app.lib.parseUuid (v.get "assignee_id")
    let labelId ← decodeOption app.lib.parseUuid (v.get "label_id")
    let dueBefore ← decodeOption app.lib.parseTime (v.get "due_before")
    let dueAfter ← decodeOption app.lib.parseTime (v.get "due_after")
    let updatedAfter ← decodeOption app.lib.parseTime (v.get "updated_after")
    let q ← decodeOption some (v.get "q")
    some { status, priority, projectId, assigneeId, labelId, dueBefore, dueAfter, updatedAfter, q }
  | _ => none

/-- The format, which is JSON where the field is absent. -/
def decodeFormat : Option Value → Option ExportFormat
  | none => some .json
  | some (.str "json") => some .json
  | some (.str "csv") => some .csv
  | _ => none

/-- `serde_json::from_value` of an object to `ExportJobPayload`. -/
def ExportJobPayload.fromValue (app : App) (v : Value) : Option ExportJobPayload := do
  let tenantId ← decodeStr app.lib.parseUuid (v.get "tenant_id")
  let requestedBy ← decodeStr app.lib.parseUuid (v.get "requested_by")
  let filters ← decodeFilters app (v.get "filters")
  let format ← decodeFormat (v.field? "format")
  return { tenantId, requestedBy, filters, format }

/-! ### Exports -/

/-- The cursor after a chunk. -/
def lastCursor (chunk : List TaskRecord) : Option Cursor :=
  chunk.getLast?.map fun t => ⟨t.updatedAt, t.id⟩

/-- The loop of `process_export_job`, for at most `rounds` chunks. -/
def exportLoop (app : App) (tenantId : Uuid) (filters : TaskFilters) :
    Nat → Option Cursor → List TaskRecord → Service (List TaskRecord)
  | 0, _, _ => .blocked .quiet (.internal "")
  | rounds + 1, cursor, allTasks => do
    let chunk ← exportTasks app tenantId filters cursor exportChunkSize
    if chunk.length = exportChunkSize then
      exportLoop app tenantId filters rounds (lastCursor chunk) (allTasks ++ chunk)
    else return allTasks ++ chunk

/-- `csv_escape`. -/
def csvEscape (field : String) : String :=
  if field.toList.any fun c => c = '"' || c = ',' || c = '\n' || c = '\r' then
    "\"" ++ String.ofList (field.toList.flatMap fun c => if c = '"' then ['"', '"'] else [c]) ++ "\""
  else field

/-- The fields of a task in the CSV export. -/
def csvFields (app : App) (t : TaskRecord) : List String :=
  [app.lib.uuidString t.id, (t.projectId.map app.lib.uuidString).getD "", t.title,
    t.description.getD "", t.status.asStr, t.priority.asStr,
    (t.assigneeId.map app.lib.uuidString).getD "", (t.dueAt.map app.lib.rfc3339).getD "",
    app.lib.uuidString t.createdBy, app.lib.uuidString t.updatedBy, app.lib.rfc3339 t.createdAt,
    app.lib.rfc3339 t.updatedAt]

/-- The header row of the CSV export. -/
def csvHeader : String :=
  "id,project_id,title,description,status,priority,assignee_id,due_at,created_by,updated_by,created_at,updated_at\r\n"

def renderTasksCsv (app : App) (tasks : List TaskRecord) : String :=
  csvHeader ++ String.join (tasks.map fun t =>
    ",".intercalate ((csvFields app t).map csvEscape) ++ "\r\n")

/-- The content of the artifact. -/
def exportBytes (app : App) (format : ExportFormat) (tasks : List TaskRecord) : Bytes :=
  match format with
  | .json => app.lib.jsonBytes (.obj [("tasks", .arr (tasks.map (taskResponseValue app)))])
  | .csv => (renderTasksCsv app tasks).toUTF8.toList

def processExportJob (app : App) (rounds : Nat) (jobId tenantId requestedBy : Uuid)
    (filters : TaskFilters) (format : ExportFormat) : Service Value := do
  let allTasks ← exportLoop app tenantId filters rounds none []
  let bytes := exportBytes app format allTasks
  let key := s!"{app.lib.uuidString tenantId}/{app.lib.uuidString jobId}.{format.extension}"
  Storage.put key bytes
  let now ← utcNow
  return .obj [("requested_by", .str (app.lib.uuidString requestedBy)),
    ("generated_at", .str (app.lib.jsonTime now)), ("task_count", .num allTasks.length),
    ("format", .str format.asStr),
    ("artifact", .obj [("key", .str key), ("content_type", .str format.contentType),
      ("size_bytes", .num bytes.length),
      ("download_path", .str s!"/v1/jobs/{app.lib.uuidString jobId}/artifact")])]

/-! ### Retention and reminders -/

def processRetentionJob (app : App) : Service Value := do
  let refreshTokens ← purgeStaleRefreshTokens app.config.refreshTokenRetentionDays
  let jobs ← purgeTerminalJobs app.config.jobRetentionDays
  let notifications ← purgeTerminalNotifications app.config.notificationRetentionDays
  let auditEvents ← purgeOldAuditEvents app.config.auditRetentionDays
  let now ← utcNow
  return .obj [("generated_at", .str (app.lib.jsonTime now)),
    ("refresh_tokens_purged", .num refreshTokens), ("jobs_purged", .num jobs),
    ("notifications_purged", .num notifications), ("audit_events_purged", .num auditEvents)]

/-- The notification for a candidate. -/
def reminderNotification (app : App) (now : Time) (c : DueReminderCandidate) : NewNotification :=
  let kind := if c.dueAt.any (· ≤ now) then NotificationKind.taskOverdue else .taskDueSoon
  let bucket := now.timestamp / max (app.config.reminderDedupeTtlHours * 3600) 1
  { tenantId := some c.tenantId
    userId := some c.assigneeId
    kind
    recipient := c.email
    payload := .obj [("task_id", .str (app.lib.uuidString c.taskId)), ("title", .str c.title),
      ("due_at", .ofOption (c.dueAt.map app.lib.rfc3339))]
    dedupeKey := some
      s!"{kind.asStr}:{app.lib.uuidString c.taskId}:{app.lib.uuidString c.assigneeId}:{bucket}" }

/-- Enqueue the notifications of the candidates; returns how many were new. -/
def enqueueCandidates (app : App) (now : Time) : List DueReminderCandidate → Service Nat
  | [] => return 0
  | c :: cs => do
    let inserted ← enqueueNotification (reminderNotification app now c) app.config.maxJobAttempts
    let rest ← enqueueCandidates app now cs
    return if inserted then rest + 1 else rest

def enqueueDueReminderNotifications (app : App) (tenantId : Option Uuid) : Service Nat := do
  let candidates ← listDueReminderCandidates app.config.reminderDueSoonHours
    reminderCandidateLimit tenantId
  let now ← utcNow
  enqueueCandidates app now candidates

def processDueReminderJob (app : App) (tenantId : Option Uuid) : Service Value := do
  let reminders ← recordDueReminders app tenantId
  let notified ← enqueueDueReminderNotifications app tenantId
  let now ← utcNow
  return .obj [("generated_at", .str (app.lib.jsonTime now)), ("tenant_id", idValue app tenantId),
    ("reminder_count", .num reminders), ("notification_count", .num notified)]

/-! ### Processing -/

/-- `DueReminderPayload`, which every stored payload decodes to. -/
def reminderTenant : JobPayload → Option Uuid
  | .taskExport tenantId _ _ _ => some tenantId
  | .dueReminder tenantId => tenantId
  | .empty => none

/-- The work of a job, by its type. -/
def runJob (app : App) (rounds : Nat) (job : BackgroundJobRecord) : Service Value :=
  match job.jobType with
  | .taskExport =>
    match job.payload with
    | .taskExport tenantId requestedBy filters format =>
      processExportJob app rounds job.id tenantId requestedBy filters format
    | _ => .fail (.internal "invalid export job payload")
  | .dueReminderSweep => processDueReminderJob app (reminderTenant job.payload)
  | .retentionSweep => processRetentionJob app

def processJob (app : App) (rounds : Nat) (jobId : Uuid) : Service Unit := do
  match ← markJobRunning jobId with
  | none => return ()
  | some job =>
    match ← (runJob app rounds job).attempt with
    | .ok result => completeJob job.id job.attempts result
    | .error error => failJob job error.message

end Jobs

end Fluxa
