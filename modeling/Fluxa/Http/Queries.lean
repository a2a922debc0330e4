import Fluxa.Attachments.Downloads
import Fluxa.Http.Projects
import Fluxa.Http.Webhooks
import Fluxa.Services.Delivery
import Fluxa.Services.Notifications

/-!
# Http — queries

The handlers of `http/handlers.rs` that read, with the marks of notifications as read and the redelivery of a webhook delivery.  A page is its rows with the token for the next one.
-/

namespace Fluxa
open Interleave Db Headers

namespace Http

/-! ### Responses -/

/-- The JSON of a page. -/
def pageValue {R : Type} (row : R → Value) (data : List R) (nextCursor : Option String) : Value :=
  .obj [("data", .arr (data.map row)), ("next_cursor", .ofOption nextCursor)]

/-- The JSON of `TaskAuditResponse`. -/
def taskAuditResponseValue (app : App) (a : TaskAuditRecord) : Value :=
  .obj [("id", .str (app.lib.uuidString a.id)), ("task_id", idValue app a.taskId),
    ("tenant_id", .str (app.lib.uuidString a.tenantId)),
    ("actor_user_id", .str (app.lib.uuidString a.actorUserId)), ("event_type", .str a.eventType),
    ("payload", a.payload), ("created_at", .str (app.lib.jsonTime a.createdAt))]

/-- The JSON of `AuditEventResponse`. -/
def auditEventResponseValue (app : App) (a : AuditEventRecord) : Value :=
  .obj [("id", .str (app.lib.uuidString a.id)), ("actor_user_id", idValue app a.actorUserId),
    ("subject_type", .str a.subjectType), ("subject_id", idValue app a.subjectId),
    ("event_type", .str a.eventType), ("payload", a.payload),
    ("created_at", .str (app.lib.jsonTime a.createdAt))]

/-- The `status` of a delivery. -/
def deliveryStatus : Relational.OutboxStatus → String
  | .pending => "pending"
  | .delivered => "delivered"
  | .deadLetter => "dead_letter"

/-- The JSON of `WebhookDeliveryResponse`. -/
def deliveryResponseValue (app : App) (d : WebhookDeliveryRecord) : Value :=
  .obj [("id", .str (app.lib.uuidString d.id)), ("webhook_id", .str (app.lib.uuidString d.webhookId)),
    ("event_type", .str d.eventType), ("payload", d.payload),
    ("status", .str (deliveryStatus d.status)), ("attempts", .num d.attempts),
    ("delivered_at", timeValue app d.deliveredAt), ("last_error", .ofOption d.lastError),
    ("created_at", .str (app.lib.jsonTime d.createdAt))]

/-- The JSON of `NotificationFeedItemResponse`. -/
def notificationResponseValue (app : App) (n : NotificationRecord) : Value :=
  .obj [("id", .str (app.lib.uuidString n.id)), ("kind", .str n.kind.asStr), ("payload", n.payload),
    ("read_at", timeValue app n.readAt), ("created_at", .str (app.lib.jsonTime n.createdAt))]

/-- The JSON of `ProjectSummary`. -/
def projectSummaryValue (app : App) (p : ProjectSummary) : Value :=
  .obj [("project_id", .str (app.lib.uuidString p.projectId)), ("project_name", .str p.projectName),
    ("open_task_count", .num p.openTaskCount),
    ("in_progress_task_count", .num p.inProgressTaskCount),
    ("done_task_count", .num p.doneTaskCount), ("overdue_task_count", .num p.overdueTaskCount),
    ("recent_activity_count", .num p.recentActivityCount)]

/-- The JSON of `DashboardSummary`. -/
def dashboardSummaryValue (d : DashboardSummary) : Value :=
  .obj [("open_task_count", .num d.openTaskCount),
    ("in_progress_task_count", .num d.inProgressTaskCount),
    ("done_task_count", .num d.doneTaskCount), ("overdue_task_count", .num d.overdueTaskCount),
    ("recent_activity_count", .num d.recentActivityCount)]

/-- The JSON of `JobResultResponse`. -/
def jobResultValue (app : App) (r : Jobs.JobResult) : Value :=
  .obj [("job_id", .str (app.lib.uuidString r.jobId)), ("job_type", .str r.jobType.asStr),
    ("finished_at", timeValue app r.finishedAt), ("result", r.result)]

/-! ### Projects and labels -/

def listProjects (app : App) (user : AuthenticatedUser) : Service (List Value) := do
  return (← Projects.listProjects user.tenantId).map (projectResponseValue app)

def getProject (app : App) (user : AuthenticatedUser) (projectId : Uuid) : Service Value := do
  return projectResponseValue app (← Projects.getProject user.tenantId projectId)

def getProjectSummary (app : App) (user : AuthenticatedUser) (projectId : Uuid) :
    Service Value := do
  return projectSummaryValue app (← Projects.projectSummary user.tenantId projectId)

def listLabels (app : App) (user : AuthenticatedUser) : Service (List Value) := do
  return (← Labels.listLabels app user.tenantId).map (labelResponseValue app)

def getTaskLabels (app : App) (user : AuthenticatedUser) (taskId : Uuid) :
    Service (List Value) := do
  return (← Labels.listTaskLabels app user.tenantId taskId).map (labelResponseValue app)

/-! ### Tasks -/

/-- `TaskListQuery`: its filters are those of a request for an export. -/
structure TaskListQuery where
  filters : ExportRequest
  limit : Option Nat
  cursor : Option String

/-- The limit of a listing of tasks, comments or deliveries. -/
def pageLimit (limit : Option Nat) : Nat := max 1 (min (limit.getD 20) 100)

/-- The limit of a listing of audit events or notifications. -/
def feedLimit (limit : Option Nat) : Nat := max 1 (min (limit.getD 50) 200)

/-- The page of `list_tasks_cached` that a query asks for. -/
def tasksOfQuery (app : App) (tenantId : Uuid) (query : TaskListQuery) : Service Value := do
  let filters ← .lift (query.filters.intoFilters app)
  let cursor ← .lift (Cursor.ofToken app query.cursor)
  let (page, _) ←
    Tasks.listTasksCached app tenantId filters query.cursor cursor (pageLimit query.limit)
  return pageValue (taskResponseValue app) page.data page.nextCursor

def listTasks (app : App) (user : AuthenticatedUser) (query : TaskListQuery) : Service Value :=
  tasksOfQuery app user.tenantId query

/-- The project of the path takes the place of the one in the query. -/
def listProjectTasks (app : App) (user : AuthenticatedUser) (projectId : Uuid)
    (query : TaskListQuery) : Service Value := do
  let _ ← Projects.getProject user.tenantId projectId
  tasksOfQuery app user.tenantId
    { query with filters := { query.filters with projectId := some projectId } }

def getTask (app : App) (user : AuthenticatedUser) (taskId : Uuid) : Service Value := do
  let (task, _) ← Tasks.getTaskCached app user.tenantId taskId
  return taskResponseValue app task

def listTaskAudit (app : App) (user : AuthenticatedUser) (taskId : Uuid) (limit : Option Nat)
    (cursor : Option String) : Service Value := do
  let cursor ← .lift (AuditCursor.ofToken app cursor)
  let (entries, nextCursor) ← Tasks.listTaskAudit user.tenantId taskId cursor (pageLimit limit)
  return pageValue (taskAuditResponseValue app) entries (nextCursor.map (·.encode app))

def dashboardSummary (user : AuthenticatedUser) : Service Value := do
  return dashboardSummaryValue (← Db.dashboardSummary user.tenantId)

def listTaskComments (app : App) (user : AuthenticatedUser) (taskId : Uuid) (limit : Option Nat)
    (cursor : Option String) : Service Value := do
  let cursor ← .lift (AuditCursor.ofToken app cursor)
  let (comments, nextCursor) ← Comments.listComments user.tenantId taskId cursor (pageLimit limit)
  return pageValue (commentResponseValue app) comments (nextCursor.map (·.encode app))

def listTaskAttachments (app : App) (user : AuthenticatedUser) (taskId : Uuid) :
    Service (List Value) := do
  return (← Attachments.listAttachments user.tenantId taskId).map (attachmentResponseValue app)

/-! ### Webhook deliveries -/

def listWebhookDeliveries (app : App) (user : AuthenticatedUser) (webhookId : Uuid)
    (limit : Option Nat) (cursor : Option String) : Service Value := do
  .lift (ensureAdminRole user.role)
  let cursor ← .lift (AuditCursor.ofToken app cursor)
  let (deliveries, nextCursor) ←
    Webhooks.listWebhookDeliveries user.tenantId webhookId cursor (pageLimit limit)
  return pageValue (deliveryResponseValue app) deliveries (nextCursor.map (·.encode app))

def redeliverWebhookDelivery (app : App) (user : AuthenticatedUser) (webhookId deliveryId : Uuid) :
    Service StoredResponse := do
  .lift (ensureAdminRole user.role)
  return acceptedResponse (deliveryResponseValue app
    (← Fluxa.redeliverWebhookDelivery user.tenantId webhookId deliveryId))

/-! ### Audit events and notifications -/

def listAuditEvents (app : App) (user : AuthenticatedUser) (limit : Option Nat)
    (cursor : Option String) : Service Value := do
  .lift (ensureAdminRole user.role)
  let cursor ← .lift (AuditCursor.ofToken app cursor)
  let (entries, nextCursor) ← listEvents app user.tenantId cursor (feedLimit limit)
  return pageValue (auditEventResponseValue app) entries nextCursor

/-- The JSON of `NotificationFeedResponse`. -/
def notificationFeedValue (app : App) (feed : Notifications.NotificationFeed) : Value :=
  .obj [("data", .arr (feed.data.map (notificationResponseValue app))),
    ("next_cursor", .ofOption feed.nextCursor), ("unread_count", .num feed.unreadCount)]

def listMyNotifications (app : App) (user : AuthenticatedUser) (limit : Option Nat)
    (cursor : Option String) (unread : Option Bool) : Service Value := do
  let cursor ← .lift (AuditCursor.ofToken app cursor)
  return notificationFeedValue app
    (← Notifications.listFeed app user.tenantId user.userId (unread.getD false) cursor
      (feedLimit limit))

def markNotificationRead (user : AuthenticatedUser) (notificationId : Uuid) : Service Unit :=
  Notifications.markRead user.tenantId user.userId notificationId

def markAllNotificationsRead (user : AuthenticatedUser) : Service Value := do
  return .obj [("updated", .num (← Notifications.markAllRead user.tenantId user.userId))]

/-! ### Jobs -/

def getJob (app : App) (user : AuthenticatedUser) (jobId : Uuid) : Service Value := do
  return Jobs.jobResponseValue app (← Jobs.getTenantJob jobId user.tenantId)

def getJobResult (app : App) (user : AuthenticatedUser) (jobId : Uuid) : Service Value := do
  return jobResultValue app (← Jobs.getTenantJobResult jobId user.tenantId)

/-- The key of the artifact in a job's result, and its content type. -/
def artifactOf (result : Value) : Except AppError (String × String) :=
  match result.field? "artifact" with
  | none => .error (.notFound "job has no artifact")
  | some artifact =>
    match (artifact.field? "key").bind Value.asStr? with
    | none => .error (.notFound "job has no artifact")
    | some key => .ok (key,
        ((artifact.field? "content_type").bind Value.asStr?).getD "application/octet-stream")

/-- The last segment of a key, with an underscore for each character that is not plain. -/
def artifactFileName (key : String) : String :=
  let name := ((key.toList.splitOn '/').getLast?.getD []).map fun c =>
    if c.isAlphanum || c = '.' || c = '_' || c = '-' then c else '_'
  if name = [] then "export" else String.ofList name

/-- The headers and the body as a response; none where a text is not the value of a header. -/
def artifactResponse (key contentType : String) (bytes : Bytes) : Option Download := do
  let contentType ← ofString? contentType.toList
  let disposition ← ofString? s!"attachment; filename=\"{artifactFileName key}\"".toList
  return ⟨contentType, disposition, bytes⟩

def downloadJobArtifact (user : AuthenticatedUser) (jobId : Uuid) :
    Service (Option Download) := do
  let result ← Jobs.getTenantJobResult jobId user.tenantId
  let (key, contentType) ← .lift (artifactOf result.result)
  let bytes ← Prog.okOr (← Storage.get key) (.notFound "artifact is no longer available")
  return artifactResponse key contentType bytes

end Http

end Fluxa
