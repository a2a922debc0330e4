import Fluxa.Tenants.Stores

/-!
# Tenants — requests

The requests of a user about projects, labels, tasks, comments, attachments, webhooks, jobs, audit events and notifications, with what they are answered with.  **Each is apart from the other tenants** (`request_apart`): its statements do in the tenant's part of the state what they do on the whole, and leave the other parts alone.  Where a service goes on with an identifier that its caller names, it has found the row of it among the tenant's.
-/

namespace Fluxa
open Interleave Relational Db

namespace Tenants

variable {app : App} {o : Whose} {i : Nat} {tenantId actorId taskId projectId : Uuid} {A : Type}

/-- The program is apart whatever it ends with. -/
theorem Apart.any {Q : A → Prop} {p : Service A} (h : Apart app o tenantId i Q p) :
    Apart app o tenantId i (fun _ => True) p :=
  h.mono fun _ _ => trivial

section Services

variable (hi : o.caller i = tenantId)
include hi

/-! ### Tasks -/

omit hi in
theorem emitTaskWebhook_apart {eventType : String} {task : TaskRecord} :
    Apart app o tenantId i (fun _ => True) (emitTaskWebhook app tenantId eventType task) :=
  .bind enqueueWebhookDeliveries_apart.attempt fun _ _ => .done trivial

theorem createTaskService_apart {input : CreateTaskInput} :
    Apart app o tenantId i (fun _ => True) (Tasks.createTask app tenantId actorId input) :=
  .bind ensureProject_apart fun _ hproject => .bind (createTask_apart hi hproject) fun _ _ =>
    .bind bumpTenantCacheVersion_apart fun _ _ => .bind emitTaskWebhook_apart fun _ _ =>
      .done trivial

theorem updateTaskService_apart {input : UpdateTaskInput} :
    Apart app o tenantId i (fun _ => True) (Tasks.updateTask app tenantId taskId actorId input) :=
  .bind ensureProject_apart fun _ hproject => .bind (updateTask_apart hi hproject) fun _ _ =>
    .bind bumpTenantCacheVersion_apart fun _ _ => .bind emitTaskWebhook_apart fun _ _ =>
      .done trivial

omit hi in
theorem emitAll_apart {eventType : String} (tasks : List TaskRecord) :
    Apart app o tenantId i (fun _ => True) (Tasks.emitAll app tenantId eventType tasks) := by
  induction tasks with
  | nil => exact .done trivial
  | cons task tasks ih => exact .bind emitTaskWebhook_apart fun _ _ => ih

theorem bulkUpdateService_apart {taskIds : List Uuid} {status : TaskStatus} :
    Apart app o tenantId i (fun _ => True)
      (Tasks.bulkUpdateTaskStatus app tenantId actorId taskIds status) :=
  .bind .lift fun _ _ => .bind (bulkUpdateTaskStatus_apart hi) fun _ _ =>
    .bind bumpTenantCacheVersion_apart fun _ _ => .bind (emitAll_apart _) fun _ _ => .done trivial

theorem archiveTaskService_apart :
    Apart app o tenantId i (fun _ => True) (Tasks.archiveTask app tenantId taskId actorId) :=
  .bind (archiveTask_apart hi) fun _ _ => .bind bumpTenantCacheVersion_apart fun _ _ =>
    emitTaskWebhook_apart

theorem restoreTaskService_apart :
    Apart app o tenantId i (fun _ => True) (Tasks.restoreTask app tenantId taskId actorId) :=
  .bind (restoreTask_apart hi) fun _ _ => .bind bumpTenantCacheVersion_apart fun _ _ =>
    .bind emitTaskWebhook_apart fun _ _ => .done trivial

/-! ### Projects and labels -/

theorem createProjectService_apart {input : CreateProjectInput} :
    Apart app o tenantId i (fun _ => True) (Projects.createProject tenantId actorId input) :=
  .bind (createProject_apart hi) fun _ _ => .bind bumpTenantCacheVersion_apart fun _ _ =>
    .bind (recordEvent_apart hi) fun _ _ => .done trivial

theorem updateProjectService_apart {input : UpdateProjectInput} :
    Apart app o tenantId i (fun _ => True) (Projects.updateProject tenantId projectId actorId input) :=
  .bind (.bind .utcNow fun _ _ => changeProject_apart fun _ => rfl) fun _ _ =>
    .bind bumpTenantCacheVersion_apart fun _ _ =>
      .bind (recordEvent_apart hi) fun _ _ => .done trivial

theorem archiveProjectService_apart :
    Apart app o tenantId i (fun _ => True) (Projects.archiveProject tenantId actorId projectId) :=
  .bind (.bind .utcNow fun _ _ => changeProject_apart fun _ => rfl) fun _ _ =>
    .bind bumpTenantCacheVersion_apart fun _ _ => recordEvent_apart hi

theorem restoreProjectService_apart :
    Apart app o tenantId i (fun _ => True) (Projects.restoreProject tenantId actorId projectId) :=
  .bind (.bind .utcNow fun _ _ => changeProject_apart fun _ => rfl) fun _ _ =>
    .bind bumpTenantCacheVersion_apart fun _ _ =>
      .bind (recordEvent_apart hi) fun _ _ => .done trivial

theorem createLabelService_apart {input : CreateLabelInput} :
    Apart app o tenantId i (fun _ => True) (Labels.createLabel app tenantId actorId input) :=
  .bind (createLabel_apart hi) fun _ _ => .bind (recordEvent_apart hi) fun _ _ => .done trivial

theorem updateLabelService_apart {labelId : Uuid} {input : UpdateLabelInput} :
    Apart app o tenantId i (fun _ => True) (Labels.updateLabel app tenantId labelId actorId input) :=
  .bind updateLabel_apart fun _ _ => .bind (recordEvent_apart hi) fun _ _ => .done trivial

theorem deleteLabelService_apart {labelId : Uuid} :
    Apart app o tenantId i (fun _ => True) (Labels.deleteLabel tenantId labelId actorId) :=
  .bind deleteLabel_apart fun _ _ => .bind bumpTenantCacheVersion_apart fun _ _ =>
    recordEvent_apart hi

theorem setTaskLabelsService_apart {labelIds : List Uuid} : Apart app o tenantId i (fun _ => True)
    (Labels.setTaskLabels app tenantId taskId actorId labelIds) :=
  .bind .lift fun _ _ => .bind getTask_apart fun _ htask =>
    .bind (setTaskLabels_apart hi htask) fun _ _ =>
      .bind bumpTenantCacheVersion_apart fun _ _ => .done trivial

/-! ### Comments and attachments -/

theorem notifyAssignee_apart {task : TaskRecord} {comment : CommentRecord} :
    Apart app o tenantId i (fun _ => True)
      (Comments.notifyAssignee app task tenantId actorId comment) := by
  unfold Comments.notifyAssignee
  split
  · exact .done trivial
  refine .ite (fun _ => .done trivial) fun _ => ?_
  refine .bind isNotificationKindEnabled_apart.attempt fun enabled _ => .ite (fun _ => ?_) fun _ =>
    .done trivial
  refine .bind getUserById_apart.attempt fun assignee _ => ?_
  cases assignee with
  | error x => exact .done trivial
  | ok assignee =>
      exact .bind (enqueueNotification_apart hi rfl rfl).attempt fun _ _ => .done trivial

theorem createCommentService_apart {body : String} : Apart app o tenantId i (fun _ => True)
    (Comments.createComment app tenantId taskId actorId body) :=
  .bind getTask_apart fun _ _ => .bind (createComment_apart hi) fun _ _ =>
    .bind (notifyAssignee_apart hi) fun _ _ => .done trivial

omit hi in
theorem updateCommentService_apart {commentId : Uuid} {body : String} :
    Apart app o tenantId i (fun _ => True)
      (Comments.updateComment tenantId taskId commentId actorId body) :=
  .bind getTask_apart fun _ _ => .bind getComment_apart fun _ _ => .bind .ensure fun _ _ =>
    updateComment_apart

theorem deleteCommentService_apart {commentId : Uuid} {role : MembershipRole} :
    Apart app o tenantId i (fun _ => True)
      (Comments.deleteComment app tenantId taskId commentId actorId role) :=
  .bind getTask_apart fun _ _ => .bind getComment_apart fun _ _ => .bind .ensure fun _ _ =>
    deleteComment_apart hi

variable (hlib : UuidTexts app.lib)
include hlib

theorem uploadAttachment_apart {fileName contentType : String} {bytes : Bytes} :
    Apart app o tenantId i (fun _ => True)
      (Attachments.uploadAttachment app tenantId taskId actorId fileName contentType bytes) := by
  refine .bind getTask_apart fun _ _ => .bind countTaskAttachments_apart fun _ _ =>
    .bind .ensure fun _ _ => .bind (.newUuid hi) fun id hid => ?_
  have hkey := keyOf_storageKey hlib tenantId taskId id
  refine .bind (put_apart hlib hkey) fun _ _ => ?_
  refine .bind (createAttachment_apart hi hid hkey).attempt fun r _ => ?_
  cases r with
  | ok attachment => exact .done trivial
  | error x => exact .bind (delete_apart hlib hkey).attempt fun _ _ => .fail

omit hi hlib in
theorem downloadAttachment_apart {attachmentId : Uuid} : Apart app o tenantId i (fun _ => True)
    (Attachments.downloadAttachment tenantId taskId attachmentId) :=
  .bind getTask_apart fun _ _ => .bind getAttachment_apart fun _ hkey =>
    .bind (get_apart hkey) fun _ _ => .bind .okOr fun _ _ => .done trivial

theorem deleteAttachmentService_apart {attachmentId : Uuid} {role : MembershipRole} :
    Apart app o tenantId i (fun _ => True)
      (Attachments.deleteAttachment app tenantId taskId attachmentId actorId role) :=
  .bind getTask_apart fun _ _ => .bind getAttachment_apart fun _ _ => .bind .ensure fun _ _ =>
    .bind (deleteAttachment_apart hi) fun _ hkey =>
      .bind (delete_apart hlib hkey).attempt fun _ _ => .done trivial

/-! ### Webhooks -/

omit hlib in
theorem createWebhookService_apart {url : String} {events : List String} : Apart app o tenantId i
    (fun _ => True) (Webhooks.createWebhook app tenantId actorId url events) :=
  .bind .lift fun _ _ => .bind .lift fun _ _ => .bind (.of_follows generateRandom_follows) fun _ _ =>
    createWebhook_apart hi

omit hi hlib in
theorem updateWebhookService_apart {webhookId : Uuid} {url : Option String}
    {events : Option (List String)} {isActive : Option Bool} : Apart app o tenantId i
      (fun _ => True) (Webhooks.updateWebhook app tenantId webhookId url events isActive) :=
  .bind .ensure fun _ _ => .bind .lift fun _ _ => .bind .lift fun _ _ => updateWebhook_apart

omit hi hlib in
theorem redeliver_apart {webhookId deliveryId : Uuid} : Apart app o tenantId i (fun _ => True)
    (Fluxa.redeliverWebhookDelivery tenantId webhookId deliveryId) :=
  .bind getWebhook_apart fun _ _ => dbRedeliver_apart

end Services

/-! ### Requests -/

/-- What a request is answered with. -/
inductive Reply where
  | empty
  | value (value : Value)
  | values (values : List Value)
  | response (response : StoredResponse)
  | file (download : Option Download)

/-- A request. -/
inductive Request where
  /-- One that writes projects, tasks, labels, comments, attachments or webhooks. -/
  | write (route : Route)
  | createExport (idempotencyKey : Option String) (payload : Http.ExportRequest)
  | listProjects
  | getProject (projectId : Uuid)
  | getProjectSummary (projectId : Uuid)
  | listLabels
  | getTaskLabels (taskId : Uuid)
  | listTasks (query : Http.TaskListQuery)
  | listProjectTasks (projectId : Uuid) (query : Http.TaskListQuery)
  | getTask (taskId : Uuid)
  | listTaskAudit (taskId : Uuid) (limit : Option Nat) (cursor : Option String)
  | dashboardSummary
  | listTaskComments (taskId : Uuid) (limit : Option Nat) (cursor : Option String)
  | listTaskAttachments (taskId : Uuid)
  | downloadTaskAttachment (taskId attachmentId : Uuid)
  | listWebhooks
  | listWebhookDeliveries (webhookId : Uuid) (limit : Option Nat) (cursor : Option String)
  | listAuditEvents (limit : Option Nat) (cursor : Option String)
  | listMyNotifications (limit : Option Nat) (cursor : Option String) (unread : Option Bool)
  | markNotificationRead (notificationId : Uuid)
  | markAllNotificationsRead
  | getJob (jobId : Uuid)
  | getJobResult (jobId : Uuid)
  | downloadJobArtifact (jobId : Uuid)

/-- The program with its result as a reply. -/
def answered (reply : A → Reply) (p : Service A) : Service Reply := p.bind fun a => return reply a

/-- The route's handler, with what it answers. -/
def Route.answer (app : App) (user : AuthenticatedUser) : Route → Service Reply
  | .createProject key payload => answered .response (Http.createProject app user key payload)
  | .updateProject projectId payload =>
    answered .value (Http.updateProject app user projectId payload)
  | .deleteProject projectId => answered (fun _ => .empty) (Http.deleteProject user projectId)
  | .restoreProject projectId => answered .value (Http.restoreProject app user projectId)
  | .createLabel key payload => answered .response (Http.createLabel app user key payload)
  | .updateLabel labelId payload => answered .value (Http.updateLabel app user labelId payload)
  | .deleteLabel labelId => answered (fun _ => .empty) (Http.deleteLabel user labelId)
  | .putTaskLabels taskId labelIds =>
    answered .values (Http.putTaskLabels app user taskId labelIds)
  | .createTask key payload => answered .response (Http.createTask app user key payload)
  | .updateTask taskId payload => answered .value (Http.updateTask app user taskId payload)
  | .bulkUpdateTaskStatus taskIds status =>
    answered .value (Http.bulkUpdateTaskStatus app user taskIds status)
  | .deleteTask taskId => answered (fun _ => .empty) (Http.deleteTask app user taskId)
  | .restoreTask taskId => answered .value (Http.restoreTask app user taskId)
  | .createTaskComment taskId key body =>
    answered .response (Http.createTaskComment app user taskId key body)
  | .updateTaskComment taskId commentId body =>
    answered .value (Http.updateTaskComment app user taskId commentId body)
  | .deleteTaskComment taskId commentId =>
    answered (fun _ => .empty) (Http.deleteTaskComment app user taskId commentId)
  | .uploadTaskAttachment taskId fileName contentType key body =>
    answered .response (Http.uploadTaskAttachment app user taskId fileName contentType key body)
  | .deleteTaskAttachment taskId attachmentId =>
    answered (fun _ => .empty) (Http.deleteTaskAttachment app user taskId attachmentId)
  | .createWebhook key url events =>
    answered .response (Http.createWebhook app user key url events)
  | .updateWebhook webhookId url events isActive =>
    answered .value (Http.updateWebhook app user webhookId url events isActive)
  | .deleteWebhook webhookId => answered (fun _ => .empty) (Http.deleteWebhook user webhookId)
  | .redeliverWebhookDelivery webhookId deliveryId =>
    answered .response (Http.redeliverWebhookDelivery app user webhookId deliveryId)

def Request.answer (app : App) (user : AuthenticatedUser) : Request → Service Reply
  | .write route => route.answer app user
  | .createExport key payload => answered .response (Http.createExport app user key payload)
  | .listProjects => answered .values (Http.listProjects app user)
  | .getProject projectId => answered .value (Http.getProject app user projectId)
  | .getProjectSummary projectId => answered .value (Http.getProjectSummary app user projectId)
  | .listLabels => answered .values (Http.listLabels app user)
  | .getTaskLabels taskId => answered .values (Http.getTaskLabels app user taskId)
  | .listTasks query => answered .value (Http.listTasks app user query)
  | .listProjectTasks projectId query =>
    answered .value (Http.listProjectTasks app user projectId query)
  | .getTask taskId => answered .value (Http.getTask app user taskId)
  | .listTaskAudit taskId limit cursor =>
    answered .value (Http.listTaskAudit app user taskId limit cursor)
  | .dashboardSummary => answered .value (Http.dashboardSummary user)
  | .listTaskComments taskId limit cursor =>
    answered .value (Http.listTaskComments app user taskId limit cursor)
  | .listTaskAttachments taskId => answered .values (Http.listTaskAttachments app user taskId)
  | .downloadTaskAttachment taskId attachmentId =>
    answered .file (Http.downloadTaskAttachment user taskId attachmentId)
  | .listWebhooks => answered .values (Http.listWebhooks app user)
  | .listWebhookDeliveries webhookId limit cursor =>
    answered .value (Http.listWebhookDeliveries app user webhookId limit cursor)
  | .listAuditEvents limit cursor => answered .value (Http.listAuditEvents app user limit cursor)
  | .listMyNotifications limit cursor unread =>
    answered .value (Http.listMyNotifications app user limit cursor unread)
  | .markNotificationRead notificationId =>
    answered (fun _ => .empty) (Http.markNotificationRead user notificationId)
  | .markAllNotificationsRead => answered .value (Http.markAllNotificationsRead user)
  | .getJob jobId => answered .value (Http.getJob app user jobId)
  | .getJobResult jobId => answered .value (Http.getJobResult app user jobId)
  | .downloadJobArtifact jobId => answered .file (Http.downloadJobArtifact user jobId)

/-! ### Requests are apart -/

/-- What the program ends with, as something else. -/
theorem Apart.map {B : Type} {p : Service A} {k : A → B}
    (h : Apart app o tenantId i (fun _ => True) p) :
    Apart app o tenantId i (fun _ => True) (p.bind fun a => return k a) :=
  .bind h fun _ _ => .done trivial

theorem answered_apart {p : Service A} {reply : A → Reply}
    (h : Apart app o tenantId i (fun _ => True) p) :
    Apart app o tenantId i (fun _ => True) (answered reply p) :=
  h.map

/-- What is rendered is the same, whatever the stamp of the answer. -/
theorem stamped_apart {B : Type} {p : Service (A × Nat)} {k : A × Nat → B}
    (h : (tenantParts app o).Follows tenantId i (fun a a' => a'.1 = a.1) p p)
    (hk : ∀ a a', a'.1 = a.1 → k a' = k a) :
    Apart app o tenantId i (fun _ => True) (p.bind fun a => return k a) :=
  .of_follows (Parts.Follows.bind h fun a a' ha => Parts.Follows.done (hk a a' ha))

theorem tasksOfQuery_apart {query : Http.TaskListQuery} :
    Apart app o tenantId i (fun _ => True) (Http.tasksOfQuery app tenantId query) :=
  .bind .lift fun _ _ => .bind .lift fun _ _ =>
    stamped_apart (k := fun page => Http.pageValue (taskResponseValue app) page.1.data page.1.nextCursor)
      listTasksCached_follows fun _ _ h => by rw [h]

variable {user : AuthenticatedUser}

theorem route_apart (hlib : UuidTexts app.lib) (hi : o.caller i = user.tenantId) (r : Route) :
    Apart app o user.tenantId i (fun _ => True) (r.answer app user) := by
  cases r with
  | createProject key payload =>
      refine answered_apart (.bind .lift fun _ _ => .bind .lift fun _ _ => .bind .lift fun _ _ => ?_)
      exact idempotent_apart rfl fun _ => createProjectService_apart hi
  | updateProject projectId payload =>
      exact answered_apart (.bind .lift fun _ _ => .bind .lift fun _ _ =>
        (updateProjectService_apart hi).map)
  | deleteProject projectId =>
      exact answered_apart (.bind .lift fun _ _ => archiveProjectService_apart hi)
  | restoreProject projectId =>
      exact answered_apart (.bind .lift fun _ _ => (restoreProjectService_apart hi).map)
  | createLabel key payload =>
      refine answered_apart (.bind .lift fun _ _ => .bind .lift fun _ _ => .bind .lift fun _ _ => ?_)
      exact idempotent_apart rfl fun _ => createLabelService_apart hi
  | updateLabel labelId payload =>
      exact answered_apart (.bind .lift fun _ _ => .bind .lift fun _ _ =>
        (updateLabelService_apart hi).map)
  | deleteLabel labelId =>
      exact answered_apart (.bind .lift fun _ _ => deleteLabelService_apart hi)
  | putTaskLabels taskId labelIds =>
      exact answered_apart (.bind .lift fun _ _ => (setTaskLabelsService_apart hi).map)
  | createTask key payload =>
      refine answered_apart (.bind .lift fun _ _ => .bind .lift fun _ _ => ?_)
      exact idempotent_apart rfl fun _ => createTaskService_apart hi
  | updateTask taskId payload =>
      exact answered_apart (.bind .lift fun _ _ => .bind .lift fun _ _ =>
        (updateTaskService_apart hi).map)
  | bulkUpdateTaskStatus taskIds status =>
      exact answered_apart (.bind .lift fun _ _ => .bind .lift fun _ _ =>
        (bulkUpdateService_apart hi).map)
  | deleteTask taskId =>
      exact answered_apart (.bind .lift fun _ _ => archiveTaskService_apart hi)
  | restoreTask taskId =>
      exact answered_apart (.bind .lift fun _ _ => (restoreTaskService_apart hi).map)
  | createTaskComment taskId key body =>
      refine answered_apart (.bind .lift fun _ _ => .bind .lift fun _ _ => .bind .lift fun _ _ => ?_)
      exact idempotent_apart rfl fun _ => createCommentService_apart hi
  | updateTaskComment taskId commentId body =>
      exact answered_apart (.bind .lift fun _ _ => .bind .lift fun _ _ =>
        updateCommentService_apart.map)
  | deleteTaskComment taskId commentId => exact answered_apart (deleteCommentService_apart hi)
  | uploadTaskAttachment taskId fileName contentType key body =>
      refine answered_apart (.bind .lift fun _ _ => .bind .lift fun _ _ => .bind .lift fun _ _ =>
        .bind .lift fun _ _ => ?_)
      exact idempotent_apart rfl fun _ => uploadAttachment_apart hi hlib
  | deleteTaskAttachment taskId attachmentId =>
      exact answered_apart (deleteAttachmentService_apart hi hlib)
  | createWebhook key url events =>
      refine answered_apart (.bind .lift fun _ _ => .bind .lift fun _ _ => ?_)
      exact idempotent_apart rfl fun _ => createWebhookService_apart hi
  | updateWebhook webhookId url events isActive =>
      exact answered_apart (.bind .lift fun _ _ => updateWebhookService_apart.map)
  | deleteWebhook webhookId => exact answered_apart (.bind .lift fun _ _ => deleteWebhook_apart)
  | redeliverWebhookDelivery webhookId deliveryId =>
      exact answered_apart (.bind .lift fun _ _ => redeliver_apart.map)

/-- A request is apart from the other tenants. -/
theorem request_apart (hlib : UuidTexts app.lib) (hi : o.caller i = user.tenantId) (k : Request) :
    Apart app o user.tenantId i (fun _ => True) (k.answer app user) := by
  cases k with
  | write route => exact route_apart hlib hi route
  | createExport key payload =>
      refine answered_apart (.bind .lift fun _ _ => .bind .lift fun _ _ => ?_)
      exact idempotent_apart rfl fun _ => .bind (createExport_apart hi) fun _ _ =>
        .bind enqueueJob_apart fun _ _ => .done trivial
  | listProjects => exact answered_apart listProjects_apart.map
  | getProject projectId => exact answered_apart getProject_apart.map
  | getProjectSummary projectId => exact answered_apart projectSummary_apart.map
  | listLabels => exact answered_apart listLabels_apart.map
  | getTaskLabels taskId => exact answered_apart listTaskLabels_apart.map
  | listTasks query => exact answered_apart tasksOfQuery_apart
  | listProjectTasks projectId query =>
      exact answered_apart (.bind getProject_apart fun _ _ => tasksOfQuery_apart)
  | getTask taskId =>
      refine answered_apart (stamped_apart (k := fun task => taskResponseValue app task.1)
        getTaskCached_follows fun _ _ h => ?_)
      rw [h]
  | listTaskAudit taskId limit cursor =>
      exact answered_apart (.bind .lift fun _ _ => listTaskAudit_apart.map)
  | dashboardSummary => exact answered_apart dashboardSummary_apart.map
  | listTaskComments taskId limit cursor =>
      exact answered_apart (.bind .lift fun _ _ => listComments_apart.map)
  | listTaskAttachments taskId => exact answered_apart listAttachments_apart.map
  | downloadTaskAttachment taskId attachmentId => exact answered_apart downloadAttachment_apart.map
  | listWebhooks => exact answered_apart (.bind .lift fun _ _ => listWebhooks_apart.map)
  | listWebhookDeliveries webhookId limit cursor =>
      exact answered_apart (.bind .lift fun _ _ => .bind .lift fun _ _ =>
        listWebhookDeliveries_apart.map)
  | listAuditEvents limit cursor =>
      exact answered_apart (.bind .lift fun _ _ => .bind .lift fun _ _ => listEvents_apart.map)
  | listMyNotifications limit cursor unread =>
      exact answered_apart (.bind .lift fun _ _ => listFeed_apart.map)
  | markNotificationRead notificationId =>
      exact answered_apart (.bind markNotificationRead_apart fun _ _ =>
        Apart.ensure.mono fun _ _ => trivial)
  | markAllNotificationsRead => exact answered_apart markAllNotificationsRead_apart.map
  | getJob jobId => exact answered_apart (.map (getTenantJob_apart.mono fun _ _ => trivial))
  | getJobResult jobId =>
      exact answered_apart (.map (getTenantJobResult_apart.mono fun _ _ => trivial))
  | downloadJobArtifact jobId =>
      refine answered_apart (.bind getTenantJobResult_apart fun r hr => .bind .lift fun file hfile => ?_)
      exact .bind (get_apart (hr file hfile)) fun _ _ => .bind .okOr fun _ _ => .done trivial

end Tenants

end Fluxa
