import Fluxa.Db.Projects
import Fluxa.Db.Webhooks
import Fluxa.State.Cache

/-!
# Services — tasks

`services/tasks.rs`: the operations on tasks, each with its bump of the tenant's cache version and its webhook deliveries.
-/

namespace Fluxa
open Interleave Db

/-- The JSON of `TaskResponse`. -/
def taskResponseValue (app : App) (t : TaskRecord) : Value :=
  .obj [("id", .str (app.lib.uuidString t.id)), ("tenant_id", .str (app.lib.uuidString t.tenantId)),
    ("project_id", idValue app t.projectId), ("title", .str t.title),
    ("description", .ofOption t.description), ("status", .str t.status.asStr),
    ("priority", .str t.priority.asStr), ("assignee_id", idValue app t.assigneeId),
    ("due_at", timeValue app t.dueAt), ("created_by", .str (app.lib.uuidString t.createdBy)),
    ("updated_by", .str (app.lib.uuidString t.updatedBy)),
    ("created_at", .str (app.lib.jsonTime t.createdAt)),
    ("updated_at", .str (app.lib.jsonTime t.updatedAt))]

/-- `emit_task_webhook`: a failure is swallowed. -/
def emitTaskWebhook (app : App) (tenantId : Uuid) (eventType : String) (task : TaskRecord) :
    Service Unit := do
  let _ ← (enqueueWebhookDeliveries tenantId eventType (taskResponseValue app task)).attempt
  return ()

namespace Tasks

def getTask (tenantId taskId : Uuid) : Service TaskRecord := do
  Prog.okOr (← Db.getTask tenantId taskId) (.notFound "task not found")

def listTaskAudit (tenantId taskId : Uuid) (cursor : Option AuditCursor) (limit : Nat) :
    Service (List TaskAuditRecord × Option AuditCursor) := do
  let _ ← getTask tenantId taskId
  Db.listTaskAudit tenantId taskId cursor limit

/-- `list_tasks_cached`; the number in the result is the stamp of the answer. -/
def listTasksCached (app : App) (tenantId : Uuid) (filters : TaskFilters)
    (cursorToken : Option String) (cursor : Option Cursor) (limit : Nat) :
    Service (TaskPage × Nat) := do
  let version ← Cache.tenantCacheVersion tenantId
  let cacheKey := TaskCacheKey.list tenantId version filters cursorToken limit
  match ← Cache.getJson cacheKey CachedTasks.page? with
  | some cached => return cached
  | none => do
    let (tasks, asOf) ← selectAsOf fun _ s => tasksPage app tenantId filters cursor limit s
    let response : TaskPage := ⟨tasks.1, tasks.2.map (·.encode app)⟩
    Cache.setJson cacheKey ⟨.inl response, asOf⟩ app.config.cacheTtl
    return (response, asOf)

/-- `get_task_cached`; the number in the result is the stamp of the answer. -/
def getTaskCached (app : App) (tenantId taskId : Uuid) : Service (TaskRecord × Nat) := do
  let version ← Cache.tenantCacheVersion tenantId
  let cacheKey := TaskCacheKey.detail tenantId version taskId
  match ← Cache.getJson cacheKey CachedTasks.task? with
  | some cached => return cached
  | none => do
    let (task, asOf) ← selectAsOf fun _ s => findTask s tenantId taskId
    let task ← Prog.okOr task (.notFound "task not found")
    Cache.setJson cacheKey ⟨.inr task, asOf⟩ app.config.cacheTtl
    return (task, asOf)

def ensureProjectBelongsToTenant (tenantId : Uuid) (projectId : Option Uuid) : Service Unit :=
  match projectId with
  | none => return ()
  | some projectId => do
    let _ ← Prog.okOr (← getProject tenantId projectId) (.notFound "project not found")
    return ()

def createTask (app : App) (tenantId actorId : Uuid) (input : CreateTaskInput) :
    Service TaskRecord := do
  ensureProjectBelongsToTenant tenantId input.projectId
  let task ← Db.createTask app tenantId actorId input
  let _ ← Cache.bumpTenantCacheVersion tenantId
  emitTaskWebhook app tenantId "task_created" task
  return task

def updateTask (app : App) (tenantId taskId actorId : Uuid) (input : UpdateTaskInput) :
    Service TaskRecord := do
  ensureProjectBelongsToTenant tenantId input.projectId.join
  let task ← Db.updateTask app tenantId taskId actorId input
  let _ ← Cache.bumpTenantCacheVersion tenantId
  emitTaskWebhook app tenantId "task_updated" task
  return task

/-- `MAX_BULK_TASK_IDS`. -/
def maxBulkTaskIds : Nat := 100

/-- The elements in the order in which they first occur. -/
def firstSeen (ids : List Uuid) : List Uuid :=
  ids.foldl (fun seen id => if seen.contains id then seen else seen ++ [id]) []

def normalizeBulkTaskIds (taskIds : List Uuid) : Except AppError (List Uuid) :=
  let deduped := firstSeen taskIds
  if deduped = [] then .error (.validation "task_ids must contain at least one task id")
  else if deduped.length > maxBulkTaskIds then
    .error (.validation s!"task_ids may contain at most {maxBulkTaskIds} unique task ids")
  else .ok deduped

/-- Queue a webhook delivery for each of the tasks. -/
def emitAll (app : App) (tenantId : Uuid) (eventType : String) : List TaskRecord → Service Unit
  | [] => return ()
  | task :: tasks => do
    emitTaskWebhook app tenantId eventType task
    emitAll app tenantId eventType tasks

def bulkUpdateTaskStatus (app : App) (tenantId actorId : Uuid) (taskIds : List Uuid)
    (status : TaskStatus) : Service (List TaskRecord) := do
  let taskIds ← Prog.lift (normalizeBulkTaskIds taskIds)
  let tasks ← Db.bulkUpdateTaskStatus tenantId actorId taskIds status
  let _ ← Cache.bumpTenantCacheVersion tenantId
  -- In the order in which the ids were requested.
  let tasks := tasks.insertionSort fun a b => taskIds.idxOf a.id ≤ taskIds.idxOf b.id
  emitAll app tenantId "task_status_updated" tasks
  return tasks

def archiveTask (app : App) (tenantId taskId actorId : Uuid) : Service Unit := do
  let task ← Db.archiveTask app tenantId taskId actorId
  let _ ← Cache.bumpTenantCacheVersion tenantId
  emitTaskWebhook app tenantId "task_archived" task

def restoreTask (app : App) (tenantId taskId actorId : Uuid) : Service TaskRecord := do
  let task ← Db.restoreTask app tenantId taskId actorId
  let _ ← Cache.bumpTenantCacheVersion tenantId
  emitTaskWebhook app tenantId "task_restored" task
  return task

end Tasks

end Fluxa
