import Fluxa.State.AppState
import Fluxa.State.Text

/-!
# Db — tasks

`db/tasks.rs`.  The transactions on tasks first lock or insert their task and write the audit row next; nothing of them is seen before the commit, so each is one statement here.
-/

namespace Fluxa

/-- `Cursor`. -/
structure Cursor where
  updatedAt : Time
  id : Uuid
deriving DecidableEq, Repr

/-- `CreateTaskInput`. -/
structure CreateTaskInput where
  projectId : Option Uuid
  title : String
  description : Option String
  status : Option TaskStatus
  priority : Option TaskPriority
  assigneeId : Option Uuid
  dueAt : Option Time
deriving DecidableEq, Repr

def CreateTaskInput.validate (input : CreateTaskInput) : Except AppError CreateTaskInput :=
  if isBlank input.title then .error (.validation "title is required") else .ok input

/-- `UpdateTaskInput`: an absent field is left alone, a present one may be null. -/
structure UpdateTaskInput where
  projectId : Option (Option Uuid)
  title : Option String
  description : Option (Option String)
  status : Option TaskStatus
  priority : Option TaskPriority
  assigneeId : Option (Option Uuid)
  dueAt : Option (Option Time)
deriving DecidableEq, Repr

/-- `changed > 0`: some field is present. -/
def UpdateTaskInput.changes (input : UpdateTaskInput) : Bool :=
  input.title.isSome || input.description.isSome || input.status.isSome ||
    input.priority.isSome || input.projectId.isSome || input.assigneeId.isSome ||
    input.dueAt.isSome

/-- `DueReminderCandidate`. -/
structure DueReminderCandidate where
  taskId : Uuid
  tenantId : Uuid
  title : String
  dueAt : Option Time
  assigneeId : Uuid
  email : String
deriving DecidableEq, Repr

namespace Db
open Interleave

/-- A JSON identifier, or null. -/
def idValue (app : App) (id : Option Uuid) : Value := .ofOption (id.map app.lib.uuidString)

/-- A JSON time, or null. -/
def timeValue (app : App) (t : Option Time) : Value := .ofOption (t.map app.lib.jsonTime)

/-- The foreign keys of a task that come from a request: its assignee is a user and its project a
project. -/
def taskReferences (s : AppState) (t : TaskRecord) : Bool :=
  (match t.assigneeId with
    | some u => (s.db.users.find? u).isSome
    | none => true) &&
  (match t.projectId with
    | some p => (s.db.projects.find? p).isSome
    | none => true)

/-- The row that `create_task` inserts. -/
def newTask (id tenantId actorId : Uuid) (input : CreateTaskInput) (now : Time) : TaskRecord :=
  { id, tenantId, projectId := input.projectId, title := trim input.title,
    description := input.description, status := input.status.getD .open,
    priority := input.priority.getD .medium, assigneeId := input.assigneeId,
    dueAt := input.dueAt, createdBy := actorId, updatedBy := actorId, createdAt := now,
    updatedAt := now }

/-- The audit payload of `create_task`. -/
def createdPayload (app : App) (task : TaskRecord) : Value :=
  .obj [("project_id", idValue app task.projectId), ("title", .str task.title),
    ("status", .str task.status.asStr), ("priority", .str task.priority.asStr),
    ("assignee_id", idValue app task.assigneeId), ("due_at", timeValue app task.dueAt)]

/-- Note who has become a task's assignee. -/
def noteAssignee (task : TaskRecord) (h : History) : History :=
  match task.assigneeId with
  | some u => { h with assigned := (task.id, u) :: h.assigned }
  | none => h

/-- Note the commit of a change of a task. -/
def noteChange (pid : Nat) (task : TaskRecord) (h : History) : History :=
  noteAssignee task { h with commits := h.commits ++ [pid] }

@[simp] theorem noteChange_commits (pid : Nat) (task : TaskRecord) (h : History) :
    (noteChange pid task h).commits = h.commits ++ [pid] := by
  unfold noteChange noteAssignee
  split <;> rfl

def createTask (app : App) (tenantId actorId : Uuid) (input : CreateTaskInput) :
    Service TaskRecord := do
  let now ← utcNow
  let id ← newUuid
  let auditId ← newUuid
  let task := newTask id tenantId actorId input now
  let entry : TaskAuditRecord :=
    { id := auditId, taskId := some id, tenantId, actorUserId := actorId,
      eventType := "task_created", payload := createdPayload app task, createdAt := now }
  sql .taskWrite fun e s =>
    if !taskReferences s task then (.error (databaseError e.detail), s)
    else
      match s.db.tasks.insert task, s.db.taskAudit.insert entry with
      | some tasks, some taskAudit => (.ok task, { s with
          db.tasks := tasks
          db.taskAudit := taskAudit
          history := noteChange e.pid task (noteCreated e .task id s.history) })
      | _, _ => (.error uniqueViolation, s)

/-- The tenant's task. -/
def findTask (s : AppState) (tenantId taskId : Uuid) : Option TaskRecord :=
  (s.db.tasks.find? taskId).filter fun t => t.tenantId = tenantId

def getTask (tenantId taskId : Uuid) : Service (Option TaskRecord) :=
  select fun _ s => findTask s tenantId taskId

/-- The assignments of the `UPDATE` that `update_task` builds. -/
def applyUpdate (input : UpdateTaskInput) (actorId : Uuid) (now : Time) (t : TaskRecord) :
    TaskRecord :=
  { t with
    title := (input.title.map trim).getD t.title
    description := input.description.getD t.description
    status := input.status.getD t.status
    priority := input.priority.getD t.priority
    projectId := input.projectId.getD t.projectId
    assigneeId := input.assigneeId.getD t.assigneeId
    dueAt := input.dueAt.getD t.dueAt
    updatedBy := actorId
    updatedAt := now }

/-- The audit payload of `update_task`: the input as it came. -/
def updatedPayload (app : App) (input : UpdateTaskInput) : Value :=
  .obj [("project_id", idValue app input.projectId.join), ("title", .ofOption input.title),
    ("description", .ofOption input.description.join),
    ("status", .ofOption (input.status.map TaskStatus.asStr)),
    ("priority", .ofOption (input.priority.map TaskPriority.asStr)),
    ("assignee_id", idValue app input.assigneeId.join), ("due_at", timeValue app input.dueAt.join)]

/-- A transaction that changes one task by `f` where `guard` holds of it, and writes an audit
row. -/
def changeTask (tenantId taskId actorId : Uuid) (guard : TaskRecord → Bool)
    (f : TaskRecord → TaskRecord) (hf : Relational.Table.KeepsKey TaskRecord.id f)
    (missing eventType : String) (payload : TaskRecord → Value) (auditId : Uuid) (auditAt : Time) :
    Service TaskRecord :=
  sql .taskWrite fun e s =>
    match (s.db.tasks.find? taskId).filter fun t => t.tenantId = tenantId && guard t with
    | none => (.error (.notFound missing), s)
    | some t =>
      if !taskReferences s (f t) then (.error (databaseError e.detail), s)
      else
        let entry : TaskAuditRecord :=
          { id := auditId, taskId := some taskId, tenantId, actorUserId := actorId, eventType,
            payload := payload (f t), createdAt := auditAt }
        match s.db.taskAudit.insert entry with
        | some taskAudit => (.ok (f t), { s with
            db.tasks := s.db.tasks.update (fun t => t.id = taskId) f hf
            db.taskAudit := taskAudit
            history := noteChange e.pid (f t) s.history })
        | none => (.error uniqueViolation, s)

def updateTask (app : App) (tenantId taskId actorId : Uuid) (input : UpdateTaskInput) :
    Service TaskRecord := do
  Prog.ensure input.changes (.validation "at least one task field must be provided")
  let now ← utcNow
  let auditId ← newUuid
  changeTask tenantId taskId actorId (fun _ => true) (applyUpdate input actorId now)
    ⟨fun _ => rfl⟩ "task not found" "task_updated" (fun _ => updatedPayload app input) auditId now

/-- Set a task's status, as the bulk update, the archiving and the restoring do. -/
def withStatus (status : TaskStatus) (actorId : Uuid) (now : Time) (t : TaskRecord) : TaskRecord :=
  { t with status, updatedBy := actorId, updatedAt := now }

/-- The audit payload of `archive_task` and `restore_task`. -/
def archivedPayload (app : App) (task : TaskRecord) : Value :=
  .obj [("project_id", idValue app task.projectId), ("title", .str task.title),
    ("status", .str task.status.asStr), ("priority", .str task.priority.asStr)]

def archiveTask (app : App) (tenantId taskId actorId : Uuid) : Service TaskRecord := do
  let now ← utcNow
  let auditId ← newUuid
  let auditAt ← utcNow
  changeTask tenantId taskId actorId (fun t => t.status ≠ .archived)
    (withStatus .archived actorId now) ⟨fun _ => rfl⟩ "task not found" "task_archived"
    (archivedPayload app) auditId auditAt

def restoreTask (app : App) (tenantId taskId actorId : Uuid) : Service TaskRecord := do
  let now ← utcNow
  let auditId ← newUuid
  let auditAt ← utcNow
  changeTask tenantId taskId actorId (fun t => t.status = .archived)
    (withStatus .open actorId now) ⟨fun _ => rfl⟩ "archived task not found" "task_restored"
    (archivedPayload app) auditId auditAt

/-- An identifier for each of the tasks. -/
def newUuids : List Uuid → Service (List Uuid)
  | [] => return []
  | _ :: ids => do
    let id ← newUuid
    let rest ← newUuids ids
    return id :: rest

def bulkUpdateTaskStatus (tenantId actorId : Uuid) (taskIds : List Uuid) (status : TaskStatus) :
    Service (List TaskRecord) := do
  let now ← utcNow
  let auditIds ← newUuids taskIds
  sql .taskWrite fun e s =>
    let p := fun (t : TaskRecord) => t.tenantId = tenantId && taskIds.contains t.id
    let tasks := (s.db.tasks.select p).map (withStatus status actorId now)
    if tasks.length ≠ taskIds.length then
      (.error (.notFound "one or more tasks were not found"), s)
    else
      let entries := (tasks.zip auditIds).map fun (task, auditId) =>
        { id := auditId, taskId := some task.id, tenantId, actorUserId := actorId,
          eventType := "task_status_updated", payload := .obj [("status", .str status.asStr)],
          createdAt := now : TaskAuditRecord }
      match s.db.taskAudit.insertAll entries with
      | some taskAudit => (.ok tasks, { s with
          db.tasks := s.db.tasks.update p (withStatus status actorId now)
          db.taskAudit := taskAudit
          history.commits := s.history.commits ++ [e.pid] })
      | none => (.error uniqueViolation, s)

/-- A nullable column satisfies a comparison; `NULL` satisfies none. -/
def compares (column : Option Time) (p : Time → Bool) : Bool := column.any p

/-- The condition that a present filter adds. -/
def wanted {α : Type} (filter : Option α) (p : α → Bool) : Bool := filter.all p

/-- The search condition of `apply_task_filters`. -/
def matchesQuery (app : App) (query : String) (t : TaskRecord) : Bool :=
  let trimmed := trim query
  if 3 ≤ charCount trimmed then app.lib.textSearch trimmed t.title t.description
  else
    let like := "%" ++ trimmed ++ "%"
    app.lib.ilike like t.title || app.lib.ilike like (t.description.getD "")

/-- `tenant_id = $1` and the conditions that `apply_task_filters` adds, without the cursor. -/
def matchesFilters (app : App) (s : AppState) (tenantId : Uuid) (filters : TaskFilters)
    (t : TaskRecord) : Bool :=
  t.tenantId = tenantId &&
  wanted filters.status (t.status = ·) &&
  wanted filters.priority (t.priority = ·) &&
  wanted filters.projectId (t.projectId = some ·) &&
  wanted filters.assigneeId (t.assigneeId = some ·) &&
  wanted filters.labelId (fun l => s.db.taskLabels.any fun r => r.taskId = t.id && r.labelId = l) &&
  wanted filters.dueBefore (fun x => compares t.dueAt (· ≤ x)) &&
  wanted filters.dueAfter (fun x => compares t.dueAt (x ≤ ·)) &&
  wanted filters.updatedAfter (· ≤ t.updatedAt) &&
  wanted filters.q (fun q => matchesQuery app q t) &&
  !(s.db.projects.any fun p => t.projectId = some p.id && p.archivedAt.isSome)

/-- The sort key of the listings. -/
def sortKey (t : TaskRecord) : Time × Uuid := (t.updatedAt, t.id)

/-- The first sort key comes after the second in `ORDER BY updated_at DESC, id DESC`. -/
def keyBelow (a b : Time × Uuid) : Bool := a.1 < b.1 || (a.1 = b.1 && a.2 < b.2)

/-- The condition that the cursor adds. -/
def belowCursor (cursor : Option Cursor) (t : TaskRecord) : Bool :=
  wanted cursor fun c => keyBelow (sortKey t) (c.updatedAt, c.id)

/-- `ORDER BY updated_at DESC, id DESC`. -/
def orderTasks (tasks : List TaskRecord) : List TaskRecord :=
  tasks.insertionSort fun a b => !keyBelow (sortKey a) (sortKey b)

def exportTasks (app : App) (tenantId : Uuid) (filters : TaskFilters) (cursor : Option Cursor)
    (limit : Nat) : Service (List TaskRecord) :=
  select fun _ s => (orderTasks <| s.db.tasks.select fun t =>
    matchesFilters app s tenantId filters t && belowCursor cursor t).take limit

/-- `NOT EXISTS (.. np.user_id = .. AND NOT np.enabled AND np.kind = ..)`. -/
def kindNotDisabled (s : AppState) (userId : Uuid) (kind : NotificationKind) : Bool :=
  !(s.db.preferences.any fun r => r.userId = userId && !r.enabled && r.kind = kind)

/-- The candidate row of a task, where the `WHERE` clause of `list_due_reminder_candidates`
selects it. -/
def dueReminderCandidate (s : AppState) (now : Time) (windowHours : Nat) (tenantId : Option Uuid)
    (t : TaskRecord) : Option (Time × DueReminderCandidate) := do
  let dueAt ← t.dueAt
  let assigneeId ← t.assigneeId
  let u ← s.db.users.find? assigneeId
  let kind := if dueAt ≤ now then NotificationKind.taskOverdue else .taskDueSoon
  if dueAt ≤ now + seconds (windowHours * 3600) && t.status ≠ .done && t.status ≠ .archived &&
      wanted tenantId (t.tenantId = ·) && kindNotDisabled s assigneeId kind then
    some (dueAt, ⟨t.id, t.tenantId, t.title, t.dueAt, assigneeId, u.email⟩)
  else none

/-- `ORDER BY due_at`: rows that are due at the same time come as the database returns them. -/
def inDueOrder (rank : Uuid → Nat) (a b : Time × Uuid) : Bool :=
  a.1 < b.1 || a.1 = b.1 && rank a.2 ≤ rank b.2

def listDueReminderCandidates (windowHours limit : Nat) (tenantId : Option Uuid) :
    Service (List DueReminderCandidate) :=
  select fun e s =>
    let rows := s.db.tasks.rows.filterMap (dueReminderCandidate s e.now windowHours tenantId)
    ((rows.insertionSort fun a b =>
      inDueOrder e.rank (a.1, a.2.taskId) (b.1, b.2.taskId)).take limit).map (·.2)

/-- The audit rows of `record_due_reminders`. -/
def reminderEntries (app : App) : List TaskRecord → Service (List TaskAuditRecord)
  | [] => return []
  | task :: tasks => do
    let id ← newUuid
    let now ← utcNow
    let entry : TaskAuditRecord :=
      { id, taskId := some task.id, tenantId := task.tenantId, actorUserId := task.updatedBy,
        eventType := "due_reminder_scheduled",
        payload := .obj [("task_id", .str (app.lib.uuidString task.id)),
          ("due_at", timeValue app task.dueAt), ("status", .str task.status.asStr)],
        createdAt := now }
    let rest ← reminderEntries app tasks
    return entry :: rest

def recordDueReminders (app : App) (tenantId : Option Uuid) : Service Nat := do
  let tasks ← select fun e s =>
    let due := s.db.tasks.select fun t =>
      compares t.dueAt (· ≤ e.now) && t.status ≠ .done && t.status ≠ .archived &&
        wanted tenantId (t.tenantId = ·)
    (due.insertionSort fun a b =>
      inDueOrder e.rank (a.dueAt.getD 0, a.id) (b.dueAt.getD 0, b.id)).take 200
  let entries ← reminderEntries app tasks
  sql .quiet fun _ s =>
    match s.db.taskAudit.insertAll entries with
    | some taskAudit => (.ok tasks.length, { s with db.taskAudit := taskAudit })
    | none => (.error uniqueViolation, s)

end Db

end Fluxa
