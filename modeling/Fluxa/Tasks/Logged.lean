import Fluxa.Tenants.Closure

/-!
# Tasks — what is logged

What a statement of the service does to tasks, their comments and their attachments, with the audit rows that come with it (**`Logged`**).  Each way is one constructor, and everything the service does keeps to them (**`call_logged`**).
-/

namespace Fluxa
open Interleave Relational Db Contract

/-- The tasks with their comments, attachments and audit rows. -/
structure TaskTables where
  tasks : Table TaskRecord TaskRecord.id
  comments : Table CommentRecord CommentRecord.id
  attachments : Table AttachmentRecord AttachmentRecord.id
  taskAudit : Table TaskAuditRecord TaskAuditRecord.id

def AppState.taskTables (s : AppState) : TaskTables :=
  ⟨s.db.tasks, s.db.comments, s.db.attachments, s.db.taskAudit⟩

/-- The events of the changes of a task's status alone. -/
def statusEvents : List String := ["task_archived", "task_restored", "task_status_updated"]

/-- The events that are about neither a task's columns nor its comments nor its attachments. -/
def otherEvents : List String := ["task_labels_updated", "due_reminder_scheduled"]

/-- An audit row of the task, of the actor, with the event and the payload. -/
structure Reports (a : TaskAuditRecord) (taskId actorId : Uuid) (eventType : String)
    (payload : Value) : Prop where
  taskId : a.taskId = some taskId
  actorUserId : a.actorUserId = actorId
  eventType : a.eventType = eventType
  payload : a.payload = payload

/-- The payload of the audit row of an upload. -/
def uploadedPayload (app : App) (a : AttachmentRecord) : Value :=
  .obj [("attachment_id", .str (app.lib.uuidString a.id)), ("file_name", .str a.fileName),
    ("size_bytes", .num a.sizeBytes)]

/-- The payload of the audit row of a deletion. -/
def removedPayload (app : App) (a : AttachmentRecord) : Value :=
  .obj [("attachment_id", .str (app.lib.uuidString a.id)), ("file_name", .str a.fileName)]

/-- What a statement does to the tables. -/
inductive Logged (app : App) (x : TaskTables) : TaskTables → Prop where
  | nothing : Logged app x x
  /-- Audit rows of events of no interest. -/
  | noted {entries : List TaskAuditRecord} {taskAudit : Table TaskAuditRecord TaskAuditRecord.id}
      (hevent : ∀ a ∈ entries, a.eventType ∈ otherEvents)
      (haudit : x.taskAudit.insertAll entries = some taskAudit) :
      Logged app x { x with taskAudit }
  /-- A new task. -/
  | created {id tenantId actorId : Uuid} {input : CreateTaskInput} {now : Time}
      {entry : TaskAuditRecord} {tasks : Table TaskRecord TaskRecord.id}
      {taskAudit : Table TaskAuditRecord TaskAuditRecord.id}
      (hrow : x.tasks.insert (newTask id tenantId actorId input now) = some tasks)
      (hentry : Reports entry id actorId "task_created"
        (createdPayload app (newTask id tenantId actorId input now)))
      (haudit : x.taskAudit.insert entry = some taskAudit) :
      Logged app x { x with tasks, taskAudit }
  /-- An update of a task. -/
  | updated {taskId actorId : Uuid} {input : UpdateTaskInput} {now : Time}
      {entry : TaskAuditRecord} {taskAudit : Table TaskAuditRecord TaskAuditRecord.id}
      (hentry : Reports entry taskId actorId "task_updated" (updatedPayload app input))
      (haudit : x.taskAudit.insert entry = some taskAudit) :
      Logged app x { x with
        tasks := x.tasks.update (fun t => t.id = taskId) (applyUpdate input actorId now)
          ⟨fun _ => rfl⟩
        taskAudit }
  /-- A status for the tasks that satisfy `p`, with an audit row for each. -/
  | statusSet {p : TaskRecord → Bool} {status : TaskStatus} {actorId : Uuid} {now : Time}
      {entries : List TaskAuditRecord} {taskAudit : Table TaskAuditRecord TaskAuditRecord.id}
      (hnodup : (entries.map (·.taskId)).Nodup)
      (heach : ∀ t ∈ x.tasks, p t = true → ∃ a ∈ entries, a.taskId = some t.id)
      (hentries : ∀ a ∈ entries, ∃ t ∈ x.tasks, p t = true ∧ ∃ eventType ∈ statusEvents,
        ∃ payload : Value, payload.field? "status" = some (.str status.asStr) ∧
          Reports a t.id actorId eventType payload)
      (haudit : x.taskAudit.insertAll entries = some taskAudit) :
      Logged app x { x with
        tasks := x.tasks.update p (withStatus status actorId now) ⟨fun _ => rfl⟩
        taskAudit }
  /-- A new comment. -/
  | commented {comment : CommentRecord} {entry : TaskAuditRecord}
      {comments : Table CommentRecord CommentRecord.id}
      {taskAudit : Table TaskAuditRecord TaskAuditRecord.id}
      (hrow : x.comments.insert comment = some comments)
      (hentry : Reports entry comment.taskId comment.authorId "task_comment_added"
        (commentPayload app comment.id))
      (haudit : x.taskAudit.insert entry = some taskAudit) :
      Logged app x { x with comments, taskAudit }
  /-- A change of a comment's text. -/
  | edited {p : CommentRecord → Bool} {f : CommentRecord → CommentRecord}
      (hf : Table.KeepsKey CommentRecord.id f) (htask : ∀ c, (f c).taskId = c.taskId) :
      Logged app x { x with comments := x.comments.update p f hf }
  /-- A comment is deleted. -/
  | uncommented {comment : CommentRecord} {actorId : Uuid} {entry : TaskAuditRecord}
      {taskAudit : Table TaskAuditRecord TaskAuditRecord.id} (hrow : comment ∈ x.comments)
      (hentry : Reports entry comment.taskId actorId "task_comment_deleted"
        (commentPayload app comment.id))
      (haudit : x.taskAudit.insert entry = some taskAudit) :
      Logged app x { x with
        comments := x.comments.delete (isComment comment.tenantId comment.taskId comment.id)
        taskAudit }
  /-- A new attachment. -/
  | attached {attachment : AttachmentRecord} {entry : TaskAuditRecord}
      {attachments : Table AttachmentRecord AttachmentRecord.id}
      {taskAudit : Table TaskAuditRecord TaskAuditRecord.id}
      (hrow : x.attachments.insert attachment = some attachments)
      (hentry : Reports entry attachment.taskId attachment.uploadedBy "task_attachment_added"
        (uploadedPayload app attachment))
      (haudit : x.taskAudit.insert entry = some taskAudit) :
      Logged app x { x with attachments, taskAudit }
  /-- An attachment is deleted. -/
  | detached {attachment : AttachmentRecord} {actorId : Uuid} {entry : TaskAuditRecord}
      {taskAudit : Table TaskAuditRecord TaskAuditRecord.id} (hrow : attachment ∈ x.attachments)
      (hentry : Reports entry attachment.taskId actorId "task_attachment_deleted"
        (removedPayload app attachment))
      (haudit : x.taskAudit.insert entry = some taskAudit) :
      Logged app x { x with
        attachments := x.attachments.delete
          (isAttachment attachment.tenantId attachment.taskId attachment.id)
        taskAudit }

namespace Logged

variable {i : Nat} {app : App} {tenantId taskId actorId : Uuid} {x y : TaskTables}

theorem of_eq (h : y = x) : Logged app x y := h ▸ .nothing

/-- The contract: every statement is `Logged`. -/
def contract (app : App) : Contract Event Env AppState where
  inv _ := True
  guar _ _ _ s s' := Logged app s.taskTables s'.taskTables
  adm i l e s := admissible i l e s = true
  guar_inv _ _ := trivial

/-- A statement that leaves the tables alone. -/
theorem of_same {s s' : AppState} (h : s'.taskTables = s.taskTables) :
    Logged app s.taskTables s'.taskTables := of_eq h

theorem discreet : Discreet (contract app) where
  stay _ _ _ _ _ _ := .nothing
  aside _ _ _ _ _ h := of_same <| by
    simp only [AppState.taskTables, h.tasks, h.comments, h.attachments, h.taskAudit]
  issue _ _ _ _ _ := .nothing

theorem patient : Patient (contract app) := discreet.toPatient

theorem patientOfKeys : PatientOfKeys (contract app) :=
  { patient with
    keys := fun _ _ s s' _ h => of_same <| by simp only [AppState.taskTables, h.db] }

/-- A statement on the database that leaves the tables alone. -/
theorem sql_beside {A : Type} {event : Event} {ready : AppState → Bool}
    {run : Env → AppState → Except AppError A × AppState}
    (h : ∀ e s, (run e s).2.taskTables = s.taskTables) :
    (contract app).Safe i (sqlWhen event ready run) :=
  sqlWhen_safe patient fun s e _ _ _ _ => of_same (h e s)

/-- A statement at which the tables stay or change in one of the ways. -/
theorem sql_logged {A : Type} {event : Event} {run : Env → AppState → Except AppError A × AppState}
    (h : ∀ e s, Logged app s.taskTables (run e s).2.taskTables) :
    (contract app).Safe i (sql event run) :=
  sql_safe patient fun s e _ _ _ => h e s

/-! ### Tasks -/

theorem insertAll_singleton {T T' : Table TaskAuditRecord TaskAuditRecord.id}
    {a : TaskAuditRecord} (h : T.insert a = some T') : T.insertAll [a] = some T' :=
  Option.bind_eq_some_iff.mpr ⟨T', h, rfl⟩

theorem createTask_logged {input : CreateTaskInput} :
    (contract app).Safe i (Db.createTask app tenantId actorId input) := by
  refine .bind (utcNow_safe patient) fun now => .bind (newUuid_safe patient) fun id => ?_
  refine .bind (newUuid_safe patient) fun auditId => sql_logged fun e s => ?_
  dsimp only
  split
  · exact .nothing
  · split
    · rename_i hrow haudit
      exact .created hrow ⟨rfl, rfl, rfl, rfl⟩ haudit
    · exact .nothing

theorem updateTask_logged {input : UpdateTaskInput} :
    (contract app).Safe i (Db.updateTask app tenantId taskId actorId input) := by
  refine .bind .ensure fun _ => .bind (utcNow_safe patient) fun now => ?_
  refine .bind (newUuid_safe patient) fun auditId => sql_logged fun e s => ?_
  dsimp only
  split
  · exact .nothing
  · split
    · exact .nothing
    · split
      · rename_i haudit
        exact .updated ⟨rfl, rfl, rfl, rfl⟩ haudit
      · exact .nothing

/-- The archiving or the restoring of a task. -/
theorem withStatus_logged {guard : TaskRecord → Bool} {status : TaskStatus}
    {missing eventType : String} (hevent : eventType ∈ statusEvents) :
    (contract app).Safe i (utcNow.bind fun now => newUuid.bind fun auditId =>
      utcNow.bind fun auditAt => changeTask tenantId taskId actorId guard
        (withStatus status actorId now) ⟨fun _ => rfl⟩ missing eventType (archivedPayload app) auditId
        auditAt) := by
  refine .bind (utcNow_safe patient) fun now => .bind (newUuid_safe patient) fun auditId => ?_
  refine .bind (utcNow_safe patient) fun auditAt => sql_logged fun e s => ?_
  dsimp only
  split
  · exact .nothing
  · rename_i t ht
    obtain ⟨hmem, rfl⟩ := Table.find?_eq_some.mp (Option.filter_eq_some_iff.mp ht).1
    split
    · exact .nothing
    · split
      · rename_i haudit
        have hnodup (a : TaskAuditRecord) : ([a].map (·.taskId)).Nodup := List.nodup_singleton _
        refine .statusSet (hnodup _) (fun t' _ hid => ⟨_, List.mem_singleton_self _, ?_⟩)
          (fun a ha => ?_) (insertAll_singleton haudit)
        · exact congrArg some (of_decide_eq_true hid).symm
        · obtain rfl := List.mem_singleton.mp ha
          exact ⟨t, hmem, decide_eq_true rfl, eventType, hevent, _, rfl, rfl, rfl, rfl, rfl⟩
      · exact .nothing

/-- As many identifiers as there are tasks. -/
theorem newUuids_length {ids : List Uuid} : (contract app).Triple i (fun _ => True) (newUuids ids)
    (onOk fun auditIds _ => auditIds.length = ids.length) := by
  induction ids with
  | nil => exact Triple.done stable_const fun _ _ _ => rfl
  | cons id ids ih =>
      refine Triple.seq (newUuid_safe patient).onOk_any fun _ => Triple.seq ih fun rest => ?_
      refine Triple.done stable_const fun _ _ hrest => ?_
      show (_ :: rest).length = _
      rw [List.length_cons, hrest, List.length_cons]

/-- The bulk update: each of the tasks with an identifier for its audit row. -/
theorem of_zip {p : TaskRecord → Bool} {status : TaskStatus} {now : Time} {auditIds : List Uuid}
    {f : TaskRecord × Uuid → TaskAuditRecord}
    {taskAudit : Table TaskAuditRecord TaskAuditRecord.id}
    (hf : ∀ y, Reports (f y) y.1.id actorId "task_status_updated"
      (.obj [("status", .str status.asStr)]))
    (hlen : ((x.tasks.select p).map (withStatus status actorId now)).length ≤ auditIds.length)
    (haudit : x.taskAudit.insertAll
      ((((x.tasks.select p).map (withStatus status actorId now)).zip auditIds).map f) =
        some taskAudit) :
    Logged app x { x with
      tasks := x.tasks.update p (withStatus status actorId now) ⟨fun _ => rfl⟩
      taskAudit } := by
  -- The audit rows are about the tasks, in their order.
  have habout : ((((x.tasks.select p).map (withStatus status actorId now)).zip auditIds).map f).map
      (·.taskId) = (x.tasks.select p).map (fun t => some t.id) := by
    rw [List.map_map, show (fun a : TaskAuditRecord => a.taskId) ∘ f =
      (fun t : TaskRecord => some t.id) ∘ Prod.fst from funext fun y => (hf y).taskId,
      ← List.map_map, List.map_fst_zip hlen, List.map_map]
    rfl
  refine .statusSet ?_ (fun t ht hp => ?_) (fun a ha => ?_) haudit
  · have hkeys : ((x.tasks.select p).map TaskRecord.id).Nodup :=
      x.tasks.nodup.sublist (List.filter_sublist.map _)
    have hsome := hkeys.map (Option.some_injective _)
    rw [List.map_map] at hsome
    rw [habout]
    exact hsome
  · have hmem : some t.id ∈ (x.tasks.select p).map (fun t => some t.id) :=
      List.mem_map_of_mem (Table.mem_select.mpr ⟨ht, hp⟩)
    rw [← habout] at hmem
    exact List.mem_map.mp hmem
  · obtain ⟨y, hy, rfl⟩ := List.mem_map.mp ha
    obtain ⟨t, ht, hty⟩ := List.mem_map.mp (List.of_mem_zip hy).1
    obtain ⟨ht, hp⟩ := Table.mem_select.mp ht
    have hid : y.1.id = t.id := hty ▸ rfl
    exact ⟨t, ht, hp, _, by simp [statusEvents], _, rfl, hid ▸ hf y⟩

theorem bulkUpdateTaskStatus_logged {taskIds : List Uuid} {status : TaskStatus} :
    (contract app).Safe i (Db.bulkUpdateTaskStatus tenantId actorId taskIds status) := by
  refine .bind (utcNow_safe patient) fun now => ?_
  refine Triple.bind newUuids_length (fun auditIds s hi hlen => ?_) fun _ _ _ _ => trivial
  refine (sql_logged fun e s => ?_ : (contract app).Safe i _) s hi trivial
  dsimp only
  split
  · exact .nothing
  · rename_i hcount
    split
    · rename_i haudit
      exact of_zip (fun _ => ⟨rfl, rfl, rfl, rfl⟩) ((not_not.mp hcount).trans hlen.symm).le haudit
    · exact .nothing

/-! ### Comments and attachments -/

theorem getTask_logged : (contract app).Safe i (Tasks.getTask tenantId taskId) :=
  .bind (select_safe patient) fun _ => .okOr

theorem enqueueNotification_logged {n : NewNotification} {maxAttempts : Nat} :
    (contract app).Safe i (enqueueNotification n maxAttempts) :=
  enqueue_safe patient fun _ _ _ _ _ _ _ => of_same rfl

theorem notifyAssignee_logged {task : TaskRecord} {authorId : Uuid} {comment : CommentRecord} :
    (contract app).Safe i (Comments.notifyAssignee app task tenantId authorId comment) := by
  unfold Comments.notifyAssignee
  split
  · exact .done
  · refine .ite (fun _ => .done) fun _ => .bind (select_safe patient).attempt fun _ => ?_
    refine .ite (fun _ => .bind (Safe.attempt (.bind (select_safe patient) fun _ => .okOr))
      fun r => ?_) fun _ => .done
    cases r with
    | error _ => exact .done
    | ok assignee => exact .bind (Safe.attempt enqueueNotification_logged) fun _ => .done

theorem createComment_logged {body : String} :
    (contract app).Safe i (Comments.createComment app tenantId taskId actorId body) := by
  refine .bind getTask_logged fun task => .bind ?_ fun comment =>
    .bind notifyAssignee_logged fun _ => .done
  refine .bind (utcNow_safe patient) fun now => .bind (newUuid_safe patient) fun id => ?_
  refine .bind (newUuid_safe patient) fun auditId => sql_logged fun e s => ?_
  dsimp only
  split
  · rename_i hrow haudit
    exact .commented hrow ⟨rfl, rfl, rfl, rfl⟩ haudit
  · exact .nothing

theorem updateComment_logged {commentId : Uuid} {body : String} :
    (contract app).Safe i (Comments.updateComment tenantId taskId commentId actorId body) := by
  refine .bind getTask_logged fun _ => .bind (.bind (select_safe patient) fun _ => .okOr)
    fun comment => .bind .ensure fun _ => sql_logged fun e s => ?_
  dsimp only
  split
  · exact .nothing
  · have hf : Table.KeepsKey CommentRecord.id fun c => { c with body, updatedAt := e.now } :=
      ⟨fun _ => rfl⟩
    exact .edited hf fun _ => rfl

theorem deleteComment_logged {commentId : Uuid} {role : MembershipRole} : (contract app).Safe i
    (Comments.deleteComment app tenantId taskId commentId actorId role) := by
  refine .bind getTask_logged fun _ => .bind (.bind (select_safe patient) fun _ => .okOr)
    fun comment => .bind .ensure fun _ => .bind (newUuid_safe patient) fun auditId => ?_
  refine .bind (utcNow_safe patient) fun auditAt => sql_logged fun e s => ?_
  dsimp only
  split
  · exact .nothing
  · rename_i c taskAudit hfound haudit
    obtain ⟨hfind, hc⟩ := Option.filter_eq_some_iff.mp hfound
    simp only [isComment, Bool.and_eq_true, decide_eq_true_eq] at hc
    obtain ⟨⟨rfl, rfl⟩, rfl⟩ := hc
    exact .uncommented (Table.find?_eq_some.mp hfind).1 ⟨rfl, rfl, rfl, rfl⟩ haudit
  · exact .nothing

theorem createAttachment_logged {attachmentId : Uuid} {fileName contentType storageKey : String}
    {sizeBytes : Nat} {content : Bytes} :
    (contract app).Safe i (Db.createAttachment app attachmentId tenantId taskId actorId fileName
      contentType sizeBytes storageKey content) := by
  refine .bind (utcNow_safe patient) fun now => ?_
  refine .bind (newUuid_safe patient) fun auditId => sql_logged fun e s => ?_
  dsimp only
  split
  · rename_i hrow haudit
    exact .attached hrow ⟨rfl, rfl, rfl, rfl⟩ haudit
  · exact .nothing

theorem uploadAttachment_logged {fileName contentType : String} {bytes : Bytes} :
    (contract app).Safe i
      (Attachments.uploadAttachment app tenantId taskId actorId fileName contentType bytes) := by
  refine .bind getTask_logged fun _ => .bind (select_safe patient) fun count => ?_
  refine .bind .ensure fun _ => .bind (newUuid_safe patient) fun attachmentId => ?_
  refine .bind (storagePut_safe discreet) fun _ => ?_
  refine .bind (Safe.attempt createAttachment_logged) fun r => ?_
  cases r with
  | ok attachment => exact .done
  | error error => exact .bind (storageDelete_safe discreet).attempt fun _ => .fail

theorem deleteAttachment_logged {attachmentId : Uuid} {role : MembershipRole} :
    (contract app).Safe i
      (Attachments.deleteAttachment app tenantId taskId attachmentId actorId role) := by
  refine .bind getTask_logged fun _ => .bind (.bind (select_safe patient) fun _ => .okOr)
    fun attachment => .bind .ensure fun _ => .bind ?_ fun deleted =>
      .bind (storageDelete_safe discreet).attempt fun _ => .done
  refine .bind (newUuid_safe patient) fun auditId => ?_
  refine .bind (utcNow_safe patient) fun auditAt => sql_logged fun e s => ?_
  dsimp only
  split
  · exact .nothing
  · rename_i a hfound
    obtain ⟨hfind, ha⟩ := Option.filter_eq_some_iff.mp hfound
    simp only [isAttachment, Bool.and_eq_true, decide_eq_true_eq] at ha
    obtain ⟨⟨rfl, rfl⟩, rfl⟩ := ha
    split
    · exact .nothing
    · rename_i haudit
      exact .detached (Table.find?_eq_some.mp hfind).1 ⟨rfl, rfl, rfl, rfl⟩ haudit

/-! ### Labels and jobs -/

/-- A statement in the call's transaction. -/
theorem inLabelTx_logged {A : Type} {run : Env → AppState → Option (A × AppState)}
    (h : ∀ e s a s', run e s = some (a, s') → s'.taskTables = s.taskTables) :
    (contract app).Safe i (inLabelTx run) := by
  refine .atomic fun s e _ _ _ => ?_
  split
  · rename_i a s' _ hr
    exact of_same (h e s a s' hr)
  · exact of_same rfl

theorem commitLabelTx_logged {T : LabelTx} {entry : TaskAuditRecord}
    (h : entry.eventType = "task_labels_updated") :
    (contract app).Safe i (commitLabelTx T entry) := by
  refine .atomic fun s e _ _ _ => ?_
  dsimp only
  split
  · exact of_same rfl
  · exact of_same rfl
  · exact of_same rfl
  · rename_i haudit _
    refine .noted (fun a ha => ?_) (insertAll_singleton haudit)
    obtain rfl := List.mem_singleton.mp ha
    exact h ▸ List.mem_cons_self


theorem bump_logged {event : Event} :
    (contract app).Safe i (Cache.bumpTenantCacheVersion tenantId event) := by
  refine .atomic fun s e _ _ _ => ?_
  split <;> exact of_same rfl

theorem enqueueWebhookDeliveries_logged {eventType : String} {payload : Value} :
    (contract app).Safe i (enqueueWebhookDeliveries tenantId eventType payload) := by
  refine .bind (utcNow_safe patient) fun now => sql_beside fun e s => ?_
  dsimp only
  split <;> rfl

theorem publishes : TaskWrites.Publishes (contract app) i app tenantId where
  bump := bump_logged
  emit _ _ := .bind (.attempt enqueueWebhookDeliveries_logged) fun _ => .done

theorem setTaskLabels_logged {labelIds : List Uuid} :
    (contract app).Safe i (Labels.setTaskLabels app tenantId taskId actorId labelIds) := by
  refine .bind lift_safe fun wanted => .bind getTask_logged fun task => ?_
  refine .bind (.bind (select_safe patient) fun labels => .ite (fun _ => .fail) fun _ => ?_)
    fun labels => .bind bump_logged fun _ => .done
  refine .bind (inLabelTx_logged fun e s a s' hr => ?_) fun T => ?_
  · cases hr
    rfl
  refine .bind (inLabelTx_logged fun e s a s' hr => ?_) fun T => ?_
  · split at hr
    · cases hr
    · cases hr
      rfl
  refine .bind (inLabelTx_logged fun e s a s' hr => ?_) fun T => ?_
  · split at hr
    · cases hr
    · split at hr
      · cases hr
      · cases hr
        rfl
  refine .bind (newUuid_safe patient) fun auditId => .bind (utcNow_safe patient) fun now => ?_
  refine .bind (inLabelTx_logged fun e s a s' hr => ?_) fun _ =>
    .bind (commitLabelTx_logged rfl) fun _ => .done
  obtain ⟨-, -, hr⟩ := Option.map_eq_some_iff.mp hr
  cases hr
  rfl

/-- The audit rows of reminders. -/
theorem reminderEntries_logged {tasks : List TaskRecord} : (contract app).Triple i (fun _ => True)
    (reminderEntries app tasks)
    (onOk fun entries _ => ∀ a ∈ entries, a.eventType ∈ otherEvents) := by
  induction tasks with
  | nil => exact Triple.done stable_const fun _ _ _ _ h => absurd h List.not_mem_nil
  | cons task tasks ih =>
      refine Triple.seq (newUuid_safe patient).onOk_any fun id => ?_
      refine Triple.seq (utcNow_safe patient).onOk_any fun now => Triple.seq ih fun rest => ?_
      refine Triple.done stable_const fun _ _ hrest a ha => ?_
      rcases List.mem_cons.mp ha with rfl | ha
      · exact List.mem_cons_of_mem _ List.mem_cons_self
      · exact hrest a ha

theorem recordDueReminders_logged {tenantId : Option Uuid} :
    (contract app).Safe i (recordDueReminders app tenantId) := by
  refine .bind (select_safe patient) fun tasks => ?_
  refine Triple.bind reminderEntries_logged (fun entries s hi hentries => ?_) fun _ _ _ _ => trivial
  refine (sql_logged fun e s => ?_ : (contract app).Safe i _) s hi trivial
  dsimp only
  split
  · exact .noted hentries ‹_›
  · exact .nothing

theorem processDueReminderJob_logged {tenantId : Option Uuid} :
    (contract app).Safe i (Jobs.processDueReminderJob app tenantId) := by
  have hall (now : Time) (cs : List DueReminderCandidate) :
      (contract app).Safe i (Jobs.enqueueCandidates app now cs) := by
    induction cs with
    | nil => exact .done
    | cons c cs ih => exact .bind enqueueNotification_logged fun _ => .bind ih fun _ => .done
  refine .bind recordDueReminders_logged fun _ => .bind ?_ fun _ =>
    .bind (utcNow_safe patient) fun _ => .done
  exact .bind (select_safe patient) fun cs => .bind (utcNow_safe patient) fun now => hall now cs

theorem processRetentionJob_logged :
    (contract app).Safe i (Jobs.processRetentionJob app) := by
  refine .bind (.bind (.atomic fun s _ _ _ _ => .nothing) fun _ => sql_beside fun _ _ => rfl)
    fun _ => .bind (sql_beside fun _ _ => rfl) fun _ => .bind (sql_beside fun _ _ => rfl) fun _ =>
      .bind (sql_beside fun _ _ => rfl) fun _ => .bind (utcNow_safe patient) fun _ => .done

theorem processJob_logged {rounds : Nat} {jobId : Uuid} :
    (contract app).Safe i (Jobs.processJob app rounds jobId) := by
  refine .bind (sql_beside fun e s => ?_) fun o => ?_
  · dsimp only
    split <;> rfl
  cases o with
  | none => exact .done
  | some job =>
      refine .bind (Safe.attempt ?_) fun r => ?_
      · unfold Jobs.runJob
        cases job.jobType with
        | taskExport =>
            cases job.payload with
            | taskExport => exact processExportJob_safe discreet
            | dueReminder => exact .fail
            | empty => exact .fail
        | dueReminderSweep => exact processDueReminderJob_logged
        | retentionSweep => exact processRetentionJob_logged
      · cases r with
        | ok result => exact sql_beside fun _ _ => rfl
        | error error =>
            exact .bind (utcNow_safe patient) fun _ => sql_beside fun _ _ => rfl


/-! ### Projects, labels and webhooks -/

theorem changeProject_logged {projectId : Uuid} {guard : ProjectRecord → Bool}
    {f : ProjectRecord → ProjectRecord} {hf : Table.KeepsKey ProjectRecord.id f}
    {missing : String} :
    (contract app).Safe i (changeProject tenantId projectId guard f hf missing) := by
  refine sql_beside fun e s => ?_
  dsimp only
  split
  · rfl
  · split <;> rfl

/-- A change elsewhere, then the bump and the audit event. -/
theorem publishProject_logged {A B : Type} {change : Service A} {result : A → Service B}
    {subjectId : A → Option Uuid} {eventType : String} {payload : A → Value}
    (h : (contract app).Safe i change) (hr : ∀ a, (contract app).Safe i (result a)) :
    (contract app).Safe i (change.bind fun a =>
      (Cache.bumpTenantCacheVersion tenantId).bind fun _ =>
        (recordEvent (some tenantId) (some actorId) "project" (subjectId a) eventType
          (payload a)).bind fun _ => result a) :=
  .bind h fun a => .bind bump_logged fun _ => .bind (recordEvent_safe discreet) fun _ => hr a

theorem createProject_logged {input : CreateProjectInput} :
    (contract app).Safe i (Projects.createProject tenantId actorId input) := by
  refine publishProject_logged (.bind (utcNow_safe patient) fun now =>
    .bind (newUuid_safe patient) fun id => sql_beside fun e s => ?_) fun _ => .done
  dsimp only
  split
  · rfl
  · split <;> rfl

theorem updateProject_logged {projectId : Uuid} {input : UpdateProjectInput} :
    (contract app).Safe i (Projects.updateProject tenantId projectId actorId input) :=
  publishProject_logged (.bind (utcNow_safe patient) fun _ => changeProject_logged) fun _ => .done

theorem archiveProject_logged {projectId : Uuid} :
    (contract app).Safe i (Projects.archiveProject tenantId actorId projectId) :=
  .bind (.bind (utcNow_safe patient) fun _ => changeProject_logged) fun _ =>
    .bind bump_logged fun _ => recordEvent_safe discreet

theorem restoreProject_logged {projectId : Uuid} :
    (contract app).Safe i (Projects.restoreProject tenantId actorId projectId) :=
  publishProject_logged (.bind (utcNow_safe patient) fun _ => changeProject_logged) fun _ => .done

theorem createLabel_logged {input : CreateLabelInput} :
    (contract app).Safe i (Labels.createLabel app tenantId actorId input) := by
  refine .bind (.bind (utcNow_safe patient) fun now => .bind (newUuid_safe patient)
    fun id => sql_beside fun e s => ?_) fun label =>
      .bind (recordEvent_safe discreet) fun _ => .done
  dsimp only
  split
  · rfl
  · split <;> rfl

theorem updateLabel_logged {labelId : Uuid} {input : UpdateLabelInput} :
    (contract app).Safe i (Labels.updateLabel app tenantId labelId actorId input) := by
  refine .bind (.bind (utcNow_safe patient) fun now => sql_beside fun e s => ?_) fun label =>
    .bind (recordEvent_safe discreet) fun _ => .done
  dsimp only
  split
  · rfl
  · split <;> rfl

theorem deleteLabel_logged {labelId : Uuid} :
    (contract app).Safe i (Labels.deleteLabel tenantId labelId actorId) := by
  refine .bind (sql_beside fun e s => ?_) fun label =>
    .bind bump_logged fun _ => recordEvent_safe discreet
  dsimp only
  split <;> rfl

theorem changeDeliveries_logged {A : Type} {event : Event}
    {result : Env → AppState → Except AppError A}
    {p : Env → AppState → WebhookDeliveryRecord → Bool}
    {f : Env → OutboxColumns Uuid → OutboxColumns Uuid} {hf : ∀ e, OutboxRow.KeepsId (f e)} :
    (contract app).Safe i (sql event fun e s =>
      (result e s, changeMessages deliveryOutbox (p e s) (f e) (hf e) s)) :=
  sql_beside fun _ _ => rfl

theorem redeliver_logged {webhookId deliveryId : Uuid} :
    (contract app).Safe i (Fluxa.redeliverWebhookDelivery tenantId webhookId deliveryId) := by
  refine .bind (.bind (select_safe patient) fun _ => .okOr) fun _ => ?_
  refine .bind changeDeliveries_logged fun requeued => ?_
  cases requeued with
  | some delivery => exact .done
  | none =>
      exact .bind (select_safe patient) fun _ => .ite (fun _ => .fail) fun _ => .fail

theorem deliverAll_logged {deliveries : List WebhookDeliveryRecord} :
    (contract app).Safe i (Delivery.deliverAll dispatcherRound deliveries) := by
  induction deliveries with
  | nil => exact .done
  | cons d rest ih =>
      refine .bind (Safe.attempt (.bind (.bind (select_safe patient) fun _ => .okOr) fun _ =>
        .bind .ensure fun _ => .atomic fun s e _ _ _ => of_same rfl)) fun r => ?_
      cases r with
      | ok _ => exact .bind changeDeliveries_logged fun _ => ih
      | error error =>
          exact .bind (.bind (utcNow_safe patient) fun _ => changeDeliveries_logged) fun _ => ih

theorem dispatchPendingWebhooks_logged : (contract app).Safe i dispatchPendingWebhooks :=
  .bind (sql_beside fun _ _ => rfl) fun _ => deliverAll_logged

/-- A statement in a transaction that registers a webhook. -/
theorem inWebhookTx_logged {A : Type} {ready : AppState → Bool}
    {run : Env → AppState → Except AppError (A × AppState)}
    (h : ∀ e s a s', run e s = .ok (a, s') → s'.taskTables = s.taskTables) :
    (contract app).Safe i (inWebhookTx ready run) := by
  refine .atomic fun s e _ _ _ => ?_
  split
  · rename_i a s' _ hr
    exact of_same (h e s a s' hr)
  · exact of_same rfl
  · exact of_same rfl

theorem createWebhook_logged {url secret : String} {events : List String} :
    (contract app).Safe i (Db.createWebhook tenantId actorId url secret events) := by
  refine .bind (utcNow_safe patient) fun now => .bind (inWebhookTx_logged fun e s a s' hr => ?_)
    fun T => ?_
  · split at hr
    · cases hr
    · cases hr
      rfl
  refine .bind (inWebhookTx_logged fun e s a s' hr => ?_) fun _ => ?_
  · split at hr
    · cases hr
    · cases hr
      rfl
  refine .bind (newUuid_safe patient) fun id => .bind (inWebhookTx_logged fun e s a s' hr => ?_)
    fun T => ?_
  · split at hr
    · cases hr
    · cases hr
      rfl
  refine .bind (.atomic fun s e _ _ _ => ?_) fun _ => .done
  dsimp only
  split <;> exact of_same rfl

theorem updateWebhook_logged {webhookId : Uuid} {url : Option String} {events : Option (List String)}
    {isActive : Option Bool} : (contract app).Safe i
      (Webhooks.updateWebhook app tenantId webhookId url events isActive) := by
  refine .bind .ensure fun _ => .bind lift_safe fun url => .bind lift_safe fun events => ?_
  refine .bind (utcNow_safe patient) fun now => sql_beside fun e s => ?_
  dsimp only
  split <;> rfl

theorem deleteWebhook_logged {webhookId : Uuid} :
    (contract app).Safe i (Db.deleteWebhook tenantId webhookId) := by
  refine sql_beside fun e s => ?_
  dsimp only
  split <;> rfl

/-! ### The calls -/

theorem forEffect_logged {A : Type} {p : Service A} (h : (contract app).Safe i p) :
    (contract app).Safe i (Tenants.forEffect p) :=
  .bind h fun _ => .done

theorem idempotent_logged {A B : Type} {app' : App} {key : IdempotencyKey}
    {prepare : Except AppError B} {create : B → Service A} {respond : A → StoredResponse}
    (h : ∀ input, (contract app).Safe i (create input)) :
    (contract app).Safe i (Http.idempotent app' key prepare create respond) :=
  idempotent_from patientOfKeys lasting_const h

theorem route_logged {user : AuthenticatedUser} (r : Tenants.Route) :
    (contract app).Safe i (r.handler app user) := by
  cases r with
  | createProject key payload =>
      refine forEffect_logged (.bind lift_safe fun _ => .bind lift_safe fun _ =>
        .bind lift_safe fun _ => ?_)
      exact idempotent_logged fun _ => createProject_logged
  | updateProject projectId payload =>
      exact forEffect_logged (.bind lift_safe fun _ => .bind lift_safe fun _ =>
        .bind updateProject_logged fun _ => .done)
  | deleteProject projectId => exact .bind lift_safe fun _ => archiveProject_logged
  | restoreProject projectId =>
      exact forEffect_logged (.bind lift_safe fun _ => .bind restoreProject_logged fun _ => .done)
  | createLabel key payload =>
      refine forEffect_logged (.bind lift_safe fun _ => .bind lift_safe fun _ =>
        .bind lift_safe fun _ => ?_)
      exact idempotent_logged fun _ => createLabel_logged
  | updateLabel labelId payload =>
      exact forEffect_logged (.bind lift_safe fun _ => .bind lift_safe fun _ =>
        .bind updateLabel_logged fun _ => .done)
  | deleteLabel labelId => exact .bind lift_safe fun _ => deleteLabel_logged
  | putTaskLabels taskId labelIds =>
      exact forEffect_logged (.bind lift_safe fun _ => .bind setTaskLabels_logged fun _ => .done)
  | createTask key payload =>
      refine forEffect_logged (.bind lift_safe fun _ => .bind lift_safe fun _ => ?_)
      exact idempotent_logged fun _ => TaskWrites.createTask_service publishes patient
        lasting_const createTask_logged
  | updateTask taskId payload =>
      exact forEffect_logged (.bind lift_safe fun _ => .bind lift_safe fun _ =>
        .bind (TaskWrites.updateTask_service publishes patient lasting_const
          updateTask_logged) fun _ => .done)
  | bulkUpdateTaskStatus taskIds status =>
      exact forEffect_logged (.bind lift_safe fun _ => .bind lift_safe fun _ =>
        .bind (TaskWrites.bulkUpdateTaskStatus_service publishes fun _ =>
          bulkUpdateTaskStatus_logged) fun _ => .done)
  | deleteTask taskId =>
      exact .bind lift_safe fun _ => TaskWrites.archiveTask_service publishes
        (withStatus_logged List.mem_cons_self)
  | restoreTask taskId =>
      exact forEffect_logged (.bind lift_safe fun _ => .bind (TaskWrites.restoreTask_service publishes
        (withStatus_logged (List.mem_cons_of_mem _ List.mem_cons_self))) fun _ => .done)
  | createTaskComment taskId key body =>
      refine forEffect_logged (.bind lift_safe fun _ => .bind lift_safe fun _ =>
        .bind lift_safe fun _ => ?_)
      exact idempotent_logged fun _ => createComment_logged
  | updateTaskComment taskId commentId body =>
      exact forEffect_logged (.bind lift_safe fun _ => .bind lift_safe fun _ =>
        .bind updateComment_logged fun _ => .done)
  | deleteTaskComment taskId commentId => exact deleteComment_logged
  | uploadTaskAttachment taskId fileName contentType key body =>
      refine forEffect_logged (.bind lift_safe fun _ => .bind lift_safe fun _ =>
        .bind lift_safe fun _ => .bind lift_safe fun _ => ?_)
      exact idempotent_logged fun _ => uploadAttachment_logged
  | deleteTaskAttachment taskId attachmentId => exact deleteAttachment_logged
  | createWebhook key url events =>
      refine forEffect_logged (.bind lift_safe fun _ => .bind lift_safe fun _ => ?_)
      refine idempotent_logged fun _ => .bind lift_safe fun _ => .bind lift_safe fun _ => ?_
      exact .bind (generateRandom_safe patient) fun _ => createWebhook_logged
  | updateWebhook webhookId url events isActive =>
      exact forEffect_logged (.bind lift_safe fun _ => .bind updateWebhook_logged fun _ => .done)
  | deleteWebhook webhookId => exact .bind lift_safe fun _ => deleteWebhook_logged
  | redeliverWebhookDelivery webhookId deliveryId => exact forEffect_logged redeliver_logged

/-- Everything the service does. -/
theorem call_logged (k : Tenants.TenantCall) :
    (contract app).Safe i ((Tenants.tenantSystem app).body k) := by
  cases k with
  | request user route => exact route_logged route
  | processJob rounds jobId => exact processJob_logged
  | dispatchPendingWebhooks => exact dispatchPendingWebhooks_logged
  | elsewhere p h =>
      refine h.safe fun l e s s' _ _ h => of_same ?_
      simp only [AppState.taskTables, h.tasks, h.comments, h.attachments, h.taskAudit]


end Logged

end Fluxa
