import Fluxa.Relational.Ledger
import Fluxa.Tasks.Logged
import Fluxa.Tasks.Trail

/-!
# Tasks — the audit trail replayed

The audit rows of a task, told in the order of their commits, give the task: its title, status and priority, who has created it and who has changed it last, and the comments and attachments that it has.

**`audit_replays`**: so it is in every state of every run, however the statements of the requests and the workers are interleaved and whichever of them fail.
-/

namespace Fluxa
open Interleave Relational Db Contract

/-- An attachment as the audit rows know it. -/
structure AttachmentView where
  id : String
  fileName : String
  sizeBytes : Int
deriving DecidableEq, Repr

/-- A task as the audit rows know it. -/
structure TaskView where
  title : String
  status : TaskStatus
  priority : TaskPriority
  createdBy : Uuid
  updatedBy : Uuid
  comments : List String
  attachments : List AttachmentView
deriving DecidableEq, Repr

namespace Replay

/-! ### What audit rows tell -/

/-- A text in the payload. -/
def text? (a : TaskAuditRecord) (field : String) : Option String :=
  (a.payload.field? field).bind Value.asStr?

/-- A number in the payload. -/
def number? (a : TaskAuditRecord) (field : String) : Option Int :=
  match a.payload.field? field with
  | some (.num n) => some n
  | _ => none

def status? (a : TaskAuditRecord) : Option TaskStatus :=
  (text? a "status").bind fun text => (validateTaskStatus text).toOption

def priority? (a : TaskAuditRecord) : Option TaskPriority :=
  (text? a "priority").bind fun text => (validateTaskPriority text).toOption

/-- The task that an audit row of its creation tells of. -/
def create? (a : TaskAuditRecord) : Option TaskView :=
  match text? a "title", status? a, priority? a with
  | some title, some status, some priority =>
    some { title, status, priority, createdBy := a.actorUserId, updatedBy := a.actorUserId,
           comments := [], attachments := [] }
  | _, _, _ => none

/-- The attachment that an audit row of its upload tells of. -/
def attachment? (a : TaskAuditRecord) : Option AttachmentView :=
  match text? a "attachment_id", text? a "file_name", number? a "size_bytes" with
  | some id, some fileName, some sizeBytes => some { id, fileName, sizeBytes }
  | _, _, _ => none

/-- What an audit row makes of a task. -/
def change (a : TaskAuditRecord) (v : TaskView) : TaskView :=
  if a.eventType = "task_updated" then
    { v with
      title := ((text? a "title").map trim).getD v.title
      status := (status? a).getD v.status
      priority := (priority? a).getD v.priority
      updatedBy := a.actorUserId }
  else if a.eventType ∈ statusEvents then
    { v with status := (status? a).getD v.status, updatedBy := a.actorUserId }
  else if a.eventType = "task_comment_added" then
    { v with comments := v.comments ++ (text? a "comment_id").toList }
  else if a.eventType = "task_comment_deleted" then
    { v with comments := v.comments.filter fun id => some id ≠ text? a "comment_id" }
  else if a.eventType = "task_attachment_added" then
    { v with attachments := v.attachments ++ (attachment? a).toList }
  else if a.eventType = "task_attachment_deleted" then
    { v with attachments := v.attachments.filter fun x => some x.id ≠ text? a "attachment_id" }
  else v

/-- The audit rows as a ledger. -/
def ledger : Ledger TaskAuditRecord Uuid TaskView where
  about a := a.taskId
  tell known a := if a.eventType = "task_created" then create? a else known.map (change a)

/-- What the audit rows of a task, in the order of their commits, tell of it. -/
def replayed (s : AppState) (taskId : Uuid) : Option TaskView :=
  ledger.said s.db.taskAudit.rows taskId

/-! ### What is stored -/

/-- The comments of a task. -/
def commentsOf (app : App) (x : TaskTables) (taskId : Uuid) : List String :=
  (x.comments.select fun c => c.taskId = taskId).map fun c => app.lib.uuidString c.id

def attachmentView (app : App) (a : AttachmentRecord) : AttachmentView :=
  { id := app.lib.uuidString a.id, fileName := a.fileName, sizeBytes := a.sizeBytes }

/-- The attachments of a task. -/
def attachmentsOf (app : App) (x : TaskTables) (taskId : Uuid) : List AttachmentView :=
  (x.attachments.select fun a => a.taskId = taskId).map (attachmentView app)

/-- The task, with the comments and attachments given. -/
def viewWith (t : TaskRecord) (comments : List String) (attachments : List AttachmentView) :
    TaskView :=
  { title := t.title, status := t.status, priority := t.priority, createdBy := t.createdBy,
    updatedBy := t.updatedBy, comments, attachments }

/-- The task under the identifier, as it is stored. -/
def viewOf (app : App) (x : TaskTables) (taskId : Uuid) : Option TaskView :=
  (x.tasks.find? taskId).map fun t => viewWith t (commentsOf app x t.id) (attachmentsOf app x t.id)

/-- The audit rows tell every task. -/
def Told (app : App) (x : TaskTables) : Prop := ledger.Tells x.taskAudit.rows (viewOf app x)

variable {app : App} {x y : TaskTables} {taskId : Uuid} {t : TaskRecord} {v : TaskView}
  {a : TaskAuditRecord}

theorem viewOf_eq_some : viewOf app x taskId = some v ↔ ∃ t ∈ x.tasks, t.id = taskId ∧
    viewWith t (commentsOf app x taskId) (attachmentsOf app x taskId) = v := by
  unfold viewOf
  rw [Option.map_eq_some_iff]
  constructor
  · rintro ⟨t, ht, rfl⟩
    obtain ⟨hmem, rfl⟩ := Table.find?_eq_some.mp ht
    exact ⟨t, hmem, rfl, rfl⟩
  · rintro ⟨t, hmem, rfl, rfl⟩
    exact ⟨t, Table.find?_eq_some.mpr ⟨hmem, rfl⟩, rfl⟩

/-! ### What each audit row tells -/

section Entries

variable {actorId : Uuid} {eventType : String} {payload : Value} {field : String}

theorem text?_eq (h : Reports a taskId actorId eventType payload) :
    text? a field = (payload.field? field).bind Value.asStr? := by
  rw [text?, h.payload]

theorem tell_created (h : a.eventType = "task_created") (w : Option TaskView) :
    ledger.tell w a = create? a := if_pos h

theorem tell_change (h : a.eventType ≠ "task_created") (w : Option TaskView) :
    ledger.tell w a = w.map (change a) := if_neg h

/-- The creation tells of the task without comments and attachments. -/
theorem create?_eq {id : Uuid} {input : CreateTaskInput} {now : Time}
    {tenantId : Uuid} (h : Reports a id actorId "task_created"
      (createdPayload app (newTask id tenantId actorId input now))) :
    create? a = some (viewWith (newTask id tenantId actorId input now) [] []) := by
  have htitle : text? a "title" = some (newTask id tenantId actorId input now).title := text?_eq h
  have hstatus : status? a = some (newTask id tenantId actorId input now).status := by
    rw [status?, text?_eq h]
    exact congrArg Except.toOption (validateTaskStatus_asStr _)
  have hpriority : priority? a = some (newTask id tenantId actorId input now).priority := by
    rw [priority?, text?_eq h]
    exact congrArg Except.toOption (validateTaskPriority_asStr _)
  rw [create?, htitle, hstatus, hpriority, h.actorUserId]
  rfl

theorem change_updated {input : UpdateTaskInput} {now : Time} {comments : List String}
    {attachments : List AttachmentView}
    (h : Reports a taskId actorId "task_updated" (updatedPayload app input)) :
    change a (viewWith t comments attachments) =
      viewWith (applyUpdate input actorId now t) comments attachments := by
  have htitle : text? a "title" = input.title := by
    rw [text?_eq h]
    cases hi : input.title <;> simp [updatedPayload, Value.field?, hi, Value.ofOption, Value.asStr?]
  have hstatus : status? a = input.status := by
    rw [status?, text?_eq h]
    cases hi : input.status with
    | none => simp [updatedPayload, Value.field?, hi, Value.ofOption, Value.asStr?]
    | some status =>
        simp [updatedPayload, Value.field?, hi, Value.ofOption, Value.asStr?, Except.toOption]
  have hpriority : priority? a = input.priority := by
    rw [priority?, text?_eq h]
    cases hi : input.priority with
    | none => simp [updatedPayload, Value.field?, hi, Value.ofOption, Value.asStr?]
    | some priority =>
        simp [updatedPayload, Value.field?, hi, Value.ofOption, Value.asStr?, Except.toOption]
  rw [change, if_pos h.eventType, htitle, hstatus, hpriority, h.actorUserId]
  rfl

theorem change_status {status : TaskStatus} {now : Time} {comments : List String}
    {attachments : List AttachmentView} (h : Reports a taskId actorId eventType payload)
    (hevent : eventType ∈ statusEvents)
    (hpayload : payload.field? "status" = some (.str status.asStr)) :
    change a (viewWith t comments attachments) =
      viewWith (withStatus status actorId now t) comments attachments := by
  have hne : a.eventType ≠ "task_updated" := by
    rw [h.eventType]
    rintro rfl
    exact absurd hevent (by decide)
  have hstatus : status? a = some status := by
    rw [status?, text?_eq h, hpayload]
    exact congrArg Except.toOption (validateTaskStatus_asStr _)
  rw [change, if_neg hne, if_pos (h.eventType ▸ hevent), hstatus, h.actorUserId]
  rfl

/-- Once the events before have been ruled out. -/
theorem change_commented {c : Uuid}
    (h : Reports a taskId actorId "task_comment_added" (commentPayload app c)) :
    change a v = { v with comments := v.comments ++ [app.lib.uuidString c] } := by
  have hid : text? a "comment_id" = some (app.lib.uuidString c) := text?_eq h
  simp [change, h.eventType, statusEvents, hid]

theorem change_uncommented {c : Uuid}
    (h : Reports a taskId actorId "task_comment_deleted" (commentPayload app c)) :
    change a v = { v with comments := v.comments.filter fun id => id ≠ app.lib.uuidString c } := by
  have hid : text? a "comment_id" = some (app.lib.uuidString c) := text?_eq h
  simp [change, h.eventType, statusEvents, hid]

theorem change_attached {r : AttachmentRecord}
    (h : Reports a taskId actorId "task_attachment_added" (uploadedPayload app r)) :
    change a v = { v with attachments := v.attachments ++ [attachmentView app r] } := by
  have hid : text? a "attachment_id" = some (app.lib.uuidString r.id) := text?_eq h
  have hname : text? a "file_name" = some r.fileName := text?_eq h
  have hsize : number? a "size_bytes" = some (r.sizeBytes : Int) := by
    rw [number?, h.payload]
    rfl
  simp [change, h.eventType, statusEvents, attachment?, hid, hname, hsize, attachmentView]

theorem change_detached {r : AttachmentRecord}
    (h : Reports a taskId actorId "task_attachment_deleted" (removedPayload app r)) :
    change a v = { v with
      attachments := v.attachments.filter fun x => x.id ≠ app.lib.uuidString r.id } := by
  have hid : text? a "attachment_id" = some (app.lib.uuidString r.id) := text?_eq h
  simp [change, h.eventType, statusEvents, hid]

theorem tell_other (h : a.eventType ∈ otherEvents) (w : Option TaskView) :
    ledger.tell w a = w := by
  have hchange : ∀ v, change a v = v := by
    intro v
    rcases List.mem_cons.mp h with he | he
    · simp [change, he, statusEvents]
    · obtain he := List.mem_singleton.mp he
      simp [change, he, statusEvents]
  have hne : a.eventType ≠ "task_created" := by
    rintro he
    rw [he] at h
    exact absurd h (by decide)
  rw [tell_change hne, show change a = id from funext hchange, Option.map_id, id]

end Entries

/-! ### What a statement does -/

/-- Comments and attachments are of tasks. -/
structure Attached (x : TaskTables) : Prop where
  comments : ∀ c ∈ x.comments, ∃ t ∈ x.tasks, t.id = c.taskId
  attachments : ∀ r ∈ x.attachments, ∃ t ∈ x.tasks, t.id = r.taskId

/-- One more audit row, which tells what has become of its task. -/
theorem Told.entry {taskAudit : Table TaskAuditRecord TaskAuditRecord.id} (h : Told app x)
    (hid : a.taskId = some taskId) (haudit : x.taskAudit.insert a = some taskAudit)
    (hrows : y.taskAudit = taskAudit)
    (hother : ∀ k v, k ≠ taskId → viewOf app y k = some v → viewOf app x k = some v)
    (hself : ∀ v w, viewOf app y taskId = some v →
      (∀ u, viewOf app x taskId = some u → w = some u) → ledger.tell w a = some v) :
    Told app y := by
  rw [Told, hrows, Table.rows_insert haudit]
  refine Ledger.Tells.append h (List.nodup_singleton _) (fun k v hk => hother k v ?_) ?_
  · rintro rfl
    exact hk a (List.mem_singleton_self a) hid
  · intro e he k v hk hv w hw
    obtain rfl := List.mem_singleton.mp he
    obtain rfl : taskId = k := Option.some.inj (hid.symm.trans hk)
    exact hself v w hv hw

/-- Where the row is about a task that was there. -/
theorem Told.of_change {taskAudit : Table TaskAuditRecord TaskAuditRecord.id} (h : Told app x)
    (hid : a.taskId = some taskId) (hevent : a.eventType ≠ "task_created")
    (haudit : x.taskAudit.insert a = some taskAudit) (hrows : y.taskAudit = taskAudit)
    (hother : ∀ k v, k ≠ taskId → viewOf app y k = some v → viewOf app x k = some v)
    (hself : ∀ v, viewOf app y taskId = some v →
      ∃ u, viewOf app x taskId = some u ∧ change a u = v) : Told app y := by
  refine h.entry hid haudit hrows hother fun v w hv hw => ?_
  obtain ⟨u, hu, rfl⟩ := hself v hv
  rw [tell_change hevent, hw u hu]
  rfl

theorem Told.created {id tenantId actorId : Uuid} {input : CreateTaskInput} {now : Time}
    {tasks : Table TaskRecord TaskRecord.id} {taskAudit : Table TaskAuditRecord TaskAuditRecord.id}
    (h : Told app x) (hx : Attached x)
    (hrow : x.tasks.insert (newTask id tenantId actorId input now) = some tasks)
    (hentry : Reports a id actorId "task_created"
      (createdPayload app (newTask id tenantId actorId input now)))
    (haudit : x.taskAudit.insert a = some taskAudit) :
    Told app { x with tasks, taskAudit } := by
  obtain ⟨hnew, hmem⟩ := Table.insert_eq_some hrow
  refine h.entry hentry.taskId haudit rfl (fun k v hk hv => ?_) fun v w hv _ => ?_
  · obtain ⟨t, ht, rfl, rfl⟩ := viewOf_eq_some.mp hv
    rcases (hmem t).mp ht with hold | rfl
    · exact viewOf_eq_some.mpr ⟨t, hold, rfl, rfl⟩
    · exact absurd rfl hk
  · obtain ⟨t, ht, hid, rfl⟩ := viewOf_eq_some.mp hv
    rcases (hmem t).mp ht with hold | rfl
    · exact absurd hid (hnew t hold)
    · -- Nothing is of a task that is not there yet.
      have hcomments : commentsOf app { x with tasks, taskAudit } id = [] := by
        refine List.map_eq_nil_iff.mpr (List.filter_eq_nil_iff.mpr fun c hc hcid => ?_)
        obtain ⟨t, ht, hid⟩ := hx.comments c hc
        exact hnew t ht (hid.trans (of_decide_eq_true hcid))
      have hattachments : attachmentsOf app { x with tasks, taskAudit } id = [] := by
        refine List.map_eq_nil_iff.mpr (List.filter_eq_nil_iff.mpr fun c hc hcid => ?_)
        obtain ⟨t, ht, hid⟩ := hx.attachments c hc
        exact hnew t ht (hid.trans (of_decide_eq_true hcid))
      rw [tell_created hentry.eventType, create?_eq hentry, hcomments, hattachments]

/-- A change of the columns of tasks. -/
theorem viewOf_update {p : TaskRecord → Bool} {f : TaskRecord → TaskRecord}
    {hf : Table.KeepsKey TaskRecord.id f} {taskAudit : Table TaskAuditRecord TaskAuditRecord.id}
    (hv : viewOf app { x with tasks := x.tasks.update p f hf, taskAudit } taskId = some v) :
    ∃ t ∈ x.tasks, t.id = taskId ∧
      viewOf app x taskId =
        some (viewWith t (commentsOf app x taskId) (attachmentsOf app x taskId)) ∧
      v = viewWith (if p t then f t else t) (commentsOf app x taskId)
        (attachmentsOf app x taskId) := by
  obtain ⟨t', ht', hid, rfl⟩ := viewOf_eq_some.mp hv
  obtain ⟨t, ht, rfl⟩ := (@Table.mem_update _ _ _ _ _ _ hf _).mp ht'
  have hkey : t.id = taskId := by
    rw [← hid]
    split
    · exact (hf.key_eq t).symm
    · rfl
  exact ⟨t, ht, hkey, viewOf_eq_some.mpr ⟨t, ht, hkey, rfl⟩, rfl⟩

theorem Told.updated {actorId : Uuid} {input : UpdateTaskInput} {now : Time}
    {taskAudit : Table TaskAuditRecord TaskAuditRecord.id} (h : Told app x)
    (hentry : Reports a taskId actorId "task_updated" (updatedPayload app input))
    (haudit : x.taskAudit.insert a = some taskAudit) :
    Told app { x with
      tasks := x.tasks.update (fun t => t.id = taskId) (applyUpdate input actorId now)
        ⟨fun _ => rfl⟩
      taskAudit } := by
  refine h.of_change hentry.taskId (by rw [hentry.eventType]; decide) haudit rfl
    (fun k v hk hv => ?_) fun v hv => ?_
  · obtain ⟨t, ht, rfl, hold, rfl⟩ := viewOf_update hv
    rw [hold, if_neg (by simpa using hk)]
  · obtain ⟨t, ht, rfl, hold, rfl⟩ := viewOf_update hv
    rw [if_pos (decide_eq_true rfl)]
    exact ⟨_, hold, change_updated hentry⟩

theorem Told.statusSet {p : TaskRecord → Bool} {status : TaskStatus} {actorId : Uuid} {now : Time}
    {entries : List TaskAuditRecord} {taskAudit : Table TaskAuditRecord TaskAuditRecord.id}
    (h : Told app x) (hnodup : (entries.map (·.taskId)).Nodup)
    (heach : ∀ t ∈ x.tasks, p t = true → ∃ a ∈ entries, a.taskId = some t.id)
    (hentries : ∀ a ∈ entries, ∃ t ∈ x.tasks, p t = true ∧ ∃ eventType ∈ statusEvents,
      ∃ payload : Value, payload.field? "status" = some (.str status.asStr) ∧
        Reports a t.id actorId eventType payload)
    (haudit : x.taskAudit.insertAll entries = some taskAudit) :
    Told app { x with
      tasks := x.tasks.update p (withStatus status actorId now) ⟨fun _ => rfl⟩
      taskAudit } := by
  unfold Told
  rw [Table.rows_insertAll haudit]
  refine Ledger.Tells.append h hnodup (fun k v hk hv => ?_) fun a ha k v hak hv w hw => ?_
  · obtain ⟨t, ht, rfl, hold, rfl⟩ := viewOf_update hv
    rw [hold, if_neg]
    intro hp
    obtain ⟨a, ha, hid⟩ := heach t ht hp
    exact hk a ha hid
  · obtain ⟨t, ht, rfl, hold, rfl⟩ := viewOf_update hv
    obtain ⟨t', ht', hp, eventType, hevent, payload, hstatus, hreports⟩ := hentries a ha
    obtain rfl : t' = t :=
      Table.eq_of_key ht' ht (Option.some.inj (hreports.taskId.symm.trans hak))
    have hne : a.eventType ≠ "task_created" := by
      rw [hreports.eventType]
      rintro rfl
      exact absurd hevent (by decide)
    rw [hw _ hold, tell_change hne, if_pos hp, Option.map_some,
      change_status hreports hevent hstatus]

/-- The comments and attachments of a task have changed, and the tasks have not. -/
theorem viewOf_of_tasks (htasks : y.tasks = x.tasks) (hv : viewOf app y taskId = some v) :
    ∃ t, viewOf app x taskId =
        some (viewWith t (commentsOf app x taskId) (attachmentsOf app x taskId)) ∧
      v = viewWith t (commentsOf app y taskId) (attachmentsOf app y taskId) := by
  obtain ⟨t, ht, rfl, rfl⟩ := viewOf_eq_some.mp hv
  exact ⟨t, viewOf_eq_some.mpr ⟨t, htasks ▸ ht, rfl, rfl⟩, rfl⟩

/-- An audit row that tells what has become of the comments and attachments of its task. -/
theorem Told.parts {taskAudit : Table TaskAuditRecord TaskAuditRecord.id} (h : Told app x)
    (hid : a.taskId = some taskId) (hevent : a.eventType ≠ "task_created")
    (haudit : x.taskAudit.insert a = some taskAudit) (hrows : y.taskAudit = taskAudit)
    (htasks : y.tasks = x.tasks)
    (hother : ∀ k ≠ taskId, commentsOf app y k = commentsOf app x k ∧
      attachmentsOf app y k = attachmentsOf app x k)
    (hself : ∀ t, change a (viewWith t (commentsOf app x taskId) (attachmentsOf app x taskId)) =
      viewWith t (commentsOf app y taskId) (attachmentsOf app y taskId)) : Told app y := by
  refine h.of_change hid hevent haudit hrows (fun k v hk hv => ?_) fun v hv => ?_
  · obtain ⟨t, hold, rfl⟩ := viewOf_of_tasks htasks hv
    rw [hold, (hother k hk).1, (hother k hk).2]
  · obtain ⟨t, hold, rfl⟩ := viewOf_of_tasks htasks hv
    exact ⟨_, hold, hself t⟩

theorem Told.commented {comment : CommentRecord} {comments : Table CommentRecord CommentRecord.id}
    {taskAudit : Table TaskAuditRecord TaskAuditRecord.id} (h : Told app x)
    (hrow : x.comments.insert comment = some comments)
    (hentry : Reports a comment.taskId comment.authorId "task_comment_added"
      (commentPayload app comment.id))
    (haudit : x.taskAudit.insert a = some taskAudit) :
    Told app { x with comments, taskAudit } := by
  refine h.parts hentry.taskId (by rw [hentry.eventType]; decide) haudit rfl rfl
    (fun k hk => ⟨?_, rfl⟩) fun t => ?_
  · rw [commentsOf, Table.select_insert hrow, if_neg (by simpa using Ne.symm hk),
      List.append_nil]
    rfl
  · rw [change_commented hentry, commentsOf, commentsOf, Table.select_insert hrow,
      if_pos (decide_eq_true rfl), List.map_append]
    rfl

theorem Told.attached {attachment : AttachmentRecord}
    {attachments : Table AttachmentRecord AttachmentRecord.id}
    {taskAudit : Table TaskAuditRecord TaskAuditRecord.id} (h : Told app x)
    (hrow : x.attachments.insert attachment = some attachments)
    (hentry : Reports a attachment.taskId attachment.uploadedBy "task_attachment_added"
      (uploadedPayload app attachment))
    (haudit : x.taskAudit.insert a = some taskAudit) :
    Told app { x with attachments, taskAudit } := by
  refine h.parts hentry.taskId (by rw [hentry.eventType]; decide) haudit rfl rfl
    (fun k hk => ⟨rfl, ?_⟩) fun t => ?_
  · rw [attachmentsOf, Table.select_insert hrow, if_neg (by simpa using Ne.symm hk),
      List.append_nil]
    rfl
  · rw [change_attached hentry, attachmentsOf, attachmentsOf, Table.select_insert hrow,
      if_pos (decide_eq_true rfl), List.map_append]
    rfl

theorem Told.uncommented {comment : CommentRecord} {actorId : Uuid}
    {taskAudit : Table TaskAuditRecord TaskAuditRecord.id}
    (hids : Function.Injective app.lib.uuidString) (h : Told app x) (hrow : comment ∈ x.comments)
    (hentry : Reports a comment.taskId actorId "task_comment_deleted"
      (commentPayload app comment.id))
    (haudit : x.taskAudit.insert a = some taskAudit) :
    Told app { x with
      comments := x.comments.delete (isComment comment.tenantId comment.taskId comment.id)
      taskAudit } := by
  have hp : ∀ c, isComment comment.tenantId comment.taskId comment.id c = true →
      c.id = comment.id ∧ c.taskId = comment.taskId := by
    intro c hc
    simp only [isComment, Bool.and_eq_true, decide_eq_true_eq] at hc
    exact ⟨hc.1.1, hc.2⟩
  refine h.parts hentry.taskId (by rw [hentry.eventType]; decide) haudit rfl rfl
    (fun k hk => ⟨congrArg _ (Table.select_delete fun c _ hc => ?_), rfl⟩) fun t => ?_
  · exact decide_eq_false fun hck => hk ((hck.symm.trans (hp c hc).2))
  · rw [change_uncommented hentry]
    refine congrArg (fun comments => viewWith t comments _) (Table.map_select_delete
      (fun c hc => (hp c hc).1) (by simp [isComment]) hrow fun c => ?_).symm
    rw [decide_eq_true_eq, hids.ne_iff]

theorem Told.detached {attachment : AttachmentRecord} {actorId : Uuid}
    {taskAudit : Table TaskAuditRecord TaskAuditRecord.id}
    (hids : Function.Injective app.lib.uuidString) (h : Told app x)
    (hrow : attachment ∈ x.attachments)
    (hentry : Reports a attachment.taskId actorId "task_attachment_deleted"
      (removedPayload app attachment))
    (haudit : x.taskAudit.insert a = some taskAudit) :
    Told app { x with
      attachments := x.attachments.delete
        (isAttachment attachment.tenantId attachment.taskId attachment.id)
      taskAudit } := by
  have hp : ∀ r, isAttachment attachment.tenantId attachment.taskId attachment.id r = true →
      r.id = attachment.id ∧ r.taskId = attachment.taskId := by
    intro r hr
    simp only [isAttachment, Bool.and_eq_true, decide_eq_true_eq] at hr
    exact ⟨hr.1.1, hr.2⟩
  refine h.parts hentry.taskId (by rw [hentry.eventType]; decide) haudit rfl rfl
    (fun k hk => ⟨rfl, congrArg _ (Table.select_delete fun r _ hr => ?_)⟩) fun t => ?_
  · exact decide_eq_false fun hrk => hk ((hrk.symm.trans (hp r hr).2))
  · rw [change_detached hentry]
    refine congrArg (viewWith t _) (Table.map_select_delete
      (fun r hr => (hp r hr).1) (by simp [isAttachment]) hrow fun r => ?_).symm
    rw [decide_eq_true_eq]
    exact hids.ne_iff

theorem Told.edited {p : CommentRecord → Bool} {f : CommentRecord → CommentRecord}
    {hf : Table.KeepsKey CommentRecord.id f} (h : Told app x)
    (htask : ∀ c, (f c).taskId = c.taskId) :
    Told app { x with comments := x.comments.update p f hf } := by
  have hcomments : ∀ k, commentsOf app { x with comments := x.comments.update p f hf } k =
      commentsOf app x k := by
    intro k
    unfold commentsOf Table.select Table.update
    rw [List.filter_map, List.map_map]
    have hsame : ∀ c, (if p c then f c else c).taskId = c.taskId ∧
        (if p c then f c else c).id = c.id := by
      intro c
      split
      · exact ⟨htask c, hf.key_eq c⟩
      · exact ⟨rfl, rfl⟩
    simp only [Function.comp_def, (hsame _).1, (hsame _).2]
  refine Ledger.Tells.congr h fun k v hv => ?_
  have htasks :
      ({ x with comments := x.comments.update p f hf } : TaskTables).tasks = x.tasks := rfl
  obtain ⟨t, hold, rfl⟩ := viewOf_of_tasks htasks hv
  rw [hold, hcomments]
  rfl

/-- Whatever a statement does to the tables, the audit rows go on telling the tasks. -/
theorem told_logged (hids : Function.Injective app.lib.uuidString) (hx : Attached x)
    (h : Told app x) (hxy : Logged app x y) : Told app y := by
  cases hxy with
  | nothing => exact h
  | noted hevent haudit =>
      unfold Told
      rw [Table.rows_insertAll haudit]
      exact Ledger.Tells.silent h fun a ha w => tell_other (hevent a ha) w
  | created hrow hentry haudit => exact h.created hx hrow hentry haudit
  | updated hentry haudit => exact h.updated hentry haudit
  | statusSet hnodup heach hentries haudit => exact h.statusSet hnodup heach hentries haudit
  | commented hrow hentry haudit => exact h.commented hrow hentry haudit
  | edited hf htask => exact h.edited htask
  | uncommented hrow hentry haudit => exact h.uncommented hids hrow hentry haudit
  | attached hrow hentry haudit => exact h.attached hrow hentry haudit
  | detached hrow hentry haudit => exact h.detached hids hrow hentry haudit

/-! ### The runs -/

theorem attached_of_closed {s : AppState} (h : Tenants.Closed s) : Attached s.taskTables where
  comments c hc := by
    obtain ⟨t, ht, hid, -⟩ := h.comments c hc _ rfl
    exact ⟨t, ht, hid⟩
  attachments r hr := by
    obtain ⟨t, ht, hid, -⟩ := h.attachments r hr _ rfl
    exact ⟨t, ht, hid⟩

end Replay

open Replay

/-- The task as it is stored, with its comments and attachments. -/
def taskView (app : App) (s : AppState) (t : TaskRecord) : TaskView :=
  { title := t.title, status := t.status, priority := t.priority, createdBy := t.createdBy,
    updatedBy := t.updatedBy
    comments := (s.db.comments.select fun r => r.taskId = t.id).map fun r =>
      app.lib.uuidString r.id
    attachments := (s.db.attachments.select fun r => r.taskId = t.id).map fun r =>
      { id := app.lib.uuidString r.id, fileName := r.fileName, sizeBytes := r.sizeBytes } }

/-- The audit rows of each task tell it as it is stored. -/
def AuditTells (app : App) (s : AppState) : Prop :=
  ∀ t ∈ s.db.tasks, replayed s t.id = some (taskView app s t)

theorem auditTells_iff {app : App} {s : AppState} : AuditTells app s ↔ Told app s.taskTables := by
  constructor
  · intro h k v hv
    obtain ⟨t, ht, rfl, rfl⟩ := viewOf_eq_some.mp hv
    exact h t ht
  · exact fun h t ht => h _ _ (viewOf_eq_some.mpr ⟨t, ht, rfl, rfl⟩)

/-- **The audit trail replays.**  Where references are closed and the audit rows tell the tasks
there are, in every state of every run the audit rows of each task, told in the order of their
commits, give its title, status and priority, who has created it and who has changed it last, its
comments and its attachments. -/
theorem audit_replays {app : App} (hids : Function.Injective app.lib.uuidString) {s : AppState}
    (hs : Tenants.ReferenceStart s) (htold : AuditTells app s)
    {ms : List (Move Env Tenants.TenantCall)} :
    (Tenants.tenantSystem app).Through (fun c => AuditTells app c.st) (.start s) ms := by
  have hinv : Tenants.RefInv (Issued s) s := ⟨hs.closed, fun l hl => .inl (hs.labels l hl),
    fun r hr => .inl (hs.taskLabels r hr), hs.created, hs.once, fun _ h => h⟩
  have hall : (Tenants.tenantSystem app).Along
      (fun d m => d.Meets (fun _ _ _ _ => True) m) (.start s) ms :=
    System.along_of_forall fun _ _ _ _ _ _ _ => trivial
  refine (throughInvariant (K := (Tenants.referenceContract (Issued s)).both (Logged.contract app))
    (P := fun s => Told app s.taskTables) (R := fun _ _ _ _ _ => True)
    (fun _ k => (Tenants.call_keeps k).both (Logged.call_logged k)) (fun _ _ _ _ ha _ => ⟨ha, ha⟩)
    (fun _ _ _ _ _ hi _ _ h hg =>
      ⟨told_logged hids (attached_of_closed hi.1.closed) h hg.2, trivial⟩)
    ⟨hinv, trivial⟩ (auditTells_iff.mp htold) hall).mono fun c hc => auditTells_iff.mpr hc

/-! ### A task and its audit rows -/

theorem default_referenceStart : Tenants.ReferenceStart default where
  closed := by
    refine ⟨?_, ?_, ?_, ?_, ?_, ?_⟩
    all_goals exact fun _ h => absurd h Table.not_mem_empty
  labels _ h := absurd h Table.not_mem_empty
  taskLabels _ h := absurd h Table.not_mem_empty
  created _ h := absurd h List.not_mem_nil
  once _ _ _ h := absurd h List.not_mem_nil

/-- User 2 creates a task.  Then user 3 changes it while user 2 comments on it, and the task gets
another status. -/
def taskStory : List (Move Env Tenants.TenantCall) :=
  [.call (.request ⟨2, 1, .owner, 0⟩
    (.createTask (some "a") ⟨none, "first", none, none, none, none, none⟩))] ++
  (List.range 11).map (fun n => tenantMove 0 (10 + n)) ++
  [.call (.request ⟨3, 1, .member, 0⟩
    (.updateTask 14 ⟨none, some " second ", none, some "done", none, none, none⟩)),
   .call (.request ⟨2, 1, .owner, 0⟩ (.createTaskComment 14 (some "b") "hello"))] ++
  (List.range 6).flatMap (fun n =>
    [tenantMove 1 (30 + 2 * n), tenantMove 2 (31 + 2 * n)]) ++
  [.call (.request ⟨3, 1, .member, 0⟩ (.bulkUpdateTaskStatus [14] "in_progress"))] ++
  (List.range 3).flatMap fun n =>
    [tenantMove 3 (50 + 2 * n), tenantMove 2 (51 + 2 * n)]

/-- Told in their order, the audit rows give the task as it is after all of this. -/
theorem audit_replays_story : ∃ c, (Tenants.tenantSystem default).exec (.start default) taskStory =
    some c ∧ replayed c.st 14 = some ⟨"second", .inProgress, .medium, 2, 3, ["41"], []⟩ ∧
      (Tenants.tenantSystem default).Through (fun c => AuditTells default c.st) (.start default)
        taskStory := by
  have hrun : ((Tenants.tenantSystem default).exec (.start default) taskStory).any fun c =>
      replayed c.st 14 = some ⟨"second", .inProgress, .medium, 2, 3, ["41"], []⟩ := by
    decide +kernel
  obtain ⟨c, hc, h⟩ := (Option.any_eq_true _ _).mp hrun
  exact ⟨c, hc, of_decide_eq_true h, audit_replays default_texts_injective.1 default_referenceStart
    fun _ h => absurd h Table.not_mem_empty⟩

end Fluxa
