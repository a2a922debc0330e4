import Fluxa.Interleave.Visits
import Fluxa.Members.Authority
import Fluxa.Relational.References
import Fluxa.Services.Comments
import Fluxa.Services.Jobs
import Fluxa.Services.Quiet
import Fluxa.Tasks.Archiving

/-!
# Reminders — recipients

Who is notified about a task: the assignee that a sweep or a comment has read, who may since have ceased to be one.  Nothing asks whether an assignee is a member of the tenant, neither the requests that assign a task nor the one that removes a member.

* **`task_notifications_addressed`**: in every run, what is enqueued about a task is addressed to somebody who has been assigned the task, under the task's tenant; and to a member of the tenant, in a run that assigns tasks to members only and removes nobody who has been assigned one.
* **`outsider_notified`**: a member is assigned a task, is removed, and is notified about a comment.
-/

namespace Fluxa
open Interleave Relational Db Contract

/-- The notification is about a task. -/
def NotificationKind.ofTask : NotificationKind → Bool
  | .taskDueSoon | .taskOverdue | .taskCommented => true
  | _ => false

namespace Recipients

/-! ### The system -/

/-- The routes of tasks and of their comments. -/
inductive Route where
  | task (route : Archiving.Route)
  | createTaskComment (taskId : Uuid) (idempotencyKey : Option String) (body : String)
  | updateTaskComment (taskId commentId : Uuid) (body : String)
  | deleteTaskComment (taskId commentId : Uuid)

def Route.handler (app : App) (user : AuthenticatedUser) : Route → Service Unit
  | .task route => route.handler app user
  | .createTaskComment taskId idempotencyKey body => do
    let _ ← Http.createTaskComment app user taskId idempotencyKey body
    return ()
  | .updateTaskComment taskId commentId body => do
    let _ ← Http.updateTaskComment app user taskId commentId body
    return ()
  | .deleteTaskComment taskId commentId => Http.deleteTaskComment app user taskId commentId

/-- The two states agree on tasks and their assignments, and on what has been enqueued about
tasks. -/
structure Apart (s s' : AppState) : Prop where
  tasks : s'.db.tasks = s.db.tasks
  assigned : s'.history.assigned = s.history.assigned
  enqueued : s'.history.enqueued = s.history.enqueued ∨
    ∃ n, s'.history.enqueued = n :: s.history.enqueued ∧ n.kind.ofTask = false

/-- A call. -/
inductive RecipientCall where
  /-- A request on tasks, their comments, or the role or the removal of a member. -/
  | request (userId activeTenantId : Uuid) (route : Route)
  /-- A request on invitations or members. -/
  | member (k : Authority.MemberRequest)
  /-- A worker runs a job, the sweep for reminders among them. -/
  | processJob (rounds : Nat) (jobId : Uuid)
  /-- Whatever else the service does, such as creating tenants with their first members. -/
  | elsewhere (p : Service Unit) (h : Makes (fun _ _ s s' => Apart s s') p)

/-- Any number of calls, side by side. -/
def recipientSystem (app : App) : System Event Env AppState AppError RecipientCall Unit where
  body
    | .request userId activeTenantId route => do
      let user ← Authority.authorise activeTenantId userId
      route.handler app user
    | .member k => (Authority.authoritySystem app).body k
    | .processJob rounds jobId => Jobs.processJob app rounds jobId
    | .elsewhere p _ => p
  adm := admissible

/-! ### Recipients -/

/-- The user is a member of the tenant. -/
def IsMember (tenantId userId : Uuid) (s : AppState) : Prop :=
  (s.db.memberships.find? (tenantId, userId)).isSome = true

instance (tenantId userId : Uuid) (s : AppState) : Decidable (IsMember tenantId userId s) :=
  inferInstanceAs (Decidable (_ = _))

/-- The notification names a task of its tenant, and is for a user who has been assigned it. -/
def Addressed (app : App) (s : AppState) (n : NewNotification) : Prop :=
  ∃ t ∈ s.db.tasks, ∃ userId, (t.id, userId) ∈ s.history.assigned ∧
    n.tenantId = some t.tenantId ∧ n.userId = some userId ∧
    n.payload.get "task_id" = .str (app.lib.uuidString t.id)

/-- The notification is for a member of its tenant. -/
def ToMember (s : AppState) (n : NewNotification) : Prop :=
  ∃ tenantId userId, n.tenantId = some tenantId ∧ n.userId = some userId ∧
    IsMember tenantId userId s

/-- What the step enqueues about a task satisfies `P`. -/
def Enqueues (P : AppState → NewNotification → Prop) (s s' : AppState) : Prop :=
  ∀ n, s'.history.enqueued = n :: s.history.enqueued → n.kind.ofTask = true → P s n

/-- The step assigns a task to none but a member of its tenant. -/
def AssignsMembers (s s' : AppState) : Prop :=
  ∀ x ∈ s'.history.assigned, x ∈ s.history.assigned ∨
    ∀ t ∈ s'.db.tasks, t.id = x.1 → IsMember t.tenantId x.2 s'

/-- The step removes no member who has been assigned a task of the tenant. -/
def KeepsAssignees (s s' : AppState) : Prop :=
  ∀ x ∈ s.history.assigned, ∀ t ∈ s.db.tasks, t.id = x.1 → IsMember t.tenantId x.2 s →
    IsMember t.tenantId x.2 s'

/-- Before a run: the assignments noted are those there are. -/
def Start (s : AppState) : Prop :=
  ∀ x, x ∈ s.history.assigned ↔ ∃ t ∈ s.db.tasks, t.id = x.1 ∧ t.assigneeId = some x.2

/-- Whoever has been assigned a task is a member of its tenant. -/
def AssigneesAreMembers (s : AppState) : Prop :=
  ∀ x ∈ s.history.assigned, ∀ t ∈ s.db.tasks, t.id = x.1 → IsMember t.tenantId x.2 s

/-! ### What a statement does -/

section Actions

variable {app : App} {s s' : AppState}

/-- Assignees have been noted, with tasks that there are. -/
structure Noted (s : AppState) : Prop where
  assignee : ∀ t ∈ s.db.tasks, ∀ userId, t.assigneeId = some userId →
    (t.id, userId) ∈ s.history.assigned
  task : ∀ x ∈ s.history.assigned, ∃ t ∈ s.db.tasks, t.id = x.1

theorem Start.noted (h : Start s) : Noted s where
  assignee t ht userId hu := (h (t.id, userId)).mpr ⟨t, ht, rfl, hu⟩
  task x hx := by
    obtain ⟨t, ht, hid, -⟩ := (h x).mp hx
    exact ⟨t, ht, hid⟩

/-- What a statement does. -/
structure Action (app : App) (s s' : AppState) : Prop where
  tasks : Table.KeepsOwners TaskRecord.tenantId s.db.tasks s'.db.tasks
  assigned : ∀ x ∈ s.history.assigned, x ∈ s'.history.assigned
  enqueued : s'.history.enqueued = s.history.enqueued ∨
    ∃ n, s'.history.enqueued = n :: s.history.enqueued ∧
      (n.kind.ofTask = true → Addressed app s n)
  noted : Noted s'

theorem Apart.refl (s : AppState) : Apart s s := ⟨rfl, rfl, .inl rfl⟩

theorem Action.of_apart (hi : Noted s) (h : Apart s s') : Action app s s' where
  tasks := by rw [h.tasks]; exact .refl _
  assigned x hx := h.assigned ▸ hx
  enqueued := by
    rcases h.enqueued with hsame | ⟨n, hn, hkind⟩
    · exact .inl hsame
    · refine .inr ⟨n, hn, fun htask => ?_⟩
      rw [hkind] at htask
      cases htask
  noted := ⟨fun t ht u hu => h.assigned ▸ hi.assignee t (h.tasks ▸ ht) u hu,
    fun x hx => h.tasks ▸ hi.task x (h.assigned ▸ hx)⟩

/-- What is enqueued about a task is addressed. -/
theorem Action.enqueues (h : Action app s s') : Enqueues (Addressed app) s s' := by
  intro n hn htask
  rcases h.enqueued with hsame | ⟨n', hn', haddressed⟩
  · rw [hsame] at hn
    exact absurd hn.symm (List.cons_ne_self n _)
  · obtain rfl : n' = n := (List.cons.inj (hn'.symm.trans hn)).1
    exact haddressed htask

theorem mem_noteChange {pid : Nat} {task : TaskRecord} {h : History} {x : Uuid × Uuid} :
    x ∈ (noteChange pid task h).assigned ↔
      (∃ u, task.assigneeId = some u ∧ x = (task.id, u)) ∨ x ∈ h.assigned := by
  unfold noteChange noteAssignee
  cases task.assigneeId with
  | none => simp
  | some u => simp

theorem noteChange_enqueued (pid : Nat) (task : TaskRecord) (h : History) :
    (noteChange pid task h).enqueued = h.enqueued := by
  unfold noteChange noteAssignee
  split <;> rfl

/-- A change of tasks that keeps their tenants, and notes its assignees. -/
theorem Action.of_tasks (hi : Noted s)
    (htasks : Table.KeepsOwners TaskRecord.tenantId s.db.tasks s'.db.tasks)
    (hassigned : ∀ x ∈ s.history.assigned, x ∈ s'.history.assigned)
    (henqueued : s'.history.enqueued = s.history.enqueued)
    (hnew : ∀ x ∈ s'.history.assigned, x ∈ s.history.assigned ∨ ∃ t ∈ s'.db.tasks, t.id = x.1)
    (hassignee : ∀ t ∈ s'.db.tasks, ∀ u, t.assigneeId = some u →
      (t.id, u) ∈ s'.history.assigned) : Action app s s' where
  tasks := htasks
  assigned := hassigned
  enqueued := .inl henqueued
  noted := by
    refine ⟨hassignee, fun x hx => ?_⟩
    rcases hnew x hx with hold | ht
    · obtain ⟨t, ht, hid⟩ := hi.task x hold
      obtain ⟨t', ht', hid', -⟩ := htasks _ _ (Table.owned_of_mem ht)
      exact ⟨t', ht', hid'.trans hid⟩
    · exact ht

end Actions

/-! ### The contract -/

/-- The contract: every statement is an `Action`. -/
def recipientContract (app : App) : Contract Event Env AppState where
  inv := Noted
  guar _ _ _ := Action app
  adm _ _ _ _ := True
  guar_inv _ h := h.noted

variable {app : App} {i : Nat} {tenantId taskId actorId : Uuid}

theorem recipientContract_tolerant : TolerantOfKeys (recipientContract app) where
  stay _ _ _ s hi _ := .of_apart hi (.refl s)
  bystander _ _ _ _ hi h :=
    .of_apart hi ⟨h.tasks, by rw [h.history], .inl (by rw [h.history])⟩
  issue _ _ _ hi _ := .of_apart hi ⟨rfl, rfl, .inl rfl⟩
  keys _ _ _ _ hi h :=
    .of_apart hi ⟨by rw [h.db], by rw [h.history], .inl (by rw [h.history])⟩

/-- The user has been assigned the task, which is one of the tenant. -/
def Assigned (tenantId taskId userId : Uuid) (s : AppState) : Prop :=
  s.db.tasks.Owned TaskRecord.tenantId taskId tenantId ∧ (taskId, userId) ∈ s.history.assigned

theorem assigned_lasting {userId : Uuid} :
    (recipientContract app).Lasting (Assigned tenantId taskId userId) :=
  fun _ _ _ _ _ _ h hg => ⟨hg.tasks _ _ h.1, hg.assigned _ h.2⟩

theorem Assigned.addressed {userId : Uuid} {s : AppState} {n : NewNotification}
    (h : Assigned tenantId taskId userId s) (htenant : n.tenantId = some tenantId)
    (huser : n.userId = some userId)
    (htask : n.payload.get "task_id" = .str (app.lib.uuidString taskId)) : Addressed app s n := by
  obtain ⟨⟨t, ht, rfl, rfl⟩, hassigned⟩ := h
  exact ⟨t, ht, userId, hassigned, htenant, huser, htask⟩

/-- A statement that leaves tasks and their assignments alone, and enqueues nothing. -/
theorem sql_apart {A : Type} {event : Event} {ready : AppState → Bool}
    {run : Env → AppState → Except AppError A × AppState}
    (h : ∀ e s, Apart s (run e s).2) : (recipientContract app).Safe i (sqlWhen event ready run) :=
  sqlWhen_safe recipientContract_tolerant.toPatient fun s e hi _ _ _ => .of_apart hi (h e s)

theorem enqueueNotification_from {n : NewNotification} {maxAttempts : Nat} {F : AppState → Prop}
    (hF : (recipientContract app).Lasting F)
    (h : ∀ s, F s → n.kind.ofTask = true → Addressed app s n) :
    (recipientContract app).Triple i F (enqueueNotification n maxAttempts) fun _ _ => True := by
  have hK : Patient (recipientContract app) := recipientContract_tolerant.toPatient
  refine enqueue_from hK ((newUuid_safe hK).carry hF) (fun _ => hF.stable i) fun s _ _ _ hi hs _ _ => ?_
  exact ⟨.refl _, fun _ hx => hx, .inr ⟨n, rfl, h s hs⟩, ⟨hi.assignee, hi.task⟩⟩

/-! ### The writes of tasks -/

theorem stays (e : Env) (s : AppState) (hi : (recipientContract app).inv s) :
    (recipientContract app).guar i .taskWrite e s s :=
  .of_apart hi (.refl s)

theorem createTask_keeps {input : CreateTaskInput} :
    (recipientContract app).Safe i (Tasks.createTask app tenantId actorId input) := by
  have hK : Tolerant (recipientContract app) := recipientContract_tolerant.toTolerant
  refine TaskWrites.createTask_service (TaskWrites.publishes_of_tolerant hK) hK lasting_const
    (TaskWrites.createTask_from hK lasting_const stays ?_)
  intro s e id now entry tasks taskAudit hi _ _ _ _ hins _ _ _
  have hmem := (Table.insert_eq_some hins).2
  refine .of_tasks hi (Table.keepsOwners_insert hins) (fun x hx => mem_noteChange.mpr (.inr hx))
    (noteChange_enqueued _ _ _) (fun x hx => ?_) fun t ht u hu => ?_
  · rcases mem_noteChange.mp hx with ⟨u, -, rfl⟩ | hold
    · exact .inr ⟨_, (hmem _).mpr (.inr rfl), rfl⟩
    · exact .inl hold
  · refine mem_noteChange.mpr ?_
    rcases (hmem t).mp ht with hold | rfl
    · exact .inr (hi.assignee t hold u hu)
    · exact .inl ⟨u, hu, rfl⟩

/-- The change of a task that stays with its tenant. -/
theorem changeTask_keeps {guard : TaskRecord → Bool} {f : TaskRecord → TaskRecord}
    {hf : Table.KeepsKey TaskRecord.id f} (htenant : ∀ t, (f t).tenantId = t.tenantId)
    {missing eventType : String} {payload : TaskRecord → Value} {auditId : Uuid} {auditAt : Time} :
    (recipientContract app).Safe i (changeTask tenantId taskId actorId guard f hf missing eventType
      payload auditId auditAt) := by
  have hK : Tolerant (recipientContract app) := recipientContract_tolerant.toTolerant
  refine TaskWrites.changeTask_from hK lasting_const stays ?_
  intro s e t entry taskAudit hi _ _ _ hfind _ _ _ _ _ _
  obtain ⟨hmem, hid⟩ := Table.find?_eq_some.mp hfind
  refine .of_tasks hi (Table.keepsOwners_update hf htenant)
    (fun x hx => mem_noteChange.mpr (.inr hx)) (noteChange_enqueued _ _ _) (fun x hx => ?_)
    fun t' ht' u hu => ?_
  · rcases mem_noteChange.mp hx with ⟨u, -, rfl⟩ | hold
    · exact .inr ⟨f t, Table.mem_update_of_true hmem (by simpa using hid) hf, rfl⟩
    · exact .inl hold
  · refine mem_noteChange.mpr ?_
    have hupdated : t' ∈ s.db.tasks.update _ f hf := ht'
    obtain ⟨t₀, ht₀, rfl⟩ := Table.mem_update.mp hupdated
    by_cases hp : t₀.id = taskId
    · obtain rfl := Table.eq_of_key ht₀ hmem (hp.trans hid.symm)
      simp only [hp, decide_true, if_true] at hu ⊢
      exact .inl ⟨u, hu, rfl⟩
    · simp only [hp, decide_false] at hu ⊢
      exact .inr (hi.assignee t₀ ht₀ u hu)

theorem updateTask_keeps {input : UpdateTaskInput} :
    (recipientContract app).Safe i (Tasks.updateTask app tenantId taskId actorId input) := by
  have hK : Tolerant (recipientContract app) := recipientContract_tolerant.toTolerant
  refine TaskWrites.updateTask_service (TaskWrites.publishes_of_tolerant hK) hK lasting_const ?_
  refine Safe.bind .ensure fun _ => .bind (utcNow_safe hK) fun now => ?_
  exact .bind (newUuid_safe hK) fun auditId => changeTask_keeps (by intro; rfl)

theorem archiveTask_keeps :
    (recipientContract app).Safe i (Tasks.archiveTask app tenantId taskId actorId) := by
  have hK : Tolerant (recipientContract app) := recipientContract_tolerant.toTolerant
  refine TaskWrites.archiveTask_service (TaskWrites.publishes_of_tolerant hK) ?_
  refine Safe.bind (utcNow_safe hK) fun now => .bind (newUuid_safe hK) fun auditId => ?_
  exact .bind (utcNow_safe hK) fun auditAt => changeTask_keeps (by intro; rfl)

theorem restoreTask_keeps :
    (recipientContract app).Safe i (Tasks.restoreTask app tenantId taskId actorId) := by
  have hK : Tolerant (recipientContract app) := recipientContract_tolerant.toTolerant
  refine TaskWrites.restoreTask_service (TaskWrites.publishes_of_tolerant hK) ?_
  refine Safe.bind (utcNow_safe hK) fun now => .bind (newUuid_safe hK) fun auditId => ?_
  exact .bind (utcNow_safe hK) fun auditAt => changeTask_keeps (by intro; rfl)

theorem bulkUpdateTaskStatus_keeps {taskIds : List Uuid} {status : TaskStatus} :
    (recipientContract app).Safe i
      (Tasks.bulkUpdateTaskStatus app tenantId actorId taskIds status) := by
  have hK : Tolerant (recipientContract app) := recipientContract_tolerant.toTolerant
  refine TaskWrites.bulkUpdateTaskStatus_service (TaskWrites.publishes_of_tolerant hK) fun taskIds =>
    TaskWrites.bulkUpdateTaskStatus_from hK lasting_const stays ?_
  intro s e now entries taskAudit hi _ _ _ _ _
  have hkey : Table.KeepsKey TaskRecord.id (withStatus status actorId now) := ⟨fun _ => rfl⟩
  refine .of_tasks hi (Table.keepsOwners_update hkey fun _ => rfl) (fun _ hx => hx) rfl
    (fun x hx => .inl hx) fun t ht u hu => ?_
  -- A change of the status leaves the assignee.
  have hupdated : t ∈ s.db.tasks.update _ (withStatus status actorId now) hkey := ht
  obtain ⟨t₀, ht₀, rfl⟩ := Table.mem_update.mp hupdated
  by_cases hp : (t₀.tenantId = tenantId && taskIds.contains t₀.id) = true
  · rw [if_pos hp] at hu ⊢
    exact hi.assignee t₀ ht₀ u hu
  · rw [if_neg hp] at hu ⊢
    exact hi.assignee t₀ ht₀ u hu

/-! ### Comments -/

/-- A task that is found is one of the tenant, and its assignee has been assigned it. -/
theorem getTask_reads : (recipientContract app).Triple i (fun _ => True)
    (Tasks.getTask tenantId taskId) (onOk fun t s => t.id = taskId ∧
      ∀ u, t.assigneeId = some u → Assigned tenantId taskId u s) := by
  have hstable (t : TaskRecord) : (recipientContract app).Stable i fun s => t.id = taskId ∧
      ∀ u, t.assigneeId = some u → Assigned tenantId taskId u s :=
    stable_const.and (stable_forall fun u => stable_imp (assigned_lasting.stable i))
  have hfound : (recipientContract app).Triple i (fun _ => True) (Db.getTask tenantId taskId)
      (onOk fun o s => ∀ t, o = some t → t.id = taskId ∧
        ∀ u, t.assigneeId = some u → Assigned tenantId taskId u s) := by
    refine sql_triple recipientContract_tolerant.toPatient stable_const
      (fun o => stable_forall fun t => stable_imp (hstable t))
      fun s e hi _ _ _ => ⟨.of_apart hi (.refl s), fun t ht => ?_⟩
    obtain ⟨hfind, htenant⟩ := Option.filter_eq_some_iff.mp ht
    obtain ⟨hmem, hid⟩ := Table.find?_eq_some.mp hfind
    refine ⟨hid, fun u hu => ⟨⟨t, hmem, hid, of_decide_eq_true htenant⟩, ?_⟩⟩
    exact hid ▸ hi.assignee t hmem u hu
  refine Triple.seq hfound fun o => ?_
  cases o with
  | none => exact Triple.fail
  | some t =>
      exact Triple.done (stable_forall fun t => stable_imp (hstable t)) fun _ _ h => h t rfl

theorem notifyAssignee_from {task : TaskRecord} {comment : CommentRecord}
    (hcomment : comment.taskId = taskId) : (recipientContract app).Triple i
    (fun s => ∀ u, task.assigneeId = some u → Assigned tenantId taskId u s)
    (Comments.notifyAssignee app task tenantId actorId comment) fun _ _ => True := by
  have hK : Tolerant (recipientContract app) := recipientContract_tolerant.toTolerant
  unfold Comments.notifyAssignee
  split
  · exact Safe.done.pre fun _ _ _ => trivial
  · rename_i u hu
    have hF : (recipientContract app).Lasting (Assigned tenantId taskId u) := assigned_lasting
    refine Triple.pre (P := Assigned tenantId taskId u) ?_ fun _ _ h => h u hu
    refine Triple.ite (fun _ => Safe.done.pre fun _ _ _ => trivial) fun _ => ?_
    refine (select_safe hK).attempt.carry_bind hF fun _ => ?_
    refine Triple.ite (fun _ => ?_) fun _ => Safe.done.pre fun _ _ _ => trivial
    refine (getUserById_safe hK).attempt.carry_bind hF fun found => ?_
    cases found with
    | error _ => exact Safe.done.pre fun _ _ _ => trivial
    | ok assignee =>
        refine Triple.bind (Triple.attempt (Q := fun _ _ => True) ?_).any (fun _ => Safe.done)
          fun _ _ _ _ => trivial
        refine enqueueNotification_from hF fun s hs _ => hs.addressed rfl rfl ?_
        rw [← hcomment]
        rfl

theorem createComment_keeps {body : String} : (recipientContract app).Safe i
    (Comments.createComment app tenantId taskId actorId body) := by
  have hK : Tolerant (recipientContract app) := recipientContract_tolerant.toTolerant
  refine Triple.bind getTask_reads (fun task => ?_) fun _ _ _ _ => trivial
  let F (s : AppState) : Prop := ∀ u, task.assigneeId = some u → Assigned tenantId taskId u s
  have hF : (recipientContract app).Lasting F :=
    fun i l e s s' hi h hg u hu => assigned_lasting i l e s s' hi (h u hu) hg
  have hcreate : (recipientContract app).Triple i F
      (Db.createComment app tenantId taskId actorId body) (onOk fun comment s => comment.taskId = taskId ∧ F s) := by
    refine (utcNow_safe hK).carry_seq hF fun now => ?_
    refine (newUuid_safe hK).carry_seq hF fun id => ?_
    refine (newUuid_safe hK).carry_seq hF fun auditId => ?_
    refine sql_triple hK (hF.stable i) (fun _ => stable_const.and (hF.stable i))
      fun s e hi hs _ _ => ?_
    dsimp only
    split
    · exact ⟨.of_apart hi ⟨rfl, rfl, .inl rfl⟩, rfl, hs⟩
    · exact ⟨.of_apart hi (.refl s), trivial⟩
  refine Triple.pre (P := F) ?_ fun _ _ h => h.2
  refine Triple.bind hcreate (fun comment => ?_) fun _ _ _ _ => trivial
  refine Triple.of_fact fun hcomment => Triple.bind (notifyAssignee_from hcomment)
    (fun _ => Safe.done) fun _ _ _ _ => trivial

theorem updateComment_keeps {commentId : Uuid} {body : String} : (recipientContract app).Safe i
    (Comments.updateComment tenantId taskId commentId actorId body) := by
  have hK : Tolerant (recipientContract app) := recipientContract_tolerant.toTolerant
  refine .bind getTask_reads.safe fun _ => ?_
  refine .bind (.bind (select_safe hK) fun _ => .okOr) fun comment => .bind .ensure fun _ => ?_
  refine sql_apart fun e s => ?_
  dsimp only
  split
  · exact .refl s
  · exact ⟨rfl, rfl, .inl rfl⟩

theorem deleteComment_keeps {commentId : Uuid} {role : MembershipRole} :
    (recipientContract app).Safe i
      (Comments.deleteComment app tenantId taskId commentId actorId role) := by
  have hK : Tolerant (recipientContract app) := recipientContract_tolerant.toTolerant
  refine .bind getTask_reads.safe fun _ => ?_
  refine .bind (.bind (select_safe hK) fun _ => .okOr) fun comment => .bind .ensure fun _ => ?_
  refine .bind (newUuid_safe hK) fun auditId => .bind (utcNow_safe hK) fun auditAt => ?_
  refine sql_apart fun e s => ?_
  dsimp only
  split
  · exact .refl s
  · exact ⟨rfl, rfl, .inl rfl⟩
  · exact .refl s

/-! ### Jobs -/

/-- The candidates of a sweep are assignees of tasks. -/
theorem candidates_assigned {s : AppState} (hi : Noted s) {now : Time} {hours : Nat}
    {tenant : Option Uuid} {t : TaskRecord} (ht : t ∈ s.db.tasks)
    {row : Time × DueReminderCandidate} (hrow : dueReminderCandidate s now hours tenant t = some row) :
    Assigned row.2.tenantId row.2.taskId row.2.assigneeId s := by
  obtain ⟨dueAt, hdue, hrow⟩ := Option.bind_eq_some_iff.mp hrow
  obtain ⟨assigneeId, hassignee, hrow⟩ := Option.bind_eq_some_iff.mp hrow
  obtain ⟨u, -, hrow⟩ := Option.bind_eq_some_iff.mp hrow
  obtain rfl := Option.some.inj (Option.ite_none_right_eq_some.mp hrow).2
  exact ⟨Table.owned_of_mem ht, hi.assignee t ht assigneeId hassignee⟩

/-- The candidates have been assigned their tasks. -/
def AllAssigned (cs : List DueReminderCandidate) (s : AppState) : Prop :=
  ∀ c ∈ cs, Assigned c.tenantId c.taskId c.assigneeId s

theorem allAssigned_lasting {cs : List DueReminderCandidate} :
    (recipientContract app).Lasting (AllAssigned cs) :=
  fun i l e s s' hi h hg c hc => assigned_lasting i l e s s' hi (h c hc) hg

theorem enqueueCandidates_from {now : Time} {cs all : List DueReminderCandidate}
    (hall : ∀ c ∈ cs, c ∈ all) : (recipientContract app).Triple i (AllAssigned all)
    (Jobs.enqueueCandidates app now cs) fun _ _ => True := by
  induction cs with
  | nil => exact Safe.done.pre fun _ _ _ => trivial
  | cons c cs ih =>
      have hF : (recipientContract app).Lasting (AllAssigned all) := allAssigned_lasting
      have hrest := ih fun c' hc' => hall c' (List.mem_cons_of_mem _ hc')
      have hfirst : (recipientContract app).Triple i (AllAssigned all) (enqueueNotification
          (Jobs.reminderNotification app now c) app.config.maxJobAttempts) fun _ _ => True :=
        enqueueNotification_from hF fun s hs _ =>
          (hs c (hall c List.mem_cons_self)).addressed rfl rfl rfl
      refine Triple.bind (hfirst.keep hF |>.pre fun _ _ h => ⟨h, h⟩) (fun inserted => ?_)
        fun _ _ _ _ => trivial
      refine Triple.pre (P := AllAssigned all) ?_ fun _ _ h => h.2
      exact Triple.bind hrest (fun _ => Safe.done) fun _ _ _ _ => trivial

theorem processDueReminderJob_keeps {tenant : Option Uuid} :
    (recipientContract app).Safe i (Jobs.processDueReminderJob app tenant) := by
  have hK : Tolerant (recipientContract app) := recipientContract_tolerant.toTolerant
  refine .bind (recordDueReminders_safe hK.lenient) fun _ => .bind ?_ fun _ =>
    .bind (utcNow_safe hK) fun _ => .done
  have hlist : (recipientContract app).Triple i (fun _ => True)
      (listDueReminderCandidates app.config.reminderDueSoonHours Jobs.reminderCandidateLimit tenant)
      (onOk AllAssigned) := by
    refine sql_triple hK.toPatient stable_const (fun cs => allAssigned_lasting.stable i)
      fun s e hi _ _ _ => ⟨.of_apart hi (.refl s), fun c hc => ?_⟩
    obtain ⟨row, hrow, rfl⟩ := List.mem_map.mp hc
    obtain ⟨t, ht, hcandidate⟩ := List.mem_filterMap.mp
      ((List.mem_insertionSort _).mp (List.mem_of_mem_take hrow))
    exact candidates_assigned hi ht hcandidate
  refine Triple.bind hlist (fun cs => ?_) fun _ _ _ _ => trivial
  exact (utcNow_safe hK).carry_bind allAssigned_lasting fun now =>
    enqueueCandidates_from fun _ hc => hc

theorem processRetentionJob_keeps :
    (recipientContract app).Safe i (Jobs.processRetentionJob app) := by
  have hK : Tolerant (recipientContract app) := recipientContract_tolerant.toTolerant
  refine .bind (.bind (.atomic fun s _ hi _ _ => .of_apart hi (.refl s)) fun _ =>
    sql_apart fun _ _ => ?_) fun _ => .bind (sql_apart fun _ _ => ?_) fun _ =>
      .bind (sql_apart fun _ _ => ?_) fun _ => .bind (sql_apart fun _ _ => ?_) fun _ =>
        .bind (utcNow_safe hK) fun _ => .done
  all_goals exact ⟨rfl, rfl, .inl rfl⟩

theorem processJob_keeps {rounds : Nat} {jobId : Uuid} :
    (recipientContract app).Safe i (Jobs.processJob app rounds jobId) := by
  have hK : Tolerant (recipientContract app) := recipientContract_tolerant.toTolerant
  refine .bind (sql_apart fun e s => ?_) fun claimed => ?_
  · dsimp only
    split
    · exact .refl s
    · exact ⟨rfl, rfl, .inl rfl⟩
  cases claimed with
  | none => exact .done
  | some job =>
      refine .bind (Safe.attempt ?_) fun r => ?_
      · unfold Jobs.runJob
        cases job.jobType with
        | taskExport =>
            cases job.payload with
            | taskExport => exact processExportJob_safe hK.lenient
            | dueReminder => exact .fail
            | empty => exact .fail
        | dueReminderSweep => exact processDueReminderJob_keeps
        | retentionSweep => exact processRetentionJob_keeps
      · cases r with
        | ok result => exact sql_apart fun _ _ => ⟨rfl, rfl, .inl rfl⟩
        | error error =>
            exact .bind (utcNow_safe hK) fun _ => sql_apart fun _ _ => ⟨rfl, rfl, .inl rfl⟩

/-! ### Members -/

theorem authorise_keeps {userId : Uuid} :
    (recipientContract app).Safe i (Authority.authorise tenantId userId) := by
  refine sql_apart fun e s => ?_
  split
  · exact .refl s
  · exact ⟨rfl, rfl, .inl rfl⟩

theorem createInvitation_keeps {actorRole role : MembershipRole} {email : String} :
    (recipientContract app).Safe i
      (Fluxa.createInvitation app tenantId actorRole actorId email role) := by
  have hK : Tolerant (recipientContract app) := recipientContract_tolerant.toTolerant
  refine .bind lift_safe fun _ => .bind ?_ fun _ => .bind (generateRandom_safe hK) fun token =>
    .bind (utcNow_safe hK) fun now => .bind (Safe.attempt ?_) fun created => .bind lift_safe
      fun invitation => .bind (Safe.attempt ?_) fun _ => .bind (recordEvent_safe hK.lenient) fun _ =>
        .done
  · refine .bind (select_safe hK) fun found => ?_
    split
    · exact .done
    · exact .bind (select_safe hK) fun _ => .ensure
  · refine .bind (newUuid_safe hK) fun id => .bind (utcNow_safe hK) fun now => ?_
    refine sql_apart fun e s => ?_
    split
    · exact .refl s
    · split
      · exact .refl s
      · split
        · exact ⟨rfl, rfl, .inl rfl⟩
        · exact .refl s
  · exact enqueueNotification_from lasting_const fun _ _ htask => by cases htask

theorem revokeInvitation_keeps {invitationId : Uuid} : (recipientContract app).Safe i
    (Fluxa.revokeInvitation tenantId actorId invitationId) := by
  refine .bind (sql_apart fun e s => ?_) fun _ =>
    recordEvent_safe recipientContract_tolerant.toTolerant.lenient.discreet
  dsimp only
  split
  · exact ⟨rfl, rfl, .inl rfl⟩
  · exact .refl s

/-- The statements of the transaction of an acceptance. -/
theorem acceptTx_keeps {A : Type} {ready : AppState → Bool}
    {run : Env → AppState → Except AppError (A × AppState)}
    (h : ∀ e s a s', run e s = .ok (a, s') → Apart s s') :
    (recipientContract app).Safe i (inAcceptTx ready run) := by
  refine .atomic fun s e hi _ _ => ?_
  split
  · rename_i hrun
    exact .of_apart hi (h e s _ _ hrun)
  · exact .of_apart hi ⟨rfl, rfl, .inl rfl⟩
  · exact .of_apart hi ⟨rfl, rfl, .inl rfl⟩

theorem acceptInvitation_keeps {token : String} : (recipientContract app).Safe i
    (Fluxa.acceptInvitation app tenantId actorId token) := by
  have hK : Tolerant (recipientContract app) := recipientContract_tolerant.toTolerant
  refine .bind (getUserById_safe hK) fun user => .bind ?_ fun membership =>
    .bind (recordEvent_safe hK.lenient) fun _ => .done
  refine .bind (.atomic fun s e hi _ _ => .of_apart hi ⟨rfl, rfl, .inl rfl⟩) fun now => ?_
  refine .bind (acceptTx_keeps fun e s T s' h => ?_) fun T => .ite (fun _ => ?_) fun _ => ?_
  · split at h
    · cases h
    · cases h
      exact ⟨rfl, rfl, .inl rfl⟩
  · exact .atomic fun s e hi _ _ => .of_apart hi ⟨rfl, rfl, .inl rfl⟩
  · refine .bind (acceptTx_keeps fun e s r s' h => ?_) fun r => .bind ?_ fun _ => .done
    · split at h
      · cases h
      · cases h
      · cases h
        exact ⟨rfl, rfl, .inl rfl⟩
    · refine .atomic fun s e hi _ _ => ?_
      split
      · exact .of_apart hi ⟨rfl, rfl, .inl rfl⟩
      · exact .of_apart hi ⟨rfl, rfl, .inl rfl⟩
      · rename_i happly _
        obtain ⟨m, memberships, -, -, -, rfl⟩ := applyAcceptance_eq_some happly
        exact .of_apart hi ⟨rfl, rfl, .inl rfl⟩

theorem updateMemberRole_keeps {actorRole role : MembershipRole} {memberId : Uuid} :
    (recipientContract app).Safe i
      (Fluxa.updateMemberRole tenantId actorRole actorId memberId role) := by
  have hK : Tolerant (recipientContract app) := recipientContract_tolerant.toTolerant
  refine updateMemberRole_of hK.lenient (sql_apart fun e s => ?_)
  split
  · exact .refl s
  · exact ⟨rfl, rfl, .inl rfl⟩

theorem removeMember_keeps {actorRole : MembershipRole} {memberId : Uuid} :
    (recipientContract app).Safe i (Fluxa.removeMember tenantId actorRole actorId memberId) := by
  have hK : Tolerant (recipientContract app) := recipientContract_tolerant.toTolerant
  refine removeMember_of hK.lenient (sql_apart fun e s => ⟨rfl, rfl, .inl rfl⟩)
    (.bind (utcNow_safe hK) fun now => .bind (.bind ?_ fun _ => ?_) fun _ => .done)
  · exact .atomic fun s e hi _ _ => .of_apart hi ⟨rfl, rfl, .inl rfl⟩
  · exact sql_apart fun e s => ⟨rfl, rfl, .inl rfl⟩

/-! ### Whole calls -/

theorem unit_keeps {A : Type} {p : Service A} (h : (recipientContract app).Safe i p) :
    (recipientContract app).Safe i (p.bind fun _ => pure ()) :=
  .bind h fun _ => .done

theorem idempotent_keeps {A B : Type} {key : IdempotencyKey} {prepare : Except AppError B}
    {create : B → Service A} {respond : A → StoredResponse}
    (h : ∀ input, (recipientContract app).Safe i (create input)) :
    (recipientContract app).Safe i (Http.idempotent app key prepare create respond) :=
  idempotent_from recipientContract_tolerant.patient lasting_const h

theorem taskRoute_keeps {user : AuthenticatedUser} (r : Archiving.Route) :
    (recipientContract app).Safe i (r.handler app user) := by
  cases r with
  | createTask key payload =>
      refine unit_keeps (.bind lift_safe fun _ => .bind lift_safe fun _ => ?_)
      exact idempotent_keeps fun _ => createTask_keeps
  | updateTask taskId payload =>
      exact unit_keeps (.bind lift_safe fun _ => .bind lift_safe fun _ =>
        .bind updateTask_keeps fun _ => .done)
  | bulkUpdateTaskStatus taskIds status =>
      exact unit_keeps (.bind lift_safe fun _ => .bind lift_safe fun _ =>
        .bind bulkUpdateTaskStatus_keeps fun _ => .done)
  | deleteTask taskId => exact .bind lift_safe fun _ => archiveTask_keeps
  | restoreTask taskId =>
      exact unit_keeps (.bind lift_safe fun _ => .bind restoreTask_keeps fun _ => .done)
  | updateMemberRole tenantId memberId role =>
      exact unit_keeps (.bind lift_safe fun _ => .bind lift_safe fun _ => updateMemberRole_keeps)
  | removeMember tenantId memberId => exact .bind lift_safe fun _ => removeMember_keeps

theorem route_keeps {user : AuthenticatedUser} (r : Route) :
    (recipientContract app).Safe i (r.handler app user) := by
  cases r with
  | task route => exact taskRoute_keeps route
  | createTaskComment taskId key body =>
      refine unit_keeps (.bind lift_safe fun _ => .bind lift_safe fun _ => .bind lift_safe fun _ => ?_)
      exact idempotent_keeps fun _ => createComment_keeps
  | updateTaskComment taskId commentId body =>
      exact unit_keeps (.bind lift_safe fun _ => .bind lift_safe fun _ =>
        .bind updateComment_keeps fun _ => .done)
  | deleteTaskComment taskId commentId => exact deleteComment_keeps

theorem memberRoute_keeps {user : AuthenticatedUser} (r : Authority.Route) :
    (recipientContract app).Safe i (r.handler app user) := by
  cases r with
  | createInvitation tenantId key email role =>
      refine unit_keeps (.bind lift_safe fun _ => .bind lift_safe fun _ => .bind lift_safe fun _ =>
        .bind lift_safe fun _ => ?_)
      exact idempotent_keeps fun _ => createInvitation_keeps
  | revokeInvitation tenantId invitationId => exact .bind lift_safe fun _ => revokeInvitation_keeps
  | acceptInvitation tenantId token =>
      exact unit_keeps (.bind .ensure fun _ => acceptInvitation_keeps)
  | updateMemberRole tenantId memberId role =>
      exact unit_keeps (.bind lift_safe fun _ => .bind lift_safe fun _ => updateMemberRole_keeps)
  | removeMember tenantId memberId => exact .bind lift_safe fun _ => removeMember_keeps

theorem call_keeps (k : RecipientCall) :
    (recipientContract app).Safe i ((recipientSystem app).body k) := by
  cases k with
  | request userId activeTenantId route => exact .bind authorise_keeps fun _ => route_keeps route
  | member k => exact .bind authorise_keeps fun _ => memberRoute_keeps k.route
  | processJob rounds jobId => exact processJob_keeps
  | elsewhere p h => exact h.safe fun _ _ _ _ hi _ h => .of_apart hi h

/-- Where a step assigns tasks to members only and keeps those who have been assigned one, all of
them stay members. -/
theorem AssigneesAreMembers.step {s s' : AppState} (h : AssigneesAreMembers s) (hi : Noted s)
    (ha : Action app s s') (hassigns : AssignsMembers s s') (hkeeps : KeepsAssignees s s') :
    AssigneesAreMembers s' := by
  intro x hx t ht hid
  rcases hassigns x hx with hold | hnew
  · obtain ⟨t₀, ht₀, hid₀⟩ := hi.task x hold
    have howned : s'.db.tasks.Owned TaskRecord.tenantId t.id t₀.tenantId :=
      hid.trans hid₀.symm ▸ ha.tasks _ _ (Table.owned_of_mem ht₀)
    rw [howned.eq_owner ht]
    exact hkeeps x hold t₀ ht₀ hid₀ (h x hold t₀ ht₀ hid₀)
  · exact hnew t ht hid

theorem Addressed.toMember {s : AppState} {n : NewNotification} (h : Addressed app s n)
    (hs : AssigneesAreMembers s) : ToMember s n := by
  obtain ⟨t, ht, userId, hassigned, htenant, huser, -⟩ := h
  exact ⟨t.tenantId, userId, htenant, huser, hs _ hassigned t ht rfl⟩

/-- Every step of a run satisfies `R`. -/
def EveryStep (app : App) (R : AppState → AppState → Prop) (s : AppState)
    (ms : List (Move Env RecipientCall)) : Prop :=
  (recipientSystem app).Along (fun d m => ∀ d', (recipientSystem app).step d m = some d' →
    R d.st d'.st) (.start s) ms

instance {R : AppState → AppState → Prop} [∀ s s', Decidable (R s s')] {s : AppState}
    {ms : List (Move Env RecipientCall)} : Decidable (EveryStep app R s ms) :=
  have (d : Config Event Env AppState AppError RecipientCall Unit) (m : Move Env RecipientCall) :
      Decidable (∀ d', (recipientSystem app).step d m = some d' → R d.st d'.st) :=
    System.decidableAfterStep (P := fun d' => R d.st d'.st) (recipientSystem app) d m
  inferInstanceAs (Decidable (System.Along _ _ (.start s) ms))

/-- Each step enqueues nothing, or is an action. -/
theorem each_step {s : AppState} (hs : Start s) {ms : List (Move Env RecipientCall)}
    {c : Config Event Env AppState AppError RecipientCall Unit}
    (h : (recipientSystem app).exec (.start s) ms = some c) :
    EveryStep app (fun s s' => s' = s ∨ Action app s s') s ms := by
  refine (along_guar (K := recipientContract app) (fun _ k => call_keeps k)
    (fun _ _ _ _ _ => trivial) hs.noted h).mono fun d m hd d' hd' => ?_
  rcases hd d' hd' with ⟨-, hst⟩ | ⟨i, e, l, -, ha⟩
  · exact .inl hst
  · exact .inr ha

end Recipients

open Recipients

/-- In every run, what is enqueued about a task is for somebody who has been assigned the task; where
each step assigns tasks to members only and removes nobody who has been assigned one, it is for a
member of the tenant. -/
theorem task_notifications_addressed {app : App} {s : AppState} (hs : Start s)
    {ms : List (Move Env RecipientCall)} {c : Config Event Env AppState AppError RecipientCall Unit}
    (h : (recipientSystem app).exec (.start s) ms = some c) :
    EveryStep app (Enqueues (Addressed app)) s ms ∧
      (AssigneesAreMembers s →
        EveryStep app (fun s s' => AssignsMembers s s' ∧ KeepsAssignees s s') s ms →
        EveryStep app (Enqueues ToMember) s ms) := by
  have hsteps := each_step hs h
  have hnothing (s : AppState) (P : AppState → NewNotification → Prop) : Enqueues P s s :=
    fun n hn => absurd hn.symm (List.cons_ne_self n _)
  constructor
  · refine hsteps.mono fun d m hd d' hd' => ?_
    rcases hd d' hd' with hst | ha
    · rw [hst]
      exact hnothing d.st _
    · exact ha.enqueues
  · intro hmembers hguarded
    refine (hsteps.and hguarded).of_invariant
      (I := fun d => Noted d.st ∧ AssigneesAreMembers d.st) (fun d m d' hI hd hd' => ?_)
      (fun d m d' hI hd _ d'' hd'' => ?_) ⟨hs.noted, hmembers⟩ h
    · obtain ⟨hassigns, hkeeps⟩ := hd.2 d' hd'
      rcases hd.1 d' hd' with hst | ha
      · exact hst ▸ hI
      · exact ⟨ha.noted, hI.2.step hI.1 ha hassigns hkeeps⟩
    · rcases hd.1 d'' hd'' with hst | ha
      · rw [hst]
        exact hnothing d.st _
      · exact fun n hn htask => (ha.enqueues n hn htask).toMember hI.2

/-! ### A member who is removed -/

namespace Recipients

instance (s s' : AppState) : Decidable (AssignsMembers s s') :=
  inferInstanceAs (Decidable (∀ x ∈ s'.history.assigned, x ∈ s.history.assigned ∨
    ∀ t ∈ s'.db.tasks.rows, t.id = x.1 → IsMember t.tenantId x.2 s'))

instance (s s' : AppState) : Decidable (KeepsAssignees s s') :=
  inferInstanceAs (Decidable (∀ x ∈ s.history.assigned, ∀ t ∈ s.db.tasks.rows, t.id = x.1 →
    IsMember t.tenantId x.2 s → IsMember t.tenantId x.2 s'))

/-- Tenant 1 with the owner 10, the member 11, and a task that is nobody's. -/
def unassigned : AppState :=
  { (default : AppState) with
    db := { (default : Database) with
      users := ⟨[⟨10, "a@x", "h", none, none, 0⟩, ⟨11, "m@x", "h", none, none, 0⟩], by decide⟩
      tenants := .single ⟨1, "T", 0⟩
      memberships := ⟨[⟨1, 10, .owner, 0⟩, ⟨1, 11, .member, 0⟩], by decide⟩
      tasks := .single ⟨5, 1, none, "t", none, .open, .low, none, none, 10, 10, 0, 0⟩ } }

theorem unassigned_start : Start unassigned := by
  intro x
  constructor
  · exact fun hx => absurd hx List.not_mem_nil
  · rintro ⟨t, ht, -, hu⟩
    obtain rfl := List.mem_singleton.mp ht
    cases hu

theorem unassigned_members : AssigneesAreMembers unassigned :=
  fun _ hx => absurd hx List.not_mem_nil

/-- The first `n` statements of call `i`; the identifiers are numbered from `first`. -/
def recipientMoves (i n first : Nat) : List (Move Env RecipientCall) :=
  (List.range n).map fun k => .exec i { (default : Env) with pid := i, uuid := first + k }

/-- The owner assigns the task to the member. -/
def assignment : List (Move Env RecipientCall) :=
  .call (.request 10 1 (.task (.updateTask 5 ⟨none, none, none, none, none, some (some 11), none⟩))) ::
    recipientMoves 0 7 100

/-- The owner removes the member. -/
def removal : List (Move Env RecipientCall) :=
  .call (.request 10 1 (.task (.removeMember 1 11))) :: recipientMoves 1 8 200

/-- The owner comments on the task, as call `i`, up to the statement before the last. -/
def comment (i : Nat) : List (Move Env RecipientCall) :=
  .call (.request 10 1 (.createTaskComment 5 (some "key") "hello")) :: recipientMoves i 12 300

/-- The statement that enqueues a notification. -/
def notification (i : Nat) : Move Env RecipientCall :=
  .exec i { (default : Env) with pid := i, uuid := 312 }

end Recipients

/-- The statement at a run in which a member is assigned the task, and notified. -/
theorem task_notifications_addressed_assignment :
    ∃ c, (recipientSystem default).exec (.start unassigned)
        (assignment ++ comment 1 ++ [notification 1]) = some c ∧
      EveryStep default (Enqueues (Addressed default)) unassigned
        (assignment ++ comment 1 ++ [notification 1]) ∧
      EveryStep default (Enqueues ToMember) unassigned
        (assignment ++ comment 1 ++ [notification 1]) := by
  have h : ((recipientSystem default).exec (.start unassigned)
      (assignment ++ comment 1 ++ [notification 1])).isSome := by decide +kernel
  obtain ⟨c, hc⟩ := Option.isSome_iff_exists.mp h
  obtain ⟨haddressed, hmembers⟩ := task_notifications_addressed unassigned_start hc
  exact ⟨c, hc, haddressed, hmembers unassigned_members (by decide +kernel)⟩

/-- A member is assigned a task and removed, and is then notified about a comment on the task. -/
theorem outsider_notified : Start unassigned ∧ AssigneesAreMembers unassigned ∧
    (∃ c, (recipientSystem default).exec (.start unassigned)
      (assignment ++ removal ++ comment 2 ++ [notification 2]) = some c) ∧
    ¬ EveryStep default (Enqueues ToMember) unassigned
      (assignment ++ removal ++ comment 2 ++ [notification 2]) := by
  have hrun : (((recipientSystem default).exec (.start unassigned)
      (assignment ++ removal ++ comment 2)).bind fun d =>
        ((recipientSystem default).step d (notification 2)).map fun d' =>
          (d.st.history.enqueued.isEmpty && (d.st.db.memberships.find? (1, 11)).isNone,
            d'.st.history.enqueued.map fun n => (n.kind, n.tenantId, n.userId))) =
      some (true, [(.taskCommented, some 1, some 11)]) := by decide +kernel
  obtain ⟨d, hd, hrun⟩ := Option.bind_eq_some_iff.mp hrun
  obtain ⟨d', hd', hrun⟩ := Option.map_eq_some_iff.mp hrun
  simp only [Prod.mk.injEq, Bool.and_eq_true, List.isEmpty_iff, Option.isNone_iff_eq_none] at hrun
  obtain ⟨⟨hempty, hnone⟩, hnew⟩ := hrun
  have hexec : (recipientSystem default).exec (.start unassigned)
      (assignment ++ removal ++ comment 2 ++ [notification 2]) = some d' := by
    rw [System.exec_append, hd]
    exact (congrArg (Option.bind · _) hd').trans rfl
  refine ⟨unassigned_start, unassigned_members, ⟨d', hexec⟩, fun hall => ?_⟩
  obtain ⟨n, hn, hvalues⟩ := List.map_eq_singleton_iff.mp hnew
  obtain ⟨hkind, htenant, huser⟩ : n.kind = .taskCommented ∧ n.tenantId = some 1 ∧
      n.userId = some 11 := by simpa using hvalues
  obtain ⟨tenantId, userId, ht, hu, hmember⟩ := hall.last hd d' hd' n (by rw [hn, hempty])
    (by rw [hkind]; rfl)
  obtain rfl := Option.some.inj (ht.symm.trans htenant)
  obtain rfl := Option.some.inj (hu.symm.trans huser)
  rw [IsMember, hnone] at hmember
  cases hmember

end Fluxa
