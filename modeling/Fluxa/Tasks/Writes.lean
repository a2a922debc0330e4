import Fluxa.State.Quiet

/-!
# Tasks — the writes

The transactions that write tasks, under a contract: each keeps to it where its effect is allowed in every state that the transaction may find.  A fact that no call ends is carried to the write, and the services around the transactions come after them.
-/

namespace Fluxa.TaskWrites
open Interleave Relational Db Contract

variable {K : Contract Event Env AppState} {i : Nat} {app : App} {tenantId taskId actorId : Uuid}
  {F : AppState → Prop}

/-! ### The transactions -/

section Transactions

variable (hK : Patient K)
include hK

theorem newUuids_safe {ids : List Uuid} : K.Safe i (newUuids ids) := by
  induction ids with
  | nil => exact .done
  | cons id ids ih => exact .bind (newUuid_safe hK) fun _ => .bind ih fun _ => .done

variable (hF : K.Lasting F) (hstay : ∀ e s, K.inv s → K.guar i .taskWrite e s s)
include hF hstay

/-- The creation of a task: its row and its audit row are new. -/
theorem createTask_from {input : CreateTaskInput}
    (h : ∀ s e id now entry tasks taskAudit, K.inv s → F s → K.adm i .taskWrite e s →
      e.fault ≠ .failed → taskReferences s (newTask id tenantId actorId input now) = true →
      s.db.tasks.insert (newTask id tenantId actorId input now) = some tasks →
      entry.taskId = some id → entry.tenantId = tenantId →
      s.db.taskAudit.insert entry = some taskAudit → K.guar i .taskWrite e s
        { s with
          db.tasks := tasks
          db.taskAudit := taskAudit
          history := noteChange e.pid (newTask id tenantId actorId input now)
            (noteCreated e .task id s.history) }) :
    K.Triple i F (Db.createTask app tenantId actorId input) fun _ _ => True := by
  refine (utcNow_safe hK).carry_bind hF fun now => ?_
  refine (newUuid_safe hK).carry_bind hF fun id => ?_
  refine (newUuid_safe hK).carry_bind hF fun auditId => ?_
  refine sql_from hK (hF.stable i) fun s e hi hs ha hf => ?_
  dsimp only
  split
  · exact hstay e s hi
  · rename_i href
    split
    · rename_i hins haud
      exact h s e id now _ _ _ hi hs ha hf (by simpa using href) hins rfl rfl haud
    · exact hstay e s hi

/-- The change of one task by `f`. -/
theorem changeTask_from {guard : TaskRecord → Bool} {f : TaskRecord → TaskRecord}
    {hf : Table.KeepsKey TaskRecord.id f} {missing eventType : String}
    {payload : TaskRecord → Value} {auditId : Uuid} {auditAt : Time}
    (h : ∀ s e t entry taskAudit, K.inv s → F s → K.adm i .taskWrite e s → e.fault ≠ .failed →
      s.db.tasks.find? taskId = some t → t.tenantId = tenantId → guard t = true →
      taskReferences s (f t) = true → entry.taskId = some taskId → entry.tenantId = tenantId →
      s.db.taskAudit.insert entry = some taskAudit → K.guar i .taskWrite e s
        { s with
          db.tasks := s.db.tasks.update (fun t => t.id = taskId) f hf
          db.taskAudit := taskAudit
          history := noteChange e.pid (f t) s.history }) :
    K.Triple i F (changeTask tenantId taskId actorId guard f hf missing eventType payload auditId
      auditAt) fun _ _ => True := by
  refine sql_from hK (hF.stable i) fun s e hi hs ha hfault => ?_
  dsimp only
  split
  · exact hstay e s hi
  · rename_i t ht
    rw [Option.filter_eq_some_iff] at ht
    obtain ⟨hfind, hg⟩ := ht
    simp only [Bool.and_eq_true, decide_eq_true_eq] at hg
    split
    · exact hstay e s hi
    · rename_i href
      split
      · rename_i haud
        exact h s e t _ _ hi hs ha hfault hfind hg.1 hg.2 (by simpa using href) rfl rfl haud
      · exact hstay e s hi

/-- The bulk update: tasks of the tenant get the status, and each an audit row. -/
theorem bulkUpdateTaskStatus_from {taskIds : List Uuid} {status : TaskStatus}
    (h : ∀ s e now entries taskAudit, K.inv s → F s → K.adm i .taskWrite e s →
      e.fault ≠ .failed →
      (∀ a ∈ entries, a.tenantId = tenantId ∧
        ∃ t ∈ s.db.tasks, t.tenantId = tenantId ∧ a.taskId = some t.id) →
      s.db.taskAudit.insertAll entries = some taskAudit → K.guar i .taskWrite e s
        { s with
          db.tasks := s.db.tasks.update (fun t => t.tenantId = tenantId && taskIds.contains t.id)
            (withStatus status actorId now) ⟨fun _ => rfl⟩
          db.taskAudit := taskAudit
          history.commits := s.history.commits ++ [e.pid] }) :
    K.Triple i F (Db.bulkUpdateTaskStatus tenantId actorId taskIds status) fun _ _ => True := by
  refine (utcNow_safe hK).carry_bind hF fun now => ?_
  refine (newUuids_safe hK).carry_bind hF fun auditIds => ?_
  refine sql_from hK (hF.stable i) fun s e hi hs ha hf => ?_
  dsimp only
  split
  · exact hstay e s hi
  · split
    · rename_i haud
      refine h s e now _ _ hi hs ha hf (fun a hmem => ?_) haud
      obtain ⟨⟨task, auditId⟩, hz, rfl⟩ := List.mem_map.mp hmem
      obtain ⟨t, ht, rfl⟩ := List.mem_map.mp (List.of_mem_zip hz).1
      obtain ⟨ht, hp⟩ := Table.mem_select.mp ht
      simp only [Bool.and_eq_true, decide_eq_true_eq] at hp
      exact ⟨rfl, t, ht, hp.1, rfl⟩
    · exact hstay e s hi

end Transactions

/-! ### The services -/

section Services

/-- What the services do after a change is allowed: the bump and the webhooks. -/
structure Publishes (K : Contract Event Env AppState) (i : Nat) (app : App) (tenantId : Uuid) :
    Prop where
  bump : K.Safe i (Cache.bumpTenantCacheVersion tenantId)
  emit : ∀ eventType task, K.Safe i (emitTaskWebhook app tenantId eventType task)

theorem publishes_of_tolerant (hK : Tolerant K) : Publishes K i app tenantId :=
  ⟨bumpTenantCacheVersion_safe hK, fun _ _ => emitTaskWebhook_safe hK.lenient⟩

variable (hpub : Publishes K i app tenantId)
include hpub

/-- What an operation does after its change: the bump and a webhook. -/
theorem bumpAndEmit_safe {A : Type} {eventType : String} {task : TaskRecord} {p : Service A}
    (hp : K.Safe i p) : K.Safe i ((Cache.bumpTenantCacheVersion tenantId).bind fun _ =>
      (emitTaskWebhook app tenantId eventType task).bind fun _ => p) :=
  .bind hpub.bump fun _ => .bind (hpub.emit eventType task) fun _ => hp

/-- A change of one task, then the bump and the webhook. -/
theorem publish_from {A : Type} {eventType : String} {change : Service TaskRecord}
    {result : TaskRecord → Service A} (hr : ∀ task, K.Safe i (result task))
    (h : K.Triple i F change fun _ _ => True) :
    K.Triple i F (change.bind fun task => (Cache.bumpTenantCacheVersion tenantId).bind fun _ =>
      (emitTaskWebhook app tenantId eventType task).bind fun _ => result task) fun _ _ => True :=
  Triple.bind h (fun task => bumpAndEmit_safe hpub (hr task)) fun _ _ _ _ => trivial

theorem bulkUpdateTaskStatus_service {taskIds : List Uuid} {status : TaskStatus}
    (h : ∀ taskIds, K.Triple i F (Db.bulkUpdateTaskStatus tenantId actorId taskIds status)
      fun _ _ => True) :
    K.Triple i F (Tasks.bulkUpdateTaskStatus app tenantId actorId taskIds status)
      fun _ _ => True := by
  refine Triple.lift_bind fun taskIds _ => Triple.bind (h taskIds) (fun tasks => ?_)
    fun _ _ _ _ => trivial
  exact Safe.bind hpub.bump fun _ => .bind (emitAll_safe (hpub.emit _)) fun _ => .done

theorem archiveTask_service
    (h : K.Triple i F (Db.archiveTask app tenantId taskId actorId) fun _ _ => True) :
    K.Triple i F (Tasks.archiveTask app tenantId taskId actorId) fun _ _ => True := by
  refine Triple.bind h (fun task => ?_) fun _ _ _ _ => trivial
  exact Safe.bind hpub.bump fun _ => hpub.emit "task_archived" task

theorem restoreTask_service
    (h : K.Triple i F (Db.restoreTask app tenantId taskId actorId) fun _ _ => True) :
    K.Triple i F (Tasks.restoreTask app tenantId taskId actorId) fun _ _ => True :=
  publish_from hpub (fun _ => .done) h

variable (hK : Patient K) (hF : K.Lasting F)
include hK hF

omit hpub in
/-- The check of a task's project, before a program that needs the lasting fact. -/
theorem ensureProject_bind {A : Type} {projectId : Option Uuid} {p : Service A}
    (h : K.Triple i F p fun _ _ => True) :
    K.Triple i F ((Tasks.ensureProjectBelongsToTenant tenantId projectId).bind fun _ => p)
      fun _ _ => True :=
  (ensureProject_safe hK).carry_bind hF fun _ => h

theorem createTask_service {input : CreateTaskInput}
    (h : K.Triple i F (Db.createTask app tenantId actorId input) fun _ _ => True) :
    K.Triple i F (Tasks.createTask app tenantId actorId input) fun _ _ => True :=
  ensureProject_bind hK hF (publish_from hpub (fun _ => .done) h)

theorem updateTask_service {input : UpdateTaskInput}
    (h : K.Triple i F (Db.updateTask app tenantId taskId actorId input) fun _ _ => True) :
    K.Triple i F (Tasks.updateTask app tenantId taskId actorId input) fun _ _ => True :=
  ensureProject_bind hK hF (publish_from hpub (fun _ => .done) h)

end Services

end Fluxa.TaskWrites
