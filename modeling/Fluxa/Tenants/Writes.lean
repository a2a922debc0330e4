import Fluxa.Tenants.References

/-!
# Tenants — the writes

Each operation keeps references closed: before it writes a row that refers to another it has found that one to be the tenant's.
-/

namespace Fluxa.Tenants
open Interleave Relational Db Contract

variable {L₀ : Uuid → Prop} {i : Nat} {l : Event} {e : Env} {s s' : AppState} {app : App}
  {tenantId taskId actorId : Uuid}

/-! ### What a call finds -/

/-- The task that is found belongs to the tenant. -/
theorem getTask_reads : (referenceContract L₀).Triple i (fun _ => True)
    (Tasks.getTask tenantId taskId) (onOk fun _ => TaskOf tenantId taskId) := by
  have hfound : (referenceContract L₀).Triple i (fun _ => True) (Db.getTask tenantId taskId)
      (onOk fun o s => ∀ t, o = some t → TaskOf tenantId taskId s) := by
    refine sql_triple referenceContract_patient stable_const
      (fun o => stable_forall fun t => stable_imp (taskOf_lasting.stable i))
      fun s e hi _ _ _ => ⟨.of_same hi (.refl s), fun t ht => ?_⟩
    obtain ⟨hfind, htenant⟩ := Option.filter_eq_some_iff.mp ht
    obtain ⟨hmem, hid⟩ := Table.find?_eq_some.mp hfind
    exact ⟨t, hmem, hid, of_decide_eq_true htenant⟩
  refine Triple.seq hfound fun o => ?_
  cases o with
  | none => exact Triple.fail
  | some t =>
      exact Triple.done (stable_forall fun _ => stable_imp (taskOf_lasting.stable i))
        fun _ _ h => h t rfl

/-- The project that a task is given belongs to the tenant. -/
def ProjectsOf (tenantId : Uuid) (projectId : Option Uuid) (s : AppState) : Prop :=
  ∀ p, projectId = some p → ProjectOf tenantId p s

theorem projectsOf_lasting {projectId : Option Uuid} :
    (referenceContract L₀).Lasting (ProjectsOf tenantId projectId) :=
  fun _ _ _ _ _ _ h hg p hp => hg.projects _ _ (h p hp)

theorem ensureProject_reads {projectId : Option Uuid} :
    (referenceContract L₀).Triple i (fun _ => True)
      (Tasks.ensureProjectBelongsToTenant tenantId projectId)
      (onOk fun _ => ProjectsOf tenantId projectId) := by
  have hstable : (referenceContract L₀).Stable i (ProjectsOf tenantId projectId) :=
    projectsOf_lasting.stable i
  cases projectId with
  | none => exact Triple.done stable_const fun _ _ _ p hp => by cases hp
  | some projectId =>
      have hfound : (referenceContract L₀).Triple i (fun _ => True) (Db.getProject tenantId projectId)
          (onOk fun o s => ∀ p, o = some p → ProjectsOf tenantId (some projectId) s) := by
        refine sql_triple referenceContract_patient stable_const
          (fun o => stable_forall fun p => stable_imp hstable)
          fun s e hi _ _ _ => ⟨.of_same hi (.refl s), fun p hp id hid => ?_⟩
        obtain ⟨hfind, hactive⟩ := Option.filter_eq_some_iff.mp hp
        simp only [Bool.and_eq_true, decide_eq_true_eq] at hactive
        obtain ⟨hmem, hkey⟩ := Table.find?_eq_some.mp hfind
        exact ⟨p, hmem, hkey.trans (Option.some.inj hid), hactive.1⟩
      refine Triple.seq hfound fun o => ?_
      cases o with
      | none => exact Triple.fail
      | some p =>
          exact Triple.done (stable_forall fun _ => stable_imp hstable) fun _ _ h => h p rfl

/-! ### Deliveries -/

/-- The deliveries of an event are those of the tenant's webhooks. -/
theorem newDeliveries_refer {eventType : String} {payload : Value} {now : Time}
    {rowUuid : Nat → Uuid} {d : WebhookDeliveryRecord}
    (hd : d ∈ newDeliveries s tenantId eventType payload now rowUuid) :
    s.db.webhooks.Owned WebhookRecord.tenantId d.webhookId d.tenantId := by
  obtain ⟨⟨w, n⟩, hw, rfl⟩ := List.mem_map.mp hd
  have hmem : w ∈ s.db.webhooks := (Table.mem_select.mp (List.fst_mem_of_mem_zipIdx hw)).1
  exact Table.owned_of_mem hmem

theorem enqueueWebhookDeliveries_keeps {eventType : String} {payload : Value} :
    (referenceContract L₀).Safe i (enqueueWebhookDeliveries tenantId eventType payload) := by
  refine .bind (utcNow_safe referenceContract_patient) fun now => ?_
  refine sql_safe referenceContract_patient fun s e hi ha _ => ?_
  dsimp only
  split
  · rename_i deliveries hins
    refine .of_children hi ha (recorded_of_eq rfl rfl) rfl rfl rfl rfl { hi.closed with deliveries := ?_ }
    refine hi.closed.deliveries.insertAll hins fun d hd k hk => ?_
    cases hk
    exact newDeliveries_refer hd
  · exact .of_same hi (.refl s)

theorem bump_keeps {event : Event} :
    (referenceContract L₀).Safe i (Cache.bumpTenantCacheVersion tenantId event) := by
  refine .atomic fun s e hi _ _ => ?_
  split
  · exact .of_same hi (by constructor <;> rfl)
  · exact .of_same hi (.refl s)
  · exact .of_same hi (by constructor <;> rfl)

theorem publishes : TaskWrites.Publishes (referenceContract L₀) i app tenantId where
  bump := bump_keeps
  emit _ _ := .bind (.attempt enqueueWebhookDeliveries_keeps) fun _ => .done

/-- The claims and outcomes of deliveries, and their redelivery, change columns only. -/
theorem changeMessages_keeps {p : WebhookDeliveryRecord → Bool}
    {f : OutboxColumns Uuid → OutboxColumns Uuid} {hf : OutboxRow.KeepsId f}
    (leases : List (Nat × List Uuid)) (hi : RefInv L₀ s) (ha : admissible i l e s = true) :
    RefAction L₀ i l e s { changeMessages deliveryOutbox p f hf s with history.leases := leases } := by
  refine .of_children hi ha (recorded_of_eq rfl rfl) rfl rfl rfl rfl { hi.closed with deliveries := ?_ }
  exact hi.closed.deliveries.update_same hf.modify fun _ => ⟨rfl, rfl⟩

theorem changeDeliveries_keeps {A : Type} {event : Event} {result : Env → AppState → Except AppError A}
    {p : Env → AppState → WebhookDeliveryRecord → Bool}
    {f : Env → OutboxColumns Uuid → OutboxColumns Uuid} {hf : ∀ e, OutboxRow.KeepsId (f e)} :
    (referenceContract L₀).Safe i (sql event fun e s =>
      (result e s, changeMessages deliveryOutbox (p e s) (f e) (hf e) s)) :=
  sql_safe referenceContract_patient fun s _ hi ha _ =>
    changeMessages_keeps s.history.leases hi ha

theorem redeliver_keeps {webhookId deliveryId : Uuid} : (referenceContract L₀).Safe i
    (Fluxa.redeliverWebhookDelivery tenantId webhookId deliveryId) := by
  refine .bind (.bind (select_safe referenceContract_patient) fun _ => .okOr) fun _ => ?_
  refine .bind changeDeliveries_keeps fun requeued => ?_
  cases requeued with
  | some delivery => exact .done
  | none =>
      exact .bind (select_safe referenceContract_patient) fun _ =>
        .ite (fun _ => .fail) fun _ => .fail

theorem sendDelivery_keeps {d : WebhookDeliveryRecord} :
    (referenceContract L₀).Safe i (sendDelivery d) := by
  refine .bind (.bind (select_safe referenceContract_patient) fun _ => .okOr) fun _ => ?_
  refine .bind .ensure fun _ => .atomic fun s e hi _ ha => ?_
  exact changeMessages_keeps s.history.leases hi ha

theorem deliverAll_keeps {deliveries : List WebhookDeliveryRecord} : (referenceContract L₀).Safe i
    (Delivery.deliverAll dispatcherRound deliveries) := by
  induction deliveries with
  | nil => exact .done
  | cons d rest ih =>
      refine .bind sendDelivery_keeps.attempt fun r => ?_
      cases r with
      | ok _ => exact .bind changeDeliveries_keeps fun _ => ih
      | error error =>
          exact .bind (.bind (utcNow_safe referenceContract_patient) fun _ =>
            changeDeliveries_keeps) fun _ => ih

theorem dispatchPendingWebhooks_keeps : (referenceContract L₀).Safe i dispatchPendingWebhooks :=
  .bind (sql_safe referenceContract_patient fun _ _ hi ha _ => changeMessages_keeps _ hi ha) fun _ =>
    deliverAll_keeps

/-! ### Tasks -/

/-- What `noteChange` notes is not what is known of identifiers. -/
theorem noteChange_recorded {task : TaskRecord} {h : History} :
    (noteChange e.pid task h).issued = h.issued ∧ (noteChange e.pid task h).created = h.created := by
  unfold noteChange noteAssignee
  split <;> exact ⟨rfl, rfl⟩

theorem createTask_keeps {input : CreateTaskInput} :
    (referenceContract L₀).Safe i (Tasks.createTask app tenantId actorId input) := by
  refine Triple.bind ensureProject_reads (fun _ => ?_) fun _ _ _ _ => trivial
  refine TaskWrites.publish_from publishes (fun _ => .done) ?_
  refine TaskWrites.createTask_from referenceContract_patient projectsOf_lasting
    (fun _ s hi => .of_same hi (.refl s))
    fun s e id now entry tasks taskAudit hi hp ha _ _ htasks hid htenant haudit => ?_
  have hkeep : Table.KeepsOwners TaskRecord.tenantId s.db.tasks tasks :=
    Table.keepsOwners_insert htasks
  refine .of_rows hi ha ?_ rfl rfl hkeep (.refl _) (hi.closed.of_tasks hkeep ?_ ?_)
  · exact recorded_of_created .task (by intro h; cases h) noteChange_recorded.1
      noteChange_recorded.2
  · exact hi.closed.projects.insert htasks hp
  · refine (hi.closed.taskAudit.keep hkeep).insert haudit fun k hk => ?_
    obtain rfl : id = k := Option.some.inj (hid.symm.trans hk)
    rw [htenant]
    exact ⟨_, ((Table.insert_eq_some htasks).2 _).mpr (.inr rfl), rfl, rfl⟩

/-- A change of one task that leaves its tenant alone, and gives it a project of the tenant if any. -/
theorem changeTask_keeps {F : AppState → Prop} (hF : (referenceContract L₀).Lasting F)
    {guard : TaskRecord → Bool} {f : TaskRecord → TaskRecord}
    {hf : Table.KeepsKey TaskRecord.id f} {missing eventType : String}
    {payload : TaskRecord → Value} {auditId : Uuid} {auditAt : Time}
    (htenant : ∀ t, (f t).tenantId = t.tenantId)
    (hproject : ∀ s t p, F s → (f t).projectId = some p →
      t.projectId = some p ∨ ProjectOf tenantId p s) :
    (referenceContract L₀).Triple i F (changeTask tenantId taskId actorId guard f hf missing eventType
      payload auditId auditAt) fun _ _ => True := by
  refine TaskWrites.changeTask_from referenceContract_patient hF (fun _ s hi => .of_same hi (.refl s))
    fun s e t entry taskAudit hi hs ha _ hfind ht _ _ hid hentry haudit => ?_
  obtain ⟨hmem, hkey⟩ := Table.find?_eq_some.mp hfind
  have hkeep : Table.KeepsOwners TaskRecord.tenantId s.db.tasks
      (s.db.tasks.update (fun t => t.id = taskId) f hf) := Table.keepsOwners_update hf htenant
  refine .of_rows hi ha (recorded_of_eq noteChange_recorded.1 noteChange_recorded.2) rfl rfl hkeep
    (.refl _) (hi.closed.of_tasks hkeep ?_ ?_)
  · refine hi.closed.projects.update fun t' ht' hp p hproj => ?_
    obtain rfl : t' = t := Table.eq_of_key ht' hmem ((of_decide_eq_true hp).trans hkey.symm)
    rw [htenant]
    rcases hproject s t' p hs hproj with hold | hnew
    · exact hi.closed.projects t' ht' p hold
    · exact ht ▸ hnew
  · refine (hi.closed.taskAudit.keep hkeep).insert haudit fun k hk => ?_
    obtain rfl : taskId = k := Option.some.inj (hid.symm.trans hk)
    rw [hentry]
    exact hkeep _ _ ⟨t, hmem, hkey, ht⟩

theorem updateTask_keeps {input : UpdateTaskInput} :
    (referenceContract L₀).Safe i (Tasks.updateTask app tenantId taskId actorId input) := by
  have hK : Patient (referenceContract L₀) := referenceContract_patient
  refine Triple.bind ensureProject_reads (fun _ => ?_) fun _ _ _ _ => trivial
  refine TaskWrites.publish_from publishes (fun _ => .done) ?_
  refine Safe.carry_bind .ensure projectsOf_lasting fun _ => ?_
  refine (utcNow_safe hK).carry_bind projectsOf_lasting fun now => ?_
  refine (newUuid_safe hK).carry_bind projectsOf_lasting fun auditId => ?_
  refine changeTask_keeps projectsOf_lasting (fun _ => rfl) fun s t p hs hp => ?_
  cases hin : input.projectId with
  | none => exact .inl (by simpa [applyUpdate, hin] using hp)
  | some projectId =>
      have hproj : projectId = some p := by simpa [applyUpdate, hin] using hp
      exact .inr (hs p (by rw [hin, hproj]; rfl))

/-- A change of one task's status. -/
theorem withStatus_keeps {guard : TaskRecord → Bool} {status : TaskStatus}
    {missing eventType : String} {payload : TaskRecord → Value} :
    (referenceContract L₀).Safe i (utcNow.bind fun now => newUuid.bind fun auditId =>
      utcNow.bind fun auditAt => changeTask tenantId taskId actorId guard
        (withStatus status actorId now) ⟨fun _ => rfl⟩ missing eventType payload auditId auditAt) := by
  refine .bind (utcNow_safe referenceContract_patient) fun now => ?_
  refine .bind (newUuid_safe referenceContract_patient) fun auditId => ?_
  refine .bind (utcNow_safe referenceContract_patient) fun auditAt => ?_
  exact changeTask_keeps lasting_const (fun _ => rfl) fun _ _ _ _ hp => .inl hp

theorem archiveTask_keeps :
    (referenceContract L₀).Safe i (Tasks.archiveTask app tenantId taskId actorId) :=
  TaskWrites.archiveTask_service publishes withStatus_keeps

theorem restoreTask_keeps :
    (referenceContract L₀).Safe i (Tasks.restoreTask app tenantId taskId actorId) :=
  TaskWrites.restoreTask_service publishes withStatus_keeps

theorem bulkUpdateTaskStatus_keeps {taskIds : List Uuid} {status : TaskStatus} :
    (referenceContract L₀).Safe i
      (Tasks.bulkUpdateTaskStatus app tenantId actorId taskIds status) := by
  refine TaskWrites.bulkUpdateTaskStatus_service publishes fun ids => ?_
  refine TaskWrites.bulkUpdateTaskStatus_from referenceContract_patient lasting_const
    (fun _ s hi => .of_same hi (.refl s)) fun s e now entries taskAudit hi _ ha _ hentries haudit => ?_
  have hkeep : Table.KeepsOwners TaskRecord.tenantId s.db.tasks
      (s.db.tasks.update (fun t => t.tenantId = tenantId && ids.contains t.id)
        (withStatus status actorId now) ⟨fun _ => rfl⟩) := Table.keepsOwners_update _ fun _ => rfl
  refine .of_rows hi ha (recorded_of_eq rfl rfl) rfl rfl hkeep (.refl _)
    (hi.closed.of_tasks hkeep ?_ ?_)
  · exact Table.Refers.update_same (f := withStatus status actorId now) hi.closed.projects
      ⟨fun _ => rfl⟩ fun _ => ⟨rfl, rfl⟩
  · refine (hi.closed.taskAudit.keep hkeep).insertAll haudit fun a ha k hk => ?_
    obtain ⟨htenant, t, ht, rfl, hid⟩ := hentries a ha
    obtain rfl : t.id = k := Option.some.inj (hid.symm.trans hk)
    rw [htenant]
    exact hkeep _ _ (Table.owned_of_mem ht)

/-! ### Projects -/

theorem createProject_keeps {input : CreateProjectInput} :
    (referenceContract L₀).Safe i (Projects.createProject tenantId actorId input) := by
  have hK : Patient (referenceContract L₀) := referenceContract_patient
  refine .bind (.bind (utcNow_safe hK) fun now => .bind (newUuid_safe hK) fun id => ?_) fun project => ?_
  · refine sql_safe hK fun s e hi ha _ => ?_
    dsimp only
    split
    · exact .of_same hi (.refl s)
    split
    · rename_i projects hins
      have hkeep : Table.KeepsOwners ProjectRecord.tenantId s.db.projects projects :=
        Table.keepsOwners_insert hins
      exact .of_rows hi ha (recorded_of_created .project (by intro h; cases h) rfl rfl) rfl rfl
        (.refl _) hkeep { hi.closed with projects := hi.closed.projects.keep hkeep }
    · exact .of_same hi (.refl s)
  · exact .bind bump_keeps fun _ => .bind (recordEvent_safe referenceContract_discreet) fun _ => .done

/-- A change of a project that leaves its tenant alone. -/
theorem changeProject_keeps {projectId : Uuid} {guard : ProjectRecord → Bool}
    {f : ProjectRecord → ProjectRecord} {hf : Table.KeepsKey ProjectRecord.id f} {missing : String}
    (htenant : ∀ p, (f p).tenantId = p.tenantId) :
    (referenceContract L₀).Safe i (changeProject tenantId projectId guard f hf missing) := by
  refine sql_safe referenceContract_patient fun s e hi ha _ => ?_
  dsimp only
  split
  · exact .of_same hi (.refl s)
  split
  · exact .of_same hi (.refl s)
  · have hkeep : Table.KeepsOwners ProjectRecord.tenantId s.db.projects
        (s.db.projects.update (fun p => p.id = projectId) f hf) := Table.keepsOwners_update hf htenant
    exact .of_rows hi ha (recorded_of_eq rfl rfl) rfl rfl (.refl _) hkeep
      { hi.closed with projects := hi.closed.projects.keep hkeep }

/-- What follows a change of a project. -/
theorem publishProject_keeps {A B : Type} {change : Service A} {result : A → Service B}
    {subjectId : A → Option Uuid} {eventType : String} {payload : A → Value}
    (h : (referenceContract L₀).Safe i change) (hr : ∀ a, (referenceContract L₀).Safe i (result a)) :
    (referenceContract L₀).Safe i (change.bind fun a =>
      (Cache.bumpTenantCacheVersion tenantId).bind fun _ =>
        (recordEvent (some tenantId) (some actorId) "project" (subjectId a) eventType
          (payload a)).bind fun _ => result a) :=
  .bind h fun a => .bind bump_keeps fun _ => .bind (recordEvent_safe referenceContract_discreet) fun _ => hr a

theorem updateProject_keeps {projectId : Uuid} {input : UpdateProjectInput} :
    (referenceContract L₀).Safe i (Projects.updateProject tenantId projectId actorId input) :=
  publishProject_keeps (.bind (utcNow_safe referenceContract_patient) fun _ =>
    changeProject_keeps fun _ => rfl) fun _ => .done

theorem archiveProject_keeps {projectId : Uuid} :
    (referenceContract L₀).Safe i (Projects.archiveProject tenantId actorId projectId) :=
  .bind (.bind (utcNow_safe referenceContract_patient) fun _ => changeProject_keeps fun _ => rfl) fun _ =>
    .bind bump_keeps fun _ => recordEvent_safe referenceContract_discreet

theorem restoreProject_keeps {projectId : Uuid} :
    (referenceContract L₀).Safe i (Projects.restoreProject tenantId actorId projectId) :=
  publishProject_keeps (.bind (utcNow_safe referenceContract_patient) fun _ =>
    changeProject_keeps fun _ => rfl) fun _ => .done

/-! ### Comments and attachments -/

/-- The audit row of the tenant's task. -/
theorem taskAudit_insert {entry : TaskAuditRecord} {taskAudit : Table TaskAuditRecord TaskAuditRecord.id}
    (hs : Closed s) (htask : TaskOf tenantId taskId s) (hid : entry.taskId = some taskId)
    (htenant : entry.tenantId = tenantId) (h : s.db.taskAudit.insert entry = some taskAudit) :
    s.db.tasks.Refers TaskRecord.tenantId taskAudit TaskAuditRecord.taskId
      TaskAuditRecord.tenantId := by
  refine hs.taskAudit.insert h fun k hk => ?_
  obtain rfl : taskId = k := Option.some.inj (hid.symm.trans hk)
  rw [htenant]
  exact htask

/-- A service that finds its task first. -/
theorem onTask_keeps {A : Type} {p : TaskRecord → Service A}
    (h : ∀ task, (referenceContract L₀).Triple i (TaskOf tenantId taskId) (p task) fun _ _ => True) :
    (referenceContract L₀).Safe i ((Tasks.getTask tenantId taskId).bind p) :=
  Triple.bind getTask_reads h fun _ _ _ _ => trivial

theorem notifyAssignee_keeps {task : TaskRecord} {authorId : Uuid} {comment : CommentRecord} :
    (referenceContract L₀).Safe i (Comments.notifyAssignee app task tenantId authorId comment) := by
  have hK : Patient (referenceContract L₀) := referenceContract_patient
  unfold Comments.notifyAssignee
  split
  · exact .done
  · refine .ite (fun _ => .done) fun _ => .bind (select_safe hK).attempt fun _ => ?_
    refine .ite (fun _ => .bind (Safe.attempt (.bind (select_safe hK) fun _ => .okOr)) fun r => ?_)
      fun _ => .done
    cases r with
    | error _ => exact .done
    | ok assignee =>
        refine .bind (Safe.attempt (.bind (newUuid_safe hK) fun id => sql_same fun e s => ?_)) fun _ =>
          .done
        dsimp only
        split
        · exact .refl s
        · split
          · constructor <;> rfl
          · exact .refl s

theorem createComment_keeps {body : String} :
    (referenceContract L₀).Safe i (Comments.createComment app tenantId taskId actorId body) := by
  have hK : Patient (referenceContract L₀) := referenceContract_patient
  refine onTask_keeps fun task => Triple.bind (Q := fun _ _ => True) ?_
    (fun comment => Safe.bind notifyAssignee_keeps fun _ => .done) fun _ _ _ _ => trivial
  refine (utcNow_safe hK).carry_bind taskOf_lasting fun now => ?_
  refine (newUuid_safe hK).carry_bind taskOf_lasting fun id => ?_
  refine (newUuid_safe hK).carry_bind taskOf_lasting fun auditId => ?_
  refine sql_from hK (taskOf_lasting.stable i) fun s e hi htask ha _ => ?_
  dsimp only
  split
  · rename_i comments taskAudit hins haudit
    have haud := taskAudit_insert hi.closed htask rfl rfl haudit
    refine .of_children hi ha (recorded_of_created .comment (by intro h; cases h) rfl rfl) rfl rfl rfl
      rfl { hi.closed with comments := hi.closed.comments.insert hins fun k hk => ?_, taskAudit := haud }
    cases hk
    exact htask
  · exact .of_same hi (.refl s)

theorem updateComment_keeps {commentId : Uuid} {body : String} :
    (referenceContract L₀).Safe i (Comments.updateComment tenantId taskId commentId actorId body) := by
  have hK : Patient (referenceContract L₀) := referenceContract_patient
  refine .bind getTask_reads.safe fun _ => ?_
  refine .bind (.bind (select_safe hK) fun _ => .okOr) fun comment => .bind .ensure fun _ => ?_
  refine sql_safe hK fun s e hi ha _ => ?_
  dsimp only
  split
  · exact .of_same hi (.refl s)
  · refine .of_children hi ha (recorded_of_eq rfl rfl) rfl rfl rfl rfl { hi.closed with comments := ?_ }
    exact Table.Refers.update_same (f := fun c => { c with body, updatedAt := e.now })
      hi.closed.comments ⟨fun _ => rfl⟩ fun _ => ⟨rfl, rfl⟩

theorem deleteComment_keeps {commentId : Uuid} {role : MembershipRole} : (referenceContract L₀).Safe i
    (Comments.deleteComment app tenantId taskId commentId actorId role) := by
  have hK : Patient (referenceContract L₀) := referenceContract_patient
  refine onTask_keeps fun task => ?_
  refine Safe.carry_bind (.bind (select_safe hK) fun _ => .okOr) taskOf_lasting fun comment => ?_
  refine Safe.carry_bind .ensure taskOf_lasting fun _ => ?_
  refine (newUuid_safe hK).carry_bind taskOf_lasting fun auditId => ?_
  refine (utcNow_safe hK).carry_bind taskOf_lasting fun auditAt => ?_
  refine sql_from hK (taskOf_lasting.stable i) fun s e hi htask ha _ => ?_
  dsimp only
  split
  · exact .of_same hi (.refl s)
  · rename_i taskAudit _ haudit
    have haud := taskAudit_insert hi.closed htask rfl rfl haudit
    exact .of_children hi ha (recorded_of_eq rfl rfl) rfl rfl rfl rfl
      { hi.closed with comments := hi.closed.comments.delete, taskAudit := haud }
  · exact .of_same hi (.refl s)

theorem uploadAttachment_keeps {fileName contentType : String} {bytes : Bytes} :
    (referenceContract L₀).Safe i
      (Attachments.uploadAttachment app tenantId taskId actorId fileName contentType bytes) := by
  have hK : Patient (referenceContract L₀) := referenceContract_patient
  refine onTask_keeps fun task => ?_
  refine (select_safe hK).carry_bind taskOf_lasting fun count => ?_
  refine Safe.carry_bind .ensure taskOf_lasting fun _ => ?_
  refine (newUuid_safe hK).carry_bind taskOf_lasting fun attachmentId => ?_
  refine (storagePut_safe referenceContract_discreet).carry_bind taskOf_lasting fun _ => ?_
  refine Triple.bind (Q := fun _ _ => True) (Triple.attempt (Q := fun _ _ => True) ?_).any (fun r => ?_)
    fun _ _ _ _ => trivial
  · refine (utcNow_safe hK).carry_bind taskOf_lasting fun now => ?_
    refine (newUuid_safe hK).carry_bind taskOf_lasting fun auditId => ?_
    refine sql_from hK (taskOf_lasting.stable i) fun s e hi htask ha _ => ?_
    dsimp only
    split
    · rename_i attachments taskAudit hins haudit
      have haud := taskAudit_insert hi.closed htask rfl rfl haudit
      refine .of_children hi ha (recorded_of_created .attachment (by intro h; cases h) rfl rfl) rfl
        rfl rfl rfl { hi.closed with
          attachments := hi.closed.attachments.insert hins fun k hk => ?_
          taskAudit := haud }
      cases hk
      exact htask
    · exact .of_same hi (.refl s)
  · cases r with
    | ok attachment => exact Safe.done
    | error error =>
        exact Safe.bind (storageDelete_safe referenceContract_discreet).attempt fun _ => .fail

theorem deleteAttachment_keeps {attachmentId : Uuid} {role : MembershipRole} :
    (referenceContract L₀).Safe i
      (Attachments.deleteAttachment app tenantId taskId attachmentId actorId role) := by
  have hK : Patient (referenceContract L₀) := referenceContract_patient
  refine onTask_keeps fun task => ?_
  refine Safe.carry_bind (.bind (select_safe hK) fun _ => .okOr) taskOf_lasting fun attachment => ?_
  refine Safe.carry_bind .ensure taskOf_lasting fun _ => ?_
  refine Triple.bind (Q := fun _ _ => True) ?_ (fun deleted => ?_) fun _ _ _ _ => trivial
  · refine (newUuid_safe hK).carry_bind taskOf_lasting fun auditId => ?_
    refine (utcNow_safe hK).carry_bind taskOf_lasting fun auditAt => ?_
    refine sql_from hK (taskOf_lasting.stable i) fun s e hi htask ha _ => ?_
    dsimp only
    split
    · exact .of_same hi (.refl s)
    · split
      · exact .of_same hi (.refl s)
      · rename_i taskAudit haudit
        have haud := taskAudit_insert hi.closed htask rfl rfl haudit
        exact .of_children hi ha (recorded_of_eq rfl rfl) rfl rfl rfl rfl
          { hi.closed with attachments := hi.closed.attachments.delete, taskAudit := haud }
  · exact Safe.bind (storageDelete_safe referenceContract_discreet).attempt fun _ => .done

/-! ### Webhooks -/

/-- A statement in a transaction that registers a webhook. -/
theorem inWebhookTx_keeps {A : Type} {ready : AppState → Bool}
    {run : Env → AppState → Except AppError (A × AppState)}
    (h : ∀ e s a s', run e s = .ok (a, s') → SameRefs s s') :
    (referenceContract L₀).Safe i (inWebhookTx ready run) := by
  refine .atomic fun s e hi _ _ => ?_
  have hend : RefAction L₀ i .quiet e s (endWebhookTx e.pid s) := .of_same hi (by constructor <;> rfl)
  split
  · rename_i a s' _ hr
    exact .of_same hi (h e s a s' hr)
  · exact hend
  · exact hend

theorem createWebhook_keeps {url secret : String} {events : List String} :
    (referenceContract L₀).Safe i (Db.createWebhook tenantId actorId url secret events) := by
  have hK : Patient (referenceContract L₀) := referenceContract_patient
  refine .bind (utcNow_safe hK) fun now => .bind (inWebhookTx_keeps fun e s a s' hr => ?_) fun T => ?_
  · split at hr
    · cases hr
    · cases hr
      constructor <;> rfl
  refine .bind (inWebhookTx_keeps fun e s a s' hr => ?_) fun _ => ?_
  · split at hr
    · cases hr
    · cases hr
      exact .refl s
  refine .bind (newUuid_safe hK) fun id => .bind (inWebhookTx_keeps fun e s a s' hr => ?_) fun T => ?_
  · split at hr
    · cases hr
    · cases hr
      constructor <;> rfl
  refine .bind (.atomic fun s e hi _ ha => ?_) fun _ => .done
  dsimp only
  split
  · exact .of_same hi (by constructor <;> rfl)
  · exact .of_same hi (by constructor <;> rfl)
  · rename_i webhooks hins _
    refine .of_children hi ha (recorded_of_created .webhook (by intro h; cases h) rfl rfl) rfl rfl rfl
      rfl { hi.closed with deliveries := ?_ }
    exact hi.closed.deliveries.keep (Table.keepsOwners_insertAll hins)

theorem updateWebhook_keeps {webhookId : Uuid} {url : Option String} {events : Option (List String)}
    {isActive : Option Bool} : (referenceContract L₀).Safe i
      (Webhooks.updateWebhook app tenantId webhookId url events isActive) := by
  have hK : Patient (referenceContract L₀) := referenceContract_patient
  refine .bind .ensure fun _ => .bind lift_safe fun url => .bind lift_safe fun events => ?_
  refine .bind (utcNow_safe hK) fun now => sql_safe hK fun s e hi ha _ => ?_
  dsimp only
  split
  · exact .of_same hi (.refl s)
  · refine .of_children hi ha (recorded_of_eq rfl rfl) rfl rfl rfl rfl
      { hi.closed with deliveries := ?_ }
    have hkeeps : Table.KeepsKey WebhookRecord.id (applyWebhookUpdate url events isActive now) :=
      ⟨fun _ => rfl⟩
    exact hi.closed.deliveries.keep (Table.keepsOwners_update hkeeps fun _ => rfl)

theorem deleteWebhook_keeps {webhookId : Uuid} :
    (referenceContract L₀).Safe i (Db.deleteWebhook tenantId webhookId) := by
  refine sql_safe referenceContract_patient fun s e hi ha _ => ?_
  dsimp only
  split
  · refine .of_children hi ha (recorded_of_eq rfl rfl) rfl rfl rfl rfl
      { hi.closed with deliveries := ?_ }
    refine hi.closed.deliveries.cascade fun w _ hw d _ hd => ?_
    simp only [isWebhook, Bool.and_eq_true, decide_eq_true_eq] at hw
    exact decide_eq_true ((Option.some.inj hd).trans hw.2)
  · exact .of_same hi (.refl s)

end Fluxa.Tenants
