import Fluxa.Tenants.Parts

/-!
# Tenants — what a tenant reads

Every query of a request gets from the tenant's part what it gets from the whole state.  Most say so themselves, by `tenant_id = $1`; some find a row of the tenant first and go by its identifier; the one for a job does neither, but its caller refuses the jobs of others as it refuses those that there are not.
-/

namespace Fluxa
open Interleave Relational Db

namespace Tenants

variable {app : App} {o : Whose} {i : Nat} {s v : AppState} {tenantId taskId projectId : Uuid}

/-! ### Tasks -/

theorem findTask_part (hv : Part app o tenantId s v) :
    findTask v tenantId taskId = findTask s tenantId taskId := by
  rw [findTask, hv.tasks]
  exact Table.filter_find?_of fun _ _ ht => congrArg some (of_decide_eq_true ht)

theorem owner_of_findTask (hs : Consistent app o s) {t : TaskRecord}
    (h : findTask s tenantId taskId = some t) : o.owner taskId = some tenantId := by
  obtain ⟨hfind, htenant⟩ := Option.filter_eq_some_iff.mp h
  obtain ⟨ht, rfl⟩ := Table.find?_eq_some.mp hfind
  exact (hs.tasks t ht).trans (congrArg some (of_decide_eq_true htenant))

theorem dbGetTask_apart : Apart app o tenantId i
    (fun t => t.isSome = true → o.owner taskId = some tenantId) (Db.getTask tenantId taskId) :=
  .select fun _ _ _ hs hv => ⟨findTask_part hv, fun h =>
    owner_of_findTask hs (Option.some_get h).symm⟩

/-- A call that goes on with a task goes on with one of the tenant. -/
theorem getTask_apart : Apart app o tenantId i (fun _ => o.owner taskId = some tenantId)
    (Tasks.getTask tenantId taskId) :=
  .bind dbGetTask_apart fun _ ht => Apart.okOr.mono fun _ he => ht (he ▸ rfl)

theorem listTaskAudit_apart {cursor : Option AuditCursor} {limit : Nat} :
    Apart app o tenantId i (fun _ => True) (Tasks.listTaskAudit tenantId taskId cursor limit) := by
  refine .bind getTask_apart fun _ _ => .select fun _ _ _ _ hv => ⟨?_, trivial⟩
  rw [hv.taskAudit, Table.select_of fun _ _ ha => ?_]
  simp only [Bool.and_eq_true, decide_eq_true_eq] at ha
  exact congrArg some ha.1

/-- The conditions of a listing hold of a task of the tenant in its part as in the whole. -/
theorem matchesFilters_part (hs : Consistent app o s) (hv : Part app o tenantId s v)
    {filters : TaskFilters} {t : TaskRecord} (ht : t ∈ s.db.tasks) :
    matchesFilters app v tenantId filters t = matchesFilters app s tenantId filters t := by
  by_cases htenant : t.tenantId = tenantId
  · have hprojects : v.db.projects.any (fun p => t.projectId = some p.id && p.archivedAt.isSome) =
        s.db.projects.any fun p => t.projectId = some p.id && p.archivedAt.isSome := by
      rw [hv.projects]
      refine Table.any_of fun p hp hq => ?_
      simp only [Bool.and_eq_true, decide_eq_true_eq] at hq
      exact (hs.projects p hp).symm.trans
        ((hs.taskProjects t ht p.id hq.1).trans (congrArg some htenant))
    have hlabels : ∀ l, v.db.taskLabels.any (fun r => r.taskId = t.id && r.labelId = l) =
        s.db.taskLabels.any fun r => r.taskId = t.id && r.labelId = l := by
      intro l
      rw [hv.taskLabels]
      refine Table.any_of fun _ _ hr => ?_
      simp only [Bool.and_eq_true, decide_eq_true_eq] at hr
      rw [hr.1]
      exact (hs.tasks t ht).trans (congrArg some htenant)
    simp only [matchesFilters, hprojects, hlabels]
  · simp [matchesFilters, htenant]

theorem orderedMatches_part (hs : Consistent app o s) (hv : Part app o tenantId s v)
    {filters : TaskFilters} {cursor : Option Cursor} :
    orderedMatches app v tenantId filters cursor = orderedMatches app s tenantId filters cursor := by
  unfold orderedMatches
  rw [hv.tasks, Table.select_of fun _ _ ht => ?_]
  · refine congrArg orderTasks (List.filter_congr fun t ht => ?_)
    rw [matchesFilters_part hs hv ht]
  · simp only [matchesFilters, Bool.and_eq_true, decide_eq_true_eq, and_assoc] at ht
    exact congrArg some ht.1

theorem tasksPage_part (hs : Consistent app o s) (hv : Part app o tenantId s v)
    {filters : TaskFilters} {cursor : Option Cursor} {limit : Nat} :
    tasksPage app tenantId filters cursor limit v = tasksPage app tenantId filters cursor limit s := by
  rw [tasksPage, orderedMatches_part hs hv]
  rfl

theorem dashboardSummary_apart :
    Apart app o tenantId i (fun _ => True) (Db.dashboardSummary tenantId) := by
  refine .select fun _ _ _ _ hv => ⟨?_, trivial⟩
  rw [hv.tasks, hv.taskAudit, Table.select_of fun _ _ ht => congrArg some (of_decide_eq_true ht),
    Table.count_of fun _ _ ha => ?_]
  simp only [Bool.and_eq_true, decide_eq_true_eq] at ha
  exact congrArg some ha.1

/-! ### Projects and labels -/

theorem activeProject_part (hv : Part app o tenantId s v) :
    activeProject v tenantId projectId = activeProject s tenantId projectId := by
  rw [activeProject, hv.projects]
  refine Table.filter_find?_of fun _ _ hp => ?_
  simp only [Bool.and_eq_true, decide_eq_true_eq] at hp
  exact congrArg some hp.1

theorem tenant_of_activeProject {p : ProjectRecord}
    (h : activeProject s tenantId projectId = some p) :
    p ∈ s.db.projects ∧ p.id = projectId ∧ p.tenantId = tenantId := by
  obtain ⟨hfind, hp⟩ := Option.filter_eq_some_iff.mp h
  obtain ⟨hmem, rfl⟩ := Table.find?_eq_some.mp hfind
  simp only [Bool.and_eq_true, decide_eq_true_eq] at hp
  exact ⟨hmem, rfl, hp.1⟩

theorem dbGetProject_apart : Apart app o tenantId i
    (fun p => p.isSome = true → o.owner projectId = some tenantId)
    (Db.getProject tenantId projectId) := by
  refine .select fun _ _ _ hs hv => ⟨activeProject_part hv, fun h => ?_⟩
  obtain ⟨hmem, hid, htenant⟩ := tenant_of_activeProject (Option.some_get h).symm
  exact hid ▸ (hs.projects _ hmem).trans (congrArg some htenant)

theorem getProject_apart :
    Apart app o tenantId i (fun _ => True) (Projects.getProject tenantId projectId) :=
  .bind dbGetProject_apart fun _ _ => Apart.okOr.mono fun _ _ => trivial

/-- The project that a request names is one of the tenant. -/
theorem ensureProject_apart {projectId : Option Uuid} : Apart app o tenantId i
    (fun _ => ∀ p, projectId = some p → o.owner p = some tenantId)
    (Tasks.ensureProjectBelongsToTenant tenantId projectId) := by
  cases projectId with
  | none => exact .done fun p hp => by cases hp
  | some projectId =>
      refine .bind dbGetProject_apart fun _ hp => .bind .okOr fun _ he => .done ?_
      rintro p ⟨⟩
      exact hp (he ▸ rfl)

theorem listProjects_apart :
    Apart app o tenantId i (fun _ => True) (Projects.listProjects tenantId) := by
  refine .select fun _ _ _ _ hv => ⟨?_, trivial⟩
  rw [hv.projects, Table.select_of fun _ _ hp => ?_]
  simp only [Bool.and_eq_true, decide_eq_true_eq] at hp
  exact congrArg some hp.1

theorem projectSummary_apart :
    Apart app o tenantId i (fun _ => True) (Projects.projectSummary tenantId projectId) := by
  refine .bind (Q := fun _ => True) (.select fun e s v _ hv => ⟨?_, trivial⟩)
    fun _ _ => Apart.okOr.mono fun _ _ => trivial
  rw [activeProject_part hv]
  cases hp : activeProject s tenantId projectId with
  | none => rfl
  | some p =>
      have htenant : p.tenantId = tenantId := (tenant_of_activeProject hp).2.2
      have hactivity : isProjectActivity v p e.now = isProjectActivity s p e.now := by
        funext a
        simp only [isProjectActivity]
        by_cases ha : a.tenantId = tenantId
        · rw [hv.tasks, Table.any_of fun _ _ ht => ?_]
          simp only [Bool.and_eq_true, decide_eq_true_eq] at ht
          exact congrArg some (ht.1.2.trans ha)
        · simp [htenant, ha]
      simp only [Option.map_some]
      rw [hactivity, hv.tasks, hv.taskAudit, Table.select_of fun _ _ ht => ?_,
        Table.count_of fun _ _ ha => ?_]
      · simp only [isProjectActivity, Bool.and_eq_true, decide_eq_true_eq] at ha
        exact congrArg some (ha.1.1.trans htenant)
      · simp only [Bool.and_eq_true, decide_eq_true_eq] at ht
        exact congrArg some (ht.2.trans htenant)

theorem tenantLabel_part {labelId : Uuid} (hv : Part app o tenantId s v) :
    tenantLabel v tenantId labelId = tenantLabel s tenantId labelId := by
  rw [tenantLabel, hv.labels]
  exact Table.filter_find?_of fun _ _ hl => congrArg some (of_decide_eq_true hl)

theorem listLabels_apart :
    Apart app o tenantId i (fun _ => True) (Labels.listLabels app tenantId) := by
  refine .select fun _ _ _ _ hv => ⟨?_, trivial⟩
  rw [hv.labels, Table.select_of fun _ _ hl => congrArg some (of_decide_eq_true hl)]

theorem listTaskLabels_apart :
    Apart app o tenantId i (fun _ => True) (Labels.listTaskLabels app tenantId taskId) := by
  refine .bind getTask_apart fun _ htask => .select fun e s v _ hv => ⟨?_, trivial⟩
  have hany : ∀ l, v.db.taskLabels.any (fun r => r.taskId = taskId && r.labelId = l) =
      s.db.taskLabels.any fun r => r.taskId = taskId && r.labelId = l := by
    intro l
    rw [hv.taskLabels]
    refine Table.any_of fun _ _ hr => ?_
    simp only [Bool.and_eq_true, decide_eq_true_eq] at hr
    rw [hr.1, htask]
  simp only [hany]
  rw [hv.labels, Table.select_of fun _ _ hl => ?_]
  simp only [Bool.and_eq_true, decide_eq_true_eq] at hl
  exact congrArg some hl.1

/-! ### Comments and attachments -/

theorem listComments_apart {cursor : Option AuditCursor} {limit : Nat} :
    Apart app o tenantId i (fun _ => True) (Comments.listComments tenantId taskId cursor limit) := by
  refine .bind getTask_apart fun _ _ => .select fun _ _ _ _ hv => ⟨?_, trivial⟩
  rw [hv.comments, Table.select_of fun _ _ hc => ?_]
  simp only [Bool.and_eq_true, decide_eq_true_eq] at hc
  exact congrArg some hc.1

theorem owned_of_isComment {commentId : Uuid} {c : CommentRecord}
    (h : isComment tenantId taskId commentId c = true) : some c.tenantId = some tenantId := by
  simp only [isComment, Bool.and_eq_true, decide_eq_true_eq] at h
  exact congrArg some h.1.2

theorem findComment_part {commentId : Uuid} (hv : Part app o tenantId s v) :
    (v.db.comments.find? commentId).filter (isComment tenantId taskId commentId) =
      (s.db.comments.find? commentId).filter (isComment tenantId taskId commentId) := by
  rw [hv.comments]
  exact Table.filter_find?_of fun _ _ hc => owned_of_isComment hc

theorem getComment_apart {commentId : Uuid} :
    Apart app o tenantId i (fun _ => True) (getComment tenantId taskId commentId) :=
  .bind (Q := fun _ => True) (.select fun _ _ _ _ hv => ⟨findComment_part hv, trivial⟩)
    fun _ _ => Apart.okOr.mono fun _ _ => trivial

theorem owned_of_isOfTask {a : AttachmentRecord} (h : isOfTask tenantId taskId a = true) :
    some a.tenantId = some tenantId := by
  simp only [isOfTask, Bool.and_eq_true, decide_eq_true_eq] at h
  exact congrArg some h.1

theorem listAttachments_apart :
    Apart app o tenantId i (fun _ => True) (Attachments.listAttachments tenantId taskId) := by
  refine .bind getTask_apart fun _ _ => .select fun _ _ _ _ hv => ⟨?_, trivial⟩
  rw [hv.attachments, Table.select_of fun _ _ ha => owned_of_isOfTask ha]

theorem countTaskAttachments_apart :
    Apart app o tenantId i (fun _ => True) (countTaskAttachments tenantId taskId) := by
  refine .select fun _ _ _ _ hv => ⟨?_, trivial⟩
  rw [hv.attachments, Table.count_of fun _ _ ha => owned_of_isOfTask ha]

theorem owned_of_isAttachment {attachmentId : Uuid} {a : AttachmentRecord}
    (h : isAttachment tenantId taskId attachmentId a = true) : some a.tenantId = some tenantId := by
  simp only [isAttachment, Bool.and_eq_true, decide_eq_true_eq] at h
  exact congrArg some h.1.2

theorem findAttachment_part {attachmentId : Uuid} (hv : Part app o tenantId s v) :
    findAttachment v tenantId taskId attachmentId = findAttachment s tenantId taskId attachmentId := by
  rw [findAttachment, hv.attachments]
  exact Table.filter_find?_of fun _ _ ha => owned_of_isAttachment ha

theorem keyOf_of_findAttachment (hs : Consistent app o s) {attachmentId : Uuid} {a : AttachmentRecord}
    (h : findAttachment s tenantId taskId attachmentId = some a) :
    KeyOf app tenantId a.storageKey := by
  obtain ⟨hfind, ha⟩ := Option.filter_eq_some_iff.mp h
  exact Option.some.inj (owned_of_isAttachment ha) ▸
    hs.storageKeys a (Table.find?_eq_some.mp hfind).1

/-- The file of an attachment that is found is one of the tenant. -/
theorem getAttachment_apart {attachmentId : Uuid} :
    Apart app o tenantId i (fun a => KeyOf app tenantId a.storageKey)
      (getAttachment tenantId taskId attachmentId) := by
  refine .bind (Q := fun a => ∀ a', a = some a' → KeyOf app tenantId a'.storageKey)
    (.select fun _ _ _ hs hv => ⟨findAttachment_part hv, fun _ ha => keyOf_of_findAttachment hs ha⟩)
    fun _ h => Apart.okOr.mono fun _ ha => h _ ha

/-! ### Webhooks -/

theorem owned_of_isWebhook {webhookId : Uuid} {w : WebhookRecord}
    (h : isWebhook tenantId webhookId w = true) : some w.tenantId = some tenantId := by
  simp only [isWebhook, Bool.and_eq_true, decide_eq_true_eq] at h
  exact congrArg some h.1

theorem findWebhook_part {webhookId : Uuid} (hv : Part app o tenantId s v) :
    (v.db.webhooks.find? webhookId).filter (isWebhook tenantId webhookId) =
      (s.db.webhooks.find? webhookId).filter (isWebhook tenantId webhookId) := by
  rw [hv.webhooks]
  exact Table.filter_find?_of fun _ _ hw => owned_of_isWebhook hw

theorem listWebhooks_apart :
    Apart app o tenantId i (fun _ => True) (Webhooks.listWebhooks tenantId) := by
  refine .select fun _ _ _ _ hv => ⟨?_, trivial⟩
  rw [hv.webhooks, Table.select_of fun _ _ hw => congrArg some (of_decide_eq_true hw)]

theorem getWebhook_apart {webhookId : Uuid} :
    Apart app o tenantId i (fun _ => True) (Db.getWebhook tenantId webhookId) :=
  .bind (Q := fun _ => True) (.select fun _ _ _ _ hv => ⟨findWebhook_part hv, trivial⟩)
    fun _ _ => Apart.okOr.mono fun _ _ => trivial

theorem listWebhookDeliveries_apart {webhookId : Uuid} {cursor : Option AuditCursor} {limit : Nat} :
    Apart app o tenantId i (fun _ => True)
      (Webhooks.listWebhookDeliveries tenantId webhookId cursor limit) := by
  refine .bind getWebhook_apart fun _ _ => .select fun _ _ _ _ hv => ⟨?_, trivial⟩
  rw [hv.webhookDeliveries, Table.select_of fun _ _ hd => ?_]
  simp only [Bool.and_eq_true, decide_eq_true_eq] at hd
  exact congrArg some hd.1

/-! ### Audit events, notifications and users -/

theorem listEvents_apart {cursor : Option AuditCursor} {limit : Nat} :
    Apart app o tenantId i (fun _ => True) (listEvents app tenantId cursor limit) := by
  refine .bind (Q := fun _ => True) (.select fun _ _ _ _ hv => ⟨?_, trivial⟩)
    fun _ _ => .done trivial
  rw [hv.auditLog, Table.select_of fun _ _ ha => of_decide_eq_true ha]

theorem owned_of_inFeed {userId : Uuid} {kinds : List NotificationKind} {n : NotificationRecord}
    (h : inFeed tenantId userId kinds n = true) : n.tenantId = some tenantId := by
  simp only [inFeed, Bool.and_eq_true, decide_eq_true_eq] at h
  exact h.1.1

theorem listFeed_apart {userId : Uuid} {unreadOnly : Bool} {cursor : Option AuditCursor}
    {limit : Nat} : Apart app o tenantId i (fun _ => True)
      (Notifications.listFeed app tenantId userId unreadOnly cursor limit) := by
  refine .bind (Q := fun _ => True) (.select fun _ _ _ _ hv => ⟨?_, trivial⟩) fun _ _ =>
    .bind (Q := fun _ => True) (.select fun _ _ _ _ hv => ⟨?_, trivial⟩) fun _ _ => .done trivial
  · rw [hv.notifications, Table.select_of fun _ _ hn => ?_]
    rw [Bool.and_eq_true] at hn
    exact owned_of_inFeed hn.1
  · rw [hv.notifications, Table.count_of fun _ _ hn => ?_]
    rw [Bool.and_eq_true] at hn
    exact owned_of_inFeed hn.1

theorem isNotificationKindEnabled_apart {userId : Uuid} {kind : NotificationKind} :
    Apart app o tenantId i (fun _ => True) (isNotificationKindEnabled userId kind) :=
  .select fun _ _ _ _ hv => ⟨by rw [hv.preferences], trivial⟩

theorem getUserById_apart {userId : Uuid} :
    Apart app o tenantId i (fun _ => True) (getUserById userId) :=
  .bind (Q := fun _ => True) (.select fun _ _ _ _ hv => ⟨by rw [hv.users], trivial⟩)
    fun _ _ => Apart.okOr.mono fun _ _ => trivial

/-! ### Jobs -/

/-- The artifact in the job's result is one of the tenant. -/
def ArtifactOf (app : App) (tenantId : Uuid) (job : BackgroundJobRecord) : Prop :=
  ∀ result, job.resultPayload = some result → ∀ file, Http.artifactOf result = .ok file →
    KeyOf app tenantId file.1

/-- The query finds the jobs of others, too; they are refused as if there were none. -/
theorem getTenantJob_apart {jobId : Uuid} : Apart app o tenantId i (ArtifactOf app tenantId)
    (Jobs.getTenantJob jobId tenantId) := by
  have hfound : (tenantParts app o).Follows tenantId i
      (fun j j' => j' = j.filter (fun job => job.tenantId = some tenantId) ∧
        ∀ job, j' = some job → ArtifactOf app tenantId job) (getJob jobId) (getJob jobId) := by
    refine select_follows fun e s v hs hv => ?_
    have hfilter : v.db.jobs.find? jobId =
        (s.db.jobs.find? jobId).filter fun job => job.tenantId = some tenantId := by
      rw [hv.jobs, Table.of, Table.find?_only]
    refine ⟨hfilter, fun job hjob => ?_⟩
    obtain ⟨hfind, htenant⟩ := Option.filter_eq_some_iff.mp (hfilter.symm.trans hjob)
    exact hs.artifacts job (Table.find?_eq_some.mp hfind).1 tenantId (of_decide_eq_true htenant)
  refine Parts.Follows.bind hfound fun j j' hj => ?_
  obtain ⟨rfl, hartifact⟩ := hj
  cases j with
  | none => exact Apart.fail
  | some job =>
      by_cases htenant : job.tenantId = some tenantId
      · have hsome : Option.filter (fun job => job.tenantId = some tenantId) (some job) = some job :=
          Option.filter_some_pos (decide_eq_true htenant)
        rw [hsome] at hartifact ⊢
        refine Apart.bind Apart.okOr fun job' he => .bind .ensure fun _ _ => .done ?_
        exact hartifact job' he
      · have hnone : Option.filter (fun job => job.tenantId = some tenantId) (some job) = none :=
          Option.filter_some_neg (by simp [htenant])
        rw [hnone]
        have hrefused : Prog.ensure (L := Event) (E := Env) (S := AppState)
            (decide (job.tenantId = some tenantId)) (AppError.notFound "job not found") =
            Prog.fail (.notFound "job not found") := by
          rw [decide_eq_false htenant]
          rfl
        show (tenantParts app o).Follows tenantId i _
          ((Prog.ensure (decide (job.tenantId = some tenantId)) _).bind fun _ => _) _
        rw [hrefused]
        exact Apart.fail

theorem getTenantJobResult_apart {jobId : Uuid} : Apart app o tenantId i
    (fun r => ∀ file, Http.artifactOf r.result = .ok file → KeyOf app tenantId file.1)
    (Jobs.getTenantJobResult jobId tenantId) := by
  refine .bind getTenantJob_apart fun job hjob => ?_
  cases job.status with
  | completed =>
      refine Apart.lift.mono fun r hr file hfile => ?_
      unfold Jobs.JobResult.ofJob at hr
      split at hr
      · rename_i result hresult
        obtain rfl := Except.ok.inj hr
        exact hjob result hresult file hfile
      · cases hr
  | queued => exact .fail
  | running => exact .fail
  | deadLetter => exact .fail

end Tenants

end Fluxa
