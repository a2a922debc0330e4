import Fluxa.Tenants.Writes
import Mathlib.Data.List.Perm.Subperm

/-!
# Tenants — closed references

Any number of requests and background workers, side by side: everything the service does to projects, tasks, labels, comments, attachments, webhooks and deliveries, under whatever identifiers clients send, and whatever it does elsewhere.

**`references_closed`**: in every state of every run, what refers to a row belongs to the tenant of the row.
-/

namespace Fluxa
open Interleave Relational Db Contract

namespace Tenants

variable {L₀ : Uuid → Prop} {i : Nat} {l : Event} {e : Env} {s s' : AppState} {app : App}
  {tenantId taskId actorId : Uuid}

/-! ### Labels -/

theorem createLabel_keeps {input : CreateLabelInput} :
    (referenceContract L₀).Safe i (Labels.createLabel app tenantId actorId input) := by
  have hK : Patient (referenceContract L₀) := referenceContract_patient
  refine .bind (.bind (utcNow_safe hK) fun now => ?_) fun label =>
    .bind (recordEvent_safe referenceContract_discreet) fun _ => .done
  refine Triple.bind newUuid_unused (fun id => ?_) fun _ _ _ _ => trivial
  refine sql_from hK unused_stable fun s e hi hu ha _ => ?_
  have hpid : e.pid = i := (not_issued_of_admissible ha).1
  dsimp only
  split
  · exact .of_same hi (.refl s)
  · split
    · rename_i labels hins
      have hrec : Recorded e s { s with
          db.labels := labels, history := noteCreated e .label id s.history } :=
        recorded_of_created .label (fun _ => ⟨i, hu.2.1⟩) rfl rfl
      refine .of_closed hi ha hrec (.refl _) (.refl _) (fun l hl => ?_) hi.attached
        { hi.closed with labels := fun r hr l hl hid => ?_ }
      · rcases ((Table.insert_eq_some hins).2 l).mp hl with hold | rfl
        · exact .inl (Table.owned_of_mem hold)
        · exact .inr ⟨hu, hpid ▸ List.mem_cons_self⟩
      · rcases ((Table.insert_eq_some hins).2 l).mp hl with hold | rfl
        · exact hi.closed.labels r hr l hold hid
        -- A row of `task_labels` has the identifier of a label that there has been.
        · exact absurd hid ((hi.attached r hr).ne_of_unused hi.once hu)
    · exact .of_same hi (.refl s)

/-- Labels that are changed keep their tenant. -/
theorem updateLabel_keeps {labelId : Uuid} {input : UpdateLabelInput} :
    (referenceContract L₀).Safe i (Labels.updateLabel app tenantId labelId actorId input) := by
  have hK : Patient (referenceContract L₀) := referenceContract_patient
  refine .bind (.bind (utcNow_safe hK) fun now => ?_) fun label =>
    .bind (recordEvent_safe referenceContract_discreet) fun _ => .done
  refine sql_safe hK fun s e hi ha _ => ?_
  dsimp only
  split
  · exact .of_same hi (.refl s)
  · split
    · exact .of_same hi (.refl s)
    · have hold : ∀ l ∈ s.db.labels.update (fun l => l.id = labelId)
          (applyLabelUpdate input actorId now) ⟨fun _ => rfl⟩,
          ∃ l₀ ∈ s.db.labels, l₀.id = l.id ∧ l₀.tenantId = l.tenantId := by
        intro l hl
        obtain ⟨l₀, hl₀, rfl⟩ := Table.mem_update.mp hl
        refine ⟨l₀, hl₀, ?_⟩
        split
        · exact ⟨rfl, rfl⟩
        · exact ⟨rfl, rfl⟩
      refine .of_closed hi ha (recorded_of_eq rfl rfl) (.refl _) (.refl _) (fun l hl => ?_) hi.attached
        { hi.closed with labels := fun r hr l hl hid => ?_ }
      · exact .inl (hold l hl)
      · obtain ⟨l₀, hl₀, hid₀, ht⟩ := hold l hl
        exact ht ▸ hi.closed.labels r hr l₀ hl₀ (hid₀.trans hid)

theorem deleteLabel_keeps {labelId : Uuid} :
    (referenceContract L₀).Safe i (Labels.deleteLabel tenantId labelId actorId) := by
  have hK : Patient (referenceContract L₀) := referenceContract_patient
  refine .bind (sqlWhen_safe hK fun s e hi _ ha _ => ?_) fun label =>
    .bind bump_keeps fun _ => recordEvent_safe referenceContract_discreet
  dsimp only
  split
  · exact .of_same hi (.refl s)
  · refine .of_closed hi ha (recorded_of_eq rfl rfl) (.refl _) (.refl _)
      (fun l hl => .inl (Table.owned_of_mem (Table.mem_delete.mp hl).1))
      (fun r hr => hi.attached r (Table.mem_delete.mp hr).1)
      { hi.closed with labels := fun r hr l hl hid => ?_ }
    exact hi.closed.labels r (Table.mem_delete.mp hr).1 l (Table.mem_delete.mp hl).1 hid

/-! ### The labels of a task -/

/-- The task and the labels are the tenant's. -/
def LabelsOf (L₀ : Uuid → Prop) (tenantId taskId : Uuid) (wanted : List Uuid) (s : AppState) : Prop :=
  TaskOf tenantId taskId s ∧ ∀ label ∈ wanted, LabelOf L₀ tenantId label s

theorem labelsOf_lasting {wanted : List Uuid} :
    (referenceContract L₀).Lasting (LabelsOf L₀ tenantId taskId wanted) := by
  intro i l e s s' hi h hg
  exact ⟨taskOf_lasting i l e s s' hi h.1 hg,
    fun label hl => labelOf_lasting i l e s s' hi (h.2 label hl) hg⟩

/-- Rows with different keys among as many keys have all of them. -/
theorem mem_of_length_eq {labels : List LabelRecord} {wanted : List Uuid}
    (hnodup : (labels.map (·.id)).Nodup) (hsub : ∀ l ∈ labels, l.id ∈ wanted)
    (hlen : labels.length = wanted.length) {label : Uuid} (h : label ∈ wanted) :
    ∃ l ∈ labels, l.id = label := by
  have hsub' : labels.map (·.id) ⊆ wanted := by
    intro id hid
    obtain ⟨l, hl, rfl⟩ := List.mem_map.mp hid
    exact hsub l hl
  have hperm : (labels.map (·.id)).Perm wanted :=
    (List.subperm_of_subset hnodup hsub').perm_of_length_le (by rw [List.length_map, hlen])
  exact List.mem_map.mp (hperm.mem_iff.mpr h)

/-- Where the tenant's labels among those wanted are as many as are wanted, these are the tenant's. -/
theorem labelOf_selected {wanted : List Uuid} {label : Uuid} (hi : RefInv L₀ s)
    (hlen : (orderLabels app (s.db.labels.select fun l =>
      l.tenantId = tenantId && wanted.contains l.id)).length = wanted.length) (hl : label ∈ wanted) :
    LabelOf L₀ tenantId label s := by
  have hfound : ∀ l ∈ s.db.labels.select fun l => l.tenantId = tenantId && wanted.contains l.id,
      l ∈ s.db.labels ∧ l.tenantId = tenantId ∧ l.id ∈ wanted := by
    intro l hl
    obtain ⟨hmem, hp⟩ := Table.mem_select.mp hl
    simp only [Bool.and_eq_true, List.contains_eq_mem, decide_eq_true_eq] at hp
    exact ⟨hmem, hp⟩
  have hlen : (s.db.labels.select fun l => l.tenantId = tenantId && wanted.contains l.id).length =
      wanted.length := by
    rw [← hlen, orderLabels, List.length_insertionSort]
  obtain ⟨l₀, hl₀, rfl⟩ := mem_of_length_eq (s.db.labels.nodup.sublist (List.filter_sublist.map _))
    (fun l hl => (hfound l hl).2.2) hlen hl
  obtain ⟨hmem, htenant, -⟩ := hfound l₀ hl₀
  refine ⟨hi.known l₀ hmem, fun l hl hid => ?_⟩
  rw [Table.eq_of_key hl hmem hid]
  exact htenant

/-- A statement in the call's transaction, which carries a lasting fact. -/
theorem inLabelTx_carries {A : Type} {run : Env → AppState → Option (A × AppState)}
    {F : AppState → Prop} {Q : A → Prop} (hF : (referenceContract L₀).Lasting F)
    (h : ∀ e s a s', run e s = some (a, s') → SameRefs s s' ∧ Q a) :
    (referenceContract L₀).Triple i F (inLabelTx run) (onOk fun a s => Q a ∧ F s) := by
  refine Triple.atomic (hF.stable i) (stable_onOk fun _ => stable_const.and (hF.stable i))
    fun s e hi hs _ _ => ?_
  have hend : (referenceContract L₀).guar i .quiet e s (endLabelTx e.pid s) :=
    .of_same hi (by constructor <;> rfl)
  split
  · rename_i a s' _ hr
    obtain ⟨hsame, hq⟩ := h e s a s' hr
    have hg : (referenceContract L₀).guar i .quiet e s s' := .of_same hi hsame
    exact ⟨hg, hq, hF i _ e s s' hi hs hg⟩
  · exact ⟨hend, trivial⟩

/-- The transaction is for the task, and inserts wanted labels only. -/
def Replaces (taskId : Uuid) (wanted : List Uuid) (T : LabelTx) : Prop :=
  T.taskId = taskId ∧ T.wanted = wanted ∧ ∀ label ∈ T.inserted, label ∈ wanted

theorem commitLabelTx_keeps {wanted : List Uuid} {T : LabelTx} {entry : TaskAuditRecord}
    (hT : Replaces taskId wanted T) (hid : entry.taskId = some taskId)
    (htenant : entry.tenantId = tenantId) :
    (referenceContract L₀).Triple i (LabelsOf L₀ tenantId taskId wanted) (commitLabelTx T entry)
      fun _ _ => True := by
  obtain ⟨rfl, rfl, hins⟩ := hT
  refine Triple.atomic (labelsOf_lasting.stable i) (fun _ => stable_const) fun s e hi hs _ ha => ?_
  refine ⟨?_, trivial⟩
  have hend : (referenceContract L₀).guar i .commitLabels e s (endLabelTx e.pid s) :=
    .of_same hi (by constructor <;> rfl)
  dsimp only
  split
  · exact hend
  · exact hend
  · exact hend
  · rename_i taskLabels taskAudit hrep haudit _
    have haud := taskAudit_insert hi.closed hs.1 hid htenant haudit
    have hrow : ∀ r ∈ taskLabels, r ∈ s.db.taskLabels ∨ r.taskId = T.taskId ∧ r.labelId ∈ T.wanted := by
      intro r hr
      rcases (Table.mem_insertAll hrep r).mp hr with hold | hnew
      · exact .inl (Table.mem_delete.mp hold).1
      · obtain ⟨label, hl, rfl⟩ := List.mem_map.mp hnew
        exact .inr ⟨rfl, hins label hl⟩
    refine .of_closed hi ha (recorded_of_eq rfl rfl) (.refl _) (.refl _)
      (fun l hl => .inl (Table.owned_of_mem hl)) (fun r hr => ?_)
      { hi.closed with labels := fun r hr l hl hrl => ?_, taskAudit := haud }
    · rcases hrow r hr with hold | ⟨-, hwanted⟩
      · exact hi.attached r hold
      · exact (hs.2 _ hwanted).1
    · rcases hrow r hr with hold | ⟨htask, hwanted⟩
      · exact hi.closed.labels r hold l hl hrl
      · rw [htask, (hs.2 _ hwanted).2 l hl hrl]
        exact hs.1

theorem setTaskLabels_keeps {labelIds : List Uuid} :
    (referenceContract L₀).Safe i (Labels.setTaskLabels app tenantId taskId actorId labelIds) := by
  have hK : Patient (referenceContract L₀) := referenceContract_patient
  refine Triple.lift_bind fun wanted _ => onTask_keeps fun task => ?_
  refine Triple.bind (Q := fun _ _ => True) ?_ (fun labels => Safe.bind bump_keeps fun _ => .done)
    fun _ _ _ _ => trivial
  -- What the `SELECT` finds is the tenant's; when it finds as many labels as are asked for, it has
  -- found them all.
  refine Triple.bind (Q := onOk fun labels s => TaskOf tenantId taskId s ∧
    (labels.length = wanted.length → LabelsOf L₀ tenantId taskId wanted s)) ?_ (fun labels => ?_)
    fun _ _ _ _ => trivial
  · exact sql_triple hK (taskOf_lasting.stable i) (fun labels => (taskOf_lasting.stable i).and
      (stable_imp (labelsOf_lasting.stable i))) fun s e hi htask _ _ =>
        ⟨.of_same hi (.refl s), htask, fun hlen => ⟨htask, fun _ => labelOf_selected hi hlen⟩⟩
  · refine .ite (fun _ => Triple.pre Safe.fail fun _ _ _ => trivial) fun hlen => ?_
    have hlen : labels.length = wanted.length := by simpa using hlen
    have hF : (referenceContract L₀).Lasting (LabelsOf L₀ tenantId taskId wanted) := labelsOf_lasting
    refine Triple.pre (P := LabelsOf L₀ tenantId taskId wanted) ?_ fun s _ h => h.2 hlen
    refine Triple.bind (Q := onOk fun T s => Replaces taskId wanted T ∧ LabelsOf L₀ tenantId taskId wanted s)
      (inLabelTx_carries hF fun e s T s' hr => ?_) (fun T₁ => Triple.of_fact fun hT₁ => ?_)
      fun _ _ _ _ => trivial
    · cases hr
      exact ⟨by constructor <;> rfl, rfl, rfl, fun _ h => absurd h List.not_mem_nil⟩
    refine Triple.bind (Q := onOk fun T s => Replaces taskId wanted T ∧ LabelsOf L₀ tenantId taskId wanted s)
      (inLabelTx_carries hF fun e s T s' hr => ?_) (fun T₂ => Triple.of_fact fun hT₂ => ?_)
      fun _ _ _ _ => trivial
    · split at hr
      · cases hr
      · cases hr
        exact ⟨by constructor <;> rfl, hT₁⟩
    refine Triple.bind (Q := onOk fun T s => Replaces taskId wanted T ∧ LabelsOf L₀ tenantId taskId wanted s)
      (inLabelTx_carries hF fun e s T s' hr => ?_) (fun T => Triple.of_fact fun hT => ?_)
      fun _ _ _ _ => trivial
    · split at hr
      · cases hr
      · split at hr
        · cases hr
        · cases hr
          exact ⟨by constructor <;> rfl, hT₂.1, hT₂.2.1,
            fun label hl => hT₂.2.1 ▸ (List.mem_filter.mp hl).1⟩
    refine (newUuid_safe hK).carry_bind hF fun auditId => ?_
    refine (utcNow_safe hK).carry_bind hF fun now => ?_
    refine Triple.bind (Q := onOk fun _ s => True ∧ LabelsOf L₀ tenantId taskId wanted s)
      (inLabelTx_carries hF fun e s a s' hr => ?_) (fun _ => Triple.of_fact fun _ => ?_)
      fun _ _ _ _ => trivial
    · obtain ⟨-, -, hr⟩ := Option.map_eq_some_iff.mp hr
      cases hr
      exact ⟨.refl s, trivial⟩
    exact Triple.bind (commitLabelTx_keeps hT rfl rfl) (fun _ => Safe.done) fun _ _ _ _ => trivial

/-! ### Jobs -/

/-- The audit rows of reminders are for the tasks given. -/
theorem reminderEntries_of {tasks : List TaskRecord} : (referenceContract L₀).Triple i (fun _ => True)
    (reminderEntries app tasks) (onOk fun entries _ => ∀ a ∈ entries,
      ∃ t ∈ tasks, a.taskId = some t.id ∧ a.tenantId = t.tenantId) := by
  have hK : Patient (referenceContract L₀) := referenceContract_patient
  induction tasks with
  | nil => exact Triple.done stable_const fun _ _ _ _ h => absurd h List.not_mem_nil
  | cons task tasks ih =>
      refine Triple.seq (newUuid_safe hK).onOk_any fun id => ?_
      refine Triple.seq (utcNow_safe hK).onOk_any fun now => Triple.seq ih fun rest => ?_
      refine Triple.done stable_const fun _ _ hrest a ha => ?_
      rcases List.mem_cons.mp ha with rfl | ha
      · exact ⟨task, List.mem_cons_self, rfl, rfl⟩
      · obtain ⟨t, ht, h⟩ := hrest a ha
        exact ⟨t, List.mem_cons_of_mem _ ht, h⟩

theorem recordDueReminders_keeps {tenantId : Option Uuid} :
    (referenceContract L₀).Safe i (recordDueReminders app tenantId) := by
  have hK : Patient (referenceContract L₀) := referenceContract_patient
  have hF (tasks : List TaskRecord) : (referenceContract L₀).Lasting
      fun s => ∀ t ∈ tasks, TaskOf t.tenantId t.id s :=
    fun _ _ _ _ _ _ h hg t ht => hg.tasks _ _ (h t ht)
  refine Triple.bind (Q := onOk fun tasks s => ∀ t ∈ tasks, TaskOf t.tenantId t.id s)
    (sql_triple hK stable_const (fun tasks => (hF tasks).stable i)
      fun s e hi _ _ _ => ⟨.of_same hi (.refl s), fun t ht => ?_⟩) (fun tasks => ?_)
    fun _ _ _ _ => trivial
  · have hsorted := (List.mem_insertionSort _).mp (List.mem_of_mem_take ht)
    exact Table.owned_of_mem (Table.mem_select.mp hsorted).1
  refine Triple.bind ((reminderEntries_of.keep (hF tasks)).pre fun _ _ h => ⟨trivial, h⟩)
    (fun entries => Triple.of_fact fun hentries => ?_) fun _ _ _ _ => trivial
  refine sql_from hK ((hF tasks).stable i) fun s e hi hs ha _ => ?_
  dsimp only
  split
  · rename_i taskAudit haudit
    refine .of_children hi ha (recorded_of_eq rfl rfl) rfl rfl rfl rfl { hi.closed with taskAudit := ?_ }
    refine hi.closed.taskAudit.insertAll haudit fun a ha k hk => ?_
    obtain ⟨t, ht, hid, htenant⟩ := hentries a ha
    obtain rfl : t.id = k := Option.some.inj (hid.symm.trans hk)
    exact htenant ▸ hs t ht
  · exact .of_same hi (.refl s)

theorem enqueueNotification_keeps {n : NewNotification} {maxAttempts : Nat} :
    (referenceContract L₀).Safe i (enqueueNotification n maxAttempts) :=
  enqueue_safe referenceContract_patient fun _ _ _ _ hi _ _ => .of_same hi (by constructor <;> rfl)

theorem processDueReminderJob_keeps {tenantId : Option Uuid} :
    (referenceContract L₀).Safe i (Jobs.processDueReminderJob app tenantId) := by
  have hK : Patient (referenceContract L₀) := referenceContract_patient
  have hall (now : Time) (cs : List DueReminderCandidate) :
      (referenceContract L₀).Safe i (Jobs.enqueueCandidates app now cs) := by
    induction cs with
    | nil => exact .done
    | cons c cs ih => exact .bind enqueueNotification_keeps fun _ => .bind ih fun _ => .done
  refine .bind recordDueReminders_keeps fun _ => .bind ?_ fun _ => .bind (utcNow_safe hK) fun _ => .done
  exact .bind (select_safe hK) fun cs => .bind (utcNow_safe hK) fun now => hall now cs

theorem processRetentionJob_keeps :
    (referenceContract L₀).Safe i (Jobs.processRetentionJob app) := by
  refine .bind (.bind (.atomic fun s _ hi _ _ => .of_same hi (.refl s)) fun _ => sql_same fun _ _ => ?_)
    fun _ => .bind (sql_same fun _ _ => ?_) fun _ => .bind (sql_same fun _ _ => ?_) fun _ =>
      .bind (sql_same fun _ _ => ?_) fun _ => .bind (utcNow_safe referenceContract_patient) fun _ => .done
  all_goals constructor <;> rfl

theorem processJob_keeps {rounds : Nat} {jobId : Uuid} :
    (referenceContract L₀).Safe i (Jobs.processJob app rounds jobId) := by
  refine .bind (sql_same fun e s => ?_) fun o => ?_
  · dsimp only
    split
    · exact .refl s
    · constructor <;> rfl
  cases o with
  | none => exact .done
  | some job =>
      refine .bind (Safe.attempt ?_) fun r => ?_
      · unfold Jobs.runJob
        cases job.jobType with
        | taskExport =>
            cases job.payload with
            | taskExport => exact processExportJob_safe referenceContract_discreet
            | dueReminder => exact .fail
            | empty => exact .fail
        | dueReminderSweep => exact processDueReminderJob_keeps
        | retentionSweep => exact processRetentionJob_keeps
      · cases r with
        | ok result => exact sql_same fun _ _ => by constructor <;> rfl
        | error error =>
            refine .bind (utcNow_safe referenceContract_patient) fun _ => sql_same fun _ _ => ?_
            constructor <;> rfl

/-! ### The system -/

/-- The routes that write projects, tasks, labels, comments, attachments, webhooks or deliveries. -/
inductive Route where
  | createProject (idempotencyKey : Option String) (payload : CreateProjectInput)
  | updateProject (projectId : Uuid) (payload : UpdateProjectInput)
  | deleteProject (projectId : Uuid)
  | restoreProject (projectId : Uuid)
  | createLabel (idempotencyKey : Option String) (payload : CreateLabelInput)
  | updateLabel (labelId : Uuid) (payload : UpdateLabelInput)
  | deleteLabel (labelId : Uuid)
  | putTaskLabels (taskId : Uuid) (labelIds : List Uuid)
  | createTask (idempotencyKey : Option String) (payload : Http.TaskPayload)
  | updateTask (taskId : Uuid) (payload : Http.TaskPatchPayload)
  | bulkUpdateTaskStatus (taskIds : List Uuid) (status : String)
  | deleteTask (taskId : Uuid)
  | restoreTask (taskId : Uuid)
  | createTaskComment (taskId : Uuid) (idempotencyKey : Option String) (body : String)
  | updateTaskComment (taskId commentId : Uuid) (body : String)
  | deleteTaskComment (taskId commentId : Uuid)
  | uploadTaskAttachment (taskId : Uuid) (fileName : String)
      (contentType idempotencyKey : Option String) (body : Bytes)
  | deleteTaskAttachment (taskId attachmentId : Uuid)
  | createWebhook (idempotencyKey : Option String) (url : String) (events : List String)
  | updateWebhook (webhookId : Uuid) (url : Option String) (events : Option (List String))
      (isActive : Option Bool)
  | deleteWebhook (webhookId : Uuid)
  | redeliverWebhookDelivery (webhookId deliveryId : Uuid)

/-- Run the program for its effect. -/
def forEffect {A : Type} (p : Service A) : Service Unit := p.bind fun _ => return ()

def Route.handler (app : App) (user : AuthenticatedUser) : Route → Service Unit
  | .createProject key payload => forEffect (Http.createProject app user key payload)
  | .updateProject projectId payload => forEffect (Http.updateProject app user projectId payload)
  | .deleteProject projectId => Http.deleteProject user projectId
  | .restoreProject projectId => forEffect (Http.restoreProject app user projectId)
  | .createLabel key payload => forEffect (Http.createLabel app user key payload)
  | .updateLabel labelId payload => forEffect (Http.updateLabel app user labelId payload)
  | .deleteLabel labelId => Http.deleteLabel user labelId
  | .putTaskLabels taskId labelIds => forEffect (Http.putTaskLabels app user taskId labelIds)
  | .createTask key payload => forEffect (Http.createTask app user key payload)
  | .updateTask taskId payload => forEffect (Http.updateTask app user taskId payload)
  | .bulkUpdateTaskStatus taskIds status =>
    forEffect (Http.bulkUpdateTaskStatus app user taskIds status)
  | .deleteTask taskId => Http.deleteTask app user taskId
  | .restoreTask taskId => forEffect (Http.restoreTask app user taskId)
  | .createTaskComment taskId key body =>
    forEffect (Http.createTaskComment app user taskId key body)
  | .updateTaskComment taskId commentId body =>
    forEffect (Http.updateTaskComment app user taskId commentId body)
  | .deleteTaskComment taskId commentId => Http.deleteTaskComment app user taskId commentId
  | .uploadTaskAttachment taskId fileName contentType key body =>
    forEffect (Http.uploadTaskAttachment app user taskId fileName contentType key body)
  | .deleteTaskAttachment taskId attachmentId =>
    Http.deleteTaskAttachment app user taskId attachmentId
  | .createWebhook key url events => forEffect (Http.createWebhook app user key url events)
  | .updateWebhook webhookId url events isActive =>
    forEffect (Http.updateWebhook app user webhookId url events isActive)
  | .deleteWebhook webhookId => Http.deleteWebhook user webhookId
  | .redeliverWebhookDelivery webhookId deliveryId =>
    forEffect (Fluxa.redeliverWebhookDelivery user.tenantId webhookId deliveryId)

/-- A statement that writes none of these tables; it may generate an identifier and note a row that
it inserts elsewhere. -/
structure Elsewhere (e : Env) (s s' : AppState) : Prop where
  projects : s'.db.projects = s.db.projects
  labels : s'.db.labels = s.db.labels
  taskLabels : s'.db.taskLabels = s.db.taskLabels
  tasks : s'.db.tasks = s.db.tasks
  taskAudit : s'.db.taskAudit = s.db.taskAudit
  comments : s'.db.comments = s.db.comments
  attachments : s'.db.attachments = s.db.attachments
  webhooks : s'.db.webhooks = s.db.webhooks
  webhookDeliveries : s'.db.webhookDeliveries = s.db.webhookDeliveries
  recorded : Recorded e s s'

/-- A call. -/
inductive TenantCall where
  /-- A request of an authenticated user. -/
  | request (user : AuthenticatedUser) (route : Route)
  /-- A worker runs a job; `rounds` bounds the chunks of an export. -/
  | processJob (rounds : Nat) (jobId : Uuid)
  /-- One round of the webhook dispatcher. -/
  | dispatchPendingWebhooks
  /-- Whatever else the service does, which writes none of these tables. -/
  | elsewhere (p : Service Unit) (h : Makes (fun _ e s s' => Elsewhere e s s') p)

def tenantSystem (app : App) : System Event Env AppState AppError TenantCall Unit where
  body
    | .request user route => route.handler app user
    | .processJob rounds jobId => Jobs.processJob app rounds jobId
    | .dispatchPendingWebhooks => Fluxa.dispatchPendingWebhooks
    | .elsewhere p _ => p
  adm := admissible

/-! ### The calls keep to it -/

theorem forEffect_keeps {A : Type} {p : Service A} (h : (referenceContract L₀).Safe i p) :
    (referenceContract L₀).Safe i (forEffect p) :=
  .bind h fun _ => .done

theorem idempotent_keeps {A B : Type} {key : IdempotencyKey} {prepare : Except AppError B}
    {create : B → Service A} {respond : A → StoredResponse}
    (h : ∀ input, (referenceContract L₀).Safe i (create input)) :
    (referenceContract L₀).Safe i (Http.idempotent app key prepare create respond) :=
  idempotent_from referenceContract_keys lasting_const h

theorem route_keeps {user : AuthenticatedUser} (r : Route) :
    (referenceContract L₀).Safe i (r.handler app user) := by
  cases r with
  | createProject key payload =>
      refine forEffect_keeps (.bind lift_safe fun _ => .bind lift_safe fun _ => .bind lift_safe fun _ => ?_)
      exact idempotent_keeps fun _ => createProject_keeps
  | updateProject projectId payload =>
      exact forEffect_keeps (.bind lift_safe fun _ => .bind lift_safe fun _ =>
        .bind updateProject_keeps fun _ => .done)
  | deleteProject projectId => exact .bind lift_safe fun _ => archiveProject_keeps
  | restoreProject projectId =>
      exact forEffect_keeps (.bind lift_safe fun _ => .bind restoreProject_keeps fun _ => .done)
  | createLabel key payload =>
      refine forEffect_keeps (.bind lift_safe fun _ => .bind lift_safe fun _ => .bind lift_safe fun _ => ?_)
      exact idempotent_keeps fun _ => createLabel_keeps
  | updateLabel labelId payload =>
      exact forEffect_keeps (.bind lift_safe fun _ => .bind lift_safe fun _ =>
        .bind updateLabel_keeps fun _ => .done)
  | deleteLabel labelId => exact .bind lift_safe fun _ => deleteLabel_keeps
  | putTaskLabels taskId labelIds =>
      exact forEffect_keeps (.bind lift_safe fun _ => .bind setTaskLabels_keeps fun _ => .done)
  | createTask key payload =>
      refine forEffect_keeps (.bind lift_safe fun _ => .bind lift_safe fun _ => ?_)
      exact idempotent_keeps fun _ => createTask_keeps
  | updateTask taskId payload =>
      exact forEffect_keeps (.bind lift_safe fun _ => .bind lift_safe fun _ =>
        .bind updateTask_keeps fun _ => .done)
  | bulkUpdateTaskStatus taskIds status =>
      exact forEffect_keeps (.bind lift_safe fun _ => .bind lift_safe fun _ =>
        .bind bulkUpdateTaskStatus_keeps fun _ => .done)
  | deleteTask taskId => exact .bind lift_safe fun _ => archiveTask_keeps
  | restoreTask taskId =>
      exact forEffect_keeps (.bind lift_safe fun _ => .bind restoreTask_keeps fun _ => .done)
  | createTaskComment taskId key body =>
      refine forEffect_keeps (.bind lift_safe fun _ => .bind lift_safe fun _ => .bind lift_safe fun _ => ?_)
      exact idempotent_keeps fun _ => createComment_keeps
  | updateTaskComment taskId commentId body =>
      exact forEffect_keeps (.bind lift_safe fun _ => .bind lift_safe fun _ =>
        .bind updateComment_keeps fun _ => .done)
  | deleteTaskComment taskId commentId => exact deleteComment_keeps
  | uploadTaskAttachment taskId fileName contentType key body =>
      refine forEffect_keeps (.bind lift_safe fun _ => .bind lift_safe fun _ => .bind lift_safe fun _ =>
        .bind lift_safe fun _ => ?_)
      exact idempotent_keeps fun _ => uploadAttachment_keeps
  | deleteTaskAttachment taskId attachmentId => exact deleteAttachment_keeps
  | createWebhook key url events =>
      refine forEffect_keeps (.bind lift_safe fun _ => .bind lift_safe fun _ => ?_)
      refine idempotent_keeps fun _ => .bind lift_safe fun _ => .bind lift_safe fun _ => ?_
      exact .bind (generateRandom_safe referenceContract_patient) fun _ => createWebhook_keeps
  | updateWebhook webhookId url events isActive =>
      exact forEffect_keeps (.bind lift_safe fun _ => .bind updateWebhook_keeps fun _ => .done)
  | deleteWebhook webhookId => exact .bind lift_safe fun _ => deleteWebhook_keeps
  | redeliverWebhookDelivery webhookId deliveryId => exact forEffect_keeps redeliver_keeps

theorem call_keeps (k : TenantCall) :
    (referenceContract L₀).Safe i ((tenantSystem app).body k) := by
  cases k with
  | request user route => exact route_keeps route
  | processJob rounds jobId => exact processJob_keeps
  | dispatchPendingWebhooks => exact dispatchPendingWebhooks_keeps
  | elsewhere p h =>
      refine h.safe fun l e s s' hi ha h => ?_
      exact .of_children hi ha h.recorded h.labels h.taskLabels h.tasks h.projects
        (hi.closed.of_tables h.projects h.labels h.taskLabels h.tasks h.taskAudit h.comments
          h.attachments h.webhooks h.webhookDeliveries)

/-- References are closed, each identifier has been generated once, and those of labels have been
generated. -/
structure ReferenceStart (s : AppState) : Prop where
  closed : Closed s
  labels : ∀ l ∈ s.db.labels, Issued s l.id
  taskLabels : ∀ r ∈ s.db.taskLabels, Issued s r.labelId
  created : ∀ x ∈ s.history.created, x.2.1 = .label → Issued s x.2.2
  once : IssuedOnce s

end Tenants

open Tenants

/-- In every state of every run, a task's project, the labels attached to a task, the comments,
attachments and audit rows of a task and the deliveries of a webhook belong to the tenant of the task
or of the webhook. -/
theorem references_closed {app : App} {s : AppState} (hs : ReferenceStart s)
    {ms : List (Move Env TenantCall)} :
    (tenantSystem app).Through (fun c => Closed c.st) (.start s) ms := by
  have hinv : RefInv (Issued s) s := ⟨hs.closed, fun l hl => .inl (hs.labels l hl),
    fun r hr => .inl (hs.taskLabels r hr), hs.created, hs.once, fun _ h => h⟩
  refine (@throughFrom _ _ _ _ _ _ (referenceContract (Issued s)) (tenantSystem app)
    (fun _ _ => True) (fun _ _ _ _ => True) (fun _ => stable_const) (fun _ k => call_keeps k)
    (fun _ _ _ _ ha => ha) s hinv (fun _ => trivial) ms).mono fun c hc => ?_
  exact hc.1.1.closed

/-! ### Two tenants and a task -/

/-- A task of tenant 1 in its project. -/
def taskInProject : AppState :=
  { (default : AppState) with
    db.projects := ⟨[⟨5, 1, "project", none, 2, 2, 0, 0, none⟩], by decide⟩
    db.tasks := ⟨[⟨3, 1, some 5, "task", none, .open, .medium, none, none, 2, 2, 0, 0⟩], by decide⟩ }

theorem taskInProject_start : ReferenceStart taskInProject where
  closed := by
    refine ⟨fun t ht p hp => ?_, ?_, ?_, ?_, ?_, ?_⟩
    · obtain rfl := List.mem_singleton.mp ht
      cases hp
      exact ⟨⟨5, 1, "project", none, 2, 2, 0, 0, none⟩, List.mem_singleton_self _, rfl, rfl⟩
    all_goals exact fun _ h => absurd h Table.not_mem_empty
  labels _ h := absurd h Table.not_mem_empty
  taskLabels _ h := absurd h Table.not_mem_empty
  created _ h := absurd h List.not_mem_nil
  once _ _ _ h := absurd h List.not_mem_nil

/-- A statement of call `i`, with a fresh identifier. -/
def tenantMove (i uuid : Nat) : Move Env TenantCall :=
  .exec i { (default : Env) with pid := i, uuid }

/-- Users of tenant 1 and of tenant 9 comment on the task. -/
def comments : List (Move Env TenantCall) :=
  [.call (.request ⟨2, 1, .member, 0⟩ (.createTaskComment 3 (some "a") "mine")),
      .call (.request ⟨8, 9, .owner, 0⟩ (.createTaskComment 3 (some "b") "theirs"))] ++
    (List.range 9).map (fun n => tenantMove 0 (10 + n)) ++
    (List.range 5).map fun n => tenantMove 1 (20 + n)

/-- The comment of tenant 1 is there, that of tenant 9 has been refused, and references are
closed. -/
theorem references_closed_comments :
    ∃ c, (tenantSystem default).exec (.start taskInProject) comments = some c ∧
      c.st.db.comments.rows.map (fun r => (r.taskId, r.tenantId)) = [(3, 1)] ∧
      (tenantSystem default).Through (fun c => Closed c.st) (.start taskInProject) comments := by
  have hrun : ((tenantSystem default).exec (.start taskInProject) comments).any fun c =>
      c.st.db.comments.rows.map (fun r => (r.taskId, r.tenantId)) = [(3, 1)] := by decide +kernel
  obtain ⟨c, hc, h⟩ := (Option.any_eq_true _ _).mp hrun
  exact ⟨c, hc, of_decide_eq_true h, references_closed taskInProject_start⟩

end Fluxa
