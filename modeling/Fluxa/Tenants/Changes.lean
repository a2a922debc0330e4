import Fluxa.Tenants.Reads

/-!
# Tenants — what a tenant changes

Every statement of a request that writes does to the tenant's part what it does to the whole state, and leaves the parts of others alone.  New rows get identifiers of the tenant; the rows that are changed or deleted are found by the tenant's identifier, or go by that of a row which has been.
-/

namespace Fluxa
open Interleave Relational Db

namespace Tenants

variable {app : App} {o : Whose} {i : Nat} {s v : AppState} {tenantId actorId taskId projectId : Uuid}
  (hi : o.caller i = tenantId)

/-! ### Tasks -/

@[simp] theorem noteChange_issued (pid : Nat) (task : TaskRecord) (h : History) :
    (noteChange pid task h).issued = h.issued := by
  unfold noteChange noteAssignee
  split
  · rfl
  · rfl

/-- The references of a task to users and to projects of the tenant. -/
theorem taskReferences_part (hs : Consistent app o s) (hv : Part app o tenantId s v) {t : TaskRecord}
    (hp : ∀ p, t.projectId = some p → o.owner p = some tenantId) :
    taskReferences v t = taskReferences s t := by
  unfold taskReferences
  rw [hv.users]
  cases h : t.projectId with
  | none => rfl
  | some p => simp only [hv.projects, Table.find?_of hs.projects (hp p h)]

/-- An audit row of the tenant, under an identifier of the tenant. -/
theorem insertAudit_part (hs : Consistent app o s) (hv : Part app o tenantId s v)
    {entry : TaskAuditRecord} (ht : entry.tenantId = tenantId)
    (hid : o.owner entry.id = some tenantId) :
    v.db.taskAudit.insert entry =
      (s.db.taskAudit.insert entry).map fun t => t.of (some ·.tenantId) tenantId := by
  rw [hv.taskAudit]
  exact Table.insert_of hs.taskAudit (congrArg some ht) hid

theorem insertAudit_changes (hs : Consistent app o s) {entry : TaskAuditRecord}
    {taskAudit : Table TaskAuditRecord TaskAuditRecord.id}
    (h : s.db.taskAudit.insert entry = some taskAudit) (ht : entry.tenantId = tenantId)
    (hid : o.owner entry.id = some tenantId) :
    taskAudit.Labelled o.owner (some ·.tenantId) ∧ Table.ChangedBy (some ·.tenantId) tenantId
      s.db.taskAudit taskAudit (taskAudit.of (some ·.tenantId) tenantId) :=
  ⟨hs.taskAudit.insert h (congrArg some ht) hid, Table.changedBy_insert h (congrArg some ht)⟩

include hi

theorem createTask_apart {input : CreateTaskInput}
    (hproject : ∀ p, input.projectId = some p → o.owner p = some tenantId) :
    Apart app o tenantId i (fun _ => True) (Db.createTask app tenantId actorId input) := by
  refine .bind .utcNow fun now _ => .bind (.newUuid hi) fun id hid =>
    .bind (.newUuid hi) fun auditId hauditId => .sql fun e s v hs hv _ => ?_
  let task := newTask id tenantId actorId input now
  -- The inserts and the checks on the references come out the same in the tenant's part.
  have hinsert : v.db.tasks.insert task =
      (s.db.tasks.insert task).map fun t => t.of (some ·.tenantId) tenantId := by
    rw [hv.tasks]
    exact Table.insert_of hs.tasks rfl hid
  have haudit : v.db.taskAudit.insert ⟨auditId, some id, tenantId, actorId,
      "task_created", createdPayload app task, now⟩ = _ :=
    insertAudit_part hs hv rfl hauditId
  have hrefs : taskReferences v task = taskReferences s task := taskReferences_part hs hv hproject
  dsimp only
  rw [hrefs, hinsert, haudit]
  split
  · exact ⟨.refl hs hv, rfl⟩
  cases hins : s.db.tasks.insert task with
  | none => exact ⟨.refl hs hv, rfl⟩
  | some tasks =>
      cases haud : s.db.taskAudit.insert ⟨auditId, some id, tenantId, actorId, "task_created",
          createdPayload app task, now⟩ with
      | none => exact ⟨.refl hs hv, rfl⟩
      | some taskAudit =>
          simp only [Option.map_some]
          have htasks : Table.ChangedBy (some ·.tenantId) tenantId s.db.tasks tasks _ :=
            Table.changedBy_insert hins rfl
          obtain ⟨hlabelled, hentries⟩ := insertAudit_changes hs haud rfl hauditId
          refine ⟨⟨{ hs with
              tasks := hs.tasks.insert hins rfl hid
              taskAudit := hlabelled
              taskProjects := fun t ht p hp => ?_ }, { hv with
              tasks := htasks.own
              taskAudit := hentries.own
              issued := fun x hx => ?_ }, fun b' hb w hw => { hw with
              tasks := hw.tasks.trans (htasks.others b' hb).symm
              taskAudit := hw.taskAudit.trans (hentries.others b' hb).symm
              issued := fun x hx => ?_ }⟩, rfl, trivial⟩
          · rcases ((Table.insert_eq_some hins).2 t).mp ht with ht | rfl
            · exact hs.taskProjects t ht p hp
            · exact hproject p hp
          · rw [noteChange_issued] at hx ⊢
            exact hv.issued x hx
          · rw [noteChange_issued]
            exact hw.issued x hx

omit hi in
/-- A change of one task, to whose projects the tenant's are added. -/
theorem changeTask_apart {guard : TaskRecord → Bool} {f : TaskRecord → TaskRecord}
    {hf : Table.KeepsKey TaskRecord.id f} {missing eventType : String} {payload : TaskRecord → Value}
    {auditId : Uuid} {auditAt : Time} (hauditId : o.owner auditId = some tenantId)
    (htenant : ∀ t, (f t).tenantId = t.tenantId)
    (hproject : ∀ t p, (f t).projectId = some p →
      t.projectId = some p ∨ o.owner p = some tenantId) :
    Apart app o tenantId i (fun _ => True) (changeTask tenantId taskId actorId guard f hf missing
      eventType payload auditId auditAt) := by
  refine .sql fun e s v hs hv _ => ?_
  -- The tenant's part finds the same task: a task it finds is the tenant's.
  have hfind : (v.db.tasks.find? taskId).filter (fun t => t.tenantId = tenantId && guard t) =
      (s.db.tasks.find? taskId).filter fun t => t.tenantId = tenantId && guard t := by
    rw [hv.tasks]
    refine Table.filter_find?_of fun t _ ht => ?_
    rw [Bool.and_eq_true, decide_eq_true_eq] at ht
    exact congrArg some ht.1
  dsimp only
  rw [hfind]
  split
  · exact ⟨.refl hs hv, rfl⟩
  rename_i t ht
  obtain ⟨hfound, hguard⟩ := Option.filter_eq_some_iff.mp ht
  obtain ⟨hmem, rfl⟩ := Table.find?_eq_some.mp hfound
  rw [Bool.and_eq_true, decide_eq_true_eq] at hguard
  have howner : o.owner t.id = some tenantId := (hs.tasks t hmem).trans (congrArg some hguard.1)
  have hprojects : ∀ t₀ ∈ s.db.tasks, t₀.tenantId = tenantId → ∀ p, (f t₀).projectId = some p →
      o.owner p = some tenantId := by
    intro t₀ ht₀ htenant₀ p hp
    exact (hproject t₀ p hp).elim
      (fun h => (hs.taskProjects t₀ ht₀ p h).trans (congrArg some htenant₀)) id
  -- The checks on the references and the insertion of the audit row come out the same.
  have hrefs : taskReferences v (f t) = taskReferences s (f t) :=
    taskReferences_part hs hv (hprojects t hmem hguard.1)
  have haudit : v.db.taskAudit.insert ⟨auditId, some t.id, tenantId, actorId, eventType,
      payload (f t), auditAt⟩ = _ :=
    insertAudit_part hs hv rfl hauditId
  rw [hrefs, haudit]
  split
  · exact ⟨.refl hs hv, rfl⟩
  cases haud : s.db.taskAudit.insert ⟨auditId, some t.id, tenantId, actorId, eventType,
      payload (f t), auditAt⟩ with
  | none => exact ⟨.refl hs hv, rfl⟩
  | some taskAudit =>
      simp only [Option.map_some]
      obtain ⟨hlabelled, hentries⟩ := insertAudit_changes hs haud rfl hauditId
      -- Only the tenant's own task is written, so the others see no change.
      have hq : ∀ a ∈ s.db.tasks, decide (a.id = t.id) = true → some a.tenantId = some tenantId :=
        fun a ha hid => hs.tasks.owned ha (of_decide_eq_true hid ▸ howner)
      have htasks : Table.ChangedBy (some ·.tenantId) tenantId s.db.tasks
          (s.db.tasks.update (fun a => a.id = t.id) f hf) _ :=
        Table.changedBy_update hq fun a => congrArg some (htenant a)
      have htaskIds : (s.db.tasks.update (fun a => a.id = t.id) f hf).Labelled o.owner
          (some ·.tenantId) := hs.tasks.update fun a => congrArg some (htenant a)
      have htaskProjects : ∀ a ∈ s.db.tasks.update (fun a => a.id = t.id) f hf, ∀ p,
          a.projectId = some p → o.owner p = some a.tenantId := by
        intro a ha p hp
        obtain ⟨a₀, ha₀, rfl⟩ := Table.mem_update.mp ha
        split at hp
        · rename_i hid
          have htenant₀ : a₀.tenantId = tenantId := Option.some.inj (hq a₀ ha₀ hid)
          rw [if_pos hid, htenant, htenant₀]
          exact hprojects a₀ ha₀ htenant₀ p hp
        · rename_i hid
          rw [if_neg hid]
          exact hs.taskProjects a₀ ha₀ p hp
      refine ⟨⟨{ hs with
          tasks := htaskIds
          taskAudit := hlabelled
          taskProjects := htaskProjects }, { hv with
          tasks := hv.tasks ▸ htasks.own
          taskAudit := hentries.own
          issued := fun x hx => ?_ }, fun b' hb w hw => { hw with
          tasks := hw.tasks.trans (htasks.others b' hb).symm
          taskAudit := hw.taskAudit.trans (hentries.others b' hb).symm
          issued := fun x hx => ?_ }⟩, rfl, trivial⟩
      · rw [noteChange_issued] at hx ⊢
        exact hv.issued x hx
      · rw [noteChange_issued]
        exact hw.issued x hx

theorem updateTask_apart {input : UpdateTaskInput}
    (hproject : ∀ p, input.projectId.join = some p → o.owner p = some tenantId) :
    Apart app o tenantId i (fun _ => True) (Db.updateTask app tenantId taskId actorId input) := by
  refine .bind .ensure fun _ _ => .bind .utcNow fun now _ => .bind (.newUuid hi) fun id hid =>
    changeTask_apart hid (fun _ => rfl) fun t p hp => ?_
  cases hinput : input.projectId with
  | none => exact .inl (by simpa [applyUpdate, hinput] using hp)
  | some project =>
      refine .inr (hproject p ?_)
      rw [hinput]
      simpa [applyUpdate, hinput] using hp

theorem archiveTask_apart :
    Apart app o tenantId i (fun _ => True) (Db.archiveTask app tenantId taskId actorId) :=
  .bind .utcNow fun _ _ => .bind (.newUuid hi) fun _ hid => .bind .utcNow fun _ _ =>
    changeTask_apart hid (fun _ => rfl) fun _ _ hp => .inl hp

theorem restoreTask_apart :
    Apart app o tenantId i (fun _ => True) (Db.restoreTask app tenantId taskId actorId) :=
  .bind .utcNow fun _ _ => .bind (.newUuid hi) fun _ hid => .bind .utcNow fun _ _ =>
    changeTask_apart hid (fun _ => rfl) fun _ _ hp => .inl hp

theorem newUuids_apart {ids : List Uuid} : Apart app o tenantId i
    (fun news => ∀ id ∈ news, o.owner id = some tenantId) (newUuids ids) := by
  induction ids with
  | nil => exact .done fun _ h => absurd h List.not_mem_nil
  | cons _ ids ih =>
      refine .bind (.newUuid hi) fun id hid => .bind ih fun rest hrest => .done fun x hx => ?_
      rcases List.mem_cons.mp hx with rfl | hx
      · exact hid
      · exact hrest x hx

omit hi in
/-- An audit row for each of the tasks, under the identifiers. -/
theorem audits_owned {tasks : List TaskRecord} {auditIds : List Uuid}
    {f : TaskRecord × Uuid → TaskAuditRecord} (hids : ∀ id ∈ auditIds, o.owner id = some tenantId)
    (hf : ∀ x, (f x).tenantId = tenantId ∧ (f x).id = x.2) :
    ∀ a ∈ (tasks.zip auditIds).map f, some a.tenantId = some tenantId ∧
      o.owner a.id = some tenantId := by
  intro a ha
  obtain ⟨x, hzip, rfl⟩ := List.mem_map.mp ha
  exact ⟨congrArg some (hf x).1, (hf x).2 ▸ hids x.2 (List.of_mem_zip hzip).2⟩

omit hi in
theorem insertAudits_part (hs : Consistent app o s) (hv : Part app o tenantId s v)
    {tasks : List TaskRecord} {auditIds : List Uuid} {f : TaskRecord × Uuid → TaskAuditRecord}
    (hids : ∀ id ∈ auditIds, o.owner id = some tenantId)
    (hf : ∀ x, (f x).tenantId = tenantId ∧ (f x).id = x.2) :
    v.db.taskAudit.insertAll ((tasks.zip auditIds).map f) =
      (s.db.taskAudit.insertAll ((tasks.zip auditIds).map f)).map
        fun t => t.of (some ·.tenantId) tenantId := by
  rw [hv.taskAudit]
  exact Table.insertAll_of hs.taskAudit (fun a ha => (audits_owned hids hf a ha).1)
    fun a ha => (audits_owned hids hf a ha).2

theorem bulkUpdateTaskStatus_apart {taskIds : List Uuid} {status : TaskStatus} :
    Apart app o tenantId i (fun _ => True)
      (Db.bulkUpdateTaskStatus tenantId actorId taskIds status) := by
  refine .bind .utcNow fun now _ => .bind (newUuids_apart hi) fun auditIds hids =>
    .sql fun e s v hs hv _ => ?_
  let p := fun (t : TaskRecord) => decide (t.tenantId = tenantId) && taskIds.contains t.id
  have hp : ∀ t ∈ s.db.tasks, p t = true → some t.tenantId = some tenantId := by
    intro t _ ht
    rw [Bool.and_eq_true, decide_eq_true_eq] at ht
    exact congrArg some ht.1
  -- The condition of the UPDATE names the tenant, so both states select the same tasks.
  have hselect : v.db.tasks.select p = s.db.tasks.select p := by
    rw [hv.tasks]
    exact Table.select_of hp
  dsimp only
  rw [hselect]
  split
  · exact ⟨.refl hs hv, rfl⟩
  rw [insertAudits_part hs hv hids ?_]
  rotate_left
  · exact fun _ => ⟨rfl, rfl⟩
  split
  · rename_i taskAudit haud
    rw [haud, Option.map_some]
    have htasks : Table.ChangedBy (some ·.tenantId) tenantId s.db.tasks
        (s.db.tasks.update p (withStatus status actorId now)) _ :=
      Table.changedBy_update hp fun _ => rfl
    have hlabelled : (s.db.tasks.update p (withStatus status actorId now)).Labelled o.owner
        (some ·.tenantId) := hs.tasks.update fun _ => rfl
    have hrows : Table.ChangedBy (some ·.tenantId) tenantId s.db.taskAudit taskAudit _ :=
      Table.changedBy_insertAll haud fun a ha => (audits_owned hids (fun _ => ⟨rfl, rfl⟩) a ha).1
    have haudits : taskAudit.Labelled o.owner (some ·.tenantId) :=
      hs.taskAudit.insertAll haud (fun a ha => (audits_owned hids (fun _ => ⟨rfl, rfl⟩) a ha).1)
        fun a ha => (audits_owned hids (fun _ => ⟨rfl, rfl⟩) a ha).2
    have htaskProjects : ∀ a ∈ s.db.tasks.update p (withStatus status actorId now), ∀ q,
        a.projectId = some q → o.owner q = some a.tenantId := by
      intro a ha q hq
      obtain ⟨a₀, ha₀, rfl⟩ := Table.mem_update.mp ha
      split at hq
      · rename_i h
        rw [if_pos h]
        exact hs.taskProjects a₀ ha₀ q hq
      · rename_i h
        rw [if_neg h]
        exact hs.taskProjects a₀ ha₀ q hq
    exact ⟨⟨{ hs with
        tasks := hlabelled
        taskAudit := haudits
        taskProjects := htaskProjects }, { hv with
        tasks := hv.tasks ▸ htasks.own
        taskAudit := hrows.own }, fun b' hb w hw => { hw with
        tasks := hw.tasks.trans (htasks.others b' hb).symm
        taskAudit := hw.taskAudit.trans (hrows.others b' hb).symm }⟩, rfl, trivial⟩
  · rename_i haud
    rw [haud, Option.map_none]
    exact ⟨.refl hs hv, rfl⟩

/-! ### Projects -/

omit hi in
theorem projectNameTaken_part (hv : Part app o tenantId s v) {project : ProjectRecord}
    (ht : project.tenantId = tenantId) : projectNameTaken v project = projectNameTaken s project := by
  rw [projectNameTaken, hv.projects]
  refine Table.any_of fun p _ hp => ?_
  simp only [Bool.and_eq_true, decide_eq_true_eq] at hp
  exact congrArg some (hp.1.2.trans ht)

theorem createProject_apart {input : CreateProjectInput} :
    Apart app o tenantId i (fun _ => True) (Db.createProject tenantId actorId input) := by
  refine .bind .utcNow fun now _ => .bind (.newUuid hi) fun id hid => .sql fun e s v hs hv _ => ?_
  let project : ProjectRecord :=
    ⟨id, tenantId, trim input.name, input.description, actorId, actorId, now, now, none⟩
  have hinsert : v.db.projects.insert project =
      (s.db.projects.insert project).map fun t => t.of (some ·.tenantId) tenantId := by
    rw [hv.projects]
    exact Table.insert_of hs.projects rfl hid
  have htaken : projectNameTaken v project = projectNameTaken s project :=
    projectNameTaken_part hv rfl
  dsimp only
  rw [htaken, hinsert]
  split
  · exact ⟨.refl hs hv, rfl⟩
  cases hins : s.db.projects.insert project with
  | none => exact ⟨.refl hs hv, rfl⟩
  | some projects =>
      have hprojects : Table.ChangedBy (some ·.tenantId) tenantId s.db.projects projects _ :=
        Table.changedBy_insert hins rfl
      exact ⟨⟨{ hs with projects := hs.projects.insert hins rfl hid },
        { hv with projects := hprojects.own }, fun b' hb w hw => { hw with
          projects := hw.projects.trans (hprojects.others b' hb).symm }⟩, rfl, trivial⟩

omit hi in
theorem changeProject_apart {guard : ProjectRecord → Bool} {f : ProjectRecord → ProjectRecord}
    {hf : Table.KeepsKey ProjectRecord.id f} {missing : String}
    (htenant : ∀ p, (f p).tenantId = p.tenantId) : Apart app o tenantId i (fun _ => True)
      (changeProject tenantId projectId guard f hf missing) := by
  refine .sql fun e s v hs hv _ => ?_
  have hfind : (v.db.projects.find? projectId).filter (fun p => p.tenantId = tenantId && guard p) =
      (s.db.projects.find? projectId).filter fun p => p.tenantId = tenantId && guard p := by
    rw [hv.projects]
    refine Table.filter_find?_of fun p _ hp => ?_
    rw [Bool.and_eq_true, decide_eq_true_eq] at hp
    exact congrArg some hp.1
  dsimp only
  rw [hfind]
  split
  · exact ⟨.refl hs hv, rfl⟩
  rename_i p hp
  obtain ⟨hfound, hguard⟩ := Option.filter_eq_some_iff.mp hp
  obtain ⟨hmem, rfl⟩ := Table.find?_eq_some.mp hfound
  rw [Bool.and_eq_true, decide_eq_true_eq] at hguard
  have htaken : projectNameTaken v (f p) = projectNameTaken s (f p) :=
    projectNameTaken_part hv ((htenant p).trans hguard.1)
  rw [htaken]
  split
  · exact ⟨.refl hs hv, rfl⟩
  have howner : o.owner p.id = some tenantId := (hs.projects p hmem).trans (congrArg some hguard.1)
  have hprojects : Table.ChangedBy (some ·.tenantId) tenantId s.db.projects
      (s.db.projects.update (fun a => a.id = p.id) f hf) _ :=
    Table.changedBy_update (fun a ha hid => hs.projects.owned ha (of_decide_eq_true hid ▸ howner))
      fun a => congrArg some (htenant a)
  have hlabelled : (s.db.projects.update (fun a => a.id = p.id) f hf).Labelled o.owner
      (some ·.tenantId) := hs.projects.update fun a => congrArg some (htenant a)
  exact ⟨⟨{ hs with projects := hlabelled }, { hv with projects := hv.projects ▸ hprojects.own },
    fun b' hb w hw => { hw with
      projects := hw.projects.trans (hprojects.others b' hb).symm }⟩, rfl, trivial⟩

/-! ### Labels -/

omit hi in
theorem labelNameTaken_part (hv : Part app o tenantId s v) {label : LabelRecord}
    (ht : label.tenantId = tenantId) : labelNameTaken app v label = labelNameTaken app s label := by
  rw [labelNameTaken, hv.labels]
  refine Table.any_of fun l _ hl => ?_
  simp only [Bool.and_eq_true, decide_eq_true_eq] at hl
  exact congrArg some (hl.1.2.trans ht)

omit hi in
theorem owner_of_tenantLabel (hs : Consistent app o s) {labelId : Uuid} {label : LabelRecord}
    (h : tenantLabel s tenantId labelId = some label) :
    label ∈ s.db.labels ∧ label.id = labelId ∧ label.tenantId = tenantId ∧
      o.owner labelId = some tenantId := by
  obtain ⟨hfind, htenant⟩ := Option.filter_eq_some_iff.mp h
  obtain ⟨hl, rfl⟩ := Table.find?_eq_some.mp hfind
  have htenant : label.tenantId = tenantId := of_decide_eq_true htenant
  exact ⟨hl, rfl, htenant, (hs.labels label hl).trans (congrArg some htenant)⟩

theorem createLabel_apart {input : CreateLabelInput} :
    Apart app o tenantId i (fun _ => True) (Db.createLabel app tenantId actorId input) := by
  refine .bind .utcNow fun now _ => .bind (.newUuid hi) fun id hid => .sql fun e s v hs hv _ => ?_
  let label : LabelRecord := ⟨id, tenantId, input.name, input.color, actorId, actorId, now, now⟩
  have hinsert : v.db.labels.insert label =
      (s.db.labels.insert label).map fun t => t.of (some ·.tenantId) tenantId := by
    rw [hv.labels]
    exact Table.insert_of hs.labels rfl hid
  have htaken : labelNameTaken app v label = labelNameTaken app s label := labelNameTaken_part hv rfl
  dsimp only
  rw [htaken, hinsert]
  split
  · exact ⟨.refl hs hv, rfl⟩
  cases hins : s.db.labels.insert label with
  | none => exact ⟨.refl hs hv, rfl⟩
  | some labels =>
      have hlabels : Table.ChangedBy (some ·.tenantId) tenantId s.db.labels labels _ :=
        Table.changedBy_insert hins rfl
      exact ⟨⟨{ hs with labels := hs.labels.insert hins rfl hid },
        { hv with labels := hlabels.own }, fun b' hb w hw => { hw with
          labels := hw.labels.trans (hlabels.others b' hb).symm }⟩, rfl, trivial⟩

omit hi in
theorem updateLabel_apart {labelId : Uuid} {input : UpdateLabelInput} :
    Apart app o tenantId i (fun _ => True) (Db.updateLabel app tenantId labelId actorId input) := by
  refine .bind .utcNow fun now _ => .sql fun e s v hs hv _ => ?_
  dsimp only
  rw [tenantLabel_part hv]
  split
  · exact ⟨.refl hs hv, rfl⟩
  rename_i label hlabel
  obtain ⟨hmem, -, htenant, howner⟩ := owner_of_tenantLabel hs hlabel
  let f := applyLabelUpdate input actorId now
  have htaken : labelNameTaken app v (f label) = labelNameTaken app s (f label) :=
    labelNameTaken_part hv htenant
  rw [htaken]
  split
  · exact ⟨.refl hs hv, rfl⟩
  have hlabels : Table.ChangedBy (some ·.tenantId) tenantId s.db.labels
      (s.db.labels.update (fun l => l.id = labelId) f ⟨fun _ => rfl⟩) _ :=
    Table.changedBy_update (fun l hl hid => hs.labels.owned hl (of_decide_eq_true hid ▸ howner))
      fun _ => rfl
  have hlabelled : (s.db.labels.update (fun l => l.id = labelId) f ⟨fun _ => rfl⟩).Labelled o.owner
      (some ·.tenantId) := hs.labels.update fun _ => rfl
  exact ⟨⟨{ hs with labels := hlabelled }, { hv with labels := hv.labels ▸ hlabels.own },
    fun b' hb w hw => { hw with
      labels := hw.labels.trans (hlabels.others b' hb).symm }⟩, rfl, trivial⟩

omit hi in
/-- The transactions that the statement waits for in the part are among those that it waits for in
the whole. -/
theorem deleteLabel_apart {labelId : Uuid} :
    Apart app o tenantId i (fun _ => True) (Db.deleteLabel tenantId labelId) := by
  refine sqlWhen_follows (fun s v hs hv => ⟨fun hy => ?_, fun halone hy => ?_⟩) fun e s v hs hv _ => ?_
  · rw [Bool.not_eq_true', List.any_eq_false] at hy ⊢
    intro T hT
    rw [hv.labelTxs] at hT
    exact hy T (List.mem_filter.mp hT).1
  · rw [Bool.not_eq_true', List.any_eq_false] at hy ⊢
    intro T hT
    refine hy T ?_
    rw [hv.labelTxs, List.mem_filter]
    refine ⟨hT, decide_eq_true ?_⟩
    -- A transaction of another tenant is in that tenant's part, where none is open.
    by_contra hother
    obtain ⟨w, hw, hcalm, -⟩ := halone _ hother
    have hmem : T ∈ w.db.labelTxs := by
      rw [hw.labelTxs, List.mem_filter]
      exact ⟨hT, decide_eq_true rfl⟩
    rw [hcalm] at hmem
    cases hmem
  dsimp only
  rw [tenantLabel_part hv]
  split
  · exact ⟨.refl hs hv, rfl⟩
  rename_i label hlabel
  obtain ⟨-, -, -, howner⟩ := owner_of_tenantLabel hs hlabel
  have hlabels : Table.ChangedBy (some ·.tenantId) tenantId s.db.labels
      (s.db.labels.delete fun l => l.id = labelId) _ :=
    Table.changedBy_delete fun l hl hid => hs.labels.owned hl (of_decide_eq_true hid ▸ howner)
  have htaskLabels : Table.ChangedBy (o.owner ·.taskId) tenantId s.db.taskLabels
      (s.db.taskLabels.delete fun r => r.labelId = labelId) _ :=
    Table.changedBy_delete fun r hr hid =>
      (hs.taskLabels r hr).trans (of_decide_eq_true hid ▸ howner)
  exact ⟨⟨{ hs with
      labels := hs.labels.delete
      taskLabels := fun r hr => hs.taskLabels r (Table.mem_delete.mp hr).1 }, { hv with
      labels := hv.labels ▸ hlabels.own
      taskLabels := hv.taskLabels ▸ htaskLabels.own }, fun b' hb w hw => { hw with
      labels := hw.labels.trans (hlabels.others b' hb).symm
      taskLabels := hw.taskLabels.trans (htaskLabels.others b' hb).symm }⟩, rfl, trivial⟩

/-! ### Comments -/

theorem createComment_apart {authorId : Uuid} {body : String} : Apart app o tenantId i
    (fun _ => True) (Db.createComment app tenantId taskId authorId body) := by
  refine .bind .utcNow fun now _ => .bind (.newUuid hi) fun id hid =>
    .bind (.newUuid hi) fun auditId hauditId => .sql fun e s v hs hv _ => ?_
  let comment : CommentRecord := ⟨id, taskId, tenantId, authorId, body, now, now⟩
  have hinsert : v.db.comments.insert comment =
      (s.db.comments.insert comment).map fun t => t.of (some ·.tenantId) tenantId := by
    rw [hv.comments]
    exact Table.insert_of hs.comments rfl hid
  have haudit : v.db.taskAudit.insert ⟨auditId, some taskId, tenantId, authorId,
      "task_comment_added", commentPayload app id, now⟩ = _ :=
    insertAudit_part hs hv rfl hauditId
  dsimp only
  rw [hinsert, haudit]
  cases hins : s.db.comments.insert comment with
  | none => exact ⟨.refl hs hv, rfl⟩
  | some comments =>
      cases haud : s.db.taskAudit.insert ⟨auditId, some taskId, tenantId, authorId,
          "task_comment_added", commentPayload app id, now⟩ with
      | none => exact ⟨.refl hs hv, rfl⟩
      | some taskAudit =>
          obtain ⟨hlabelled, hentries⟩ := insertAudit_changes hs haud rfl hauditId
          have hcomments : Table.ChangedBy (some ·.tenantId) tenantId s.db.comments comments _ :=
            Table.changedBy_insert hins rfl
          exact ⟨⟨{ hs with
              comments := hs.comments.insert hins rfl hid
              taskAudit := hlabelled }, { hv with
              comments := hcomments.own
              taskAudit := hentries.own }, fun b' hb w hw => { hw with
              comments := hw.comments.trans (hcomments.others b' hb).symm
              taskAudit := hw.taskAudit.trans (hentries.others b' hb).symm }⟩, rfl, trivial⟩

omit hi in
theorem updateComment_apart {commentId : Uuid} {body : String} : Apart app o tenantId i
    (fun _ => True) (Db.updateComment tenantId taskId commentId body) := by
  refine .sql fun e s v hs hv _ => ?_
  let f := fun (c : CommentRecord) => { c with body, updatedAt := e.now }
  dsimp only
  rw [findComment_part hv]
  split
  · exact ⟨.refl hs hv, rfl⟩
  have hcomments : Table.ChangedBy (some ·.tenantId) tenantId s.db.comments
      (s.db.comments.update (isComment tenantId taskId commentId) f) _ :=
    Table.changedBy_update (fun _ _ hc => owned_of_isComment hc) fun _ => rfl
  have hlabelled : (s.db.comments.update (isComment tenantId taskId commentId) f).Labelled o.owner
      (some ·.tenantId) := hs.comments.update fun _ => rfl
  exact ⟨⟨{ hs with comments := hlabelled }, { hv with comments := hv.comments ▸ hcomments.own },
    fun b' hb w hw => { hw with
      comments := hw.comments.trans (hcomments.others b' hb).symm }⟩, rfl, trivial⟩

theorem deleteComment_apart {commentId : Uuid} : Apart app o tenantId i (fun _ => True)
    (Db.deleteComment app tenantId taskId commentId actorId) := by
  refine .bind (.newUuid hi) fun auditId hauditId => .bind .utcNow fun auditAt _ =>
    .sql fun e s v hs hv _ => ?_
  have haudit : v.db.taskAudit.insert ⟨auditId, some taskId, tenantId, actorId,
      "task_comment_deleted", commentPayload app commentId, auditAt⟩ = _ :=
    insertAudit_part hs hv rfl hauditId
  dsimp only
  rw [findComment_part hv, haudit]
  cases (s.db.comments.find? commentId).filter (isComment tenantId taskId commentId) with
  | none => exact ⟨.refl hs hv, rfl⟩
  | some c =>
      cases haud : s.db.taskAudit.insert ⟨auditId, some taskId, tenantId, actorId,
          "task_comment_deleted", commentPayload app commentId, auditAt⟩ with
      | none => exact ⟨.refl hs hv, rfl⟩
      | some taskAudit =>
          obtain ⟨hlabelled, hentries⟩ := insertAudit_changes hs haud rfl hauditId
          have hcomments : Table.ChangedBy (some ·.tenantId) tenantId s.db.comments
              (s.db.comments.delete (isComment tenantId taskId commentId)) _ :=
            Table.changedBy_delete fun _ _ hc => owned_of_isComment hc
          exact ⟨⟨{ hs with
              comments := hs.comments.delete
              taskAudit := hlabelled }, { hv with
              comments := hv.comments ▸ hcomments.own
              taskAudit := hentries.own }, fun b' hb w hw => { hw with
              comments := hw.comments.trans (hcomments.others b' hb).symm
              taskAudit := hw.taskAudit.trans (hentries.others b' hb).symm }⟩, rfl, trivial⟩

/-! ### Attachments -/

theorem createAttachment_apart {attachmentId : Uuid} {fileName contentType storageKey : String}
    {sizeBytes : Nat} {content : Bytes} (hid : o.owner attachmentId = some tenantId)
    (hkey : KeyOf app tenantId storageKey) : Apart app o tenantId i (fun _ => True)
      (Db.createAttachment app attachmentId tenantId taskId actorId fileName contentType sizeBytes
        storageKey content) := by
  refine .bind .utcNow fun now _ => .bind (.newUuid hi) fun auditId hauditId =>
    .sql fun e s v hs hv _ => ?_
  let attachment : AttachmentRecord :=
    ⟨attachmentId, taskId, tenantId, actorId, fileName, contentType, sizeBytes, storageKey, now, content⟩
  let entry : TaskAuditRecord :=
    { id := auditId, taskId := some taskId, tenantId, actorUserId := actorId,
      eventType := "task_attachment_added"
      payload := .obj [("attachment_id", .str (app.lib.uuidString attachmentId)),
        ("file_name", .str fileName), ("size_bytes", .num sizeBytes)]
      createdAt := now }
  have hinsert : v.db.attachments.insert attachment =
      (s.db.attachments.insert attachment).map fun t => t.of (some ·.tenantId) tenantId := by
    rw [hv.attachments]
    exact Table.insert_of hs.attachments rfl hid
  have haudit : v.db.taskAudit.insert entry = _ := insertAudit_part hs hv rfl hauditId
  dsimp only
  rw [hinsert, haudit]
  cases hins : s.db.attachments.insert attachment with
  | none => exact ⟨.refl hs hv, rfl⟩
  | some attachments =>
      cases haud : s.db.taskAudit.insert entry with
      | none => exact ⟨.refl hs hv, rfl⟩
      | some taskAudit =>
          obtain ⟨hlabelled, hentries⟩ := insertAudit_changes hs haud rfl hauditId
          have hattachments : Table.ChangedBy (some ·.tenantId) tenantId s.db.attachments
              attachments _ := Table.changedBy_insert hins rfl
          have hkeys : ∀ a ∈ attachments, KeyOf app a.tenantId a.storageKey := by
            intro a ha
            rcases ((Table.insert_eq_some hins).2 a).mp ha with ha | rfl
            · exact hs.storageKeys a ha
            · exact hkey
          exact ⟨⟨{ hs with
              attachments := hs.attachments.insert hins rfl hid
              storageKeys := hkeys
              taskAudit := hlabelled }, { hv with
              attachments := hattachments.own
              taskAudit := hentries.own }, fun b' hb w hw => { hw with
              attachments := hw.attachments.trans (hattachments.others b' hb).symm
              taskAudit := hw.taskAudit.trans (hentries.others b' hb).symm }⟩, rfl, trivial⟩

/-- The file of the row that has been deleted is one of the tenant. -/
theorem deleteAttachment_apart {attachmentId : Uuid} : Apart app o tenantId i
    (fun a => KeyOf app tenantId a.storageKey)
    (Db.deleteAttachment app tenantId taskId attachmentId actorId) := by
  refine .bind (.newUuid hi) fun auditId hauditId => .bind .utcNow fun auditAt _ =>
    .sql fun e s v hs hv _ => ?_
  dsimp only
  rw [findAttachment_part hv]
  split
  · exact ⟨.refl hs hv, rfl⟩
  rename_i a ha
  let entry : TaskAuditRecord :=
    { id := auditId, taskId := some taskId, tenantId, actorUserId := actorId,
      eventType := "task_attachment_deleted"
      payload := .obj [("attachment_id", .str (app.lib.uuidString a.id)),
        ("file_name", .str a.fileName)]
      createdAt := auditAt }
  have haudit : v.db.taskAudit.insert entry = _ := insertAudit_part hs hv rfl hauditId
  rw [haudit]
  cases haud : s.db.taskAudit.insert entry with
  | none => exact ⟨.refl hs hv, rfl⟩
  | some taskAudit =>
      obtain ⟨hlabelled, hentries⟩ := insertAudit_changes hs haud rfl hauditId
      have hattachments : Table.ChangedBy (some ·.tenantId) tenantId s.db.attachments
          (s.db.attachments.delete (isAttachment tenantId taskId attachmentId)) _ :=
        Table.changedBy_delete fun _ _ hc => owned_of_isAttachment hc
      exact ⟨⟨{ hs with
          attachments := hs.attachments.delete
          storageKeys := fun a ha => hs.storageKeys a (Table.mem_delete.mp ha).1
          taskAudit := hlabelled }, { hv with
          attachments := hv.attachments ▸ hattachments.own
          taskAudit := hentries.own }, fun b' hb w hw => { hw with
          attachments := hw.attachments.trans (hattachments.others b' hb).symm
          taskAudit := hw.taskAudit.trans (hentries.others b' hb).symm }⟩,
        rfl, keyOf_of_findAttachment hs ha⟩

/-! ### Webhooks and deliveries -/

omit hi in
theorem updateWebhook_apart {webhookId : Uuid} {url : Option String} {events : Option (List String)}
    {isActive : Option Bool} : Apart app o tenantId i (fun _ => True)
      (Db.updateWebhook tenantId webhookId url events isActive) := by
  refine .bind .utcNow fun now _ => .sql fun e s v hs hv _ => ?_
  let f := applyWebhookUpdate url events isActive now
  dsimp only
  rw [findWebhook_part hv]
  split
  · exact ⟨.refl hs hv, rfl⟩
  have hwebhooks : Table.ChangedBy (some ·.tenantId) tenantId s.db.webhooks
      (s.db.webhooks.update (isWebhook tenantId webhookId) f ⟨fun _ => rfl⟩) _ :=
    Table.changedBy_update (fun _ _ hw => owned_of_isWebhook hw) fun _ => rfl
  have hlabelled : (s.db.webhooks.update (isWebhook tenantId webhookId) f
      ⟨fun _ => rfl⟩).Labelled o.owner (some ·.tenantId) := hs.webhooks.update fun _ => rfl
  exact ⟨⟨{ hs with webhooks := hlabelled }, { hv with webhooks := hv.webhooks ▸ hwebhooks.own },
    fun b' hb w hw => { hw with
      webhooks := hw.webhooks.trans (hwebhooks.others b' hb).symm }⟩, rfl, trivial⟩

omit hi in
theorem deleteWebhook_apart {webhookId : Uuid} :
    Apart app o tenantId i (fun _ => True) (Db.deleteWebhook tenantId webhookId) := by
  refine .sql fun e s v hs hv _ => ?_
  have hany : v.db.webhooks.any (isWebhook tenantId webhookId) =
      s.db.webhooks.any (isWebhook tenantId webhookId) := by
    rw [hv.webhooks]
    exact Table.any_of fun _ _ hw => owned_of_isWebhook hw
  dsimp only
  rw [hany]
  split
  · rename_i hfound
    obtain ⟨w, hw, hq⟩ := Table.any_eq_true.mp hfound
    have howner : o.owner webhookId = some tenantId := by
      have hid : w.id = webhookId := by
        simp only [isWebhook, Bool.and_eq_true, decide_eq_true_eq] at hq
        exact hq.2
      exact hid ▸ (hs.webhooks w hw).trans (owned_of_isWebhook hq)
    have hwebhooks : Table.ChangedBy (some ·.tenantId) tenantId s.db.webhooks
        (s.db.webhooks.delete (isWebhook tenantId webhookId)) _ :=
      Table.changedBy_delete fun _ _ hw => owned_of_isWebhook hw
    have hdeliveries : Table.ChangedBy (some ·.tenantId) tenantId s.db.webhookDeliveries
        (s.db.webhookDeliveries.delete fun d => d.webhookId = webhookId) _ :=
      Table.changedBy_delete fun d hd hid =>
        (hs.deliveries d hd).symm.trans (of_decide_eq_true hid ▸ howner)
    exact ⟨⟨{ hs with
        webhooks := hs.webhooks.delete
        deliveries := fun d hd => hs.deliveries d (Table.mem_delete.mp hd).1 }, { hv with
        webhooks := hv.webhooks ▸ hwebhooks.own
        webhookDeliveries := hv.webhookDeliveries ▸ hdeliveries.own }, fun b' hb w hw => { hw with
        webhooks := hw.webhooks.trans (hwebhooks.others b' hb).symm
        webhookDeliveries := hw.webhookDeliveries.trans (hdeliveries.others b' hb).symm }⟩,
      rfl, trivial⟩
  · exact ⟨.refl hs hv, rfl⟩

omit hi in
theorem newDeliveries_part (hv : Part app o tenantId s v) {eventType : String} {payload : Value}
    {now : Time} {rowUuid : Nat → Uuid} :
    newDeliveries v tenantId eventType payload now rowUuid =
      newDeliveries s tenantId eventType payload now rowUuid := by
  unfold newDeliveries
  rw [hv.webhooks, Table.select_of fun w _ hw => ?_]
  simp only [Bool.and_eq_true, decide_eq_true_eq] at hw
  exact congrArg some hw.1.1

omit hi in
/-- The new deliveries have identifiers of their own. -/
theorem newDeliveries_nodup {eventType : String} {payload : Value} {now : Time}
    {rowUuid : Nat → Uuid} (h : Function.Injective rowUuid) :
    ((newDeliveries s tenantId eventType payload now rowUuid).map OutboxRow.key).Nodup := by
  have hkeys : ∀ l : List WebhookRecord,
      (l.zipIdx.map (rowUuid ∘ Prod.snd)).Nodup := by
    intro l
    rw [← List.map_map, List.zipIdx_map_snd]
    exact List.Nodup.map h List.nodup_range'
  unfold newDeliveries
  rw [List.map_map]
  exact hkeys _

omit hi in
/-- The identifiers that the database generates are new in the whole, and so in the part. -/
theorem enqueueWebhookDeliveries_apart {eventType : String} {payload : Value} :
    Apart app o tenantId i (fun _ => True)
      (enqueueWebhookDeliveries tenantId eventType payload) := by
  refine .bind .utcNow fun now _ => .sql fun e s v hs hv hc => ?_
  let deliveries := newDeliveries s tenantId eventType payload now e.rowUuid
  have hmem : ∀ d ∈ deliveries, ∃ w ∈ s.db.webhooks, w.tenantId = tenantId ∧
      d.webhookId = w.id ∧ d.tenantId = tenantId ∧ ∃ n, d.id = e.rowUuid n := by
    intro d hd
    obtain ⟨⟨w, n⟩, hw, rfl⟩ := List.mem_map.mp hd
    obtain ⟨hw, hp⟩ :=
      Table.mem_select.mp (List.mem_of_getElem? (List.mem_zipIdx_iff_getElem?.mp hw))
    simp only [Bool.and_eq_true, decide_eq_true_eq] at hp
    exact ⟨w, hw, hp.1.1, rfl, hp.1.1, n, rfl⟩
  have howned : ∀ d ∈ deliveries, some d.tenantId = some tenantId := by
    intro d hd
    obtain ⟨w, -, -, -, ht, -⟩ := hmem d hd
    exact congrArg some ht
  have hnew : ∀ d ∈ deliveries, ∀ d' ∈ s.db.webhookDeliveries, OutboxRow.key d' ≠ OutboxRow.key d := by
    intro d hd d' hd' hk
    obtain ⟨w, -, -, -, -, n, hn⟩ := hmem d hd
    exact hc.fresh n d' hd' (hk.trans hn)
  have hinsert : v.db.webhookDeliveries.insertAll deliveries =
      (s.db.webhookDeliveries.insertAll deliveries).map fun t => t.of (some ·.tenantId) tenantId := by
    rw [hv.webhookDeliveries]
    exact Table.insertAll_only (fun d hd => decide_eq_true (howned d hd))
      fun d hd d' hd' hk => absurd hk (hnew d hd d' hd')
  have hnodup : (deliveries.map OutboxRow.key).Nodup := newDeliveries_nodup hc.distinct
  obtain ⟨table, htable⟩ := Table.insertAll_of_fresh hnodup hnew
  have hdeliveries : Table.ChangedBy (some ·.tenantId) tenantId s.db.webhookDeliveries table _ :=
    Table.changedBy_insertAll htable howned
  have hwebhookOf : ∀ d ∈ table, o.owner d.webhookId = some d.tenantId := by
    intro d hd
    rcases (Table.mem_insertAll htable d).mp hd with hd | hd
    · exact hs.deliveries d hd
    · obtain ⟨w, hw, hwt, hid, ht, -⟩ := hmem d hd
      rw [hid, ht]
      exact (hs.webhooks w hw).trans (congrArg some hwt)
  have hpart : newDeliveries v tenantId eventType payload now e.rowUuid = deliveries :=
    newDeliveries_part hv
  dsimp only
  rw [hpart, hinsert, htable]
  exact ⟨⟨{ hs with deliveries := hwebhookOf },
    { hv with webhookDeliveries := hdeliveries.own }, fun b' hb w hw => { hw with
      webhookDeliveries := hw.webhookDeliveries.trans (hdeliveries.others b' hb).symm }⟩,
    rfl, trivial⟩

omit hi in
theorem owned_of_isDelivery {webhookId deliveryId : Uuid} {d : WebhookDeliveryRecord}
    (h : isDelivery tenantId webhookId deliveryId d = true) : some d.tenantId = some tenantId := by
  simp only [isDelivery, Bool.and_eq_true, decide_eq_true_eq] at h
  exact congrArg some h.1.1

omit hi in
theorem dbRedeliver_apart {webhookId deliveryId : Uuid} : Apart app o tenantId i (fun _ => True)
    (Db.redeliverWebhookDelivery tenantId webhookId deliveryId) := by
  let p := isRedeliverable tenantId webhookId deliveryId
  have hp : ∀ d, p d = true → some d.tenantId = some tenantId := by
    intro d hd
    simp only [p, isRedeliverable, Bool.and_eq_true] at hd
    exact owned_of_isDelivery hd.1
  refine .bind (Q := fun _ => True) (.sql fun e s v hs hv _ => ?_) fun requeued _ => ?_
  · have hselect : v.db.webhookDeliveries.select p = s.db.webhookDeliveries.select p := by
      rw [hv.webhookDeliveries]
      exact Table.select_of fun d _ hd => hp d hd
    let f := OutboxColumns.redelivered (κ := Uuid) e.now
    let table := s.db.webhookDeliveries.update p (OutboxRow.modify f) ⟨fun _ => rfl⟩
    have hdeliveries : Table.ChangedBy (some ·.tenantId) tenantId s.db.webhookDeliveries table _ :=
      Table.changedBy_update (fun d _ hd => hp d hd) fun _ => rfl
    have hwebhookOf : ∀ d ∈ table, o.owner d.webhookId = some d.tenantId := by
      intro d hd
      obtain ⟨d₀, hd₀, rfl⟩ := Table.mem_update.mp hd
      split
      · exact hs.deliveries d₀ hd₀
      · exact hs.deliveries d₀ hd₀
    have hown : v.db.webhookDeliveries.update p (OutboxRow.modify f) ⟨fun _ => rfl⟩ =
        table.of (some ·.tenantId) tenantId := hv.webhookDeliveries ▸ hdeliveries.own
    refine ⟨⟨{ hs with deliveries := hwebhookOf }, { hv with webhookDeliveries := hown },
      fun b' hb w hw => { hw with
        webhookDeliveries := hw.webhookDeliveries.trans (hdeliveries.others b' hb).symm }⟩, ?_, trivial⟩
    exact congrArg (fun rows => (rows.map (OutboxRow.modify f)).head?) hselect
  · cases requeued with
    | some delivery => exact .done trivial
    | none =>
        refine .bind (Q := fun _ => True) (.select fun e s v hs hv => ⟨?_, trivial⟩) fun _ _ =>
          .ite (fun _ => .fail) fun _ => .fail
        rw [hv.webhookDeliveries]
        exact Table.any_of fun d _ hd => owned_of_isDelivery hd

/-! ### Audit events, notifications and jobs -/

theorem recordAuditEvent_apart {actor subjectId : Option Uuid} {subjectType eventType : String}
    {payload : Value} : Apart app o tenantId i (fun _ => True)
      (recordAuditEvent (some tenantId) actor subjectType subjectId eventType payload) := by
  refine .bind (.newUuid hi) fun id hid => .sql fun e s v hs hv _ => ?_
  let entry : AuditEventRecord :=
    ⟨id, some tenantId, actor, subjectType, subjectId, eventType, payload, e.now⟩
  have hinsert : v.db.auditLog.insert entry =
      (s.db.auditLog.insert entry).map fun t => t.of (·.tenantId) tenantId := by
    rw [hv.auditLog]
    exact Table.insert_of hs.auditLog rfl hid
  dsimp only
  rw [hinsert]
  cases hins : s.db.auditLog.insert entry with
  | none => exact ⟨.refl hs hv, rfl⟩
  | some auditLog =>
      have hentries : Table.ChangedBy (·.tenantId) tenantId s.db.auditLog auditLog _ :=
        Table.changedBy_insert hins rfl
      exact ⟨⟨{ hs with auditLog := hs.auditLog.insert hins rfl hid },
        { hv with auditLog := hentries.own }, fun b' hb w hw => { hw with
          auditLog := hw.auditLog.trans (hentries.others b' hb).symm }⟩, rfl, trivial⟩

/-- An error of the audit write is swallowed. -/
theorem recordEvent_apart {actor subjectId : Option Uuid} {subjectType eventType : String}
    {payload : Value} : Apart app o tenantId i (fun _ => True)
      (recordEvent (some tenantId) actor subjectType subjectId eventType payload) :=
  .bind (recordAuditEvent_apart hi).attempt fun _ _ => .done trivial

theorem enqueueNotification_apart {n : NewNotification} {maxAttempts : Nat}
    (htenant : n.tenantId = some tenantId) (hdedupe : n.dedupeKey = none) :
    Apart app o tenantId i (fun _ => True) (enqueueNotification n maxAttempts) := by
  refine .bind (.newUuid hi) fun id hid => .sql fun e s v hs hv _ => ?_
  let row := newNotification id n maxAttempts e.now
  have hinsert : v.db.notifications.insert row =
      (s.db.notifications.insert row).map fun t => t.of (·.tenantId) tenantId := by
    rw [hv.notifications]
    exact Table.insert_of hs.notifications htenant hid
  have hnone : ∀ s, hasDedupeKey s n.dedupeKey = false := by
    intro s
    rw [hdedupe]
    rfl
  dsimp only
  rw [hnone, hnone, hinsert]
  cases hins : s.db.notifications.insert row with
  | none => exact ⟨.refl hs hv, rfl⟩
  | some notifications =>
      have hrows : Table.ChangedBy (·.tenantId) tenantId s.db.notifications notifications _ :=
        Table.changedBy_insert hins htenant
      exact ⟨⟨{ hs with notifications := hs.notifications.insert hins htenant hid },
        { hv with notifications := hrows.own }, fun b' hb w hw => { hw with
          notifications := hw.notifications.trans (hrows.others b' hb).symm }⟩, rfl, trivial⟩

omit hi in
/-- The feed's marks of notifications as read. -/
theorem changeNotifications_apart {B : Type} (p : NotificationRecord → Bool)
    (f : Env → NotificationRecord → NotificationRecord) {count : Env → AppState → B}
    (hp : ∀ n, p n = true → n.tenantId = some tenantId) (hf : ∀ e n, (f e n).tenantId = n.tenantId)
    (hkeep : ∀ e, Table.KeepsKey OutboxRow.key (f e))
    (hcount : ∀ e s v, Part app o tenantId s v → count e v = count e s) :
    Apart app o tenantId i (fun _ => True) (sql .quiet fun e s => (.ok (count e s),
      { s with db.notifications := s.db.notifications.update p (f e) (hkeep e) })) := by
  refine .sql fun e s v hs hv _ => ?_
  have hrows : Table.ChangedBy (·.tenantId) tenantId s.db.notifications
      (s.db.notifications.update p (f e) (hkeep e)) _ :=
    Table.changedBy_update (fun n _ hn => hp n hn) (hf e)
  have hlabelled : (s.db.notifications.update p (f e) (hkeep e)).Labelled o.owner (·.tenantId) :=
    hs.notifications.update (hf e)
  exact ⟨⟨{ hs with notifications := hlabelled },
    { hv with notifications := hv.notifications ▸ hrows.own }, fun b' hb w hw => { hw with
      notifications := hw.notifications.trans (hrows.others b' hb).symm }⟩, hcount e s v hv, trivial⟩

omit hi in
theorem markNotificationRead_apart {userId notificationId : Uuid} {kinds : List NotificationKind} :
    Apart app o tenantId i (fun _ => True)
      (markNotificationRead tenantId userId notificationId kinds) := by
  refine changeNotifications_apart
    (fun n => n.id = notificationId && inFeed tenantId userId kinds n)
    (fun e n => { n with readAt := some (n.readAt.getD e.now) }) (fun n hn => ?_) (fun _ _ => rfl) (fun _ => ⟨fun _ => rfl⟩)
    fun e s v hv => ?_
  · rw [Bool.and_eq_true] at hn
    exact owned_of_inFeed hn.2
  · rw [hv.notifications, Table.any_of fun n _ hn => ?_]
    rw [Bool.and_eq_true] at hn
    exact owned_of_inFeed hn.2

omit hi in
theorem markAllNotificationsRead_apart {userId : Uuid} {kinds : List NotificationKind} :
    Apart app o tenantId i (fun _ => True) (markAllNotificationsRead tenantId userId kinds) := by
  refine changeNotifications_apart (fun n => inFeed tenantId userId kinds n && n.readAt.isNone)
    (fun e n => { n with readAt := some e.now }) (fun n hn => ?_) (fun _ _ => rfl) (fun _ => ⟨fun _ => rfl⟩)
    fun e s v hv => ?_
  · rw [Bool.and_eq_true] at hn
    exact owned_of_inFeed hn.1
  · rw [hv.notifications, Table.count_of fun n _ hn => ?_]
    rw [Bool.and_eq_true] at hn
    exact owned_of_inFeed hn.1

theorem createExport_apart {payload : JobPayload} {maxAttempts : Nat} : Apart app o tenantId i
    (fun _ => True) (createJob (some tenantId) .taskExport payload maxAttempts) := by
  refine .bind (.newUuid hi) fun id hid => .bind .utcNow fun now _ => .sql fun e s v hs hv _ => ?_
  let job : BackgroundJobRecord :=
    { id, tenantId := some tenantId, jobType := .taskExport, status := .queued, attempts := 0,
      maxAttempts, scheduledAt := now, startedAt := none, finishedAt := none, payload,
      resultPayload := none, lastError := none }
  have hinsert : v.db.jobs.insert job =
      (s.db.jobs.insert job).map fun t => t.of (·.tenantId) tenantId := by
    rw [hv.jobs]
    exact Table.insert_of hs.jobs rfl hid
  dsimp only
  rw [hinsert]
  cases hins : s.db.jobs.insert job with
  | none => exact ⟨.refl hs hv, rfl⟩
  | some jobs =>
      have hjobs : Table.ChangedBy (·.tenantId) tenantId s.db.jobs jobs _ :=
        Table.changedBy_insert hins rfl
      have hartifacts : ∀ j ∈ jobs, ∀ b, j.tenantId = some b → ∀ result,
          j.resultPayload = some result → ∀ file, Http.artifactOf result = .ok file →
            KeyOf app b file.1 := by
        intro j hj b hb result hresult
        rcases ((Table.insert_eq_some hins).2 j).mp hj with hj | rfl
        · exact hs.artifacts j hj b hb result hresult
        · cases hresult
      exact ⟨⟨{ hs with
          jobs := hs.jobs.insert hins rfl hid
          artifacts := hartifacts }, { hv with jobs := hjobs.own }, fun b' hb w hw => { hw with
          jobs := hw.jobs.trans (hjobs.others b' hb).symm }⟩, rfl, trivial⟩

end Tenants

end Fluxa
