import Fluxa.Db.Updates
import Fluxa.Http.Patches
import Fluxa.Tasks.BulkStatus

/-!
# Tasks — the update of a task from a patch

What a request to update a task does with the fields that its body gives, when no statement of it fails.  `Patched` says column by column what a row becomes, from the body alone; `Outcome` says what the request answers and leaves.

**`patch_semantics`**: the decoding tells an omitted field, a null and a value apart; the statement is well formed and makes the row that `Patched` describes; and the request answers with that row and leaves it in the place of the old one, or it is refused for a reason that `Refusal` names and changes no task and no audit row.
-/

namespace Fluxa
open Interleave Relational Db Http Statements

namespace Patches

open Plays BulkStatus

/-! ### What a patch is to do -/

section

variable {α : Type}

/-- A null counts as omitted. -/
def nonNull : Option Value → Option Value
  | some .null => none
  | v => v

/-- A null counts as omitted, and so does a blank text. -/
def choice : Option Value → Option Value
  | some (.str text) => if isBlank text then none else some (.str text)
  | v => nonNull v

/-- What a column that cannot be null becomes. -/
inductive Replaced (parse : String → Option α) : Option Value → α → α → Prop
  | omitted (old : α) : Replaced parse none old old
  | value {text : String} {new : α} (old : α) (h : parse text = some new) :
    Replaced parse (some (.str text)) old new

/-- What a nullable column becomes. -/
inductive Nullable (parse : String → Option α) : Option Value → Option α → Option α → Prop
  | omitted (old : Option α) : Nullable parse none old old
  | null (old : Option α) : Nullable parse (some .null) old none
  | value {text : String} {new : α} (old : Option α) (h : parse text = some new) :
    Nullable parse (some (.str text)) old (some new)

end

/-- The status that a text names, in whatever letters and with blanks around it. -/
def statusOf (text : String) : Option TaskStatus :=
  (validateTaskStatus (toAsciiLowercase (trim text))).toOption

def priorityOf (text : String) : Option TaskPriority :=
  (validateTaskPriority (toAsciiLowercase (trim text))).toOption

/-- The row `t'` is `t` with the fields that the body gives, and nothing else but the stamps. -/
structure Patched (app : App) (body : Value) (actorId : Uuid) (now : Time) (t t' : TaskRecord) :
    Prop where
  projectId : Nullable app.lib.parseUuid (given body 0 "project_id") t.projectId t'.projectId
  title : Replaced (fun text => some (trim text)) (nonNull (given body 1 "title")) t.title t'.title
  description : Nullable some (given body 2 "description") t.description t'.description
  status : Replaced statusOf (choice (given body 3 "status")) t.status t'.status
  priority : Replaced priorityOf (choice (given body 4 "priority")) t.priority t'.priority
  assigneeId : Nullable app.lib.parseUuid (given body 5 "assignee_id") t.assigneeId t'.assigneeId
  dueAt : Nullable app.lib.parseTime (given body 6 "due_at") t.dueAt t'.dueAt
  updatedBy : t'.updatedBy = actorId
  updatedAt : t'.updatedAt = now
  others : (t'.id, t'.tenantId, t'.createdBy, t'.createdAt) =
    (t.id, t.tenantId, t.createdBy, t.createdAt)

/-- The columns that the body gives, in the order of the statement. -/
def provided (body : Value) : List String :=
  [("title", nonNull (given body 1 "title")), ("description", given body 2 "description"),
    ("status", choice (given body 3 "status")), ("priority", choice (given body 4 "priority")),
    ("project_id", given body 0 "project_id"), ("assignee_id", given body 5 "assignee_id"),
    ("due_at", given body 6 "due_at")].flatMap fun c => c.2.toList.map fun _ => c.1

/-- The handler accepts the body: it can be decoded, and it is valid. -/
def Accepted (app : App) (body : Value) : Prop :=
  ∃ payload input, TaskPatchPayload.decode app body = some payload ∧ payload.toInput = .ok input

/-- Why a request is refused. -/
inductive Refusal (app : App) (user : AuthenticatedUser) (taskId : Uuid) (body : Value)
    (es : List Env) (s : AppState) : Prop
  | unaccepted (h : ¬ Accepted app body)
  | nothing (h : provided body = [])
  | noTask (h : findTask s user.tenantId taskId = none)
  | noProject {text : String} {id : Uuid} (hgiven : given body 0 "project_id" = some (.str text))
    (hid : app.lib.parseUuid text = some id) (h : activeProject s user.tenantId id = none)
  | dangling {t t' : TaskRecord} {now : Time} (ht : findTask s user.tenantId taskId = some t)
    (hrow : Patched app body user.userId now t t') (h : taskReferences s t' = false)
  | taken {e : Env} (he : e ∈ es) (h : (s.db.taskAudit.find? e.uuid).isSome = true)

/-- The task is `t'` in the place of `t`, and the audit log has one more row. -/
structure Written (s s' : AppState) (t t' : TaskRecord) (entry : TaskAuditRecord) : Prop where
  rows : s'.db.tasks.rows = s.db.tasks.rows.map fun u => if u.id = t.id then t' else u
  audit : s'.db.taskAudit.rows = s.db.taskAudit.rows ++ [entry]
  task : entry.taskId = some t.id
  event : entry.eventType = "task_updated"

/-- What the request answers, and what it leaves. -/
def Outcome (app : App) (user : AuthenticatedUser) (taskId : Uuid) (body : Value) (es : List Env)
    (s s' : AppState) : Except AppError (Option Value) → Prop
  | .ok (some answer) => Accepted app body ∧ provided body ≠ [] ∧
    ∃ t t' now entry, findTask s user.tenantId taskId = some t ∧
      Patched app body user.userId now t t' ∧ Written s s' t t' entry ∧
      answer = taskResponseValue app t'
  | .ok none => TaskPatchPayload.decode app body = none ∧ SameTasks s s'
  | .error _ => Refusal app user taskId body es s ∧ SameTasks s s'

/-! ### From the body to the input -/

section

variable {α : Type} {v : Option Value}

theorem nullable_of_decoded {parse : String → Option α} {decoded : Option (Option α)}
    (h : doubleOption parse v = some decoded) (old : Option α) :
    Nullable parse v old (decoded.getD old) ∧ decoded.isSome = v.isSome := by
  have hthree := distinguishes h
  cases decoded with
  | none =>
      rw [hthree.omitted.mp rfl]
      exact ⟨.omitted old, rfl⟩
  | some inner =>
      cases inner with
      | none =>
          rw [hthree.null.mp rfl]
          exact ⟨.null old, rfl⟩
      | some a =>
          obtain ⟨text, hv, hparse⟩ := (hthree.value a).mp rfl
          rw [hv]
          exact ⟨.value old hparse, rfl⟩

/-- The ways of giving a field that cannot be null. -/
theorem plain_cases {decoded : Option String}
    (h : Jobs.decodeOption some (v.getD .null) = some decoded) :
    (nonNull v = none ∧ choice v = none ∧ decoded = none) ∨
      ∃ text, v = some (.str text) ∧ decoded = some text := by
  cases decoded with
  | none =>
      left
      have hnull := decodeOption_none.mp h
      cases v with
      | none => exact ⟨rfl, rfl, rfl⟩
      | some v =>
          cases hnull
          exact ⟨rfl, rfl, rfl⟩
  | some text =>
      right
      obtain ⟨text', hv, ht⟩ := decodeOption_some.mp h
      cases ht
      cases v with
      | none => exact nomatch hv
      | some v =>
          cases hv
          exact ⟨text, rfl, rfl⟩

theorem replaced_title {title : Option String} (hvalid : title.any isBlank = false)
    (h : Jobs.decodeOption some (v.getD .null) = some title) (old : String) :
    Replaced (fun text => some (trim text)) (nonNull v) old ((title.map trim).getD old) ∧
      title.isSome = (nonNull v).isSome := by
  rcases plain_cases h with ⟨hv, -, rfl⟩ | ⟨text, rfl, rfl⟩
  · rw [hv]
    exact ⟨.omitted old, rfl⟩
  · exact ⟨.value old rfl, rfl⟩

/-- A choice that is valid is not blank. -/
theorem replaced_choice {validate : String → Except AppError α} (hblank : ∀ a, validate "" ≠ .ok a)
    {decoded : Option String} {chosen : Option α}
    (h : Jobs.decodeOption some (v.getD .null) = some decoded)
    (hvalid : (normalizeOptionalChoice decoded).mapM validate = .ok chosen) (old : α) :
    Replaced (fun text => (validate (toAsciiLowercase (trim text))).toOption) (choice v) old
      (chosen.getD old) ∧ chosen.isSome = (choice v).isSome := by
  rcases plain_cases h with ⟨-, hv, rfl⟩ | ⟨text, rfl, rfl⟩
  · cases hvalid
    rw [hv]
    exact ⟨.omitted old, rfl⟩
  · cases hresult : validate (toAsciiLowercase (trim text)) with
    | error x =>
        have hfails : (normalizeOptionalChoice (some text)).mapM validate = .error x := by
          change (some (toAsciiLowercase (trim text))).mapM validate = .error x
          rw [Option.mapM_some, hresult]
          rfl
        rw [hfails] at hvalid
        exact nomatch hvalid
    | ok a =>
        have hpasses : (normalizeOptionalChoice (some text)).mapM validate = .ok (some a) := by
          change (some (toAsciiLowercase (trim text))).mapM validate = .ok (some a)
          rw [Option.mapM_some, hresult]
          rfl
        rw [hpasses] at hvalid
        cases hvalid
        have hchoice : choice (some (.str text)) = some (.str text) := by
          by_cases hb : isBlank text = true
          · have htrim : trim text = "" := by
              rw [trim, of_decide_eq_true hb]
            rw [htrim] at hresult
            exact absurd hresult (hblank a)
          · rw [choice, if_neg hb]
        rw [hchoice]
        exact ⟨.value old (by rw [hresult]; rfl), rfl⟩

end

variable {app : App} {body : Value} {payload : TaskPatchPayload} {input : UpdateTaskInput}
  {actorId : Uuid} {now : Time} {t : TaskRecord}

/-- The assignments make of a row what the body asks for. -/
theorem patched (hpayload : Decoded app body payload) (hinput : Validated payload input) :
    Patched app body actorId now t (applyUpdate input actorId now t) := by
  have hothers := hinput.others
  have htitle := hinput.title
  rw [hothers] at htitle ⊢
  exact {
    projectId := (nullable_of_decoded hpayload.projectId _).1
    title := (replaced_title htitle hpayload.title _).1
    description := (nullable_of_decoded hpayload.description _).1
    status := (replaced_choice (by simp [validateTaskStatus]) hpayload.status hinput.status _).1
    priority := (replaced_choice (by simp [validateTaskPriority]) hpayload.priority hinput.priority _).1
    assigneeId := (nullable_of_decoded hpayload.assigneeId _).1
    dueAt := (nullable_of_decoded hpayload.dueAt _).1
    updatedBy := rfl
    updatedAt := rfl
    others := rfl }

theorem present_fst {column : String} {value : Option Bind} {given : Option Value}
    (h : value.isSome = given.isSome) :
    (present column value).map (·.1) = (given.toList.map fun _ => column).map String.toList := by
  cases value <;> cases given <;> first | rfl | exact nomatch h

/-- The statement sets the columns that the body gives. -/
theorem assignments_columns (hpayload : Decoded app body payload)
    (hinput : Validated payload input) :
    (assignments input).map (·.1) = (provided body).map String.toList := by
  have hothers := hinput.others
  have htitle := hinput.title
  rw [hothers] at htitle ⊢
  have h₀ := (nullable_of_decoded hpayload.projectId none).2
  have h₁ := (replaced_title htitle hpayload.title "").2
  have h₂ := (nullable_of_decoded hpayload.description none).2
  have h₃ := (replaced_choice (by simp [validateTaskStatus]) hpayload.status hinput.status .open).2
  have h₄ := (replaced_choice (by simp [validateTaskPriority]) hpayload.priority hinput.priority
    .low).2
  have h₅ := (nullable_of_decoded hpayload.assigneeId none).2
  have h₆ := (nullable_of_decoded hpayload.dueAt none).2
  simp only [provided, List.flatMap_cons, List.flatMap_nil, List.append_nil, List.map_append]
  simp only [assignments, List.map_append]
  rw [present_fst (Option.isSome_map.trans h₁), present_fst (Option.isSome_map.trans h₂),
    present_fst (Option.isSome_map.trans h₃), present_fst (Option.isSome_map.trans h₄),
    present_fst (Option.isSome_map.trans h₀), present_fst (Option.isSome_map.trans h₅),
    present_fst (Option.isSome_map.trans h₆)]

theorem changes_iff (hpayload : Decoded app body payload) (hinput : Validated payload input) :
    input.changes = false ↔ provided body = [] := by
  rw [← assignments_eq_nil, ← List.map_eq_nil_iff, assignments_columns hpayload hinput,
    List.map_eq_nil_iff]

/-- A blank status counts as omitted in no body that is accepted: `validate_task_status` refuses
it. -/
theorem not_accepted_of_blank {text : String} (hgiven : given body 3 "status" = some (.str text))
    (hblank : isBlank text = true) : ¬ Accepted app body := by
  rintro ⟨payload, input, hdecode, htoInput⟩
  have hstatus := (decoded hdecode).status
  rw [hgiven] at hstatus
  have hpayload : payload.status = some text := (Option.some.inj hstatus).symm
  have htrim : trim text = "" := by
    rw [trim, of_decide_eq_true hblank]
  have hvalid := (validated htoInput).status
  rw [hpayload] at hvalid
  change (some (toAsciiLowercase (trim text))).mapM validateTaskStatus = _ at hvalid
  rw [htrim] at hvalid
  cases hvalid

/-! ### The transaction -/

variable {tenantId taskId : Uuid} {es : List Env} {s s' : AppState}

/-- The statement writes the task and an audit row, or it fails for a reason and changes
nothing. -/
theorem play_changeTask (hc : Clean es) {r : Except AppError TaskRecord}
    {f : TaskRecord → TaskRecord} {hf : Table.KeepsKey TaskRecord.id f} {missing : String}
    {payload : TaskRecord → Value} {auditId : Uuid} {auditAt : Time}
    (h : play (changeTask tenantId taskId actorId (fun _ => true) f hf missing "task_updated" payload
      auditId auditAt) es s = some (r, s')) :
    (∃ x, r = .error x ∧ SameTasks s s' ∧ (findTask s tenantId taskId = none ∨
      (∃ t, findTask s tenantId taskId = some t ∧ taskReferences s (f t) = false) ∨
      (s.db.taskAudit.find? auditId).isSome = true)) ∨
    ∃ t entry, findTask s tenantId taskId = some t ∧ r = .ok (f t) ∧
      Written s s' t (f t) entry ∧ entry.payload = payload (f t) := by
  obtain ⟨e, rfl, -, hrun⟩ := play_sqlWhen hc h
  have hfind : ((s.db.tasks.find? taskId).filter fun t => t.tenantId = tenantId && true) =
      findTask s tenantId taskId := by
    simp only [Bool.and_true]
    rfl
  simp only [hfind] at hrun
  cases htask : findTask s tenantId taskId with
  | none =>
      rw [htask] at hrun
      obtain ⟨rfl, rfl⟩ := Prod.mk.inj hrun
      exact .inl ⟨_, rfl, ⟨rfl, rfl⟩, .inl rfl⟩
  | some t =>
      rw [htask] at hrun
      dsimp only at hrun
      have hfound : s.db.tasks.find? taskId = some t := (Option.filter_eq_some_iff.mp htask).1
      have hid : t.id = taskId := (Table.find?_eq_some.mp hfound).2
      split at hrun
      · rename_i hreferences
        obtain ⟨rfl, rfl⟩ := Prod.mk.inj hrun
        rw [Bool.not_eq_true'] at hreferences
        exact .inl ⟨_, rfl, ⟨rfl, rfl⟩, .inr (.inl ⟨t, rfl, hreferences⟩)⟩
      · split at hrun
        · rename_i taskAudit haudit
          obtain ⟨rfl, rfl⟩ := Prod.mk.inj hrun
          refine .inr ⟨t, _, rfl, rfl, ⟨?_, Table.rows_insert haudit, ?_, rfl⟩, rfl⟩
          · -- The key names one row.
            refine List.map_congr_left fun u hu => ?_
            by_cases hkey : u.id = taskId
            · have hu : s.db.tasks.find? taskId = some u := Table.find?_eq_some.mpr ⟨hu, hkey⟩
              rw [hfound] at hu
              cases hu
              simp only [hid, decide_true, if_true]
            · simp only [hid, hkey, decide_false, if_false, Bool.false_eq_true]
          · exact congrArg some hid.symm
        · rename_i haudit
          obtain ⟨rfl, rfl⟩ := Prod.mk.inj hrun
          obtain ⟨a, ha, hkey⟩ := Table.insert_eq_none haudit
          have htaken : s.db.taskAudit.find? auditId = some a :=
            Table.find?_eq_some.mpr ⟨ha, hkey⟩
          exact .inl ⟨_, rfl, ⟨rfl, rfl⟩, .inr (.inr (by rw [htaken]; rfl))⟩

/-- The transaction writes the task and an audit row, or it fails for a reason and changes
nothing. -/
theorem play_updateTask (hc : Clean es) {r : Except AppError TaskRecord}
    (h : play (Db.updateTask app tenantId taskId actorId input) es s = some (r, s')) :
    (∃ x, r = .error x ∧ SameTasks s s' ∧ (input.changes = false ∨
      findTask s tenantId taskId = none ∨
      (∃ t now, findTask s tenantId taskId = some t ∧
        taskReferences s (applyUpdate input actorId now t) = false) ∨
      ∃ e ∈ es, (s.db.taskAudit.find? e.uuid).isSome = true)) ∨
    input.changes = true ∧ ∃ t now entry, findTask s tenantId taskId = some t ∧
      r = .ok (applyUpdate input actorId now t) ∧
      Written s s' t (applyUpdate input actorId now t) entry ∧
      entry.payload = updatedPayload app input := by
  cases hchanges : input.changes with
  | false =>
      rw [Db.updateTask, hchanges] at h
      obtain ⟨-, rfl, rfl⟩ := play_done h
      exact .inl ⟨_, rfl, ⟨rfl, rfl⟩, .inl rfl⟩
  | true =>
      rw [Db.updateTask, hchanges] at h
      change play (utcNow.bind _) es s = _ at h
      rcases play_bind_cases h with ⟨x, -, hx⟩ | ⟨now, es₁, es₂, s₁, rfl, h₁, h₂⟩
      · obtain ⟨-, _, -, hx⟩ := play_utcNow hx
        cases hx
      obtain ⟨rfl, -⟩ := play_utcNow h₁
      rcases play_bind_cases h₂ with ⟨x, -, hx⟩ | ⟨auditId, es₃, es₄, s₂, rfl, h₃, h₄⟩
      · obtain ⟨-, _, hx⟩ := play_newUuid hx
        cases hx
      obtain ⟨e₁, rfl, -, hid⟩ := play_atomic h₃
      obtain ⟨he₁, rfl⟩ := Prod.mk.inj hid
      cases he₁
      rcases play_changeTask hc.append.2.append.2 h₄ with
        ⟨x, rfl, hsame, hwhy⟩ | ⟨t, entry, htask, rfl, hwritten, hpayload⟩
      · refine .inl ⟨x, rfl, hsame, .inr ?_⟩
        rcases hwhy with hnone | ⟨t, htask, hreferences⟩ | htaken
        · exact .inl hnone
        · exact .inr (.inl ⟨t, now, htask, hreferences⟩)
        · refine .inr (.inr ⟨e₁, ?_, htaken⟩)
          exact List.mem_append_right _ (List.mem_append_left _ (List.mem_singleton_self e₁))
      · exact .inr ⟨rfl, t, now, entry, htask, rfl,
          ⟨hwritten.rows, hwritten.audit, hwritten.task, hwritten.event⟩, hpayload⟩

theorem unblocked_updateTask :
    Unblocked (Db.updateTask app tenantId taskId actorId input) := by
  rw [Db.updateTask]
  cases input.changes with
  | false => trivial
  | true =>
      change Unblocked (utcNow.bind _)
      exact Unblocked.bind unblocked_atomic fun _ =>
        Unblocked.bind unblocked_atomic fun _ => unblocked_atomic

/-! ### The request -/

theorem Written.sameTasks {s₁ : AppState} {t' : TaskRecord} {entry : TaskAuditRecord}
    (h : Written s s₁ t t' entry) (hs : SameTasks s₁ s') : Written s s' t t' entry := by
  refine ⟨?_, ?_, h.task, h.event⟩
  · rw [hs.1]
    exact h.rows
  · rw [hs.2]
    exact h.audit

theorem play_ensureProject (hc : Clean es) {projectId : Option Uuid} {r : Except AppError Unit}
    (h : play (Tasks.ensureProjectBelongsToTenant tenantId projectId) es s = some (r, s')) :
    s' = s ∧ (r = .ok () ∨ (∃ x, r = .error x) ∧
      ∃ id, projectId = some id ∧ activeProject s tenantId id = none) := by
  cases projectId with
  | none =>
      obtain ⟨-, rfl, rfl⟩ := play_done h
      exact ⟨rfl, .inl rfl⟩
  | some id =>
      change play ((getProject tenantId id).bind _) es s = _ at h
      rcases play_bind_cases h with ⟨x, -, hx⟩ | ⟨project, es₁, es₂, s₁, rfl, h₁, h₂⟩
      · obtain ⟨-, _, -, hx⟩ := play_clean_select hc hx
        cases hx
      obtain ⟨rfl, e, -, hproject⟩ := play_clean_select hc.append.1 h₁
      cases hproject
      cases hactive : activeProject s₁ tenantId id with
      | none =>
          rw [hactive] at h₂
          obtain ⟨-, rfl, rfl⟩ := play_done h₂
          exact ⟨rfl, .inr ⟨⟨_, rfl⟩, id, rfl, hactive⟩⟩
      | some project =>
          rw [hactive] at h₂
          obtain ⟨-, rfl, rfl⟩ := play_done h₂
          exact ⟨rfl, .inl rfl⟩

/-- Once the change is committed, nothing that follows can fail. -/
theorem play_after {task : TaskRecord} (hc : Clean es) {r : Except AppError TaskRecord}
    (h : play ((Cache.bumpTenantCacheVersion tenantId).bind fun _ =>
      (emitTaskWebhook app tenantId "task_updated" task).bind fun _ => .done (.ok task)) es s =
      some (r, s')) : r = .ok task ∧ SameTasks s s' := by
  rcases play_bind_cases h with ⟨x, -, hx⟩ | ⟨_, es₁, es₂, s₁, rfl, h₁, h₂⟩
  · obtain ⟨⟨_, hx⟩, -⟩ := play_bump hc hx
    cases hx
  rcases play_bind_cases h₂ with ⟨x, -, hx⟩ | ⟨_, es₃, es₄, s₂, rfl, h₃, h₄⟩
  · cases (play_emitTaskWebhook hx).1
  obtain ⟨-, rfl, rfl⟩ := play_done h₄
  exact ⟨rfl, (play_bump hc.append.1 h₁).2.trans (play_emitTaskWebhook h₃).2⟩

/-- What a request with a valid payload does. -/
theorem play_service {user : AuthenticatedUser} (hc : Clean es)
    (hdecode : TaskPatchPayload.decode app body = some payload)
    (htoInput : payload.toInput = .ok input) {r : Except AppError TaskRecord}
    (h : play (Tasks.updateTask app user.tenantId taskId user.userId input) es s = some (r, s')) :
    (∃ x, r = .error x ∧ Refusal app user taskId body es s ∧ SameTasks s s') ∨
    provided body ≠ [] ∧ ∃ t t' now entry, findTask s user.tenantId taskId = some t ∧
      Patched app body user.userId now t t' ∧ Written s s' t t' entry ∧ r = .ok t' := by
  have hpayload := decoded hdecode
  have hinput := validated htoInput
  rcases play_bind_cases h with ⟨x, rfl, hx⟩ | ⟨_, es₁, es₂, s₁, rfl, h₁, h₂⟩
  · obtain ⟨rfl, hr | ⟨-, id, hid, hnone⟩⟩ := play_ensureProject hc hx
    · cases hr
    · refine .inl ⟨x, rfl, ?_, rfl, rfl⟩
      have hproject : payload.projectId = some (some id) := by
        rw [hinput.others] at hid
        exact Option.join_eq_some_iff.mp hid
      obtain ⟨text, hgiven, hparse⟩ := ((distinguishes hpayload.projectId).value id).mp hproject
      exact .noProject hgiven hparse hnone
  obtain ⟨rfl, -⟩ := play_ensureProject hc.append.1 h₁
  rcases play_bind_cases h₂ with ⟨x, rfl, hx⟩ | ⟨task, es₃, es₄, s₂, rfl, h₃, h₄⟩
  · rcases play_updateTask hc.append.2 hx with ⟨_, -, hsame, hwhy⟩ | ⟨-, t, now, entry, -, hr, -⟩
    · refine .inl ⟨x, rfl, ?_, hsame⟩
      rcases hwhy with hchanges | hnone | ⟨t, now, htask, hreferences⟩ | ⟨e, he, htaken⟩
      · exact .nothing ((changes_iff hpayload hinput).mp hchanges)
      · exact .noTask hnone
      · exact .dangling htask (patched hpayload hinput) hreferences
      · exact .taken (List.mem_append_right _ he) htaken
    · cases hr
  rcases play_updateTask hc.append.2.append.1 h₃ with
    ⟨_, hr, -⟩ | ⟨hchanges, t, now, entry, htask, hr, hwritten, -⟩
  · cases hr
  cases hr
  obtain ⟨rfl, hsame⟩ := play_after hc.append.2.append.2 h₄
  refine .inr ⟨fun hnothing => ?_, t, _, now, entry, htask, patched hpayload hinput,
    hwritten.sameTasks hsame, rfl⟩
  rw [(changes_iff hpayload hinput).mpr hnothing] at hchanges
  exact nomatch hchanges

/-- However it ends, the request has done what it should. -/
theorem play_outcome {user : AuthenticatedUser} (hc : Clean es) {r : Except AppError (Option Value)}
    (h : play (patchTask app user taskId body) es s = some (r, s')) :
    Outcome app user taskId body es s s' r := by
  rw [patchTask] at h
  cases hdecode : TaskPatchPayload.decode app body with
  | none =>
      rw [hdecode] at h
      obtain ⟨-, rfl, rfl⟩ := play_done h
      exact ⟨hdecode, rfl, rfl⟩
  | some payload =>
      rw [hdecode] at h
      have hrole : ensureTaskWriteRole user.role = .ok () := by cases user.role <;> rfl
      cases htoInput : payload.toInput with
      | error x =>
          change play ((Http.updateTask app user taskId payload).bind _) es s = _ at h
          rw [Http.updateTask, hrole, htoInput] at h
          obtain ⟨-, rfl, rfl⟩ := play_done h
          refine ⟨.unaccepted ?_, rfl, rfl⟩
          rintro ⟨payload', input, hdecode', htoInput'⟩
          rw [hdecode] at hdecode'
          cases hdecode'
          rw [htoInput] at htoInput'
          exact nomatch htoInput'
      | ok input =>
          change play ((Http.updateTask app user taskId payload).bind _) es s = _ at h
          rw [Http.updateTask, hrole, htoInput] at h
          change play (((Tasks.updateTask app user.tenantId taskId user.userId input).bind _).bind _)
            es s = _ at h
          rcases play_bind_cases h with ⟨x, rfl, hx⟩ | ⟨answer, es₁, es₂, s₁, rfl, h₁, h₂⟩
          · rcases play_bind_cases hx with ⟨x', he, hx⟩ | ⟨_, es₃, es₄, s₃, rfl, h₃, h₄⟩
            · rcases play_service hc hdecode htoInput hx with
                ⟨_, -, hwhy, hsame⟩ | ⟨-, _, _, _, _, -, -, -, hr⟩
              · exact ⟨hwhy, hsame⟩
              · exact nomatch hr
            · obtain ⟨-, hr, -⟩ := play_done h₄
              exact nomatch hr
          · obtain ⟨-, rfl, rfl⟩ := play_done h₂
            obtain ⟨task, es₃, es₄, s₃, rfl, h₃, h₄⟩ := play_bind_ok h₁
            obtain ⟨-, hr, rfl⟩ := play_done h₄
            cases hr
            rcases play_service hc.append.1.append.1 hdecode htoInput h₃ with
              ⟨_, hr, -⟩ | ⟨hsome, t, t', now, entry, htask, hpatched, hwritten, hr⟩
            · exact nomatch hr
            · obtain rfl := Except.ok.inj hr
              exact ⟨⟨payload, input, hdecode, htoInput⟩, hsome, t, _, now, entry, htask, hpatched,
                hwritten, rfl⟩

/-- No statement of the request waits. -/
theorem unblocked {user : AuthenticatedUser} : Unblocked (patchTask app user taskId body) := by
  rw [patchTask]
  cases TaskPatchPayload.decode app body with
  | none => trivial
  | some payload =>
      have hproject : ∀ id, Unblocked (Tasks.ensureProjectBelongsToTenant user.tenantId id) := by
        intro id
        cases id with
        | none => trivial
        | some id =>
            refine Unblocked.bind unblocked_atomic fun project => ?_
            cases project <;> trivial
      have hemit : ∀ task, Unblocked (emitTaskWebhook app user.tenantId "task_updated" task) := by
        intro task
        refine Unblocked.bind (Unblocked.attempt ?_) fun _ => trivial
        exact Unblocked.bind unblocked_atomic fun _ => unblocked_atomic
      have hservice : ∀ input,
          Unblocked (Tasks.updateTask app user.tenantId taskId user.userId input) := fun input =>
        Unblocked.bind (hproject _) fun _ => Unblocked.bind unblocked_updateTask fun task =>
          Unblocked.bind unblocked_atomic fun _ => Unblocked.bind (hemit task) fun _ => trivial
      have hrole : ensureTaskWriteRole user.role = .ok () := by cases user.role <;> rfl
      change Unblocked ((Http.updateTask app user taskId payload).bind _)
      rw [Http.updateTask, hrole]
      cases payload.toInput with
      | error x => trivial
      | ok input =>
          change Unblocked
            (((Tasks.updateTask app user.tenantId taskId user.userId input).bind _).bind _)
          exact Unblocked.bind (Unblocked.bind (hservice input) fun _ => trivial) fun _ => trivial

end Patches

open Patches in
/-- For every body: the decoding of a nullable field tells an omitted field, a null and a value
apart; where the body is accepted and gives a field, the statement is well formed with placeholders
in the order of the values, sets the columns that the body gives, and makes of the task the row with
these fields replaced; and the request, where no statement of it fails, answers with that row and
leaves it, or is refused and changes neither a task nor the audit log. -/
theorem patch_semantics (app : App) (user : AuthenticatedUser) (taskId : Uuid) (body : Value) :
    (∀ payload, TaskPatchPayload.decode app body = some payload →
      Distinguishes app.lib.parseUuid (given body 0 "project_id") payload.projectId ∧
      Distinguishes some (given body 2 "description") payload.description ∧
      Distinguishes app.lib.parseUuid (given body 5 "assignee_id") payload.assigneeId ∧
      Distinguishes app.lib.parseTime (given body 6 "due_at") payload.dueAt) ∧
    (∀ payload input now, TaskPatchPayload.decode app body = some payload →
      payload.toInput = .ok input → provided body ≠ [] →
      ∃ b sets, updateStatement user.tenantId taskId user.userId now input = some b ∧
        WellFormedUpdate b sets (conditions user.tenantId taskId) ∧
        sets.map (·.1) = (provided body ++ ["updated_by", "updated_at"]).map String.toList ∧
        ∀ t, if t.tenantId = user.tenantId ∧ t.id = taskId
          then ∃ t', execute b t = some t' ∧ Patched app body user.userId now t t'
          else execute b t = some t) ∧
    ∀ (s : AppState) (es : Nat → Env), (∀ n, (es n).fault = .none) →
      ∃ n r s', play (patchTask app user taskId body) ((List.range n).map es) s = some (r, s') ∧
        Outcome app user taskId body ((List.range n).map es) s s' r := by
  refine ⟨fun payload hdecode => ?_, fun payload input now hdecode htoInput hprovided => ?_,
    fun s es hclean => ?_⟩
  · have h := decoded hdecode
    exact ⟨distinguishes h.projectId, distinguishes h.description, distinguishes h.assigneeId,
      distinguishes h.dueAt⟩
  · have hpayload := decoded hdecode
    have hinput := validated htoInput
    have hchanges : input.changes = true := by
      by_contra hn
      exact hprovided ((changes_iff hpayload hinput).mp (Bool.eq_false_iff.mpr hn))
    obtain ⟨b, hb, hwell, hrow⟩ :=
      @update_statement input user.tenantId taskId user.userId now hchanges
    refine ⟨b, _, hb, hwell, ?_, fun t => ?_⟩
    · rw [List.map_append, List.map_append, assignments_columns hpayload hinput]
      rfl
    · rw [hrow t]
      split
      · exact ⟨_, rfl, patched hpayload hinput⟩
      · rfl
  · obtain ⟨n, r, s', h⟩ := unblocked.exists_play es s
    refine ⟨n, r, s', h, play_outcome (fun e he => ?_) h⟩
    obtain ⟨k, -, rfl⟩ := List.mem_map.mp he
    exact hclean k

/-- The member who asks. -/
def patcher : AuthenticatedUser := ⟨12, 1, .member, 0⟩

/-- A title and a status with blanks around them, and a description to be cleared. -/
def titleAndStatus : Value :=
  .obj [("title", .str " renamed "), ("description", .null), ("status", .str " Done ")]

theorem patch_semantics_two :
    ∃ n r s', play (patchTask default patcher 100 titleAndStatus)
        ((List.range n).map fun n => { (default : Env) with uuid := 1000 + n }) twoOpenTasks =
          some (r, s') ∧
      Patches.Outcome default patcher 100 titleAndStatus
        ((List.range n).map fun n => { (default : Env) with uuid := 1000 + n }) twoOpenTasks s' r :=
  (patch_semantics default patcher 100 titleAndStatus).2.2 twoOpenTasks
    (fun n => { (default : Env) with uuid := 1000 + n }) fun _ => rfl

/-- The first task is renamed and done. -/
example : ((play (patchTask default patcher 100 titleAndStatus)
    ((List.range 6).map fun n => { (default : Env) with uuid := 1000 + n }) twoOpenTasks).map
      fun end_ => end_.2.db.tasks.rows.map fun t => (t.title, t.status)) =
    some [("renamed", .done), ("b", .open)] := by decide +kernel

end Fluxa
