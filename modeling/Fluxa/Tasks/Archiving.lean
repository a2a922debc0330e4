import Fluxa.Http.Tasks
import Fluxa.Interleave.Named
import Fluxa.Members.Authority
import Fluxa.Tasks.Writes

/-!
# Tasks — who archives

Any number of requests create, change, archive and restore tasks, side by side, while others change the roles of members and remove them.

* **`archived_by_admin`**: in every run in which no request that asks for the status `archived` as it creates, patches or updates tasks writes when it has been authorised as that of a member, whatever archives a task is a request authorised as that of an owner or an admin of the task's tenant.
* **`archived_by_member`**: a member archives a task by patching it.
-/

namespace Fluxa
open Interleave Relational Db Contract Authority

namespace Archiving

/-! ### The system -/

/-- The routes of tasks, and those that change a member's role. -/
inductive Route where
  | createTask (idempotencyKey : Option String) (payload : Http.TaskPayload)
  | updateTask (taskId : Uuid) (payload : Http.TaskPatchPayload)
  | bulkUpdateTaskStatus (taskIds : List Uuid) (status : String)
  | deleteTask (taskId : Uuid)
  | restoreTask (taskId : Uuid)
  | updateMemberRole (tenantId memberId : Uuid) (role : String)
  | removeMember (tenantId memberId : Uuid)

def Route.handler (app : App) (user : AuthenticatedUser) : Route → Service Unit
  | .createTask idempotencyKey payload => do
    let _ ← Http.createTask app user idempotencyKey payload
    return ()
  | .updateTask taskId payload => do
    let _ ← Http.updateTask app user taskId payload
    return ()
  | .bulkUpdateTaskStatus taskIds status => do
    let _ ← Http.bulkUpdateTaskStatus app user taskIds status
    return ()
  | .deleteTask taskId => Http.deleteTask app user taskId
  | .restoreTask taskId => do
    let _ ← Http.restoreTask app user taskId
    return ()
  | .updateMemberRole tenantId memberId role => do
    let _ ← Http.updateMemberRole user tenantId memberId role
    return ()
  | .removeMember tenantId memberId => Http.removeMember user tenantId memberId

/-- The request asks for the status `archived`, and not by the route `DELETE`. -/
def Route.asksArchived : Route → Bool
  | .createTask _ payload => Http.normalizeOptionalChoice payload.status = some "archived"
  | .updateTask _ payload => Http.normalizeOptionalChoice payload.status = some "archived"
  | .bulkUpdateTaskStatus _ status => trim status = "archived"
  | _ => false

/-- A request: the user and the active tenant of its token, and its route. -/
structure TaskRequest where
  userId : Uuid
  activeTenantId : Uuid
  route : Route

/-- Any number of requests, side by side. -/
def taskSystem (app : App) : System Event Env AppState AppError TaskRequest Unit where
  body k := do
    let user ← authorise k.activeTenantId k.userId
    k.route.handler app user
  adm := admissible

/-! ### Archiving -/

/-- The task is archived in `s'`, and was not in `s`. -/
def NewlyArchived (s s' : AppState) (t : TaskRecord) : Prop :=
  t ∈ s'.db.tasks ∧ t.status = .archived ∧ ∀ t₀ ∈ s.db.tasks, t₀.id = t.id → t₀.status ≠ .archived

/-- Request `i` has been authorised as that of an owner or an admin of the tenant. -/
def AdminsRequest (i : Nat) (tenantId : Uuid) (s : AppState) : Prop :=
  ∃ userId role, (i, tenantId, userId, role) ∈ s.history.authorised ∧ ensureAdminRole role = .ok ()

/-- What request `i` archives, it archives as that of an owner or an admin. -/
def Rightful (i : Nat) (s s' : AppState) : Prop :=
  ∀ t, NewlyArchived s s' t → AdminsRequest i t.tenantId s

/-- The statement is no write of a request that asks for the status `archived` and has been
authorised as that of a member. -/
def NoMembersWrite (k : Option TaskRequest) (i : Nat) (l : Event) (s : AppState) : Prop :=
  l = .taskWrite → (k.any fun k => k.route.asksArchived) = true →
    ∀ x ∈ s.history.authorised, x.1 = i → x.2.2.2 ≠ .member

instance (k : Option TaskRequest) (i : Nat) (l : Event) (s : AppState) :
    Decidable (NoMembersWrite k i l s) :=
  inferInstanceAs (Decidable (_ → _ → _))

/-! ### What a statement does -/

/-- What a statement of request `i` does. -/
structure Action (i : Nat) (_ : Event) (_ : Env) (s s' : AppState) : Prop where
  rightful : Rightful i s s'
  notes : NotesRole i s s'
  authorised : ∀ x ∈ s.history.authorised, x ∈ s'.history.authorised

section Actions

variable {i : Nat} {l : Event} {e : Env} {s s' : AppState}

theorem rightful_of_tasks (h : s'.db.tasks = s.db.tasks) : Rightful i s s' := by
  rintro t ⟨ht, harch, hnot⟩
  exact absurd harch (hnot t (h ▸ ht) rfl)

theorem Action.of_rightful (h : Rightful i s s')
    (ha : s'.history.authorised = s.history.authorised) : Action i l e s s' :=
  ⟨h, fun _ hx => .inl (ha ▸ hx), fun _ hx => ha ▸ hx⟩

/-- A statement that leaves the tasks alone, and authorises nothing. -/
theorem Action.of_eq (ht : s'.db.tasks = s.db.tasks)
    (ha : s'.history.authorised = s.history.authorised) : Action i l e s s' :=
  .of_rightful (rightful_of_tasks ht) ha

@[simp] theorem noteChange_authorised (pid : Nat) (task : TaskRecord) (h : History) :
    (noteChange pid task h).authorised = h.authorised := by
  unfold noteChange noteAssignee
  split <;> rfl

theorem rightful_insert {task : TaskRecord} (h : s.db.tasks.insert task = some s'.db.tasks)
    (hr : task.status = .archived → AdminsRequest i task.tenantId s) : Rightful i s s' := by
  rintro t ⟨ht, harch, hnot⟩
  rcases (Table.insert_eq_some h).2 t |>.mp ht with hold | rfl
  · exact absurd harch (hnot t hold rfl)
  · exact hr harch

theorem rightful_update {p : TaskRecord → Bool} {f : TaskRecord → TaskRecord}
    (hf : Table.KeepsKey TaskRecord.id f) (h : s'.db.tasks = s.db.tasks.update p f hf)
    (hr : ∀ t ∈ s.db.tasks, p t = true → (f t).status = .archived → t.status ≠ .archived →
      AdminsRequest i (f t).tenantId s) : Rightful i s s' := by
  rintro t ⟨ht, harch, hnot⟩
  rw [h, Table.mem_update] at ht
  obtain ⟨t₀, ht₀, rfl⟩ := ht
  by_cases hp : p t₀ = true
  · simp only [hp, if_true] at harch hnot ⊢
    exact hr t₀ ht₀ hp harch (hnot t₀ ht₀ (hf.key_eq t₀).symm)
  · simp only [hp] at harch hnot
    exact absurd harch (hnot t₀ ht₀ rfl)

end Actions

/-! ### The requests keep to it -/

/-- The contract of a run with the given calls: every statement is an `Action`, in runs in which no
member's request writes the status. -/
def archivingContract (name : Nat → Option TaskRequest) : Contract Event Env AppState where
  inv _ := True
  guar := Action
  adm i l e s := admissible i l e s = true ∧ NoMembersWrite (name i) i l s
  guar_inv _ _ := trivial

variable {name : Nat → Option TaskRequest} {i : Nat} {s s' : AppState} {app : App}
  {user : AuthenticatedUser} {tenantId taskId userId : Uuid}

theorem archivingContract_tolerant : TolerantOfKeys (archivingContract name) where
  stay _ _ _ _ _ _ := .of_eq rfl rfl
  bystander _ _ _ _ _ h := .of_eq h.tasks (by rw [h.history])
  issue _ _ _ _ _ := .of_eq rfl rfl
  keys _ _ _ _ _ h := .of_eq (by rw [h.db]) (by rw [h.history])

theorem authorisedAs_lasting : (archivingContract name).Lasting (AuthorisedAs i user) :=
  fun _ _ _ _ _ _ h hg => hg.authorised _ h

/-! ### Statuses asked for -/

theorem eq_of_validateTaskStatus {value : String} (h : validateTaskStatus value = .ok .archived) :
    value = "archived" := by
  unfold validateTaskStatus at h
  split at h
  · cases h
  · split at h
    · cases h
    · split at h
      · cases h
      · split at h
        · assumption
        · cases h

theorem eq_of_mapM_status {value : Option String}
    (h : value.mapM validateTaskStatus = .ok (some .archived)) : value = some "archived" := by
  cases value with
  | none => cases h
  | some value =>
      cases hv : validateTaskStatus value with
      | error x => simp [hv] at h
      | ok status =>
          have hs : status = .archived := by simpa [hv] using h
          subst hs
          exact congrArg some (eq_of_validateTaskStatus hv)

theorem asks_of_toInput {payload : Http.TaskPayload} {input : CreateTaskInput}
    (h : payload.toInput = .ok input) (ha : input.status = some .archived) :
    Http.normalizeOptionalChoice payload.status = some "archived" := by
  refine eq_of_mapM_status ?_
  cases hs : (Http.normalizeOptionalChoice payload.status).mapM validateTaskStatus with
  | error x => simp [Http.TaskPayload.toInput, hs, bind, Except.bind] at h
  | ok status =>
      cases hp : (Http.normalizeOptionalChoice payload.priority).mapM validateTaskPriority with
      | error x => simp [Http.TaskPayload.toInput, hs, hp, bind, Except.bind] at h
      | ok priority =>
          simp only [Http.TaskPayload.toInput, hs, hp, bind, Except.bind,
            CreateTaskInput.validate] at h
          split at h
          · cases h
          · cases h
            rw [← ha]

theorem asks_of_patch {payload : Http.TaskPatchPayload} {input : UpdateTaskInput}
    (h : payload.toInput = .ok input) (ha : input.status = some .archived) :
    Http.normalizeOptionalChoice payload.status = some "archived" := by
  refine eq_of_mapM_status ?_
  cases hs : (Http.normalizeOptionalChoice payload.status).mapM validateTaskStatus with
  | error x => simp [Http.TaskPatchPayload.toInput, hs, bind, Except.bind] at h
  | ok status =>
      cases hp : (Http.normalizeOptionalChoice payload.priority).mapM validateTaskPriority with
      | error x => simp [Http.TaskPatchPayload.toInput, hs, hp, bind, Except.bind] at h
      | ok priority =>
          simp only [Http.TaskPatchPayload.toInput, hs, hp, bind, Except.bind,
            UpdateTaskInput.validate] at h
          split at h
          · cases h
          · cases h
            rw [← ha]

/-! ### The writes -/

theorem adminsRequest_of (h : AuthorisedAs i user s) (hr : ensureAdminRole user.role = .ok ()) :
    AdminsRequest i user.tenantId s :=
  ⟨user.userId, user.role, h, hr⟩

theorem ensureAdminRole_of_ne {role : MembershipRole} (h : role ≠ .member) :
    ensureAdminRole role = .ok () := by
  cases role with
  | owner => rfl
  | admin => rfl
  | member => exact absurd rfl h

/-- A request that asks for the status writes as that of an owner or an admin. -/
theorem admins_of_write {k : TaskRequest} {e : Env} (hk : name i = some k)
    (hask : k.route.asksArchived = true) (ha : (archivingContract name).adm i .taskWrite e s)
    (h : AuthorisedAs i user s) : AdminsRequest i user.tenantId s := by
  refine adminsRequest_of h (ensureAdminRole_of_ne ?_)
  exact ha.2 rfl (by rw [hk]; exact hask) _ h rfl

theorem stay_write {e : Env} :
    (archivingContract name).inv s → (archivingContract name).guar i .taskWrite e s s :=
  fun _ => .of_eq rfl rfl

theorem createTask_write {input : CreateTaskInput} {k : TaskRequest} (hk : name i = some k)
    (hask : input.status = some .archived → k.route.asksArchived = true) :
    (archivingContract name).Triple i (AuthorisedAs i user)
      (Db.createTask app user.tenantId user.userId input) fun _ _ => True := by
  refine TaskWrites.createTask_from archivingContract_tolerant.toPatient authorisedAs_lasting
    (fun _ _ => stay_write) fun s e id now entry tasks taskAudit _ hs ha _ _ hins _ _ _ => ?_
  refine .of_rightful (rightful_insert hins fun harch => ?_) ?_
  · refine admins_of_write hk (hask ?_) ha hs
    cases hst : input.status with
    | none => simp [newTask, hst] at harch
    | some status =>
        have : status = .archived := by simpa [newTask, hst] using harch
        rw [this]
  · exact noteChange_authorised _ _ _

/-- A change of one task, where it archives only as the request of an owner or an admin. -/
theorem changeTask_write {guard : TaskRecord → Bool} {f : TaskRecord → TaskRecord}
    {hf : Table.KeepsKey TaskRecord.id f} {missing eventType : String}
    {payload : TaskRecord → Value} {auditId : Uuid} {auditAt : Time}
    (htenant : ∀ t, (f t).tenantId = t.tenantId)
    (h : ∀ t s e, (f t).status = .archived → t.status ≠ .archived → AuthorisedAs i user s →
      (archivingContract name).adm i .taskWrite e s → AdminsRequest i user.tenantId s) :
    (archivingContract name).Triple i (AuthorisedAs i user)
      (changeTask user.tenantId taskId user.userId guard f hf missing eventType payload auditId
        auditAt) fun _ _ => True := by
  refine TaskWrites.changeTask_from archivingContract_tolerant.toPatient authorisedAs_lasting
    (fun _ _ => stay_write) fun s e t entry taskAudit _ hs ha _ hfind ht _ _ _ _ _ => ?_
  refine .of_rightful (rightful_update hf rfl fun t' hmem hp harch hnot => ?_) ?_
  · obtain ⟨hmem₀, hid⟩ := Table.find?_eq_some.mp hfind
    obtain rfl : t' = t := Table.eq_of_key hmem hmem₀ ((of_decide_eq_true hp).trans hid.symm)
    rw [htenant, ht]
    exact h t' s e harch hnot hs ha
  · exact noteChange_authorised _ _ _

theorem updateTask_write {input : UpdateTaskInput} {k : TaskRequest} (hk : name i = some k)
    (hask : input.status = some .archived → k.route.asksArchived = true) :
    (archivingContract name).Triple i (AuthorisedAs i user)
      (Db.updateTask app user.tenantId taskId user.userId input) fun _ _ => True := by
  refine Safe.carry_bind .ensure authorisedAs_lasting fun _ => ?_
  refine (utcNow_safe archivingContract_tolerant.toPatient).carry_bind authorisedAs_lasting
    fun now => ?_
  refine (newUuid_safe archivingContract_tolerant.toPatient).carry_bind authorisedAs_lasting
    fun auditId => ?_
  refine changeTask_write (fun _ => rfl) fun t s e harch hnot hs ha => ?_
  refine admins_of_write hk (hask ?_) ha hs
  cases hst : input.status with
  | none => exact absurd (by simpa [applyUpdate, hst] using harch) hnot
  | some status =>
      have : status = .archived := by simpa [applyUpdate, hst] using harch
      rw [this]

theorem bulkUpdateTaskStatus_write {taskIds : List Uuid} {status : TaskStatus} {k : TaskRequest}
    (hk : name i = some k) (hask : status = .archived → k.route.asksArchived = true) :
    (archivingContract name).Triple i (AuthorisedAs i user)
      (Db.bulkUpdateTaskStatus user.tenantId user.userId taskIds status) fun _ _ => True := by
  refine TaskWrites.bulkUpdateTaskStatus_from archivingContract_tolerant.toPatient
    authorisedAs_lasting (fun _ _ => stay_write) fun s e now entries taskAudit _ hs ha _ _ _ => ?_
  refine .of_rightful (rightful_update (f := withStatus status user.userId now) ⟨fun _ => rfl⟩ rfl
    fun t ht hp harch _ => ?_) rfl
  have htenant : t.tenantId = user.tenantId := by
    simp only [Bool.and_eq_true, decide_eq_true_eq] at hp
    exact hp.1
  have : (withStatus status user.userId now t).tenantId = user.tenantId := htenant
  rw [this]
  exact admins_of_write hk (hask harch) ha hs

/-- The archiving and the restoring read the clock, generate an identifier and read the clock
again before the change. -/
theorem timed_change {change : Time → Uuid → Time → Service TaskRecord}
    (h : ∀ now auditId auditAt, (archivingContract name).Triple i (AuthorisedAs i user)
      (change now auditId auditAt) fun _ _ => True) :
    (archivingContract name).Triple i (AuthorisedAs i user)
      (utcNow.bind fun now => newUuid.bind fun auditId => utcNow.bind fun auditAt =>
        change now auditId auditAt) fun _ _ => True := by
  have hK : Patient (archivingContract name) := archivingContract_tolerant.toPatient
  refine (utcNow_safe hK).carry_bind authorisedAs_lasting fun now => ?_
  refine (newUuid_safe hK).carry_bind authorisedAs_lasting fun auditId => ?_
  exact (utcNow_safe hK).carry_bind authorisedAs_lasting fun auditAt => h now auditId auditAt

theorem archiveTask_write (hr : ensureAdminRole user.role = .ok ()) :
    (archivingContract name).Triple i (AuthorisedAs i user)
      (Db.archiveTask app user.tenantId taskId user.userId) fun _ _ => True :=
  timed_change fun _ _ _ => changeTask_write (fun _ => rfl) fun _ _ _ _ _ hs _ =>
    adminsRequest_of hs hr

theorem restoreTask_write : (archivingContract name).Triple i (AuthorisedAs i user)
    (Db.restoreTask app user.tenantId taskId user.userId) fun _ _ => True :=
  timed_change fun _ _ _ => changeTask_write (fun _ => rfl) fun _ _ _ harch _ _ _ => by cases harch

/-! ### Whole requests -/

theorem updateMemberRole_safe {actorRole newRole : MembershipRole} {actorUserId : Uuid} :
    (archivingContract name).Safe i
      (Fluxa.updateMemberRole tenantId actorRole actorUserId userId newRole) := by
  have hK : Patient (archivingContract name) := archivingContract_tolerant.toPatient
  refine updateMemberRole_of archivingContract_tolerant.lenient.discreet
    (updateMembershipRole_from hK stable_const ?_ ?_)
  · exact fun _ _ _ _ _ => .of_eq rfl rfl
  · exact fun _ _ _ _ _ _ => .of_eq rfl rfl

theorem removeMember_safe {actorRole : MembershipRole} {actorUserId : Uuid} :
    (archivingContract name).Safe i
      (Fluxa.removeMember tenantId actorRole actorUserId userId) := by
  have hK : Patient (archivingContract name) := archivingContract_tolerant.toPatient
  refine removeMember_of archivingContract_tolerant.lenient.discreet
    (deleteMembership_from hK stable_const ?_ ?_)
    (.bind (utcNow_safe hK) fun _ => .bind (.bind (.atomic ?_) fun _ => ?_) fun _ => .done)
  · exact fun _ _ _ _ _ => .of_eq rfl rfl
  · exact fun _ _ _ _ _ _ => .of_eq rfl rfl
  · exact fun _ _ _ _ _ => .of_eq rfl rfl
  · exact sqlWhen_safe hK fun _ _ _ _ _ _ => .of_eq rfl rfl

theorem handler_from {k : TaskRequest} (hk : name i = some k) :
    (archivingContract name).Triple i (AuthorisedAs i user) (k.route.handler app user)
      fun _ _ => True := by
  have hK : TolerantOfKeys (archivingContract name) := archivingContract_tolerant
  have hpub : TaskWrites.Publishes (archivingContract name) i app user.tenantId :=
    TaskWrites.publishes_of_tolerant hK.toTolerant
  have free {A : Type} {p : Service A} (h : (archivingContract name).Safe i p) :
      (archivingContract name).Triple i (AuthorisedAs i user) p fun _ _ => True :=
    h.pre fun _ _ _ => trivial
  have value {A B : Type} {p : Service A} {g : A → B}
      (h : (archivingContract name).Triple i (AuthorisedAs i user) p fun _ _ => True) :
      (archivingContract name).Triple i (AuthorisedAs i user) (p.bind fun a => pure (g a))
        fun _ _ => True :=
    .bind h (fun _ => Safe.done) fun _ _ _ _ => trivial
  cases hr : k.route with
  | createTask idempotencyKey payload =>
      refine value (.lift_bind fun _ _ => .lift_bind fun key _ => ?_)
      refine idempotent_prepared hK authorisedAs_lasting fun input hin => ?_
      refine TaskWrites.createTask_service hpub hK.toPatient authorisedAs_lasting
        (createTask_write hk fun hst => ?_)
      simpa [hr, Route.asksArchived] using asks_of_toInput hin hst
  | updateTask taskId payload =>
      refine value (.lift_bind fun _ _ => .lift_bind fun input hin => value ?_)
      refine TaskWrites.updateTask_service hpub hK.toPatient authorisedAs_lasting
        (updateTask_write hk fun hst => ?_)
      simpa [hr, Route.asksArchived] using asks_of_patch hin hst
  | bulkUpdateTaskStatus taskIds status =>
      refine value (.lift_bind fun _ _ => .lift_bind fun st hst => value ?_)
      refine TaskWrites.bulkUpdateTaskStatus_service hpub fun ids =>
        bulkUpdateTaskStatus_write hk fun harch => ?_
      simpa [hr, Route.asksArchived] using eq_of_validateTaskStatus (harch ▸ hst)
  | deleteTask taskId =>
      exact .lift_bind fun _ hadmin =>
        TaskWrites.archiveTask_service hpub (archiveTask_write hadmin)
  | restoreTask taskId =>
      exact value (.lift_bind fun _ _ =>
        value (TaskWrites.restoreTask_service hpub restoreTask_write))
  | updateMemberRole tenantId memberId role =>
      exact value (.lift_bind fun _ _ => .lift_bind fun _ _ => free updateMemberRole_safe)
  | removeMember tenantId memberId =>
      exact .lift_bind fun _ _ => free removeMember_safe

theorem request_from {k : TaskRequest} (hk : name i = some k) :
    (archivingContract name).Triple i (fun _ => True) ((taskSystem app).body k)
      fun _ _ => True := by
  have hauth : (archivingContract name).Triple i (fun _ => True)
      (authorise k.activeTenantId k.userId)
      (onOk fun user s => AuthorisedAs i user s ∧ user.tenantId = k.activeTenantId) := by
    refine authorise_noted archivingContract_tolerant.toPatient (fun _ => authorisedAs_lasting)
      (fun _ _ ha => (not_issued_of_admissible ha.1).1) fun s e role _ ha hrole => ?_
    refine ⟨rightful_of_tasks rfl, fun x hx => ?_, fun x hx => List.mem_cons_of_mem _ hx⟩
    rcases List.mem_cons.mp hx with rfl | hx
    · exact .inr ⟨(not_issued_of_admissible ha.1).1, hrole⟩
    · exact .inl hx
  refine Triple.bind hauth (fun user => ?_) fun _ _ _ _ => trivial
  exact (handler_from hk).pre fun _ _ hs => hs.1

end Archiving

open Archiving

/-- In every run without a member's write of the status, each task that is archived is archived by
a request authorised as that of an owner or an admin of its tenant; and a request is authorised
with the role that its user has then. -/
theorem archived_by_admin {app : App} {s : AppState} {ms : List (Move Env TaskRequest)}
    {c : Config Event Env AppState AppError TaskRequest Unit}
    (h : (taskSystem app).exec (.start s) ms = some c)
    (hcond : (taskSystem app).Along
      (fun d m => d.Meets (fun i l _ s => NoMembersWrite (c.names i) i l s) m) (.start s) ms) :
    (taskSystem app).Along (fun d m => ∀ d', (taskSystem app).step d m = some d' →
      d.Meets (fun i _ _ s => Archiving.Rightful i s d'.st ∧ NotesRole i s d'.st) m)
      (.start s) ms := by
  refine (@alongNamed _ _ _ _ _ _ (archivingContract c.names) _ _ (fun _ _ => True)
    (fun _ _ _ _ => True) _ (fun _ => stable_const) (fun i k hk => request_from hk)
    (fun _ _ _ _ ha hc => ⟨ha, hc⟩) _ trivial (fun _ => trivial) _ _ hcond h c.named_names).mono ?_
  rintro d m hstep d' hd' i e rfl l hl
  obtain ⟨-, hact⟩ := hstep d' hd' i e rfl l hl
  exact ⟨hact.rightful, hact.notes⟩

/-! ### A member's patch -/

/-- Tenant 1 with the owner 10, the member 12 and an open task. -/
def ownersAndTask : AppState :=
  { threeMembers with
    db := { threeMembers.db with
      tasks := ⟨[⟨100, 1, none, "t", none, .open, .medium, none, none, 10, 10, 0, 0⟩], by decide⟩ } }

/-- A payload that asks for a status and nothing else. -/
def statusPatch (status : String) : Http.TaskPatchPayload :=
  ⟨none, none, none, some status, none, none, none⟩

/-- A statement of request `i`, with a fresh identifier. -/
def taskMove (i uuid : Nat) : Move Env TaskRequest :=
  .exec i { (default : Env) with pid := i, uuid }

/-- The owner deletes the task: the request is authorised, reads the clock, generates an identifier,
reads the clock again and archives the task. -/
def ownersDelete : List (Move Env TaskRequest) :=
  [.call ⟨10, 1, .deleteTask 100⟩, taskMove 0 1000, taskMove 0 1001, taskMove 0 1002,
    taskMove 0 1003, taskMove 0 1004]

/-- The theorem at that run, in which the task is archived. -/
theorem archived_by_admin_delete :
    ∃ c, (taskSystem default).exec (.start ownersAndTask) ownersDelete = some c ∧
      (c.st.db.tasks.find? 100).any (·.status = .archived) = true ∧
      (taskSystem default).Along (fun d m => ∀ d', (taskSystem default).step d m = some d' →
        d.Meets (fun i _ _ s => Archiving.Rightful i s d'.st ∧ NotesRole i s d'.st) m)
        (.start ownersAndTask) ownersDelete := by
  have hrun : ((taskSystem default).exec (.start ownersAndTask) ownersDelete).any fun c =>
      (c.st.db.tasks.find? 100).any (·.status = .archived) ∧ (taskSystem default).Along
        (fun d m => d.Meets (fun i l _ s => NoMembersWrite (c.names i) i l s) m)
        (.start ownersAndTask) ownersDelete := by decide +kernel
  obtain ⟨c, hc, h⟩ := (Option.any_eq_true _ _).mp hrun
  obtain ⟨harch, hcond⟩ := of_decide_eq_true h
  exact ⟨c, hc, harch, archived_by_admin hc hcond⟩

/-- The member patches the task: the request is authorised, reads the clock, generates an
identifier and is about to archive the task. -/
def membersPatch : List (Move Env TaskRequest) :=
  [.call ⟨12, 1, .updateTask 100 (statusPatch "archived")⟩, taskMove 0 1000, taskMove 0 1001,
    taskMove 0 1002]

/-- The next statement archives the task, for a request that is not authorised as that of an owner
or an admin. -/
theorem archived_by_member :
    ∃ c d t, (taskSystem default).exec (.start ownersAndTask) membersPatch = some c ∧
      (taskSystem default).step c (taskMove 0 1003) = some d ∧ NewlyArchived c.st d.st t ∧
      ¬ AdminsRequest 0 t.tenantId c.st := by
  have hrun : ((taskSystem default).exec (.start ownersAndTask) membersPatch).any fun c =>
      c.st.db.tasks.rows.all (·.status ≠ .archived) ∧
      c.st.history.authorised = [(0, 1, 12, .member)] ∧
      ((taskSystem default).step c (taskMove 0 1003)).any fun d =>
        (d.st.db.tasks.find? 100).any (·.status = .archived) := by decide +kernel
  obtain ⟨c, hc, h⟩ := (Option.any_eq_true _ _).mp hrun
  obtain ⟨hopen, hauth, hnext⟩ := of_decide_eq_true h
  obtain ⟨d, hd, h⟩ := (Option.any_eq_true _ _).mp hnext
  obtain ⟨t, ht, harch⟩ := (Option.any_eq_true _ _).mp h
  refine ⟨c, d, t, hc, hd, ⟨(Table.find?_eq_some.mp ht).1, of_decide_eq_true harch, ?_⟩, ?_⟩
  · intro t₀ ht₀ _
    exact of_decide_eq_true (List.all_eq_true.mp hopen t₀ ht₀)
  · rintro ⟨userId, role, hmem, hrole⟩
    rw [hauth, List.mem_singleton] at hmem
    obtain rfl : role = .member := congrArg (fun x => x.2.2.2) hmem
    cases hrole

end Fluxa
