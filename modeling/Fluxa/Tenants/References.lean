import Fluxa.Http.Projects
import Fluxa.Http.Quiet
import Fluxa.Http.Tasks
import Fluxa.Http.Webhooks
import Fluxa.Relational.References
import Fluxa.Services.Delivery
import Fluxa.Services.Quiet
import Fluxa.Tasks.Writes

/-!
# Tenants — references

The rows of a tenant refer to rows of the tenant: tasks to projects, comments, attachments and audit rows to tasks, deliveries to webhooks, and the rows of `task_labels` to a task and a label of one tenant (**`Closed`**).

Foreign keys do not say so, so the statements that write such rows need that their call has found the row that is referred to, and that this row stays with its tenant.  Tasks and projects are never deleted.  A label may be, so a call that has found one needs besides that no other label gets its identifier: **`Unused`** is the identifier that a call has generated for a label and not inserted yet, **`Known`** one that a label has had.
-/

namespace Fluxa
open Interleave Relational Db Contract

namespace Tenants

/-! ### Closed references -/

/-- The task is one of the tenant. -/
def TaskOf (tenantId taskId : Uuid) (s : AppState) : Prop :=
  s.db.tasks.Owned TaskRecord.tenantId taskId tenantId

/-- The project is one of the tenant. -/
def ProjectOf (tenantId projectId : Uuid) (s : AppState) : Prop :=
  s.db.projects.Owned ProjectRecord.tenantId projectId tenantId

/-- What refers to a row belongs to the tenant of the row. -/
structure Closed (s : AppState) : Prop where
  projects : s.db.projects.Refers ProjectRecord.tenantId s.db.tasks TaskRecord.projectId
    TaskRecord.tenantId
  labels : ∀ r ∈ s.db.taskLabels, ∀ l ∈ s.db.labels, l.id = r.labelId → TaskOf l.tenantId r.taskId s
  comments : s.db.tasks.Refers TaskRecord.tenantId s.db.comments (fun c => some c.taskId)
    CommentRecord.tenantId
  attachments : s.db.tasks.Refers TaskRecord.tenantId s.db.attachments (fun a => some a.taskId)
    AttachmentRecord.tenantId
  taskAudit : s.db.tasks.Refers TaskRecord.tenantId s.db.taskAudit TaskAuditRecord.taskId
    TaskAuditRecord.tenantId
  deliveries : s.db.webhooks.Refers WebhookRecord.tenantId s.db.webhookDeliveries
    (fun d => some d.webhookId) WebhookDeliveryRecord.tenantId

/-! ### Identifiers of labels -/

variable {L₀ : Uuid → Prop} {i : Nat} {l : Event} {e : Env} {s s' : AppState} {id : Uuid}

/-- A label has had the identifier: since the start, or since a call has inserted it. -/
def Known (L₀ : Uuid → Prop) (id : Uuid) (s : AppState) : Prop :=
  L₀ id ∨ ∃ j, (id, j) ∈ s.history.issued ∧ (j, ResourceKind.label, id) ∈ s.history.created

/-- The call has generated the identifier, and inserted no label with it. -/
def Unused (L₀ : Uuid → Prop) (i : Nat) (id : Uuid) (s : AppState) : Prop :=
  ¬ L₀ id ∧ (id, i) ∈ s.history.issued ∧ (i, ResourceKind.label, id) ∉ s.history.created

theorem Known.ne_of_unused {id' : Uuid} (h : Known L₀ id s) (hs : IssuedOnce s)
    (hu : Unused L₀ i id' s) : id' ≠ id := by
  rintro rfl
  rcases h with h | ⟨j, hj, hc⟩
  · exact hu.1 h
  · obtain rfl := hs _ _ _ hj hu.2.1
    exact hu.2.2 hc

/-- The label has been one of the tenant, and is unless it has been deleted. -/
def LabelOf (L₀ : Uuid → Prop) (tenantId labelId : Uuid) (s : AppState) : Prop :=
  Known L₀ labelId s ∧ ∀ l ∈ s.db.labels, l.id = labelId → l.tenantId = tenantId

/-! ### What a statement does -/

/-- References are closed, and the identifiers of labels are known. -/
structure RefInv (L₀ : Uuid → Prop) (s : AppState) : Prop where
  closed : Closed s
  known : ∀ l ∈ s.db.labels, Known L₀ l.id s
  attached : ∀ r ∈ s.db.taskLabels, Known L₀ r.labelId s
  noted : ∀ x ∈ s.history.created, x.2.1 = .label → Issued s x.2.2
  once : IssuedOnce s
  past : ∀ id, L₀ id → Issued s id

/-- What a statement of call `i` does: no task or project goes, and no label but one under an
identifier of the call comes. -/
structure RefAction (L₀ : Uuid → Prop) (i : Nat) (_ : Event) (_ : Env) (s s' : AppState) : Prop where
  tasks : Table.KeepsOwners TaskRecord.tenantId s.db.tasks s'.db.tasks
  projects : Table.KeepsOwners ProjectRecord.tenantId s.db.projects s'.db.projects
  labels : ∀ l ∈ s'.db.labels,
    s.db.labels.Owned LabelRecord.tenantId l.id l.tenantId ∨ Unused L₀ i l.id s
  issued : ∀ x ∈ s.history.issued, x ∈ s'.history.issued
  created : ∀ x ∈ s.history.created, x ∈ s'.history.created
  own : ∀ x ∈ s'.history.created, x ∈ s.history.created ∨ x.1 = i
  inv : RefInv L₀ s'

/-- The contract: every statement is a `RefAction`. -/
def referenceContract (L₀ : Uuid → Prop) : Contract Event Env AppState where
  inv := RefInv L₀
  guar := RefAction L₀
  adm i l e s := admissible i l e s = true
  guar_inv _ h := h.inv

theorem Known.keep (h : Known L₀ id s) (hi : ∀ x ∈ s.history.issued, x ∈ s'.history.issued)
    (hc : ∀ x ∈ s.history.created, x ∈ s'.history.created) : Known L₀ id s' :=
  h.imp_right fun ⟨j, hj, hcj⟩ => ⟨j, hi _ hj, hc _ hcj⟩

theorem taskOf_lasting {tenantId taskId : Uuid} :
    (referenceContract L₀).Lasting (TaskOf tenantId taskId) :=
  fun _ _ _ _ _ _ h hg => hg.tasks _ _ h

theorem labelOf_lasting {tenantId labelId : Uuid} :
    (referenceContract L₀).Lasting (LabelOf L₀ tenantId labelId) := by
  intro i l e s s' hi h hg
  refine ⟨h.1.keep hg.issued hg.created, fun label hl hid => ?_⟩
  rcases hg.labels label hl with ⟨l₀, hl₀, hid₀, ht⟩ | hu
  · rw [← ht]
    exact h.2 l₀ hl₀ (hid₀.trans hid)
  · exact absurd hid (h.1.ne_of_unused hi.once hu)

theorem unused_stable : (referenceContract L₀).Stable i (Unused L₀ i id) := by
  intro s s' j l e _ h hj hg
  refine ⟨h.1, hg.issued _ h.2.1, fun hc => ?_⟩
  rcases hg.own _ hc with hold | hi
  · exact h.2.2 hold
  · exact hj hi.symm

/-! ### Statements beside the point -/

/-- The two states agree on tasks, on what they refer to and what refers to them, on webhooks and
their deliveries, and on the identifiers generated and inserted. -/
structure SameRefs (s s' : AppState) : Prop where
  projects : s'.db.projects = s.db.projects
  labels : s'.db.labels = s.db.labels
  taskLabels : s'.db.taskLabels = s.db.taskLabels
  tasks : s'.db.tasks = s.db.tasks
  taskAudit : s'.db.taskAudit = s.db.taskAudit
  comments : s'.db.comments = s.db.comments
  attachments : s'.db.attachments = s.db.attachments
  webhooks : s'.db.webhooks = s.db.webhooks
  webhookDeliveries : s'.db.webhookDeliveries = s.db.webhookDeliveries
  issued : s'.history.issued = s.history.issued
  created : s'.history.created = s.history.created

theorem SameRefs.refl (s : AppState) : SameRefs s s := by
  constructor <;> rfl

theorem Closed.of_tables (hs : Closed s) (hp : s'.db.projects = s.db.projects)
    (hl : s'.db.labels = s.db.labels) (htl : s'.db.taskLabels = s.db.taskLabels)
    (ht : s'.db.tasks = s.db.tasks) (ha : s'.db.taskAudit = s.db.taskAudit)
    (hc : s'.db.comments = s.db.comments) (hat : s'.db.attachments = s.db.attachments)
    (hw : s'.db.webhooks = s.db.webhooks)
    (hd : s'.db.webhookDeliveries = s.db.webhookDeliveries) : Closed s' := by
  refine ⟨?_, ?_, ?_, ?_, ?_, ?_⟩
  · rw [hp, ht]
    exact hs.projects
  · intro r hr label hlabel hid
    unfold TaskOf
    rw [ht]
    exact hs.labels r (htl ▸ hr) label (hl ▸ hlabel) hid
  · rw [ht, hc]
    exact hs.comments
  · rw [ht, hat]
    exact hs.attachments
  · rw [ht, ha]
    exact hs.taskAudit
  · rw [hw, hd]
    exact hs.deliveries

theorem RefInv.of_same (hi : RefInv L₀ s) (h : SameRefs s s') : RefInv L₀ s' := by
  have hknown {id : Uuid} (hk : Known L₀ id s) : Known L₀ id s' :=
    hk.keep (fun x hx => h.issued ▸ hx) fun x hx => h.created ▸ hx
  refine ⟨hi.closed.of_tables h.projects h.labels h.taskLabels h.tasks h.taskAudit h.comments
    h.attachments h.webhooks h.webhookDeliveries, ?_, ?_, ?_, ?_, ?_⟩
  · exact fun l hl => hknown (hi.known l (h.labels ▸ hl))
  · exact fun r hr => hknown (hi.attached r (h.taskLabels ▸ hr))
  · exact fun x hx hk => (hi.noted x (h.created ▸ hx) hk).imp fun _ hx => h.issued ▸ hx
  · exact fun id a b ha hb => hi.once id a b (h.issued ▸ ha) (h.issued ▸ hb)
  · exact fun id hid => (hi.past id hid).imp fun _ hx => h.issued ▸ hx

theorem RefAction.of_same (hi : RefInv L₀ s) (h : SameRefs s s') : RefAction L₀ i l e s s' where
  tasks := by rw [h.tasks]; exact .refl _
  projects := by rw [h.projects]; exact .refl _
  labels label hl := .inl (Table.owned_of_mem (h.labels ▸ hl))
  issued x hx := h.issued ▸ hx
  created x hx := h.created ▸ hx
  own x hx := .inl (h.created ▸ hx)
  inv := hi.of_same h

/-! ### Statements that write such rows -/

/-- The call may have generated an identifier, and noted rows that it has inserted. -/
structure Recorded (e : Env) (s s' : AppState) : Prop where
  issued : s'.history.issued = s.history.issued ∨
    s'.history.issued = (e.uuid, e.pid) :: s.history.issued
  kept : ∀ x ∈ s.history.created, x ∈ s'.history.created
  own : ∀ x ∈ s'.history.created,
    x ∈ s.history.created ∨ x.1 = e.pid ∧ (x.2.1 = .label → Issued s x.2.2)

theorem recorded_of_eq (hi : s'.history.issued = s.history.issued)
    (hc : s'.history.created = s.history.created) : Recorded e s s' :=
  ⟨.inl hi, fun _ hx => hc ▸ hx, fun _ hx => .inl (hc ▸ hx)⟩

theorem recorded_of_created (kind : ResourceKind) (hk : kind = .label → Issued s id)
    (hi : s'.history.issued = s.history.issued)
    (hc : s'.history.created = (e.pid, kind, id) :: s.history.created) : Recorded e s s' := by
  refine ⟨.inl hi, fun x hx => hc ▸ List.mem_cons_of_mem _ hx, fun x hx => ?_⟩
  rw [hc] at hx
  rcases List.mem_cons.mp hx with rfl | hx
  · exact .inr ⟨rfl, hk⟩
  · exact .inl hx

theorem Recorded.issued_of_mem (h : Recorded e s s') {x : Uuid × Nat} (hx : x ∈ s.history.issued) :
    x ∈ s'.history.issued := by
  rcases h.issued with he | he
  · exact he ▸ hx
  · exact he ▸ List.mem_cons_of_mem _ hx

theorem Recorded.issuedOnce (h : Recorded e s s') (hs : IssuedOnce s) (hfresh : ¬ Issued s e.uuid) :
    IssuedOnce s' := by
  rcases h.issued with he | he
  · exact fun id a b ha hb => hs id a b (he ▸ ha) (he ▸ hb)
  · exact fun id a b ha hb => hs.cons hfresh id a b (he ▸ ha) (he ▸ hb)

/-- A statement after which references are closed, and which inserts no label but one under an
identifier of the call. -/
theorem RefAction.of_closed (hi : RefInv L₀ s) (ha : admissible i l e s = true)
    (hrec : Recorded e s s')
    (htasks : Table.KeepsOwners TaskRecord.tenantId s.db.tasks s'.db.tasks)
    (hprojects : Table.KeepsOwners ProjectRecord.tenantId s.db.projects s'.db.projects)
    (hlabels : ∀ l ∈ s'.db.labels, s.db.labels.Owned LabelRecord.tenantId l.id l.tenantId ∨
      Unused L₀ i l.id s ∧ (i, ResourceKind.label, l.id) ∈ s'.history.created)
    (hattached : ∀ r ∈ s'.db.taskLabels, Known L₀ r.labelId s) (hclosed : Closed s') :
    RefAction L₀ i l e s s' := by
  obtain ⟨hpid, hfresh⟩ := not_issued_of_admissible ha
  have hissued : ∀ x ∈ s.history.issued, x ∈ s'.history.issued := fun _ hx => hrec.issued_of_mem hx
  refine ⟨htasks, hprojects, fun label hl => (hlabels label hl).imp_right And.left, hissued, hrec.kept,
    fun x hx => (hrec.own x hx).imp_right fun h => h.1.trans hpid, hclosed, fun label hl => ?_,
    fun r hr => ?_, fun x hx hk => ?_, hrec.issuedOnce hi.once hfresh,
    fun id hid => (hi.past id hid).imp fun _ => hissued _⟩
  · rcases hlabels label hl with ⟨l₀, hl₀, hid, -⟩ | ⟨hu, hc⟩
    · exact hid ▸ (hi.known l₀ hl₀).keep hissued hrec.kept
    · exact .inr ⟨i, hissued _ hu.2.1, hc⟩
  · exact (hattached r hr).keep hissued hrec.kept
  · have hold : Issued s x.2.2 := (hrec.own x hx).elim (fun h => hi.noted x h hk) fun h => h.2 hk
    exact hold.imp fun _ => hissued _

/-- A statement that leaves labels alone. -/
theorem RefAction.of_rows (hi : RefInv L₀ s) (ha : admissible i l e s = true)
    (hrec : Recorded e s s') (hl : s'.db.labels = s.db.labels)
    (htl : s'.db.taskLabels = s.db.taskLabels)
    (htasks : Table.KeepsOwners TaskRecord.tenantId s.db.tasks s'.db.tasks)
    (hprojects : Table.KeepsOwners ProjectRecord.tenantId s.db.projects s'.db.projects)
    (hclosed : Closed s') : RefAction L₀ i l e s s' :=
  .of_closed hi ha hrec htasks hprojects
    (fun _ hlabel => .inl (Table.owned_of_mem (hl ▸ hlabel)))
    (fun r hr => hi.attached r (htl ▸ hr)) hclosed

/-- A statement that leaves labels, tasks and projects alone. -/
theorem RefAction.of_children (hi : RefInv L₀ s) (ha : admissible i l e s = true)
    (hrec : Recorded e s s') (hl : s'.db.labels = s.db.labels)
    (htl : s'.db.taskLabels = s.db.taskLabels) (ht : s'.db.tasks = s.db.tasks)
    (hp : s'.db.projects = s.db.projects) (hclosed : Closed s') : RefAction L₀ i l e s s' :=
  .of_rows hi ha hrec hl htl (by rw [ht]; exact .refl _) (by rw [hp]; exact .refl _) hclosed

/-- Tasks that keep their tenants, or are new, with projects of their tenants. -/
theorem Closed.of_tasks {tasks : Table TaskRecord TaskRecord.id}
    {taskAudit : Table TaskAuditRecord TaskAuditRecord.id} {history : History} (hs : Closed s)
    (hkeep : Table.KeepsOwners TaskRecord.tenantId s.db.tasks tasks)
    (hp : s.db.projects.Refers ProjectRecord.tenantId tasks TaskRecord.projectId
      TaskRecord.tenantId)
    (ha : tasks.Refers TaskRecord.tenantId taskAudit TaskAuditRecord.taskId
      TaskAuditRecord.tenantId) :
    Closed { s with db.tasks := tasks, db.taskAudit := taskAudit, history := history } where
  projects := hp
  labels r hr label hl hid := hkeep _ _ (hs.labels r hr label hl hid)
  comments := hs.comments.keep hkeep
  attachments := hs.attachments.keep hkeep
  taskAudit := ha
  deliveries := hs.deliveries

/-! ### The contract's rules -/

theorem sameRefs_of_aside (h : Aside s s') : SameRefs s s' :=
  ⟨h.projects, h.labels, h.taskLabels, h.tasks, h.taskAudit, h.comments, h.attachments, h.webhooks,
    h.webhookDeliveries, congrArg History.issued h.history, congrArg History.created h.history⟩

theorem sameRefs_of_keys (h : KeyChange s s') : SameRefs s s' := by
  have hdb := h.db
  have hh := h.history
  constructor
  all_goals first
    | rw [hdb]
    | rw [hh]

theorem referenceContract_discreet : Discreet (referenceContract L₀) where
  stay _ _ _ s hi _ := .of_same hi (.refl s)
  aside _ _ _ _ hi h := .of_same hi (sameRefs_of_aside h)
  issue _ _ _ hi ha := .of_children hi ha ⟨.inr rfl, fun _ h => h, fun _ h => .inl h⟩ rfl rfl rfl rfl
    (hi.closed.of_tables rfl rfl rfl rfl rfl rfl rfl rfl rfl)

theorem referenceContract_patient : Patient (referenceContract L₀) :=
  referenceContract_discreet.toPatient

theorem referenceContract_keys : PatientOfKeys (referenceContract L₀) :=
  { referenceContract_patient with
    keys := fun _ _ _ _ hi h => .of_same hi (sameRefs_of_keys h) }

/-- A statement on the database that is beside the point. -/
theorem sql_same {A : Type} {event : Event} {ready : AppState → Bool}
    {run : Env → AppState → Except AppError A × AppState} (h : ∀ e s, SameRefs s (run e s).2) :
    (referenceContract L₀).Safe i (sqlWhen event ready run) :=
  sqlWhen_safe referenceContract_patient fun s e hi _ _ _ => .of_same hi (h e s)

theorem newUuid_unused : (referenceContract L₀).Triple i (fun _ => True) newUuid
    (onOk fun id => Unused L₀ i id) := by
  refine Triple.atomic stable_const (stable_onOk fun _ => unused_stable) fun s e hi _ _ ha => ?_
  obtain ⟨hpid, hfresh⟩ := not_issued_of_admissible ha
  refine ⟨referenceContract_patient.issue i e s hi ha, fun h => hfresh (hi.past _ h), ?_, fun hc => ?_⟩
  · exact hpid ▸ List.mem_cons_self
  · exact hfresh (hi.noted _ hc rfl)

end Tenants

end Fluxa
