import Fluxa.Keys.Artifacts
import Fluxa.Tenants.Requests

/-!
# Tenants — noninterference

**A tenant is as if alone** (`tenant_alone`).  Take any run of the requests of any tenants, in which statements of different requests alternate in any order.  Leave out the rows and the requests of all tenants but one.  What remains is a run: no request of the tenant waits for what has been left out.  Each gets the reply that it had, and the tenant's part of the state is the same at the end.

So what others have, what they ask and in which order their statements run, is not seen (`others_not_seen`).
-/

namespace Fluxa
open Interleave Relational Db Contract Parts

namespace Tenants

variable {app : App} {i : Nat} {L₀ : Uuid → Prop} {A : Type}

/-- The requests of authenticated users. -/
def requestSystem (app : App) :
    System Event Env AppState AppError (AuthenticatedUser × Request) Reply where
  body k := k.2.answer app k.1
  adm := admissible

/-- The tenant of a request. -/
def home (k : AuthenticatedUser × Request) : Uuid := k.1.tenantId

/-! ### Identifiers are generated once -/

theorem answered_keeps {p : Service A} {reply : A → Reply} (h : (referenceContract L₀).Safe i p) :
    (referenceContract L₀).Safe i (answered reply p) :=
  .bind h fun _ => .done

theorem createExportJob_keeps {tenantId requestedBy : Uuid} {filters : TaskFilters}
    {format : ExportFormat} : (referenceContract L₀).Safe i
      (Jobs.createExportJob app tenantId requestedBy filters format) := by
  have hK : Patient (referenceContract L₀) := referenceContract_patient
  refine .bind (.bind (newUuid_safe hK) fun id => .bind (utcNow_safe hK) fun now => ?_) fun _ =>
    .bind (enqueueJob_safe referenceContract_discreet) fun _ => .done
  refine sql_safe hK fun s e hi ha _ => ?_
  dsimp only
  split
  · rename_i jobs _
    exact .of_children hi ha (recorded_of_created .export (by intro h; cases h) rfl rfl) rfl rfl rfl rfl
      (hi.closed.of_tables rfl rfl rfl rfl rfl rfl rfl rfl rfl)
  · exact .of_same hi (.refl s)

theorem redisSame_keeps {run : Env → AppState → A × AppState} (h : ∀ e s, SameRefs s (run e s).2) :
    (referenceContract L₀).Safe i (redis run) :=
  redis_safe referenceContract_patient fun s e hi _ => .of_same hi (h e s)

theorem getJson_keeps {key : TaskCacheKey} {decode : CachedTasks → Option A} :
    (referenceContract L₀).Safe i (Cache.getJson key decode) := by
  refine .atomic fun s e hi _ _ => ?_
  have hstay : ∀ r : Except AppError (Option A) × AppState, r.2 = s →
      RefAction L₀ i .quiet e s r.2 := by
    rintro ⟨r, s'⟩ rfl
    exact .of_same hi (.refl _)
  refine hstay _ ?_
  split
  · rfl
  · split <;> rfl
  · rfl

theorem tasksOfQuery_keeps {tenantId : Uuid} {query : Http.TaskListQuery} :
    (referenceContract L₀).Safe i (Http.tasksOfQuery app tenantId query) := by
  have hK : Patient (referenceContract L₀) := referenceContract_patient
  refine .bind lift_safe fun _ => .bind lift_safe fun _ => .bind ?_ fun _ => .done
  refine .bind (redisSame_keeps fun _ s => .refl s) fun _ => .bind getJson_keeps fun cached => ?_
  cases cached with
  | some cached => exact .done
  | none =>
      exact .bind (select_safe hK) fun _ =>
        .bind (redisSame_keeps fun _ _ => by constructor <;> rfl) fun _ => .done

theorem getTaskCached_keeps {tenantId taskId : Uuid} :
    (referenceContract L₀).Safe i (Tasks.getTaskCached app tenantId taskId) := by
  have hK : Patient (referenceContract L₀) := referenceContract_patient
  refine .bind (redisSame_keeps fun _ s => .refl s) fun _ => .bind getJson_keeps fun cached => ?_
  cases cached with
  | some cached => exact .done
  | none =>
      exact .bind (select_safe hK) fun _ => .bind .okOr fun _ =>
        .bind (redisSame_keeps fun _ _ => by constructor <;> rfl) fun _ => .done

theorem routeAnswer_keeps {user : AuthenticatedUser} (r : Route) :
    (referenceContract L₀).Safe i (r.answer app user) := by
  have h : (referenceContract L₀).Safe i (r.handler app user) := route_keeps r
  cases r with
  | deleteProject | deleteLabel | deleteTask | deleteTaskComment | deleteTaskAttachment |
      deleteWebhook => exact answered_keeps h
  | redeliverWebhookDelivery =>
      exact answered_keeps (.bind lift_safe fun _ => .bind redeliver_keeps fun _ => .done)
  | _ => exact answered_keeps h.of_bind

theorem getTenantJobResult_keeps {jobId tenantId : Uuid} :
    (referenceContract L₀).Safe i (Jobs.getTenantJobResult jobId tenantId) := by
  have hK : Patient (referenceContract L₀) := referenceContract_patient
  refine .bind (.bind (select_safe hK) fun _ => .bind .okOr fun _ => .bind .ensure fun _ => .done)
    fun job => ?_
  cases job.status with
  | completed => exact lift_safe
  | queued => exact .fail
  | running => exact .fail
  | deadLetter => exact .fail

theorem request_keeps (k : AuthenticatedUser × Request) :
    (referenceContract L₀).Safe i ((requestSystem app).body k) := by
  have hK : Patient (referenceContract L₀) := referenceContract_patient
  have hread {B C : Type} {run : Env → AppState → B} {f : B → Service C}
      (hf : ∀ b, (referenceContract L₀).Safe i (f b)) :
      (referenceContract L₀).Safe i ((select run).bind f) := .bind (select_safe hK) hf
  obtain ⟨user, request⟩ := k
  cases request with
  | write route => exact routeAnswer_keeps route
  | createExport key payload =>
      refine answered_keeps (.bind lift_safe fun _ => .bind lift_safe fun _ => ?_)
      exact idempotent_keeps fun _ => createExportJob_keeps
  | listProjects => exact answered_keeps (hread fun _ => .done)
  | getProject projectId =>
      exact answered_keeps (.bind (hread fun _ => .okOr) fun _ => .done)
  | getProjectSummary projectId =>
      exact answered_keeps (.bind (hread fun _ => .okOr) fun _ => .done)
  | listLabels => exact answered_keeps (hread fun _ => .done)
  | getTaskLabels taskId =>
      exact answered_keeps (.bind (.bind (hread fun _ => .okOr) fun _ => select_safe hK) fun _ => .done)
  | listTasks query => exact answered_keeps tasksOfQuery_keeps
  | listProjectTasks projectId query =>
      exact answered_keeps (.bind (hread fun _ => .okOr) fun _ => tasksOfQuery_keeps)
  | getTask taskId => exact answered_keeps (.bind getTaskCached_keeps fun _ => .done)
  | listTaskAudit taskId limit cursor =>
      exact answered_keeps (.bind lift_safe fun _ =>
        .bind (.bind (hread fun _ => .okOr) fun _ => select_safe hK) fun _ => .done)
  | dashboardSummary => exact answered_keeps (hread fun _ => .done)
  | listTaskComments taskId limit cursor =>
      exact answered_keeps (.bind lift_safe fun _ =>
        .bind (.bind (hread fun _ => .okOr) fun _ => select_safe hK) fun _ => .done)
  | listTaskAttachments taskId =>
      exact answered_keeps (.bind (.bind (hread fun _ => .okOr) fun _ => select_safe hK) fun _ => .done)
  | downloadTaskAttachment taskId attachmentId =>
      exact answered_keeps (.bind (.bind (hread fun _ => .okOr) fun _ =>
        .bind (hread fun _ => .okOr) fun _ => .bind (storageGet_safe hK) fun _ =>
          .bind .okOr fun _ => .done) fun _ => .done)
  | listWebhooks => exact answered_keeps (.bind lift_safe fun _ => hread fun _ => .done)
  | listWebhookDeliveries webhookId limit cursor =>
      exact answered_keeps (.bind lift_safe fun _ => .bind lift_safe fun _ =>
        .bind (.bind (hread fun _ => .okOr) fun _ => select_safe hK) fun _ => .done)
  | listAuditEvents limit cursor =>
      exact answered_keeps (.bind lift_safe fun _ => .bind lift_safe fun _ =>
        .bind (hread fun _ => .done) fun _ => .done)
  | listMyNotifications limit cursor unread =>
      exact answered_keeps (.bind lift_safe fun _ =>
        .bind (hread fun _ => hread fun _ => .done) fun _ => .done)
  | markNotificationRead notificationId =>
      exact answered_keeps (.bind (sql_same fun _ _ => by constructor <;> rfl) fun _ => .ensure)
  | markAllNotificationsRead =>
      exact answered_keeps (.bind (sql_same fun _ _ => by constructor <;> rfl) fun _ => .done)
  | getJob jobId =>
      exact answered_keeps (.bind (hread fun _ => .bind .okOr fun _ => .bind .ensure fun _ => .done)
        fun _ => .done)
  | getJobResult jobId => exact answered_keeps (.bind getTenantJobResult_keeps fun _ => .done)
  | downloadJobArtifact jobId =>
      exact answered_keeps (.bind getTenantJobResult_keeps fun _ => .bind lift_safe fun _ =>
        .bind (storageGet_safe hK) fun _ => .bind .okOr fun _ => .done)

/-! ### Whose the identifiers of a run are -/

abbrev RequestConfig := Config Event Env AppState AppError (AuthenticatedUser × Request) Reply

/-- An identifier that has been generated before the run is whose `owner` says, and one that a
request has generated is of the request's tenant. -/
def whose (owner : Uuid → Option Uuid) (s : AppState) (c : RequestConfig) : Whose where
  owner x :=
    if s.history.issued.any fun y => y.1 = x then owner x
    else (c.st.history.issued.find? fun y => y.1 = x).bind fun y => (c.names y.2).map home
  caller i := ((c.names i).map home).getD 0

theorem whose_caller {owner : Uuid → Option Uuid} {s : AppState} {c : RequestConfig}
    {k : AuthenticatedUser × Request} (h : c.names i = some k) :
    (whose owner s c).caller i = home k := by
  show ((c.names i).map home).getD 0 = _
  rw [h]
  rfl

theorem whose_issued {owner : Uuid → Option Uuid} {s : AppState} {c : RequestConfig} {x : Uuid}
    (h : Issued s x) : (whose owner s c).owner x = owner x := by
  obtain ⟨j, hj⟩ := h
  exact if_pos (List.any_eq_true.mpr ⟨_, hj, decide_eq_true rfl⟩)

theorem whose_new {owner : Uuid → Option Uuid} {s : AppState} {c : RequestConfig} {x : Uuid}
    {k : AuthenticatedUser × Request} (hold : ¬ Issued s x) (hnew : (x, i) ∈ c.st.history.issued)
    (honce : IssuedOnce c.st) (hk : c.names i = some k) :
    (whose owner s c).owner x = some (home k) := by
  have hany : ¬ (s.history.issued.any fun y => y.1 = x) = true := by
    rw [List.any_eq_true]
    rintro ⟨⟨y, j⟩, hy, he⟩
    obtain rfl : y = x := of_decide_eq_true he
    exact hold ⟨j, hy⟩
  have hfind : c.st.history.issued.find? (fun y => y.1 = x) = some (x, i) := by
    cases hf : c.st.history.issued.find? fun y => y.1 = x with
    | none => exact absurd (decide_eq_true rfl) (List.find?_eq_none.mp hf _ hnew)
    | some y =>
        obtain ⟨y, j⟩ := y
        obtain rfl : y = x := by simpa using List.find?_some hf
        rw [honce _ _ _ (List.mem_of_find?_eq_some hf) hnew]
  show ite _ _ _ = _
  rw [if_neg hany, hfind, Option.bind_some, hk]
  rfl

/-- Where a run starts: rows have identifiers of their tenants, which have all been generated, and
no transaction is open. -/
structure TenantStart (app : App) (owner : Uuid → Option Uuid) (s : AppState) : Prop
    extends ReferenceStart s where
  consistent : Consistent app ⟨owner, fun _ => 0⟩ s
  labelTxs : s.db.labelTxs = []
  webhookTxs : s.db.webhookTxs = []
  owned : ∀ x b, owner x = some b → Issued s x
  attached : ∀ r ∈ s.db.taskLabels, Issued s r.taskId
  jobs : ∀ j ∈ s.db.jobs, Issued s j.id
  notifications : ∀ n ∈ s.db.notifications, Issued s (OutboxRow.key n)
  auditLog : ∀ a ∈ s.db.auditLog, Issued s a.id

variable {owner : Uuid → Option Uuid} {s v : AppState} {c : RequestConfig} {b : Uuid}

theorem consistent_whose (hs : TenantStart app owner s) : Consistent app (whose owner s c) s := by
  have hown {x b : Uuid} (h : owner x = some b) : (whose owner s c).owner x = some b :=
    (whose_issued (hs.owned x b h)).trans h
  have hc := hs.consistent
  have hlabels : ∀ r ∈ s.db.taskLabels, (whose owner s c).owner r.taskId =
      (whose owner s c).owner r.labelId := by
    intro r hr
    rw [whose_issued (hs.attached r hr), whose_issued (hs.taskLabels r hr)]
    exact hc.taskLabels r hr
  exact
    { projects := fun a ha => hown (hc.projects a ha)
      labels := fun a ha => hown (hc.labels a ha)
      tasks := fun a ha => hown (hc.tasks a ha)
      taskAudit := fun a ha => hown (hc.taskAudit a ha)
      comments := fun a ha => hown (hc.comments a ha)
      attachments := fun a ha => hown (hc.attachments a ha)
      webhooks := fun a ha => hown (hc.webhooks a ha)
      jobs := fun a ha => (whose_issued (hs.jobs a ha)).trans (hc.jobs a ha)
      notifications := fun a ha =>
        (whose_issued (hs.notifications a ha)).trans (hc.notifications a ha)
      auditLog := fun a ha => (whose_issued (hs.auditLog a ha)).trans (hc.auditLog a ha)
      taskProjects := fun t ht p hp => hown (hc.taskProjects t ht p hp)
      taskLabels := hlabels
      deliveries := fun d hd => hown (hc.deliveries d hd)
      storageKeys := hc.storageKeys
      artifacts := hc.artifacts
      labelTxs := fun T hT => absurd (hs.labelTxs ▸ hT) List.not_mem_nil
      webhookTxs := fun T hT => absurd (hs.webhookTxs ▸ hT) List.not_mem_nil }

theorem part_whose (hs : TenantStart app owner s) (hv : Part app ⟨owner, fun _ => 0⟩ b s v) :
    Part app (whose owner s c) b s v := by
  have hlabels : s.db.taskLabels.of (owner ·.taskId) b =
      s.db.taskLabels.of ((whose owner s c).owner ·.taskId) b := by
    refine Table.only_congr fun r hr => ?_
    show decide (owner r.taskId = some b) = decide ((whose owner s c).owner r.taskId = some b)
    rw [whose_issued (hs.attached r hr)]
  have hopen : v.db.labelTxs = s.db.labelTxs.filter fun T => (whose owner s c).caller T.pid = b := by
    rw [hv.labelTxs, hs.labelTxs]
    rfl
  exact { hv with
    taskLabels := hv.taskLabels.trans hlabels
    labelTxs := hopen }

/-! ### Runs -/

/-- The identifiers that the database generates for rows are new. -/
def FreshRows (e : Env) (s : AppState) : Prop :=
  Function.Injective e.rowUuid ∧ ∀ n, ∀ d ∈ s.db.webhookDeliveries, d.id ≠ e.rowUuid n

theorem refInv_of_start (hs : ReferenceStart s) : RefInv (Issued s) s :=
  ⟨hs.closed, fun l hl => .inl (hs.labels l hl), fun r hr => .inl (hs.taskLabels r hr), hs.created,
    hs.once, fun _ h => h⟩

section

variable (hs : TenantStart app owner s) {ms : List (Move Env (AuthenticatedUser × Request))}
  (hfresh : (requestSystem app).Along (fun d m => d.Meets (fun _ _ e s => FreshRows e s) m)
    (.start s) ms)
  (h : (requestSystem app).exec (.start s) ms = some c)
include hs h

/-- Identifiers that have been generated stay so, each by one call. -/
theorem issued_along : IssuedOnce c.st ∧ (requestSystem app).Along
    (fun d m => ∀ d', (requestSystem app).step d m = some d' →
      ∀ x ∈ d'.st.history.issued, x ∈ c.st.history.issued) (.start s) ms := by
  have hi : (referenceContract (Issued s)).inv s := refInv_of_start hs.toReferenceStart
  have hbody : ∀ i k, (referenceContract (Issued s)).Triple i (fun _ => True)
      ((requestSystem app).body k) (fun _ _ => True) := fun _ k => request_keeps k
  have hend := (throughFrom (fun _ => stable_const) hbody (fun _ _ _ _ ha => ha) hi
    (fun _ => trivial)).last h
  have hsteps := along_rel (R := fun s s' => ∀ x ∈ s.history.issued, x ∈ s'.history.issued)
    hbody (fun _ _ _ _ ha => ha) (fun _ _ hx => hx) (fun _ _ _ _ _ hg => hg.issued) hi h
  refine ⟨hend.1.1.once, (System.along_last (R := fun s s' => ∀ x ∈ s.history.issued,
    x ∈ s'.history.issued) (fun _ _ hx => hx) (fun _ _ _ h h' x hx => h' x (h x hx)) h hsteps).2⟩

include hfresh

/-- What the platform supplies to the statements of the run, it supplies in the parts. -/
theorem along_supplied : (requestSystem app).Along (fun d m => ∀ d',
    (requestSystem app).step d m = some d' →
      d.Meets (fun i l e s' => Supplied (whose owner s c) i l e s' d'.st) m) (.start s) ms := by
  obtain ⟨honce, hlast⟩ := issued_along hs h
  have hbody : ∀ i k, c.names i = some k → (referenceContract (Issued s)).Triple i (fun _ => True)
      ((requestSystem app).body k) (fun _ _ => True) := fun _ k _ => request_keeps k
  have hguar := alongNamed (fun _ => stable_const) hbody (fun _ _ _ _ ha _ => ha)
    (refInv_of_start hs.toReferenceStart) (fun _ => trivial) hfresh h c.named_names
  refine (((hguar.and hlast).and hfresh).and (System.along_named h c.named_names)).mono ?_
  rintro d m ⟨⟨⟨hguar, hlast⟩, hfresh⟩, hnamed⟩ d' hd i e rfl l hl
  obtain ⟨l', hl', ha⟩ := label_of_step hd
  obtain rfl := Option.some.inj (hl.symm.trans hl')
  obtain ⟨hinv, -⟩ := hguar d' hd i e rfl l hl
  obtain ⟨k, l, ready, eff, next, hcall, -, -, rfl⟩ := System.step_exec hd
  have hlt : i < d.calls.length := (List.getElem?_eq_some_iff.mp hcall).1
  have hk : c.names i = some k := hnamed _ hd i k _ (List.getElem?_set_self hlt)
  have hold : ¬ Issued s e.uuid := fun ho => (not_issued_of_admissible ha).2 (hinv.past _ ho)
  obtain ⟨hinj, hrows⟩ := hfresh i e rfl _ hl
  refine ⟨ha, fun hnew => ?_, hinj, hrows⟩
  rw [whose_caller hk]
  exact whose_new hold (hlast _ hd _ hnew) honce hk

/-- The run, seen in a tenant's part. -/
theorem exec_seen (hlib : UuidTexts app.lib) (hv : Part app ⟨owner, fun _ => 0⟩ b s v)
    (idle : AuthenticatedUser × Request) :
    ∃ d, (requestSystem app).exec (.start v) (seenBy home idle b [] ms) = some d ∧
      (tenantParts app (whose owner s c)).Seen home idle b c d := by
  have hbody : ∀ i k, c.names i = some k → (tenantParts app (whose owner s c)).Follows (home k) i
      (fun a a' => a' = a) ((requestSystem app).body k) ((requestSystem app).body k) :=
    fun _ k hk => (request_apart hlib (whose_caller hk) k.2).follows
  have hadm : ∀ i l e s' v', Part app (whose owner s c) b s' v' → admissible i l e s' = true →
      admissible i l e v' = true := by
    intro i l e s' v' hpart ha
    simp only [admissible, Bool.and_eq_true, Bool.not_eq_true', List.contains_eq_mem,
      decide_eq_false_iff_not, List.mem_map, not_exists, not_and] at ha ⊢
    exact ⟨⟨ha.1.1, fun x hx => ha.1.2 x (hpart.issued x hx)⟩, ha.2⟩
  exact exec_part hbody hadm (seen_start (consistent_whose hs) (part_whose hs hv))
    (along_supplied hs hfresh h) h c.named_names

end

end Tenants

open Tenants

/-- **A tenant is as if alone.**  Without the rows and the requests of all others, the requests of a
tenant execute the same statements and get the same replies, and its part of the state is the same
at the end. -/
theorem tenant_alone {app : App} (hlib : UuidTexts app.lib) {owner : Uuid → Option Uuid}
    {s v : AppState} {b : Uuid} (hs : TenantStart app owner s)
    (hv : Part app ⟨owner, fun _ => 0⟩ b s v) (idle : AuthenticatedUser × Request)
    {ms : List (Move Env (AuthenticatedUser × Request))} {c : RequestConfig}
    (hfresh : (requestSystem app).Along (fun d m => d.Meets (fun _ _ e s => FreshRows e s) m)
      (.start s) ms)
    (h : (requestSystem app).exec (.start s) ms = some c) :
    ∃ d, (requestSystem app).exec (.start v) (seenBy home idle b [] ms) = some d ∧
      Part app (whose owner s c) b c.st d.st ∧
      ∀ i k p, c.calls[i]? = some (k, p) → home k = b → d.result? i = c.result? i := by
  obtain ⟨d, hd, hseen⟩ := exec_seen hs hfresh h hlib hv idle
  exact ⟨d, hd, hseen.part, fun i k p hi hk => hseen.result hi hk⟩

namespace Tenants

variable {app : App} {b : Uuid} {s₁ s₂ v : AppState} {owner₁ owner₂ : Uuid → Option Uuid}
  {ms₁ ms₂ : List (Move Env (AuthenticatedUser × Request))} {c₁ c₂ : RequestConfig}

/-- Two runs, from states with the same part of a tenant, in which its requests execute the same
statements: they get the same replies, and the tenant has the same at the end. -/
theorem others_not_seen (hlib : UuidTexts app.lib) (hs₁ : TenantStart app owner₁ s₁)
    (hs₂ : TenantStart app owner₂ s₂) (hv₁ : Part app ⟨owner₁, fun _ => 0⟩ b s₁ v)
    (hv₂ : Part app ⟨owner₂, fun _ => 0⟩ b s₂ v) {idle : AuthenticatedUser × Request}
    (hidle : home idle ≠ b)
    (hfresh₁ : (requestSystem app).Along (fun d m => d.Meets (fun _ _ e s => FreshRows e s) m)
      (.start s₁) ms₁)
    (hfresh₂ : (requestSystem app).Along (fun d m => d.Meets (fun _ _ e s => FreshRows e s) m)
      (.start s₂) ms₂)
    (h₁ : (requestSystem app).exec (.start s₁) ms₁ = some c₁)
    (h₂ : (requestSystem app).exec (.start s₂) ms₂ = some c₂)
    (hms : seenBy home idle b [] ms₁ = seenBy home idle b [] ms₂) :
    (∃ w, Part app (whose owner₁ s₁ c₁) b c₁.st w ∧ Part app (whose owner₂ s₂ c₂) b c₂.st w) ∧
      ∀ i k p, c₁.calls[i]? = some (k, p) → home k = b → c₂.result? i = c₁.result? i :=
  exec_apart hidle (exec_seen hs₁ hfresh₁ h₁ hlib hv₁ idle) (exec_seen hs₂ hfresh₂ h₂ hlib hv₂ idle)
    hms

end Tenants

/-! ### Two tenants, a task each -/

namespace Tenants

/-- Task 3 of tenant 1, and task 4 of tenant 9, with its title. -/
def tasksWith (title : String) : AppState :=
  { (default : AppState) with
    db.tasks := ⟨[⟨3, 1, none, "one", none, .open, .medium, none, none, 2, 2, 0, 0⟩,
      ⟨4, 9, none, title, none, .open, .medium, none, none, 8, 8, 0, 0⟩],
      (by decide : ([3, 4] : List Uuid).Nodup)⟩
    history.issued := [(3, 0), (4, 0)] }

def taskEach : AppState := tasksWith "nine"

/-- Whose they are. -/
def eachOwner (x : Uuid) : Option Uuid :=
  if x = 3 then some 1 else if x = 4 then some 9 else none

theorem mem_tasksWith {title : String} {t : TaskRecord} (ht : t ∈ (tasksWith title).db.tasks) :
    t.projectId = none ∧ eachOwner t.id = some t.tenantId := by
  rcases List.mem_cons.mp ht with rfl | ht
  · exact ⟨rfl, rfl⟩
  · obtain rfl := List.mem_singleton.mp ht
    exact ⟨rfl, rfl⟩

theorem tasksWith_start {app : App} {title : String} :
    TenantStart app eachOwner (tasksWith title) where
  closed := by
    refine ⟨fun t ht p hp => ?_, ?_, ?_, ?_, ?_, ?_⟩
    · rw [(mem_tasksWith ht).1] at hp
      cases hp
    all_goals exact fun _ h => absurd h Table.not_mem_empty
  labels _ h := absurd h Table.not_mem_empty
  taskLabels _ h := absurd h Table.not_mem_empty
  created _ h := absurd h List.not_mem_nil
  once x i j hi hj := by
    have hzero : ∀ y ∈ ([(3, 0), (4, 0)] : List (Uuid × Nat)), y.2 = 0 := by decide
    exact (hzero _ hi).trans (hzero _ hj).symm
  consistent := by
    constructor
    case tasks => exact fun t ht => (mem_tasksWith ht).2
    case taskProjects =>
      intro t ht p hp
      rw [(mem_tasksWith ht).1] at hp
      cases hp
    case labelTxs => exact fun _ h => absurd h List.not_mem_nil
    case webhookTxs => exact fun _ h => absurd h List.not_mem_nil
    all_goals exact fun _ h => absurd h Table.not_mem_empty
  labelTxs := rfl
  webhookTxs := rfl
  owned x b h := by
    unfold eachOwner at h
    split at h
    · rename_i hx
      exact ⟨0, hx ▸ List.mem_cons_self⟩
    · split at h
      · rename_i hx
        exact ⟨0, hx ▸ List.mem_cons_of_mem _ List.mem_cons_self⟩
      · cases h
  attached _ h := absurd h Table.not_mem_empty
  jobs _ h := absurd h Table.not_mem_empty
  notifications _ h := absurd h Table.not_mem_empty
  auditLog _ h := absurd h Table.not_mem_empty

/-- The input of a statement of call `i`, with fresh identifiers. -/
def requestInput (i uuid : Nat) : Env :=
  { (default : Env) with pid := i, uuid, rowUuid := fun n => 1000 + n }

def requestMove (i uuid : Nat) : Move Env (AuthenticatedUser × Request) :=
  .exec i (requestInput i uuid)

/-- A user of tenant 1 and one of tenant 9 comment on the task of tenant 1, statement by
statement. -/
def bothComment : List (Move Env (AuthenticatedUser × Request)) :=
  [.call (⟨2, 1, .member, 0⟩, .write (.createTaskComment 3 (some "a") "mine")),
      .call (⟨8, 9, .owner, 0⟩, .write (.createTaskComment 3 (some "a") "theirs"))] ++
    (List.range 5).flatMap (fun n => [requestMove 0 (10 + n), requestMove 1 (20 + n)]) ++
    (List.range 4).map fun n => requestMove 0 (30 + n)

/-- The inputs of the run generate the rows 1000, 1001, ... -/
def RowsFrom (m : Move Env (AuthenticatedUser × Request)) : Prop :=
  ∀ i e, m = .exec i e → e.rowUuid = fun n => 1000 + n

/-- As long as there are no deliveries, the rows are new. -/
theorem fresh_of_rowsFrom {app : App} {s : AppState}
    {ms : List (Move Env (AuthenticatedUser × Request))} (hms : ∀ m ∈ ms, RowsFrom m)
    (h : (requestSystem app).Along (fun d _ => d.st.db.webhookDeliveries.rows.length = 0)
      (.start s) ms) :
    (requestSystem app).Along (fun d m => d.Meets (fun _ _ e s => FreshRows e s) m) (.start s) ms := by
  have hmoves : (requestSystem app).Along (fun _ m => RowsFrom m) (.start s) ms :=
    System.along_remaining (I := fun ms _ => ∀ m ∈ ms, RowsFrom m)
      (fun _ _ _ _ hI _ m hm => hI m (List.mem_cons_of_mem _ hm))
      (fun _ _ _ hI => hI _ List.mem_cons_self) hms
  refine (h.and hmoves).mono fun d m hm i e he l _ => ⟨?_, fun n r hr => ?_⟩
  · rw [hm.2 i e he]
    exact fun a b hab => Nat.add_left_cancel hab
  · have hnil : d.st.db.webhookDeliveries.rows = [] := List.eq_nil_of_length_eq_zero hm.1
    have hmem : r ∈ d.st.db.webhookDeliveries.rows := hr
    rw [hnil] at hmem
    exact absurd hmem List.not_mem_nil

theorem bothComment_rows : ∀ m ∈ bothComment, RowsFrom m := by
  intro m hm i e he
  subst he
  rcases List.mem_append.mp hm with hm | hm
  · rcases List.mem_append.mp hm with hm | hm
    · simp at hm
    · obtain ⟨n, -, hn⟩ := List.mem_flatMap.mp hm
      rcases List.mem_cons.mp hn with hn | hn
      · cases hn
        rfl
      · cases List.mem_singleton.mp hn
        rfl
  · obtain ⟨n, -, hn⟩ := List.mem_map.mp hm
    cases hn
    rfl

/-- Without tenant 9, the user of tenant 1 comments in the same way. -/
theorem tenant_alone_comments : ∃ c d,
    (requestSystem hyphenating).exec (.start taskEach) bothComment = some c ∧
      (c.result? 0).isSome = true ∧ (c.result? 1).isSome = true ∧
      c.st.db.comments.rows.map (fun r => (r.taskId, r.tenantId)) = [(3, 1)] ∧
      (requestSystem hyphenating).exec (.start (partOf ⟨eachOwner, fun _ => 0⟩ 1 taskEach))
        (seenBy home (⟨8, 9, .owner, 0⟩, .listProjects) 1 [] bothComment) = some d ∧
      Part hyphenating (whose eachOwner taskEach c) 1 c.st d.st ∧ d.result? 0 = c.result? 0 := by
  have hrun : ((requestSystem hyphenating).exec (.start taskEach) bothComment).any fun c =>
      (c.result? 0).isSome = true ∧ (c.result? 1).isSome = true ∧
        c.st.db.comments.rows.map (fun r => (r.taskId, r.tenantId)) = [(3, 1)] ∧
        (c.calls[0]?).map (fun k => home k.1) = some 1 := by decide +kernel
  obtain ⟨c, hc, h⟩ := (Option.any_eq_true _ _).mp hrun
  obtain ⟨h₀, h₁, hcomments, hcall⟩ := of_decide_eq_true h
  obtain ⟨⟨k, p⟩, hk, hhome⟩ := Option.map_eq_some_iff.mp hcall
  obtain ⟨d, hd, hpart, hresult⟩ := tenant_alone hyphenating_texts tasksWith_start part_partOf
    (⟨8, 9, .owner, 0⟩, .listProjects) (fresh_of_rowsFrom bothComment_rows (by decide +kernel)) hc
  exact ⟨c, d, hc, h₀, h₁, hcomments, hd, hpart, hresult 0 k p hk hhome⟩

end Tenants

end Fluxa
