import Fluxa.Http.Queries
import Fluxa.Interleave.Parts
import Fluxa.Keys.Redis
import Fluxa.Relational.Owners
import Fluxa.Tasks.Coherence

/-!
# Tenants — parts

The shared state, taken apart by tenants.  **`Part`** is what a tenant has of it: its rows, its idempotency keys, cached answers and cache version, and its files; users, with their preferences, tokens and linked accounts, belong to all.  The rows of `task_labels` say whose they are only through the task, and keys of new rows must not be those of rows that a tenant does not see, so whose an identifier is has to be known beforehand: **`Whose`** says so, also for identifiers that are still to be generated.  **`Consistent`** states keep to it.

The rules below are those for single statements; **`Fluxa.Tenants.Reads`** and **`Fluxa.Tenants.Changes`** apply them to the functions of `db/*.rs`.
-/

namespace Fluxa
open Interleave Relational Db

namespace Tenants

/-! ### Files -/

/-- The key is one of the tenant's: of an attachment or of an export's artifact. -/
def KeyOf (app : App) (tenantId : Uuid) (key : String) : Prop :=
  (Paths.segments key.toList).head? = some (app.lib.uuidString tenantId).toList ∨
    ∃ rest, Paths.segments key.toList =
      "attachments".toList :: (app.lib.uuidString tenantId).toList :: rest

theorem keyOf_unique {app : App} (h : UuidTexts app.lib) {b b' : Uuid} {key : String}
    (hb : KeyOf app b key) (hb' : KeyOf app b' key) : b' = b := by
  have hfolder : ∀ id, (app.lib.uuidString id).toList ≠ "attachments".toList := by
    intro id hid
    have ht : 't' ∈ (app.lib.uuidString id).toList := by
      rw [hid]
      decide
    rcases h.shape id 't' ht with hdigit | hhyphen
    · exact absurd hdigit (by decide)
    · exact absurd hhyphen (by decide)
  rcases hb with hb | ⟨rest, hb⟩
  · rcases hb' with hb' | ⟨rest', hb'⟩
    · exact Keys.uuid_inj h (Option.some.inj (hb'.symm.trans hb))
    · rw [hb'] at hb
      exact absurd (Option.some.inj hb).symm (hfolder b)
  · rcases hb' with hb' | ⟨rest', hb'⟩
    · rw [hb] at hb'
      exact absurd (Option.some.inj hb').symm (hfolder b')
    · rw [hb] at hb'
      exact (Keys.uuid_inj h (List.cons.inj (List.cons.inj hb').2).1).symm

theorem keyOf_storageKey {app : App} (h : UuidTexts app.lib) (tenantId taskId attachmentId : Uuid) :
    KeyOf app tenantId (Attachments.storageKey app tenantId taskId attachmentId) := by
  refine .inr ⟨[(app.lib.uuidString taskId).toList, (app.lib.uuidString attachmentId).toList], ?_⟩
  have hplain : ∀ id, ∀ c ∈ (app.lib.uuidString id).toList, Storage.isPlain c = true := by
    intro id c hc
    rcases h.shape id c hc with hdigit | rfl
    · exact Storage.isPlain_of_isDigit hdigit
    · rfl
  refine Eq.trans (congrArg Paths.segments ?_) (Storage.segments_intercalate (List.cons_ne_nil
    "attachments".toList [(app.lib.uuidString tenantId).toList, (app.lib.uuidString taskId).toList,
      (app.lib.uuidString attachmentId).toList]) fun name hname => ?_)
  · simp [Attachments.storageKey, toString, String.toList_append, List.intercalate]
  · simp only [List.mem_cons, List.not_mem_nil, or_false] at hname
    rcases hname with rfl | rfl | rfl | rfl
    · exact List.all_eq_true.mp (by decide)
    all_goals exact hplain _

/-! ### Whose identifiers are -/

/-- Whose the identifiers are, and whose the calls. -/
structure Whose where
  owner : Uuid → Option Uuid
  caller : Nat → Uuid

/-- Rows have identifiers of their tenants, and refer to rows of their tenants. -/
structure Consistent (app : App) (o : Whose) (s : AppState) : Prop where
  projects : s.db.projects.Labelled o.owner (some ·.tenantId)
  labels : s.db.labels.Labelled o.owner (some ·.tenantId)
  tasks : s.db.tasks.Labelled o.owner (some ·.tenantId)
  taskAudit : s.db.taskAudit.Labelled o.owner (some ·.tenantId)
  comments : s.db.comments.Labelled o.owner (some ·.tenantId)
  attachments : s.db.attachments.Labelled o.owner (some ·.tenantId)
  webhooks : s.db.webhooks.Labelled o.owner (some ·.tenantId)
  jobs : s.db.jobs.Labelled o.owner (·.tenantId)
  notifications : s.db.notifications.Labelled o.owner (·.tenantId)
  auditLog : s.db.auditLog.Labelled o.owner (·.tenantId)
  taskProjects : ∀ t ∈ s.db.tasks, ∀ p, t.projectId = some p → o.owner p = some t.tenantId
  taskLabels : ∀ r ∈ s.db.taskLabels, o.owner r.taskId = o.owner r.labelId
  deliveries : ∀ d ∈ s.db.webhookDeliveries, o.owner d.webhookId = some d.tenantId
  storageKeys : ∀ a ∈ s.db.attachments, KeyOf app a.tenantId a.storageKey
  artifacts : ∀ j ∈ s.db.jobs, ∀ b, j.tenantId = some b → ∀ result,
    j.resultPayload = some result → ∀ file, Http.artifactOf result = .ok file → KeyOf app b file.1
  labelTxs : ∀ T ∈ s.db.labelTxs, o.owner T.taskId = some (o.caller T.pid)
  webhookTxs : ∀ T ∈ s.db.webhookTxs, T.tenantId = o.caller T.pid

/-- What a reader gets of a cached answer. -/
def answerOf (entry : Option (Entry CachedTasks)) : Option ((TaskPage ⊕ TaskRecord) × Option Time) :=
  entry.map fun entry => (entry.value.answer, entry.expiresAt)

/-- The second state is what tenant `b` has of the first. -/
structure Part (app : App) (o : Whose) (b : Uuid) (s v : AppState) : Prop where
  users : v.db.users = s.db.users
  preferences : v.db.preferences = s.db.preferences
  oauthAccounts : v.db.oauthAccounts = s.db.oauthAccounts
  userTokens : v.db.userTokens = s.db.userTokens
  tenants : v.db.tenants = s.db.tenants.of (some ·.id) b
  memberships : v.db.memberships = s.db.memberships.of (some ·.tenantId) b
  invitations : v.db.invitations = s.db.invitations.of (some ·.tenantId) b
  refreshTokens : v.db.refreshTokens = s.db.refreshTokens.of (some ·.tenantId) b
  projects : v.db.projects = s.db.projects.of (some ·.tenantId) b
  labels : v.db.labels = s.db.labels.of (some ·.tenantId) b
  taskLabels : v.db.taskLabels = s.db.taskLabels.of (o.owner ·.taskId) b
  tasks : v.db.tasks = s.db.tasks.of (some ·.tenantId) b
  taskAudit : v.db.taskAudit = s.db.taskAudit.of (some ·.tenantId) b
  comments : v.db.comments = s.db.comments.of (some ·.tenantId) b
  attachments : v.db.attachments = s.db.attachments.of (some ·.tenantId) b
  webhooks : v.db.webhooks = s.db.webhooks.of (some ·.tenantId) b
  webhookDeliveries : v.db.webhookDeliveries = s.db.webhookDeliveries.of (some ·.tenantId) b
  jobs : v.db.jobs = s.db.jobs.of (·.tenantId) b
  notifications : v.db.notifications = s.db.notifications.of (·.tenantId) b
  auditLog : v.db.auditLog = s.db.auditLog.of (·.tenantId) b
  labelTxs : v.db.labelTxs = s.db.labelTxs.filter fun T => o.caller T.pid = b
  webhookTxs : v.db.webhookTxs = s.db.webhookTxs.filter fun T => T.tenantId = b
  idempotency : ∀ key, key.tenantId = b → v.cache.idempotency key = s.cache.idempotency key
  versions : v.cache.versions b = s.cache.versions b
  answers : ∀ key, key.tenantId = b → answerOf (v.cache.tasks key) = answerOf (s.cache.tasks key)
  storage : ∀ key, KeyOf app b key → v.storage key = s.storage key
  issued : ∀ x ∈ v.history.issued, x ∈ s.history.issued

/-- What the platform supplies to a statement of call `i`: a generated identifier is one of the
call's tenant, and those that the database generates are no identifiers of deliveries. -/
structure Supplied (o : Whose) (i : Nat) (event : Event) (e : Env) (s s' : AppState) : Prop where
  admissible : admissible i event e s = true
  issued : (e.uuid, i) ∈ s'.history.issued → o.owner e.uuid = some (o.caller i)
  distinct : Function.Injective e.rowUuid
  fresh : ∀ n, ∀ d ∈ s.db.webhookDeliveries, d.id ≠ e.rowUuid n

/-- The rows of the tenant alone. -/
def partOf (o : Whose) (b : Uuid) (s : AppState) : AppState :=
  { s with
    db.tenants := s.db.tenants.of (some ·.id) b
    db.memberships := s.db.memberships.of (some ·.tenantId) b
    db.invitations := s.db.invitations.of (some ·.tenantId) b
    db.refreshTokens := s.db.refreshTokens.of (some ·.tenantId) b
    db.projects := s.db.projects.of (some ·.tenantId) b
    db.labels := s.db.labels.of (some ·.tenantId) b
    db.taskLabels := s.db.taskLabels.of (o.owner ·.taskId) b
    db.tasks := s.db.tasks.of (some ·.tenantId) b
    db.taskAudit := s.db.taskAudit.of (some ·.tenantId) b
    db.comments := s.db.comments.of (some ·.tenantId) b
    db.attachments := s.db.attachments.of (some ·.tenantId) b
    db.webhooks := s.db.webhooks.of (some ·.tenantId) b
    db.webhookDeliveries := s.db.webhookDeliveries.of (some ·.tenantId) b
    db.jobs := s.db.jobs.of (·.tenantId) b
    db.notifications := s.db.notifications.of (·.tenantId) b
    db.auditLog := s.db.auditLog.of (·.tenantId) b
    db.labelTxs := s.db.labelTxs.filter fun T => o.caller T.pid = b
    db.webhookTxs := s.db.webhookTxs.filter fun T => T.tenantId = b }

theorem part_partOf {app : App} {o : Whose} {b : Uuid} {s : AppState} :
    Part app o b s (partOf o b s) := by
  constructor
  all_goals first
    | rfl
    | exact fun _ _ => rfl
    | exact fun _ h => h

/-- The state, taken apart by tenants. -/
def tenantParts (app : App) (o : Whose) : Parts Uuid Event Env AppState where
  inv := Consistent app o
  part := Part app o
  cond := Supplied o
  calm v := v.db.labelTxs = [] ∧ v.db.webhookTxs = []
  total b s _ := ⟨partOf o b s, part_partOf⟩

/-! ### Statements -/

variable {app : App} {o : Whose} {b : Uuid} {i : Nat} {A : Type}

theorem not_issued_of_supplied {event : Event} {e : Env} {s s' : AppState}
    (h : Supplied o i event e s s') : e.pid = i ∧ ∀ j, (e.uuid, j) ∉ s.history.issued := by
  have ha := h.admissible
  simp only [Fluxa.admissible, Bool.and_eq_true, decide_eq_true_eq, Bool.not_eq_true',
    List.contains_eq_mem, decide_eq_false_iff_not] at ha
  exact ⟨ha.1.1, fun j hj => ha.1.2 (List.mem_map.mpr ⟨_, hj, rfl⟩)⟩

/-- A statement on the database that waits. -/
theorem sqlWhen_follows {B : Type} {M : A → B → Prop} {event : Event} {ready ready' : AppState → Bool}
    {run : Env → AppState → Except AppError A × AppState}
    {run' : Env → AppState → Except AppError B × AppState}
    (hready : (tenantParts app o).Waits b ready ready')
    (h : ∀ e s v, Consistent app o s → Part app o b s v → Supplied o i event e s (run e s).2 →
      (tenantParts app o).Step b s (run e s).2 v (run' e v).2 ∧
        SameResult M (run e s).1 (run' e v).1) :
    (tenantParts app o).Follows b i M (sqlWhen event ready run) (sqlWhen event ready' run') := by
  refine Parts.Follows.atomic hready fun e s v hs hv _ hc => ?_
  cases hf : e.fault with
  | none =>
      simp only [hf] at hc ⊢
      exact h e s v hs hv hc
  | failed => exact ⟨.refl hs hv, rfl⟩
  | lost =>
      simp only [hf] at hc ⊢
      exact ⟨(h e s v hs hv hc).1, rfl⟩

theorem sql_follows {B : Type} {M : A → B → Prop} {event : Event}
    {run : Env → AppState → Except AppError A × AppState}
    {run' : Env → AppState → Except AppError B × AppState}
    (h : ∀ e s v, Consistent app o s → Part app o b s v → Supplied o i event e s (run e s).2 →
      (tenantParts app o).Step b s (run e s).2 v (run' e v).2 ∧
        SameResult M (run e s).1 (run' e v).1) :
    (tenantParts app o).Follows b i M (sql event run) (sql event run') :=
  sqlWhen_follows .free h

/-- A `SELECT` whose result the tenant sees. -/
theorem select_follows {B : Type} {M : A → B → Prop} {run : Env → AppState → A}
    {run' : Env → AppState → B}
    (h : ∀ e s v, Consistent app o s → Part app o b s v → M (run e s) (run' e v)) :
    (tenantParts app o).Follows b i M (select run) (select run') :=
  sql_follows fun e s v hs hv _ => ⟨.refl hs hv, h e s v hs hv⟩

theorem redis_follows {B : Type} {M : A → B → Prop} {event : Event}
    {run : Env → AppState → A × AppState} {run' : Env → AppState → B × AppState}
    (h : ∀ e s v, Consistent app o s → Part app o b s v →
      (tenantParts app o).Step b s (run e s).2 v (run' e v).2 ∧ M (run e s).1 (run' e v).1) :
    (tenantParts app o).Follows b i M (redisAs event run) (redisAs event run') := by
  refine Parts.Follows.atomic .free fun e s v hs hv _ _ => ?_
  cases e.fault with
  | none => exact h e s v hs hv
  | failed => exact ⟨.refl hs hv, rfl⟩
  | lost => exact ⟨(h e s v hs hv).1, rfl⟩

theorem utcNow_follows :
    (tenantParts app o).Follows b i (fun a a' => a' = a) utcNow utcNow :=
  Parts.Follows.atomic .free fun _ _ _ hs hv _ _ => ⟨.refl hs hv, rfl⟩

theorem generateRandom_follows :
    (tenantParts app o).Follows b i (fun a a' => a' = a) generateRandom generateRandom :=
  Parts.Follows.atomic .free fun _ _ _ hs hv _ _ => ⟨.refl hs hv, rfl⟩

/-- The identifier is one of the call's tenant. -/
theorem newUuid_follows (hi : o.caller i = b) :
    (tenantParts app o).Follows b i (fun a a' => a' = a ∧ o.owner a = some b) newUuid newUuid := by
  refine Parts.Follows.atomic .free fun e s v hs hv _ hc =>
    ⟨⟨?_, ?_, fun b' _ w hw => ?_⟩, rfl, ?_⟩
  · exact { hs with }
  · exact { hv with
      issued := fun x hx => by
        rcases List.mem_cons.mp hx with rfl | hx
        · exact List.mem_cons_self
        · exact List.mem_cons_of_mem _ (hv.issued x hx) }
  · exact { hw with issued := fun x hx => List.mem_cons_of_mem _ (hw.issued x hx) }
  · have hpid : e.pid = i := (not_issued_of_supplied hc).1
    rw [← hi]
    exact hc.issued (hpid ▸ List.mem_cons_self)

/-! ### Programs of a tenant -/

/-- The program of call `i` does in the tenant's part what it does on the whole state, leaves the
other parts alone, and ends with a value in `Q`. -/
def Apart (app : App) (o : Whose) (tenantId : Uuid) (i : Nat) (Q : A → Prop) (p : Service A) : Prop :=
  (tenantParts app o).Follows tenantId i (fun a a' => a' = a ∧ Q a) p p

variable {B : Type} {tenantId : Uuid} {Q : A → Prop} {R : B → Prop} {p : Service A}
  {f : A → Service B}

namespace Apart

theorem follows (h : Apart app o tenantId i Q p) :
    (tenantParts app o).Follows tenantId i (fun a a' => a' = a) p p :=
  h.mono fun _ _ h => h.1

theorem of_follows (h : (tenantParts app o).Follows tenantId i (fun a a' => a' = a) p p) :
    Apart app o tenantId i (fun _ => True) p :=
  Parts.Follows.mono h fun _ _ h => ⟨h, trivial⟩

theorem mono {Q' : A → Prop} (h : Apart app o tenantId i Q p) (hQ : ∀ a, Q a → Q' a) :
    Apart app o tenantId i Q' p :=
  Parts.Follows.mono h fun _ _ h => ⟨h.1, hQ _ h.2⟩

/-- What follows may use what is known of the value. -/
theorem bind (h : Apart app o tenantId i Q p) (hf : ∀ a, Q a → Apart app o tenantId i R (f a)) :
    Apart app o tenantId i R (p.bind f) := by
  refine Parts.Follows.bind h fun a a' ha => ?_
  obtain ⟨rfl, hq⟩ := ha
  exact hf _ hq

theorem done {a : A} (h : Q a) : Apart app o tenantId i Q (.done (.ok a)) :=
  Parts.Follows.done ⟨rfl, h⟩

theorem fail {x : AppError} : Apart app o tenantId i Q (Prog.fail x) := Parts.Follows.fail

theorem lift {r : Except AppError A} : Apart app o tenantId i (fun a => r = .ok a) (Prog.lift r) := by
  refine Parts.Follows.done ?_
  cases r with
  | ok a => exact ⟨rfl, rfl⟩
  | error x => rfl

theorem ensure {c : Bool} {x : AppError} :
    Apart app o tenantId i (fun _ => c = true) (Prog.ensure c x) :=
  Parts.Follows.mono .ensure fun _ _ h => ⟨rfl, h⟩

theorem okOr {a? : Option A} {x : AppError} :
    Apart app o tenantId i (fun a => a? = some a) (Prog.okOr a? x) :=
  Parts.Follows.okOr

/-- An error is handed on as a value. -/
theorem attempt (h : Apart app o tenantId i Q p) :
    Apart app o tenantId i (fun r => ∀ a, r = .ok a → Q a) p.attempt := by
  refine Parts.Follows.mono (Parts.Follows.attempt h) fun r r' hr => ?_
  have he : r' = r := sameResult_eq (hr.mono fun _ _ h => h.1)
  refine ⟨he, fun a ha => ?_⟩
  subst ha
  subst he
  exact hr.2

theorem ite {c : Prop} [Decidable c] {p q : Service A} (hp : c → Apart app o tenantId i Q p)
    (hq : ¬ c → Apart app o tenantId i Q q) : Apart app o tenantId i Q (if c then p else q) := by
  split
  · exact hp ‹_›
  · exact hq ‹_›

theorem select {run : Env → AppState → A}
    (h : ∀ e s v, Consistent app o s → Part app o tenantId s v →
      run e v = run e s ∧ Q (run e s)) : Apart app o tenantId i Q (Fluxa.select run) :=
  select_follows h

theorem sql {event : Event} {run : Env → AppState → Except AppError A × AppState}
    (h : ∀ e s v, Consistent app o s → Part app o tenantId s v →
      Supplied o i event e s (run e s).2 →
      (tenantParts app o).Step tenantId s (run e s).2 v (run e v).2 ∧
        SameResult (fun a a' => a' = a ∧ Q a) (run e s).1 (run e v).1) :
    Apart app o tenantId i Q (Fluxa.sql event run) :=
  sql_follows h

theorem redis {event : Event} {run : Env → AppState → A × AppState}
    (h : ∀ e s v, Consistent app o s → Part app o tenantId s v →
      (tenantParts app o).Step tenantId s (run e s).2 v (run e v).2 ∧
        (run e v).1 = (run e s).1 ∧ Q (run e s).1) :
    Apart app o tenantId i Q (redisAs event run) :=
  redis_follows h

theorem utcNow : Apart app o tenantId i (fun _ => True) Fluxa.utcNow := of_follows utcNow_follows

theorem newUuid (hi : o.caller i = tenantId) :
    Apart app o tenantId i (fun id => o.owner id = some tenantId) Fluxa.newUuid :=
  newUuid_follows hi

end Apart

end Tenants

end Fluxa
