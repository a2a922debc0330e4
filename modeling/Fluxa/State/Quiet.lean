import Fluxa.Db.Notifications
import Fluxa.Interleave.Windows
import Fluxa.Services.Audit
import Fluxa.Services.Tasks

/-!
# State — quiet statements

The rules for the statements of `Fluxa.State.AppState` under a contract.  Most statements of most services are beside the point of a given contract: they only read, generate an identifier, or write where nothing of interest is kept (**`Aside`**: audit events, artifacts and the job queue; **`Onlooker`**: the audit rows of tasks and webhook deliveries as well; **`Bystander`**: the cached answers too).  A contract that allows these (**`Discreet`**, **`Lenient`**, **`Tolerant`**) gets the rules for the functions made of them once and for all.
-/

namespace Fluxa
open Interleave Relational Contract

/-- The two states differ only in audit rows, webhook deliveries, artifacts, the job queue and
the cached answers with their versions. -/
structure Bystander (s s' : AppState) : Prop where
  users : s'.db.users = s.db.users
  tenants : s'.db.tenants = s.db.tenants
  memberships : s'.db.memberships = s.db.memberships
  invitations : s'.db.invitations = s.db.invitations
  refreshTokens : s'.db.refreshTokens = s.db.refreshTokens
  oauthAccounts : s'.db.oauthAccounts = s.db.oauthAccounts
  userTokens : s'.db.userTokens = s.db.userTokens
  projects : s'.db.projects = s.db.projects
  labels : s'.db.labels = s.db.labels
  taskLabels : s'.db.taskLabels = s.db.taskLabels
  tasks : s'.db.tasks = s.db.tasks
  comments : s'.db.comments = s.db.comments
  attachments : s'.db.attachments = s.db.attachments
  webhooks : s'.db.webhooks = s.db.webhooks
  jobs : s'.db.jobs = s.db.jobs
  notifications : s'.db.notifications = s.db.notifications
  preferences : s'.db.preferences = s.db.preferences
  tokenLocks : s'.db.tokenLocks = s.db.tokenLocks
  labelTxs : s'.db.labelTxs = s.db.labelTxs
  webhookTxs : s'.db.webhookTxs = s.db.webhookTxs
  acceptTxs : s'.db.acceptTxs = s.db.acceptTxs
  idempotency : s'.cache.idempotency = s.cache.idempotency
  denylist : s'.cache.denylist = s.cache.denylist
  history : s'.history = s.history

theorem Bystander.refl (s : AppState) : Bystander s s := by
  constructor <;> rfl

/-- The two states differ only in audit rows, webhook deliveries, artifacts and the job queue. -/
structure Onlooker (s s' : AppState) : Prop extends Bystander s s' where
  versions : s'.cache.versions = s.cache.versions
  bumps : s'.cache.bumps = s.cache.bumps
  cachedTasks : s'.cache.tasks = s.cache.tasks

theorem Onlooker.refl (s : AppState) : Onlooker s s := by
  constructor
  · exact .refl s
  all_goals rfl

/-- The two states differ only in audit events, artifacts and the job queue. -/
structure Aside (s s' : AppState) : Prop extends Onlooker s s' where
  taskAudit : s'.db.taskAudit = s.db.taskAudit
  webhookDeliveries : s'.db.webhookDeliveries = s.db.webhookDeliveries

theorem Aside.refl (s : AppState) : Aside s s := ⟨.refl s, rfl, rfl⟩

/-! ### Generated identifiers -/

/-- The identifier has been generated. -/
def Issued (s : AppState) (id : Uuid) : Prop := ∃ i, (id, i) ∈ s.history.issued

theorem Issued.cons {s : AppState} {id : Uuid} (h : Issued s id) (x : Uuid × Nat) :
    Issued { s with history.issued := x :: s.history.issued } id :=
  h.imp fun _ => List.mem_cons_of_mem _

/-- Every identifier has been generated once. -/
def IssuedOnce (s : AppState) : Prop :=
  ∀ id i j, (id, i) ∈ s.history.issued → (id, j) ∈ s.history.issued → i = j

theorem IssuedOnce.cons {s : AppState} {id : Uuid} {i : Nat} (h : IssuedOnce s)
    (hf : ¬ Issued s id) :
    IssuedOnce { s with history.issued := (id, i) :: s.history.issued } := by
  intro x a b ha hb
  simp only [List.mem_cons, Prod.mk.injEq] at ha hb
  rcases ha with ⟨rfl, rfl⟩ | ha
  · rcases hb with ⟨-, rfl⟩ | hb
    · rfl
    · exact absurd ⟨b, hb⟩ hf
  · rcases hb with ⟨rfl, rfl⟩ | hb
    · exact absurd ⟨a, ha⟩ hf
    · exact h x a b ha hb

/-- What the platform supplies to call `i` has its number, and a new identifier. -/
theorem not_issued_of_admissible {i : Nat} {l : Event} {e : Env} {s : AppState}
    (h : admissible i l e s = true) : e.pid = i ∧ ¬ Issued s e.uuid := by
  simp only [admissible, Bool.and_eq_true, decide_eq_true_eq, Bool.not_eq_true',
    List.contains_eq_mem, decide_eq_false_iff_not, List.mem_map, not_exists, not_and] at h
  refine ⟨h.1.1, ?_⟩
  rintro ⟨k, hk⟩
  exact h.1.2 _ hk rfl

/-! ### Tolerant contracts -/

variable {K : Contract Event Env AppState} {i : Nat} {A : Type}

/-- The contract allows statements that change nothing, or have failed, and statements that
generate an identifier. -/
structure Patient (K : Contract Event Env AppState) : Prop where
  stay : ∀ i l e s, K.inv s → e.fault = .failed → K.guar i l e s s
  same : ∀ i e s, K.inv s → K.guar i .quiet e s s
  issue : ∀ i e s, K.inv s → K.adm i .quiet e s → K.guar i .quiet e s
    { s with history.issued := (e.uuid, e.pid) :: s.history.issued }

/-- The contract allows besides the statements that change nothing of any interest. -/
structure Discreet (K : Contract Event Env AppState) : Prop extends Patient K where
  aside : ∀ i e s s', K.inv s → Aside s s' → K.guar i .quiet e s s'
  same i e s hi := aside i e s s hi (.refl s)

/-- The contract allows besides the statements that change neither the cached answers nor anything
of interest. -/
structure Lenient (K : Contract Event Env AppState) : Prop extends Patient K where
  onlooker : ∀ i e s s', K.inv s → Onlooker s s' → K.guar i .quiet e s s'
  same i e s hi := onlooker i e s s hi (.refl s)

/-- The contract allows besides the statements that change nothing of interest. -/
structure Tolerant (K : Contract Event Env AppState) : Prop extends Patient K where
  bystander : ∀ i e s s', K.inv s → Bystander s s' → K.guar i .quiet e s s'
  same i e s hi := bystander i e s s hi (.refl s)

theorem Tolerant.lenient (hK : Tolerant K) : Lenient K :=
  { hK.toPatient with onlooker := fun i e s s' hi h => hK.bystander i e s s' hi h.toBystander }

theorem Lenient.discreet (hK : Lenient K) : Discreet K :=
  { hK.toPatient with aside := fun i e s s' hi h => hK.onlooker i e s s' hi h.toOnlooker }

instance : Coe (Discreet K) (Patient K) := ⟨Discreet.toPatient⟩

instance : Coe (Lenient K) (Discreet K) := ⟨Lenient.discreet⟩

instance : Coe (Tolerant K) (Patient K) := ⟨Tolerant.toPatient⟩

instance : Coe (Lenient K) (Patient K) := ⟨Lenient.toPatient⟩

instance : Coe (Tolerant K) (Lenient K) := ⟨Tolerant.lenient⟩

section Statements

variable (hK : Patient K)
include hK

/-- A statement on the database: it is executed, and then its result may be lost, or it fails. -/
theorem sqlWhen_triple {event : Event} {ready : AppState → Bool}
    {run : Env → AppState → Except AppError A × AppState} {P : AppState → Prop}
    {Q : A → AppState → Prop} (hP : K.Stable i P) (hQ : ∀ a, K.Stable i (Q a))
    (h : ∀ s e, K.inv s → P s → ready s = true → K.adm i event e s → e.fault ≠ .failed →
      K.guar i event e s (run e s).2 ∧ onOk Q (run e s).1 (run e s).2) :
    K.Triple i P (sqlWhen event ready run) (onOk Q) := by
  refine Triple.atomic hP (stable_onOk hQ) fun s e hi hs hy ha => ?_
  cases hf : e.fault with
  | none => exact h s e hi hs hy ha (by simp [hf])
  | failed => exact ⟨hK.stay i event e s hi hf, trivial⟩
  | lost => exact ⟨(h s e hi hs hy ha (by simp [hf])).1, trivial⟩

theorem sql_triple {event : Event} {run : Env → AppState → Except AppError A × AppState}
    {P : AppState → Prop} {Q : A → AppState → Prop} (hP : K.Stable i P)
    (hQ : ∀ a, K.Stable i (Q a))
    (h : ∀ s e, K.inv s → P s → K.adm i event e s → e.fault ≠ .failed →
      K.guar i event e s (run e s).2 ∧ onOk Q (run e s).1 (run e s).2) :
    K.Triple i P (sql event run) (onOk Q) :=
  sqlWhen_triple hK hP hQ fun s e hi hs _ => h s e hi hs

/-- A statement that keeps to one contract keeps to another whose further demands it meets. -/
theorem sql_refine {K₀ : Contract Event Env AppState} {event : Event}
    {run : Env → AppState → Except AppError A × AppState} {P : AppState → Prop}
    {Q R : A → AppState → Prop} (h₀ : K₀.Triple i P (sql event run) (onOk Q))
    (hinv : ∀ s, K.inv s → K₀.inv s) (hadm : ∀ e s, K.adm i event e s → K₀.adm i event e s)
    (hP : K.Stable i P) (hR : ∀ a, K.Stable i (R a))
    (h : ∀ s e, K.inv s → P s → K.adm i event e s → K₀.guar i event e s (run e s).2 →
      K.guar i event e s (run e s).2 ∧
        (onOk Q (run e s).1 (run e s).2 → onOk R (run e s).1 (run e s).2)) :
    K.Triple i P (sql event run) (onOk R) := by
  refine Triple.atomic hP (stable_onOk hR) fun s e hi hs hy ha => ?_
  obtain ⟨hg, hq⟩ := Triple.of_atomic h₀ (hinv s hi) hs hy (hadm e s ha)
  cases hf : e.fault with
  | none =>
      simp only [hf] at hg hq ⊢
      obtain ⟨hg', hr⟩ := h s e hi hs ha hg
      exact ⟨hg', hr hq⟩
  | failed => exact ⟨hK.stay i event e s hi hf, trivial⟩
  | lost =>
      simp only [hf] at hg ⊢
      exact ⟨(h s e hi hs ha hg).1, trivial⟩

/-- A statement whose effect the contract allows where `P` holds. -/
theorem sqlWhen_from {event : Event} {ready : AppState → Bool}
    {run : Env → AppState → Except AppError A × AppState} {P : AppState → Prop}
    (hP : K.Stable i P)
    (h : ∀ s e, K.inv s → P s → ready s = true → K.adm i event e s → e.fault ≠ .failed →
      K.guar i event e s (run e s).2) : K.Triple i P (sqlWhen event ready run) fun _ _ => True :=
  Triple.any <| sqlWhen_triple (Q := fun _ _ => True) hK hP (fun _ => stable_const)
    fun s e hi hs hy ha hf => ⟨h s e hi hs hy ha hf, by cases (run e s).1 <;> trivial⟩

theorem sql_from {event : Event} {run : Env → AppState → Except AppError A × AppState}
    {P : AppState → Prop} (hP : K.Stable i P)
    (h : ∀ s e, K.inv s → P s → K.adm i event e s → e.fault ≠ .failed →
      K.guar i event e s (run e s).2) : K.Triple i P (sql event run) fun _ _ => True :=
  sqlWhen_from hK hP fun s e hi hs _ => h s e hi hs

theorem sqlWhen_safe {event : Event} {ready : AppState → Bool}
    {run : Env → AppState → Except AppError A × AppState}
    (h : ∀ s e, K.inv s → ready s = true → K.adm i event e s → e.fault ≠ .failed →
      K.guar i event e s (run e s).2) : K.Safe i (sqlWhen event ready run) :=
  sqlWhen_from hK stable_const fun s e hi _ => h s e hi

theorem sql_safe {event : Event} {run : Env → AppState → Except AppError A × AppState}
    (h : ∀ s e, K.inv s → K.adm i event e s → e.fault ≠ .failed →
      K.guar i event e s (run e s).2) : K.Safe i (sql event run) :=
  sqlWhen_safe hK fun s e hi _ => h s e hi

theorem select_safe {run : Env → AppState → A} : K.Safe i (select run) :=
  sql_safe hK fun s e hi _ _ => hK.same i e s hi

theorem redis_safe {run : Env → AppState → A × AppState}
    (h : ∀ s e, K.inv s → K.adm i .quiet e s → K.guar i .quiet e s (run e s).2) :
    K.Safe i (redis run) := by
  refine Safe.atomic fun s e hi _ ha => ?_
  cases hf : e.fault with
  | none => exact h s e hi ha
  | failed => exact hK.stay i _ e s hi hf
  | lost => exact h s e hi ha

/-- A Redis command: as a statement on the database. -/
theorem redisAs_triple {event : Event} {run : Env → AppState → A × AppState}
    {P : AppState → Prop} {Q : A → AppState → Prop} (hP : K.Stable i P)
    (hQ : ∀ a, K.Stable i (Q a))
    (h : ∀ s e, K.inv s → P s → K.adm i event e s → e.fault ≠ .failed →
      K.guar i event e s (run e s).2 ∧ Q (run e s).1 (run e s).2) :
    K.Triple i P (redisAs event run) (onOk Q) := by
  refine Triple.atomic hP (stable_onOk hQ) fun s e hi hs _ ha => ?_
  cases hf : e.fault with
  | none => exact h s e hi hs ha (by simp [hf])
  | failed => exact ⟨hK.stay i event e s hi hf, trivial⟩
  | lost => exact ⟨(h s e hi hs ha (by simp [hf])).1, trivial⟩

theorem utcNow_safe : K.Safe i utcNow :=
  Safe.atomic fun s e hi _ _ => hK.same i e s hi

theorem generateRandom_safe : K.Safe i generateRandom :=
  Safe.atomic fun s e hi _ _ => hK.same i e s hi

theorem newUuid_safe : K.Safe i newUuid :=
  Safe.atomic fun s e hi _ ha => hK.issue i e s hi ha

/-- The generation of an identifier cannot fail, and keeps what the others keep, unless that is
about generated identifiers. -/
theorem newUuid_or {P : AppState → Prop} (hP : K.Stable i P)
    (h : ∀ s x, P s → P { s with history.issued := x :: s.history.issued }) :
    K.Triple i P newUuid (orFail (fun _ _ => False) fun _ => P) :=
  Triple.atomic hP (stable_orFail (fun _ => stable_const) fun _ => hP) fun s e hi hs _ ha =>
    ⟨hK.issue i e s hi ha, h s _ hs⟩

/-- Reading the clock cannot fail, and keeps what the others keep. -/
theorem utcNow_or {P : AppState → Prop} (hP : K.Stable i P) :
    K.Triple i P utcNow (orFail (fun _ _ => False) fun _ => P) :=
  Triple.atomic hP (stable_orFail (fun _ => stable_const) fun _ => hP) fun s e hi hs _ _ =>
    ⟨hK.same i e s hi, hs⟩

/-- The random generator cannot fail, and keeps what the others keep. -/
theorem generateRandom_or {P : AppState → Prop} (hP : K.Stable i P) :
    K.Triple i P generateRandom (orFail (fun _ _ => False) fun _ => P) :=
  Triple.atomic hP (stable_orFail (fun _ => stable_const) fun _ => hP) fun s e hi hs _ _ =>
    ⟨hK.same i e s hi, hs⟩

/-- A statement that leaves the state alone keeps what the others keep. -/
theorem utcNow_keep {P : AppState → Prop} (hP : K.Stable i P) :
    K.Triple i P utcNow (onOk fun _ => P) :=
  Triple.atomic hP (stable_onOk fun _ => hP) fun s e hi hs _ _ =>
    ⟨hK.same i e s hi, hs⟩

/-- What is true of the clock that is read, and stays so. -/
theorem utcNow_reads {P : AppState → Prop} {Q : Time → AppState → Prop} (hP : K.Stable i P)
    (hQ : ∀ t, K.Stable i (Q t))
    (h : ∀ s e, K.inv s → P s → K.adm i .quiet e s → Q e.now s) :
    K.Triple i P utcNow (onOk Q) :=
  Triple.atomic hP (stable_onOk hQ) fun s e hi hs _ ha => ⟨hK.same i e s hi, h s e hi hs ha⟩

theorem select_keep {run : Env → AppState → A} {P : AppState → Prop} (hP : K.Stable i P) :
    K.Triple i P (select run) (onOk fun _ => P) :=
  sql_triple hK hP (fun _ => hP) fun s e hi hs _ _ => ⟨hK.same i e s hi, hs⟩

/-- A statement on the database, where an error of the database is one that is allowed. -/
theorem sqlWhen_or {event : Event} {ready : AppState → Bool}
    {run : Env → AppState → Except AppError A × AppState} {P : AppState → Prop}
    {F : AppError → AppState → Prop} {Q : A → AppState → Prop} (hP : K.Stable i P)
    (hF : ∀ x, K.Stable i (F x)) (hQ : ∀ a, K.Stable i (Q a))
    (hfail : ∀ detail s, K.inv s → P s → F (databaseError detail) s)
    (h : ∀ s e, K.inv s → P s → ready s = true → K.adm i event e s → e.fault ≠ .failed →
      K.guar i event e s (run e s).2 ∧ orFail F Q (run e s).1 (run e s).2 ∧
        F (databaseError e.detail) (run e s).2) :
    K.Triple i P (sqlWhen event ready run) (orFail F Q) := by
  refine Triple.atomic hP (stable_orFail hF hQ) fun s e hi hs hy ha => ?_
  cases hf : e.fault with
  | none =>
      obtain ⟨hg, hq, -⟩ := h s e hi hs hy ha (by simp [hf])
      exact ⟨hg, hq⟩
  | failed => exact ⟨hK.stay i event e s hi hf, hfail _ s hi hs⟩
  | lost =>
      obtain ⟨hg, -, hx⟩ := h s e hi hs hy ha (by simp [hf])
      exact ⟨hg, hx⟩

/-- A statement that only reads, where an error of the database is one that is allowed. -/
theorem select_or {run : Env → AppState → A} {P : AppState → Prop}
    {F : AppError → AppState → Prop} {Q : A → AppState → Prop} (hP : K.Stable i P)
    (hF : ∀ x, K.Stable i (F x)) (hQ : ∀ a, K.Stable i (Q a))
    (hdb : ∀ detail s, K.inv s → P s → F (databaseError detail) s)
    (h : ∀ s e, K.inv s → P s → Q (run e s) s) : K.Triple i P (select run) (orFail F Q) := by
  refine Triple.atomic hP (stable_orFail hF hQ) fun s e hi hs _ _ => ?_
  cases hf : e.fault with
  | none => exact ⟨hK.same i e s hi, h s e hi hs⟩
  | failed => exact ⟨hK.same i e s hi, hdb _ s hi hs⟩
  | lost => exact ⟨hK.same i e s hi, hdb _ s hi hs⟩

/-- A statement that only reads keeps what the others keep, whatever becomes of it. -/
theorem select_stay {run : Env → AppState → A} {P : AppState → Prop} (hP : K.Stable i P) :
    K.Triple i P (select run) fun _ => P := by
  refine Triple.atomic hP (fun _ => hP) fun s e hi hs _ _ => ?_
  cases hf : e.fault with
  | none => exact ⟨hK.same i e s hi, hs⟩
  | failed => exact ⟨hK.same i e s hi, hs⟩
  | lost => exact ⟨hK.same i e s hi, hs⟩

omit hK in
/-- A database statement that is beside the point of any contract. -/
theorem sql_aside (hK : Discreet K) {run : Env → AppState → Except AppError A × AppState}
    (h : ∀ e s, Aside s (run e s).2) : K.Safe i (sql .quiet run) :=
  sql_safe hK fun s e hi _ _ => hK.aside i e s _ hi (h e s)

omit hK in
/-- A database statement that is beside the point of most contracts. -/
theorem sql_onlooker (hK : Lenient K) {run : Env → AppState → Except AppError A × AppState}
    (h : ∀ e s, Onlooker s (run e s).2) : K.Safe i (sql .quiet run) :=
  sql_safe hK fun s e hi _ _ => hK.onlooker i e s _ hi (h e s)

omit hK in
/-- A Redis command that is beside the point. -/
theorem redis_bystander (hK : Tolerant K) {run : Env → AppState → A × AppState}
    (h : ∀ e s, Bystander s (run e s).2) : K.Safe i (redis run) :=
  redis_safe hK fun s e hi _ => hK.bystander i e s _ hi (h e s)

end Statements

/-- Holding one call to changes that include the quiet ones leaves the contract tolerant. -/
theorem Tolerant.within (hK : Tolerant K) {j : Nat} {W : Event → Env → AppState → AppState → Prop}
    (hs : ∀ l e s, W l e s s) (hb : ∀ e s s', Bystander s s' → W .quiet e s s')
    (hn : ∀ e s, W .quiet e s
      { s with history.issued := (e.uuid, e.pid) :: s.history.issued }) :
    Tolerant (K.within j W) where
  stay i l e s hi hf := ⟨hK.stay i l e s hi hf, fun _ => hs l e s⟩
  bystander i e s s' hi h := ⟨hK.bystander i e s s' hi h, fun _ => hb e s s' h⟩
  issue i e s hi ha := ⟨hK.issue i e s hi ha, fun _ => hn e s⟩

theorem Lenient.within (hK : Lenient K) {j : Nat} {W : Event → Env → AppState → AppState → Prop}
    (hs : ∀ l e s, W l e s s) (hb : ∀ e s s', Onlooker s s' → W .quiet e s s')
    (hn : ∀ e s, W .quiet e s
      { s with history.issued := (e.uuid, e.pid) :: s.history.issued }) :
    Lenient (K.within j W) where
  stay i l e s hi hf := ⟨hK.stay i l e s hi hf, fun _ => hs l e s⟩
  onlooker i e s s' hi h := ⟨hK.onlooker i e s s' hi h, fun _ => hb e s s' h⟩
  issue i e s hi ha := ⟨hK.issue i e s hi ha, fun _ => hn e s⟩

/-- What disturbs nobody may be done where nobody disturbs. -/
theorem Tolerant.calm (hK : Tolerant K) {W : Watch AppState} {j : Nat}
    (hb : ∀ s s', Bystander s s' → W.disturbs s s' = false)
    (hn : ∀ s issued, W.disturbs s { s with history.issued := issued } = false) :
    Tolerant (K.calm W j) where
  stay i l e s hi hf := ⟨hK.stay i l e s hi hf, fun _ => hb s s (.refl s)⟩
  bystander i e s s' hi h := ⟨hK.bystander i e s s' hi h, fun _ => hb s s' h⟩
  issue i e s hi ha := ⟨hK.issue i e s hi ha, fun _ => hn s _⟩

theorem Tolerant.both {K' : Contract Event Env AppState} (hK : Tolerant K) (hK' : Tolerant K') :
    Tolerant (K.both K') where
  stay i l e s hi hf := ⟨hK.stay i l e s hi.1 hf, hK'.stay i l e s hi.2 hf⟩
  bystander i e s s' hi h := ⟨hK.bystander i e s s' hi.1 h, hK'.bystander i e s s' hi.2 h⟩
  issue i e s hi ha := ⟨hK.issue i e s hi.1 ha.1, hK'.issue i e s hi.2 ha.2⟩

/-! ### Functions made of them -/

section Functions

variable (hK : Discreet K)
include hK

theorem recordAuditEvent_safe {tenantId actorUserId : Option Uuid} {subjectType : String}
    {subjectId : Option Uuid} {eventType : String} {payload : Value} : K.Safe i
      (Db.recordAuditEvent tenantId actorUserId subjectType subjectId eventType payload) := by
  refine .bind (newUuid_safe hK) fun id => sql_aside hK fun e s => ?_
  dsimp only
  split
  · exact ⟨⟨by constructor <;> rfl, rfl, rfl, rfl⟩, rfl, rfl⟩
  · exact .refl s

theorem recordEvent_safe {tenantId actorUserId : Option Uuid} {subjectType : String}
    {subjectId : Option Uuid} {eventType : String} {payload : Value} :
    K.Safe i (recordEvent tenantId actorUserId subjectType subjectId eventType payload) :=
  .bind (.attempt (recordAuditEvent_safe hK)) fun _ => .done

/-- A failure to write the audit row is swallowed. -/
theorem recordEvent_or {tenantId actorUserId : Option Uuid} {subjectType : String}
    {subjectId : Option Uuid} {eventType : String} {payload : Value} {F : AppError → AppState → Prop} :
    K.Triple i (fun _ => True)
      (recordEvent tenantId actorUserId subjectType subjectId eventType payload)
      (orFail F fun _ _ => True) :=
  (Triple.attempt_or (recordAuditEvent_safe hK)).seq_or fun _ =>
    Triple.done stable_const fun _ _ _ => trivial

omit hK in
theorem bumpTenantCacheVersion_safe (hK : Tolerant K) {tenantId : Uuid} :
    K.Safe i (Cache.bumpTenantCacheVersion tenantId) :=
  redis_bystander hK fun _ _ => by constructor <;> rfl

theorem enqueueJob_safe {jobId : Uuid} : K.Safe i (Cache.enqueueJob jobId) :=
  redis_safe hK fun s e hi _ =>
    hK.aside i e s _ hi ⟨⟨by constructor <;> rfl, rfl, rfl, rfl⟩, rfl, rfl⟩

omit hK in
theorem enqueueWebhookDeliveries_safe (hK : Lenient K) {tenantId : Uuid} {eventType : String} {payload : Value} :
    K.Safe i (Db.enqueueWebhookDeliveries tenantId eventType payload) := by
  refine .bind (utcNow_safe hK) fun now => sql_onlooker hK fun e s => ?_
  dsimp only
  split
  · exact ⟨by constructor <;> rfl, rfl, rfl, rfl⟩
  · exact .refl s

omit hK in
theorem emitTaskWebhook_safe (hK : Lenient K) {app : App} {tenantId : Uuid} {eventType : String}
    {task : TaskRecord} : K.Safe i (emitTaskWebhook app tenantId eventType task) :=
  .bind (.attempt (enqueueWebhookDeliveries_safe hK)) fun _ => .done

omit hK in
/-- A failure to queue the deliveries is swallowed. -/
theorem emitTaskWebhook_or (hK : Lenient K) {app : App} {tenantId : Uuid} {eventType : String} {task : TaskRecord}
    {F : AppError → AppState → Prop} : K.Triple i (fun _ => True)
      (emitTaskWebhook app tenantId eventType task) (orFail F fun _ _ => True) :=
  (Triple.attempt_or (enqueueWebhookDeliveries_safe hK)).seq_or fun _ =>
    Triple.done stable_const fun _ _ _ => trivial

omit hK in
theorem emitAll_safe {app : App} {tenantId : Uuid} {eventType : String} {tasks : List TaskRecord}
    (h : ∀ task, K.Safe i (emitTaskWebhook app tenantId eventType task)) :
    K.Safe i (Tasks.emitAll app tenantId eventType tasks) := by
  induction tasks with
  | nil => exact .done
  | cons task tasks ih => exact .bind (h task) fun _ => ih

theorem storagePut_safe {key : String} {bytes : Bytes} : K.Safe i (Storage.put key bytes) := by
  have hwrite : ∀ (e : Env) (s : AppState) content, K.inv s → K.guar i .quiet e s
      { s with storage := Function.update s.storage key content } := fun e s content hi =>
    hK.aside i e s _ hi ⟨⟨by constructor <;> rfl, rfl, rfl, rfl⟩, rfl, rfl⟩
  refine .bind .done fun _ => .bind (.atomic fun s e hi _ _ => ?_) fun _ =>
    .atomic fun s e hi _ _ => ?_
  · split
    · exact hwrite e s _ hi
    · exact hK.aside i e s _ hi (.refl s)
    · exact hK.aside i e s _ hi (.refl s)
  · split
    · exact hwrite e s _ hi
    · exact hwrite e s _ hi

omit hK in
theorem storageGet_safe (hK : Patient K) {key : String} : K.Safe i (Storage.get key) := by
  refine .bind .done fun _ => .atomic fun s e hi _ _ => ?_
  split
  · exact hK.same i e s hi
  · exact hK.same i e s hi

theorem storageDelete_safe {key : String} : K.Safe i (Storage.delete key) := by
  refine .bind .done fun _ => .atomic fun s e hi _ _ => ?_
  split
  · exact hK.aside i e s _ hi ⟨⟨by constructor <;> rfl, rfl, rfl, rfl⟩, rfl, rfl⟩
  · exact hK.aside i e s _ hi (.refl s)

omit hK in
theorem reminderEntries_safe (hK : Patient K) {app : App} {tasks : List TaskRecord} :
    K.Safe i (Db.reminderEntries app tasks) := by
  induction tasks with
  | nil => exact .done
  | cons task tasks ih =>
      refine .bind (newUuid_safe hK) fun id => .bind (utcNow_safe hK) fun now => ?_
      exact .bind ih fun _ => .done

omit hK in
theorem recordDueReminders_safe (hK : Lenient K) {app : App} {tenantId : Option Uuid} :
    K.Safe i (Db.recordDueReminders app tenantId) := by
  refine .bind (select_safe hK) fun tasks => .bind (reminderEntries_safe hK) fun entries => ?_
  refine sql_onlooker hK fun e s => ?_
  dsimp only
  split
  · exact ⟨by constructor <;> rfl, rfl, rfl, rfl⟩
  · exact .refl s

omit hK in
theorem ensureProject_safe (hK : Patient K) {tenantId : Uuid} {projectId : Option Uuid} :
    K.Safe i (Tasks.ensureProjectBelongsToTenant tenantId projectId) := by
  cases projectId with
  | none => exact .done
  | some projectId => exact .bind (select_safe hK) fun _ => .bind .okOr fun _ => .done

omit hK in
/-- The rule of `enqueue_notification`: where the row is inserted, no row has its key, and what is
known of the identifier holds. -/
theorem enqueue_from (hK : Patient K) {n : NewNotification} {maxAttempts : Nat}
    {P : AppState → Prop} {Q : Uuid → AppState → Prop} (hid : K.Triple i P newUuid (onOk Q))
    (hQ : ∀ id, K.Stable i (Q id))
    (h : ∀ s e id notifications, K.inv s → Q id s → Db.hasDedupeKey s n.dedupeKey = false →
      s.db.notifications.insert (Db.newNotification id n maxAttempts e.now) = some notifications →
      K.guar i .quiet e s { s with
        db.notifications := notifications
        history.enqueued := n :: s.history.enqueued }) :
    K.Triple i P (Db.enqueueNotification n maxAttempts) fun _ _ => True := by
  refine Triple.bind hid (fun id => ?_) fun _ _ _ _ => trivial
  refine sql_from hK (hQ id) fun s e hi hs _ _ => ?_
  cases hkey : Db.hasDedupeKey s n.dedupeKey with
  | true => exact hK.same i e s hi
  | false =>
      cases hins : s.db.notifications.insert (Db.newNotification id n maxAttempts e.now) with
      | none => exact hK.same i e s hi
      | some notifications => exact h s e id notifications hi hs hkey hins

omit hK in
theorem enqueue_safe (hK : Patient K) {n : NewNotification} {maxAttempts : Nat}
    (h : ∀ s e id notifications, K.inv s → Db.hasDedupeKey s n.dedupeKey = false →
      s.db.notifications.insert (Db.newNotification id n maxAttempts e.now) = some notifications →
      K.guar i .quiet e s { s with
        db.notifications := notifications
        history.enqueued := n :: s.history.enqueued }) :
    K.Safe i (Db.enqueueNotification n maxAttempts) :=
  enqueue_from hK (newUuid_safe hK).onOk_any (fun _ => stable_const)
    fun s e id notifications hi _ => h s e id notifications hi

end Functions

end Fluxa
