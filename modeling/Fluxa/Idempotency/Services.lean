import Fluxa.Idempotency.Protocol
import Fluxa.Idempotency.Requests
import Fluxa.Services.Quiet

/-!
# Idempotency — the creations

What each of the eight services does to the record of its request: from the claimed key on, it either ends with the resource created, or fails.  All of them commit in one statement; the statements before it leave the record alone, and so do those after it, of which the cache version and the job queue may fail.
-/

namespace Fluxa.Idempotency
open Interleave Relational Contract Db

section Creations

variable {σ : Setting} {I : AppState → Prop} {cond : Nat → Event → Env → AppState → Prop}
  {hI : ∀ i e s s', I s → KeyStep σ i e s s' → I s'} {i : Nat} {key : IdempotencyKey} {app : App}
  {A B : Type}

/-! ### The commit -/

/-- What is asked of a commit: an error leaves the state as it was, or it creates a resource. -/
def Commits (e : Env) (s : AppState) : Except AppError A → AppState → Prop
  | .error _, s' => Apart s s'
  | .ok _, s' => Creates e.pid e s s'

/-- A commit in one statement. -/
theorem commit_triple {event : Event} {ready : AppState → Bool}
    {run : Env → AppState → Except AppError A × AppState}
    (h : ∀ e s, Commits e s (run e s).1 (run e s).2) :
    (requestContract hI cond).Triple i (Claimed i key) (sqlWhen event ready run)
      (orFail (CreateFails σ i key) fun _ => Created i key) := by
  refine step_triple doings_stable (fun _ => Claimed.unreleased)
    (stable_orFail (fun _ => createFails_stable) fun _ => created_stable) fun s e _ hs hpid _ => ?_
  have hc := h e s
  subst hpid
  cases hf : e.fault with
  | none =>
      cases hr : (run e s).1 with
      | ok a =>
          rw [hr] at hc
          exact ⟨.create hs hc, hc.doings hs⟩
      | error x =>
          rw [hr] at hc
          exact ⟨.apart hc, Claimed.fails x ((hc.doings _).trans hs)⟩
  | failed => exact ⟨.apart (.refl s), Claimed.fails (databaseError e.detail) hs⟩
  | lost =>
      cases hr : (run e s).1 with
      | ok a =>
          rw [hr] at hc
          obtain ⟨x, hdone⟩ := hc.doings hs
          refine ⟨.create hs hc, [x], hdone, .inr (.inl ?_)⟩
          simp only [hc.unreported, hf]
          exact List.mem_cons_self
      | error x =>
          rw [hr] at hc
          exact ⟨.apart hc, Claimed.fails (databaseError e.detail) ((hc.doings _).trans hs)⟩

/-! ### Before the commit -/

/-- A statement that leaves the record alone, before a creation. -/
theorem before {p : Service A} {f : A → Service B} (h : (apartContract hI cond i).Safe i p)
    (hf : ∀ a, (requestContract hI cond).Triple i (Claimed i key) (f a)
      (orFail (CreateFails σ i key) fun _ => Created i key)) :
    (requestContract hI cond).Triple i (Claimed i key) (p.bind f)
      (orFail (CreateFails σ i key) fun _ => Created i key) :=
  apart_bind rfl h hf fun x _ hs => Claimed.fails x hs

theorem readTask_apart {tenantId taskId : Uuid} :
    (apartContract hI cond i).Safe i (Tasks.getTask tenantId taskId) :=
  .bind (select_safe apartContract_tolerant.toPatient) fun _ => .okOr

/-! ### After the commit -/

/-- What leaves the record alone and cannot fail, after the commit. -/
theorem after {p : Service A} (h : (apartContract hI cond i).Triple i (fun _ => True) p
      (orFail (fun _ _ => False) fun _ _ => True)) :
    (requestContract hI cond).Triple i (Created i key) p
      (orFail (CreateFails σ i key) fun _ => Created i key) := by
  rintro s hi ⟨x, hs⟩
  refine (apart_triple (D := ⟨[key], [x], [], 0⟩) rfl h s hi ⟨trivial, hs⟩).conseq
    fun r s _ hq => ?_
  cases r with
  | ok a => exact ⟨x, hq.2⟩
  | error _ => exact hq.1.elim

theorem attempt_after {p : Service A} (h : (apartContract hI cond i).Safe i p) :
    (requestContract hI cond).Triple i (Created i key) p.attempt
      (orFail (CreateFails σ i key) fun _ => Created i key) :=
  after (Triple.attempt_or h)

/-- The audit event of the creation. -/
theorem recordEvent_after {tenantId actorUserId : Option Uuid} {subjectType : String}
    {subjectId : Option Uuid} {eventType : String} {payload : Value} :
    (requestContract hI cond).Triple i (Created i key)
      (recordEvent tenantId actorUserId subjectType subjectId eventType payload)
      (orFail (CreateFails σ i key) fun _ => Created i key) :=
  after (recordEvent_or apartContract_tolerant.lenient.discreet)

theorem done_after {a : A} : (requestContract hI cond).Triple i (Created i key)
    (.done (.ok a) : Service A) (orFail (CreateFails σ i key) fun _ => Created i key) :=
  Triple.done created_stable fun _ _ hs => hs

/-- What is tried when the creation has failed changes nothing about that. -/
theorem attempt_failed {p : Service A} {x : AppError} (h : (apartContract hI cond i).Safe i p) :
    (requestContract hI cond).Triple i (CreateFails σ i key x)
      (p.attempt.bind fun _ => (Prog.fail x : Service B))
      (orFail (CreateFails σ i key) fun _ => Created i key) := by
  refine Triple.bind (Q := fun _ => CreateFails σ i key x) ?_
    (fun _ => Triple.done createFails_stable fun _ _ hs => hs) fun _ _ _ hs => hs
  rintro s hi ⟨xs, hs, hxs | hxs | hxs⟩
  · refine (apart_safe rfl (.attempt h) s hi hs).conseq fun r s _ hs => ?_
    exact ⟨xs, hs, .inl hxs⟩
  · have hkeep := (Safe.attempt h).keep unreported_lasting
    refine (apart_triple rfl hkeep s hi ⟨⟨trivial, hxs⟩, hs⟩).conseq fun r s _ hs => ?_
    exact ⟨xs, hs.2, .inr (.inl hs.1.2)⟩
  · refine (apart_safe rfl (.attempt h) s hi hs).conseq fun r s _ hs => ?_
    exact ⟨xs, hs, .inr (.inr hxs)⟩

/-- A failure after the commit is one of the whole creation. -/
theorem redis_after {run : Env → AppState → A × AppState}
    (hφ : ∀ l e s, cond i l e s → e.fault ≠ .none → (doings i s).created = [] ∨ σ.careless)
    (h : ∀ e s, Bystander s (run e s).2) :
    (requestContract hI cond).Triple i (Created i key) (redis run)
      (orFail (CreateFails σ i key) fun _ => Created i key) := by
  refine redis_triple created_stable (fun _ => Created.unreleased) (fun _ => created_stable)
    (fun _ => createFails_stable) (fun s e hs hc hf => ?_) fun s e _ hs _ hc => ?_
  · obtain ⟨x, hdone⟩ := hs
    have hcareless := (hφ _ e s hc hf).resolve_left (by simp [hdone])
    exact ⟨[x], hdone, .inr (.inr hcareless)⟩
  · obtain ⟨x, hdone⟩ := hs
    have hb : Apart s (run e s).2 := .of_bystander (h e s)
    have hdone' : doings i (run e s).2 = ⟨[key], [x], [], 0⟩ := (hb.doings i).trans hdone
    refine ⟨.apart hb, ⟨x, hdone'⟩, fun hf => ?_⟩
    have hcareless := (hφ _ e s hc hf).resolve_left (by simp [hdone])
    exact ⟨[x], hdone', .inr (.inr hcareless)⟩

/-! ### The services -/

theorem guar_of_apart {l : Event} {e : Env} {s s' : AppState} (h : Apart s s') :
    (apartContract hI cond i).guar i l e s s' :=
  ⟨.apart h, fun _ => h⟩

theorem notification_apart {n : NewNotification} {maxAttempts : Nat} :
    (apartContract hI cond i).Safe i (enqueueNotification n maxAttempts) := by
  refine .bind (newUuid_safe apartContract_tolerant.toPatient) fun id =>
    sql_safe apartContract_tolerant.toPatient fun s e _ _ _ => guar_of_apart ?_
  split
  · exact .refl s
  · split
    · exact ⟨⟨rfl, rfl, rfl, rfl⟩, rfl, rfl⟩
    · exact .refl s

/-- A statement of the transaction in which a webhook is registered. -/
theorem inWebhookTx_apart {ready : AppState → Bool}
    {run : Env → AppState → Except AppError (A × AppState)}
    (h : ∀ e s a s', run e s = .ok (a, s') → Apart s s') :
    (apartContract hI cond i).Safe i (inWebhookTx ready run) := by
  refine .atomic fun s e _ _ _ => ?_
  have hend : Apart s (endWebhookTx e.pid s) := ⟨⟨rfl, rfl, rfl, rfl⟩, rfl, rfl⟩
  split
  · rename_i a s' _ hrun
    exact guar_of_apart (h e s a s' hrun)
  · exact guar_of_apart hend
  · exact guar_of_apart hend

theorem commitWebhook_triple {T : WebhookTx} {webhook : WebhookRecord} :
    (requestContract hI cond).Triple i (Claimed i key) (commitWebhook T webhook)
      (orFail (CreateFails σ i key) fun _ => Created i key) := by
  refine step_triple doings_stable (fun _ => Claimed.unreleased)
    (stable_orFail (fun _ => createFails_stable) fun _ => created_stable) fun s e _ hs hpid _ => ?_
  have hend : Apart s (endWebhookTx e.pid s) := ⟨⟨rfl, rfl, rfl, rfl⟩, rfl, rfl⟩
  have hfails : ∀ x, CreateFails σ i key x (endWebhookTx e.pid s) := fun x =>
    Claimed.fails x ((hend.doings i).trans hs)
  dsimp only
  split
  · exact ⟨.apart hend, hfails (databaseError e.detail)⟩
  · exact ⟨.apart hend, hfails (databaseError e.detail)⟩
  · rename_i fault webhooks hlost hins
    have hc : Creates i e s (endWebhookTx e.pid { s with
        db.webhooks := webhooks
        history := noteCreated e .webhook webhook.id s.history }) := by
      refine ⟨⟨rfl, rfl, rfl, rfl⟩, ⟨.webhook, webhook.id, ?_⟩, ?_⟩
      · simp [endWebhookTx, noteCreated, hpid]
      · simp [endWebhookTx, noteCreated, hpid]
    refine ⟨.create hs hc, ?_⟩
    obtain ⟨x, hdone⟩ := hc.doings hs
    split
    · exact ⟨x, hdone⟩
    · rename_i hf
      refine ⟨[x], hdone, .inr (.inl ?_)⟩
      rw [hc.unreported, if_neg hf]
      exact List.mem_cons_self

/-- What creates a resource notes it. -/
theorem creates_of {e : Env} {s s' : AppState} {kind : ResourceKind} {id : Uuid}
    (hkeys : SameKeys s s')
    (hcreated : s'.history.created = (noteCreated e kind id s.history).created)
    (hunreported : s'.history.unreported = (noteCreated e kind id s.history).unreported) :
    Creates e.pid e s s' :=
  ⟨hkeys, ⟨kind, id, hcreated⟩, hunreported⟩

variable {tenantId userId : Uuid}
  (hφ : ∀ l e s, cond i l e s → e.fault ≠ .none → (doings i s).created = [] ∨ σ.careless)

theorem createInvitation_record {role : MembershipRole} {email : String}
    {invited : MembershipRole} :
    (requestContract hI cond).Triple i (Claimed i key)
      (Fluxa.createInvitation app tenantId role userId email invited)
      (orFail (CreateFails σ i key) fun _ => Created i key) := by
  have hK : Patient (apartContract hI cond i) := apartContract_tolerant.toPatient
  have hmember : (apartContract hI cond i).Safe i (ensureNotMember tenantId email) := by
    refine .bind (select_safe hK) fun found => ?_
    split
    · exact .done
    · exact .bind (select_safe hK) fun _ => .ensure
  refine before lift_safe fun _ => before hmember fun _ => ?_
  refine before (generateRandom_safe hK) fun token => before (utcNow_safe hK) fun now => ?_
  have hrow : (requestContract hI cond).Triple i (Claimed i key)
      (Db.createInvitation tenantId email invited (app.lib.sha256Hex token)
        (now + app.config.invitationTtl) userId)
      (orFail (CreateFails σ i key) fun _ => Created i key) := by
    refine before (newUuid_safe hK) fun id => before (utcNow_safe hK) fun now => ?_
    refine commit_triple fun e s => ?_
    split
    · exact .refl s
    · split
      · exact .refl s
      · split
        · exact creates_of ⟨rfl, rfl, rfl, rfl⟩ rfl rfl
        · exact .refl s
  refine Triple.bind (Triple.attempt_or (F := fun _ _ => False) hrow) (fun created => ?_)
    fun _ _ _ h => False.elim h
  cases created with
  | error x => exact Triple.done (createFails_stable (x := x)) fun _ _ hs => hs
  | ok invitation =>
      refine (attempt_after notification_apart).seq_or fun _ => ?_
      exact recordEvent_after.seq_or fun _ => done_after

include hφ in
theorem createProject_record {input : CreateProjectInput} :
    (requestContract hI cond).Triple i (Claimed i key)
      (Projects.createProject tenantId userId input)
      (orFail (CreateFails σ i key) fun _ => Created i key) := by
  have hK : Patient (apartContract hI cond i) := apartContract_tolerant.toPatient
  have hrow : (requestContract hI cond).Triple i (Claimed i key)
      (Db.createProject tenantId userId input)
      (orFail (CreateFails σ i key) fun _ => Created i key) := by
    refine before (utcNow_safe hK) fun now => before (newUuid_safe hK) fun id => ?_
    refine commit_triple fun e s => ?_
    split
    · exact .refl s
    · split
      · exact creates_of ⟨rfl, rfl, rfl, rfl⟩ rfl rfl
      · exact .refl s
  refine hrow.seq_or fun project => ?_
  refine (redis_after hφ fun _ _ => by constructor <;> rfl).seq_or fun _ => ?_
  exact recordEvent_after.seq_or fun _ => done_after

theorem createLabel_record {input : CreateLabelInput} :
    (requestContract hI cond).Triple i (Claimed i key)
      (Labels.createLabel app tenantId userId input)
      (orFail (CreateFails σ i key) fun _ => Created i key) := by
  have hK : Patient (apartContract hI cond i) := apartContract_tolerant.toPatient
  have hrow : (requestContract hI cond).Triple i (Claimed i key)
      (Db.createLabel app tenantId userId input)
      (orFail (CreateFails σ i key) fun _ => Created i key) := by
    refine before (utcNow_safe hK) fun now => before (newUuid_safe hK) fun id => ?_
    refine commit_triple fun e s => ?_
    split
    · exact .refl s
    · split
      · exact creates_of ⟨rfl, rfl, rfl, rfl⟩ rfl rfl
      · exact .refl s
  refine hrow.seq_or fun label => ?_
  exact recordEvent_after.seq_or fun _ => done_after

theorem createWebhook_record {url : String} {events : List String} :
    (requestContract hI cond).Triple i (Claimed i key)
      (Webhooks.createWebhook app tenantId userId url events)
      (orFail (CreateFails σ i key) fun _ => Created i key) := by
  have hK : Patient (apartContract hI cond i) := apartContract_tolerant.toPatient
  have hput : ∀ (T : WebhookTx) (s : AppState), Apart s (putWebhookTx T s) := fun _ _ =>
    ⟨⟨rfl, rfl, rfl, rfl⟩, rfl, rfl⟩
  refine before lift_safe fun url => before lift_safe fun events => ?_
  refine before (generateRandom_safe hK) fun secret => before (utcNow_safe hK) fun now => ?_
  refine before (inWebhookTx_apart fun e s T s' h => ?_) fun T => ?_
  · split at h
    · cases h
    · cases h
      exact hput _ s
  refine before (inWebhookTx_apart fun e s _ s' h => ?_) fun _ => ?_
  · split at h
    · cases h
    · cases h
      exact .refl s
  refine before (newUuid_safe hK) fun id => ?_
  refine before (inWebhookTx_apart fun e s T s' h => ?_) fun T => ?_
  · split at h
    · cases h
    · cases h
      exact hput _ s
  exact commitWebhook_triple.seq_or fun _ => done_after

theorem createComment_record {taskId : Uuid} {body : String} :
    (requestContract hI cond).Triple i (Claimed i key)
      (Comments.createComment app tenantId taskId userId body)
      (orFail (CreateFails σ i key) fun _ => Created i key) := by
  have hK : Patient (apartContract hI cond i) := apartContract_tolerant.toPatient
  refine before readTask_apart fun task => ?_
  have hrow : (requestContract hI cond).Triple i (Claimed i key)
      (Db.createComment app tenantId taskId userId body)
      (orFail (CreateFails σ i key) fun _ => Created i key) := by
    refine before (utcNow_safe hK) fun now => before (newUuid_safe hK) fun id => ?_
    refine before (newUuid_safe hK) fun auditId => commit_triple fun e s => ?_
    split
    · exact creates_of ⟨rfl, rfl, rfl, rfl⟩ rfl rfl
    · exact .refl s
  refine hrow.seq_or fun comment => ?_
  refine Triple.seq_or (Q := fun _ => Created i key) ?_ fun _ => done_after
  cases hassignee : task.assigneeId with
  | none =>
      simp only [Comments.notifyAssignee, hassignee]
      exact done_after
  | some assigneeId =>
      simp only [Comments.notifyAssignee, hassignee]
      refine Triple.ite (fun _ => done_after) fun _ => ?_
      refine (attempt_after (select_safe hK)).seq_or fun enabled => ?_
      refine Triple.ite (fun _ => ?_) fun _ => done_after
      refine (attempt_after (getUserById_triple apartContract_tolerant).safe).seq_or fun found => ?_
      cases found with
      | error _ => exact done_after
      | ok assignee => exact (attempt_after notification_apart).seq_or fun _ => done_after

theorem uploadAttachment_record {taskId : Uuid} {fileName contentType : String} {bytes : Bytes} :
    (requestContract hI cond).Triple i (Claimed i key)
      (Attachments.uploadAttachment app tenantId taskId userId fileName contentType bytes)
      (orFail (CreateFails σ i key) fun _ => Created i key) := by
  have hK : Patient (apartContract hI cond i) := apartContract_tolerant.toPatient
  refine before readTask_apart fun _ => before (select_safe hK) fun count => ?_
  refine before .ensure fun _ => before (newUuid_safe hK) fun id => ?_
  refine before (storagePut_safe apartContract_tolerant.lenient.discreet) fun _ => ?_
  have hrow : ∀ storageKey, (requestContract hI cond).Triple i (Claimed i key)
      (createAttachment app id tenantId taskId userId fileName contentType bytes.length storageKey
        bytes)
      (orFail (CreateFails σ i key) fun _ => Created i key) := by
    intro storageKey
    refine before (utcNow_safe hK) fun now => before (newUuid_safe hK) fun auditId => ?_
    refine commit_triple fun e s => ?_
    split
    · exact creates_of ⟨rfl, rfl, rfl, rfl⟩ rfl rfl
    · exact .refl s
  refine Triple.bind (Triple.attempt_or (F := fun _ _ => False) (hrow _)) (fun created => ?_)
    fun _ _ _ h => False.elim h
  cases created with
  | ok attachment => exact done_after
  | error x =>
      -- The file is deleted again, whether or not there is a row.
      exact attempt_failed (storageDelete_safe apartContract_tolerant.lenient.discreet)

include hφ in
theorem createTask_record {input : CreateTaskInput} :
    (requestContract hI cond).Triple i (Claimed i key)
      (Tasks.createTask app tenantId userId input)
      (orFail (CreateFails σ i key) fun _ => Created i key) := by
  have hK : Patient (apartContract hI cond i) := apartContract_tolerant.toPatient
  refine before (ensureProject_safe apartContract_tolerant.toPatient) fun _ => ?_
  have hrow : (requestContract hI cond).Triple i (Claimed i key)
      (Db.createTask app tenantId userId input)
      (orFail (CreateFails σ i key) fun _ => Created i key) := by
    refine before (utcNow_safe hK) fun now => before (newUuid_safe hK) fun id => ?_
    refine before (newUuid_safe hK) fun auditId => commit_triple fun e s => ?_
    have hnote : ∀ (task : TaskRecord) (h : History), (noteAssignee task h).created = h.created ∧
        (noteAssignee task h).unreported = h.unreported ∧
        (noteAssignee task h).keyClaims = h.keyClaims ∧ (noteAssignee task h).stored = h.stored ∧
        (noteAssignee task h).released = h.released := by
      intro task h
      unfold noteAssignee
      split <;> exact ⟨rfl, rfl, rfl, rfl, rfl⟩
    dsimp only
    split
    · exact .refl s
    · split
      · obtain ⟨hcreated, hunreported, hclaims, hstored, hreleased⟩ := hnote
          (newTask id tenantId userId input now)
          { noteCreated e .task id s.history with commits := s.history.commits ++ [e.pid] }
        exact creates_of ⟨rfl, hclaims, hstored, hreleased⟩ hcreated hunreported
      · exact .refl s
  refine hrow.seq_or fun task => ?_
  refine (redis_after hφ fun _ _ => by constructor <;> rfl).seq_or fun _ => ?_
  exact (after (emitTaskWebhook_or apartContract_tolerant.lenient)).seq_or fun _ => done_after

include hφ in
theorem createExportJob_record {filters : TaskFilters} {format : ExportFormat} :
    (requestContract hI cond).Triple i (Claimed i key)
      (Jobs.createExportJob app tenantId userId filters format)
      (orFail (CreateFails σ i key) fun _ => Created i key) := by
  have hK : Patient (apartContract hI cond i) := apartContract_tolerant.toPatient
  have hrow : (requestContract hI cond).Triple i (Claimed i key)
      (createJob (some tenantId) .taskExport (.taskExport tenantId userId filters format)
        app.config.maxJobAttempts)
      (orFail (CreateFails σ i key) fun _ => Created i key) := by
    refine before (newUuid_safe hK) fun id => before (utcNow_safe hK) fun now => ?_
    refine commit_triple fun e s => ?_
    split
    · exact creates_of ⟨rfl, rfl, rfl, rfl⟩ rfl rfl
    · exact .refl s
  refine hrow.seq_or fun job => ?_
  exact (redis_after hφ fun _ _ => by constructor <;> rfl).seq_or fun _ => done_after

/-! ### The requests -/

variable {ψ : Prop} {R : IdempotencyKey → StoredResponse → AppState → Prop}
  (hψ : ∀ l e s, cond i l e s → e.fault ≠ .none → ψ)
  (hknown : ∀ l e s, cond i l e s → σ.known e s) (httl : app.config.idempotencyTtl = σ.ttl)
  (hR : ∀ key s entry r, I s → s.cache.idempotency key = some entry → entry.value = .ready r →
    R key r s)
  (hlast : ∀ key i r, (apartContract hI cond i).Lasting (R key r))
  (hstable : ∀ key r, (requestContract hI cond).Stable i (R key r))
include hφ hψ hknown httl hR hlast hstable

theorem creation_triple {user : AuthenticatedUser} {creation : Creation}
    (hkey : σ.key? i = some key) :
    (requestContract hI cond).Triple i (Begun i) (creation.run app user key)
      (orFail (Fails σ i key (creation.valid app = false) ψ) (Answered i key (R key))) := by
  have hidempotent {A B : Type} {prepare : Except AppError B} {create : B → Service A}
      (respond : A → StoredResponse) (hstatus : ∀ a, Http.validStatus (respond a).status = true)
      (hvalid : prepare.toOption = none → creation.valid app = false)
      (hcreate : ∀ input, (requestContract hI cond).Triple i (Claimed i key) (create input)
        (orFail (CreateFails σ i key) fun _ => Created i key)) :
      (requestContract hI cond).Triple i (Begun i)
        (Http.idempotent app key prepare create respond)
        (orFail (Fails σ i key (creation.valid app = false) ψ) (Answered i key (R key))) := by
    refine (idempotent_triple hkey hψ hknown httl (hR key) (hlast key) (hstable key)
      hφ hstatus fun input _ => hcreate input).post fun r s _ hq => ?_
    cases r with
    | ok response => exact hq
    | error x => exact hq.imp_right (.imp_left fun h => ⟨hvalid h.1, h.2⟩)
  cases creation with
  | invitation email role =>
      exact hidempotent _ (fun _ => rfl) (fun h => by cases h) fun _ => createInvitation_record
  | project input =>
      exact hidempotent _ (fun _ => rfl) (fun h => by cases h) fun _ => createProject_record hφ
  | label input => exact hidempotent _ (fun _ => rfl) (fun h => by cases h) fun _ => createLabel_record
  | webhook url events => exact hidempotent _ (fun _ => rfl) (fun h => by cases h) fun _ => createWebhook_record
  | comment taskId body => exact hidempotent _ (fun _ => rfl) (fun h => by cases h) fun _ => createComment_record
  | attachment taskId fileName contentType body =>
      exact hidempotent _ (fun _ => rfl) (fun h => by cases h) fun _ => uploadAttachment_record
  | task payload =>
      refine hidempotent _ (fun _ => rfl) (fun h => ?_) fun _ => createTask_record hφ
      simp [Creation.valid, h]
  | exportJob payload =>
      refine hidempotent _ (fun _ => rfl) (fun h => ?_) fun _ => createExportJob_record hφ
      simp [Creation.valid, h]

/-- How a request ends: it failed its checks, or it went the way of its creation. -/
def RequestEnds (σ : Setting) (app : App) (i : Nat) (k : CreateRequest) (ψ : Prop)
    (R : IdempotencyKey → StoredResponse → AppState → Prop)
    (result : Except AppError StoredResponse) (s : AppState) : Prop :=
  match k.plan app with
  | .error x => result = .error x ∧ Begun i s
  | .ok (creation, key) =>
    orFail (Fails σ i key (creation.valid app = false) ψ) (Answered i key (R key)) result s

omit hφ hψ hknown httl hR hlast hstable in
theorem RequestEnds.of_ok {k : CreateRequest} {response : StoredResponse} {s : AppState}
    (h : RequestEnds σ app i k ψ R (.ok response) s) : ∃ creation key,
      k.plan app = .ok (creation, key) ∧ Answered i key (R key) response s := by
  rw [RequestEnds] at h
  split at h
  · cases h.1
  · rename_i creation key hplan
    exact ⟨creation, key, hplan, h⟩

omit hφ hψ hknown httl hR hlast hstable in
theorem RequestEnds.of_error {k : CreateRequest} {x : AppError} {s : AppState}
    (h : RequestEnds σ app i k ψ R (.error x) s) : Begun i s ∨ ∃ creation key,
      k.plan app = .ok (creation, key) ∧ Fails σ i key (creation.valid app = false) ψ x s := by
  rw [RequestEnds] at h
  split at h
  · exact .inl h.2
  · rename_i creation key hplan
    exact .inr ⟨creation, key, hplan, h⟩

theorem handler_triple {k : CreateRequest}
    (hkey : ∀ creation key, k.plan app = .ok (creation, key) → σ.key? i = some key) :
    (requestContract hI cond).Triple i (Begun i) (k.handler app) (RequestEnds σ app i k ψ R) := by
  rw [handler_eq]
  cases hplan : k.plan app with
  | error x =>
      refine Triple.done doings_stable fun s _ hs => ?_
      rw [RequestEnds, hplan]
      exact ⟨rfl, hs⟩
  | ok p =>
      refine (creation_triple hφ hψ hknown httl hR hlast hstable
        (hkey p.1 p.2 hplan)).post fun r s _ hq => ?_
      rw [RequestEnds, hplan]
      exact hq

end Creations

end Fluxa.Idempotency
