import Fluxa.Interleave.Cut
import Fluxa.Relational.Absorb
import Fluxa.Reminders.Sweeps

/-!
# Reminders — repeated sweeps

A job is executed at least once: a sweep that is cut off, or whose lease runs out, is executed again.  Its notifications carry dedupe keys, and a repeated sweep completes what the first has begun (`SweptSoFar.step`).  Its audit rows have no key, and each execution that gets past their insertion adds them again.  Both queries have a limit and leave the order of tasks that are due at the same time open, so each execution may find others.

**`sweep_idempotent_iff`**: executions of a sweep leave the rows of one exactly when the limits do not cut through such tasks, and there is one execution or no task is overdue.
-/

namespace Fluxa
open Interleave Relational Db

/-! ### The property -/

/-- The row without its identifier and the times at which it was written. -/
def NotificationRecord.unstamped (n : NotificationRecord) : NotificationRecord :=
  { n with id := 0, scheduledAt := 0, createdAt := 0 }

@[inherit_doc NotificationRecord.unstamped]
def TaskAuditRecord.unstamped (r : TaskAuditRecord) : TaskAuditRecord :=
  { r with id := 0, createdAt := 0 }

/-- The same notifications and task audit rows, but for identifiers and times. -/
structure SameRows (s s' : AppState) : Prop where
  notifications : List.Perm (s.db.notifications.rows.map (·.unstamped))
    (s'.db.notifications.rows.map (·.unstamped))
  taskAudit : List.Perm (s.db.taskAudit.rows.map (·.unstamped))
    (s'.db.taskAudit.rows.map (·.unstamped))

/-- Time `t` is in the dedupe window of `now`, and the tasks are overdue or due soon at `t` as they
are at `now`. -/
structure Steady (app : App) (s : AppState) (now t : Time) : Prop where
  bucket : bucketAt app t = bucketAt app now
  overdue : ∀ task ∈ s.db.tasks, ∀ d ∈ task.dueAt, d ≤ t ↔ d ≤ now
  dueSoon : ∀ task ∈ s.db.tasks, ∀ d ∈ task.dueAt,
    d ≤ t + seconds (app.config.reminderDueSoonHours * 3600) ↔
      d ≤ now + seconds (app.config.reminderDueSoonHours * 3600)

/-- In state `s`, around time `now`: `k` executions of a sweep, each of them cut off anywhere and
the last one complete, leave the rows that one complete execution leaves. -/
def SweepIdempotent (app : App) (tenantId : Option Uuid) (s : AppState) (now : Time) (k : Nat) :
    Prop :=
  ∀ earlier last once s₁ s' t' v v', earlier.length + 1 = k →
    (∀ es ∈ once :: last :: earlier, ∀ e ∈ es, Steady app s now e.now) →
    cutOffs (Jobs.processDueReminderJob app tenantId) earlier s = some s₁ →
    play (Jobs.processDueReminderJob app tenantId) last s₁ = some (.ok v, s') →
    play (Jobs.processDueReminderJob app tenantId) once s = some (.ok v', t') → SameRows s' t'

/-- The sweep is for overdue tasks like this one. -/
def sweepsTask (tenantId : Option Uuid) (now : Time) (t : TaskRecord) : Bool :=
  isOverdue now t && wanted tenantId (t.tenantId = ·)

namespace Sweeps
open Plays

/-! ### Notifications -/

/-- The notifications, without stamps. -/
def outbox (s : AppState) : List NotificationRecord := s.db.notifications.rows.map (·.unstamped)

/-- The row of the reminder of a candidate, without stamps. -/
def reminderRow (app : App) (now : Time) (c : DueReminderCandidate) : NotificationRecord :=
  newNotification 0 (Jobs.reminderNotification app now c) app.config.maxJobAttempts 0

section Notifications

variable {app : App} {now : Time} {c : DueReminderCandidate} {cs : List DueReminderCandidate}
  {es : List Env} {s t s' : AppState}

theorem hasKey_iff_outbox : HasKey (keyAt app now c) s ↔
    (reminderRow app now c).dedupeKey ∈ (outbox s).map (·.dedupeKey) := by
  rw [outbox, List.map_map, List.mem_map]
  rfl

theorem OnlyNotifications.refl (s : AppState) : OnlyNotifications s s := rfl

theorem OnlyNotifications.trans (h : OnlyNotifications s t) (h' : OnlyNotifications t s') :
    OnlyNotifications s s' := by
  unfold OnlyNotifications at *
  rw [h', h]

/-- A reminder that is inserted is added to the outbox unless its key is there. -/
theorem play_reminder_outbox {r : Except AppError Bool}
    (h : play (enqueueNotification (Jobs.reminderNotification app now c) app.config.maxJobAttempts)
      es s = some (r, s')) :
    OnlyNotifications s s' ∧
      (outbox s' = addMissing (·.dedupeKey) (outbox s) (reminderRow app now c) ∨
        outbox s' = outbox s ∧ ∃ x, r = .error x) := by
  obtain ⟨honly, ⟨hsame, hok⟩ | ⟨hnone, id, written, -, hrows⟩⟩ :=
    play_enqueueNotification (k := keyAt app now c) rfl h
  · refine ⟨honly, ?_⟩
    have houtbox : outbox s' = outbox s := by rw [outbox, hsame, outbox]
    cases r with
    | error x => exact .inr ⟨houtbox, x, rfl⟩
    | ok b =>
        left
        rw [houtbox, addMissing, if_pos]
        exact hasKey_iff_outbox.mp (hok b rfl)
  · refine ⟨honly, .inl ?_⟩
    rw [addMissing, if_neg fun hmem => hnone (hasKey_iff_outbox.mpr hmem), outbox, hrows,
      List.map_append]
    rfl

/-- The database does not change. -/
def SameDb (s s' : AppState) : Prop := s'.db = s.db

theorem sameDb_patient : Patient (Contract.frame SameDb : Contract Event Env AppState) where
  stay _ _ _ _ _ _ := rfl
  same _ _ _ _ := rfl
  issue _ _ _ _ _ := rfl

theorem cutOff_sameDb {A : Type} {p : Service A}
    (hp : (Contract.frame SameDb : Contract Event Env AppState).Safe 0 p)
    (h : cutOff p es s = some s') : s'.db = s.db :=
  hp.cutOff (R := SameDb) (fun _ => rfl) (fun h h' => h'.trans h) h

theorem cutOff_newUuid (h : cutOff newUuid es s = some s') : s'.db = s.db :=
  cutOff_sameDb (newUuid_safe sameDb_patient) h

theorem OnlyNotifications.of_db (h : s'.db = s.db) : OnlyNotifications s s' := by
  rw [OnlyNotifications, h]

/-- An insertion that is cut off has not happened, or it has. -/
theorem cutOff_reminder
    (h : cutOff (enqueueNotification (Jobs.reminderNotification app now c)
      app.config.maxJobAttempts) es s = some s') :
    (OnlyNotifications s s' ∧ outbox s' = outbox s) ∨
      ∃ r, play (enqueueNotification (Jobs.reminderNotification app now c)
        app.config.maxJobAttempts) es s = some (r, s') := by
  rcases cutOff_bind h with h₁ | ⟨id, es₁, es₂, t, rfl, h₁, h₂⟩
  · have hdb := cutOff_newUuid h₁
    exact .inl ⟨.of_db hdb, by rw [outbox, hdb, outbox]⟩
  · rcases cutOff_atomic h₂ with rfl | ⟨r, hr⟩
    · have hdb := (play_newUuid h₁).1
      exact .inl ⟨.of_db hdb, by rw [outbox, hdb, outbox]⟩
    · refine .inr ⟨r, ?_⟩
      unfold enqueueNotification
      rw [Prog.bind_eq, play_bind h₁]
      exact hr

/-- As far as the sweep goes, it adds the reminders of the first so many candidates. -/
theorem cutOff_enqueueCandidates (h : cutOff (Jobs.enqueueCandidates app now cs) es s = some s') :
    OnlyNotifications s s' ∧ ∃ m, outbox s' =
      addAll (·.dedupeKey) (outbox s) ((cs.map (reminderRow app now)).take m) := by
  induction cs generalizing es s with
  | nil =>
      obtain rfl := cutOff_done h
      exact ⟨.refl _, 0, rfl⟩
  | cons c cs ih =>
      rcases cutOff_bind h with h₁ | ⟨inserted, es₁, es₂, t, -, h₁, h₂⟩
      · rcases cutOff_reminder h₁ with ⟨honly, hsame⟩ | ⟨r, hr⟩
        · exact ⟨honly, 0, hsame⟩
        · obtain ⟨honly, hadded | ⟨hsame, -⟩⟩ := play_reminder_outbox hr
          · exact ⟨honly, 1, hadded⟩
          · exact ⟨honly, 0, hsame⟩
      · obtain ⟨honly, hadded | ⟨-, x, hx⟩⟩ := play_reminder_outbox h₁
        · obtain ⟨hrest, m, hm⟩ : OnlyNotifications t s' ∧ ∃ m, outbox s' =
              addAll (·.dedupeKey) (outbox t) ((cs.map (reminderRow app now)).take m) := by
            rcases cutOff_bind h₂ with h₃ | ⟨rest, es₃, es₄, u, -, h₃, h₄⟩
            · exact ih h₃
            · obtain rfl := cutOff_done h₄
              exact ih (cutOff_of_play h₃)
          refine ⟨honly.trans hrest, m + 1, ?_⟩
          rw [hm, hadded]
          rfl
        · cases hx

/-- A sweep that returns has added the reminders of all its candidates. -/
theorem play_enqueueCandidates {n : Nat}
    (h : play (Jobs.enqueueCandidates app now cs) es s = some (.ok n, s')) :
    outbox s' = addAll (·.dedupeKey) (outbox s) (cs.map (reminderRow app now)) := by
  induction cs generalizing es s n with
  | nil =>
      obtain ⟨-, -, rfl⟩ := play_done h
      rfl
  | cons c cs ih =>
      obtain ⟨inserted, es₁, es₂, t, -, h₁, h₂⟩ := play_bind_ok h
      obtain ⟨rest, es₃, es₄, u, -, h₃, h₄⟩ := play_bind_ok h₂
      obtain ⟨-, -, rfl⟩ := play_done h₄
      obtain ⟨-, hadded | ⟨-, x, hx⟩⟩ := play_reminder_outbox h₁
      · rw [ih h₃, hadded]
        rfl
      · cases hx

end Notifications

/-! ### Audit rows -/

/-- The tasks for which `record_due_reminders` writes audit rows at time `now`, where ties are
broken by `rank`. -/
def remindedTasks (tenantId : Option Uuid) (s : AppState) (now : Time) (rank : Uuid → Nat) :
    List TaskRecord :=
  ((s.db.tasks.select (sweepsTask tenantId now)).insertionSort fun a b =>
    inDueOrder rank (a.dueAt.getD 0, a.id) (b.dueAt.getD 0, b.id)).take 200

/-- The audit row of a task, without stamps. -/
def reminderEntry (app : App) (task : TaskRecord) : TaskAuditRecord :=
  { id := 0, taskId := some task.id, tenantId := task.tenantId, actorUserId := task.updatedBy,
    eventType := "due_reminder_scheduled",
    payload := .obj [("task_id", .str (app.lib.uuidString task.id)),
      ("due_at", timeValue app task.dueAt), ("status", .str task.status.asStr)],
    createdAt := 0 }

/-- The rows that `record_due_reminders` inserts, without stamps. -/
def reminderLog (app : App) (tenantId : Option Uuid) (s : AppState) (now : Time)
    (rank : Uuid → Nat) : List TaskAuditRecord :=
  (remindedTasks tenantId s now rank).map (reminderEntry app)

/-- The audit rows, without stamps. -/
def auditLog (s : AppState) : List TaskAuditRecord := s.db.taskAudit.rows.map (·.unstamped)

section Audit

variable {app : App} {tenantId : Option Uuid} {now : Time} {tasks : List TaskRecord}
  {es : List Env} {s t s' : AppState} {rank : Uuid → Nat}

theorem remindedTasks_eq_nil :
    remindedTasks tenantId s now rank = [] ↔ ¬ ∃ t ∈ s.db.tasks, sweepsTask tenantId now t = true := by
  rw [remindedTasks, List.take_eq_nil_iff, ← List.length_eq_zero_iff, List.length_insertionSort,
    List.length_eq_zero_iff, List.eq_nil_iff_forall_not_mem]
  simp [Table.mem_select]

theorem play_reminderEntries {entries : List TaskAuditRecord}
    (h : play (reminderEntries app tasks) es s = some (.ok entries, s')) :
    s'.db = s.db ∧ entries.map (·.unstamped) = tasks.map (reminderEntry app) := by
  induction tasks generalizing es s entries with
  | nil =>
      obtain ⟨-, hr, rfl⟩ := play_done h
      cases hr
      exact ⟨rfl, rfl⟩
  | cons task tasks ih =>
      obtain ⟨id, es₁, es₂, t, -, h₁, h⟩ := play_bind_ok h
      obtain ⟨at', es₃, es₄, u, -, h₂, h⟩ := play_bind_ok h
      obtain ⟨rest, es₅, es₆, v, -, h₃, h⟩ := play_bind_ok h
      obtain ⟨-, hr, rfl⟩ := play_done h
      cases hr
      obtain ⟨rfl, -⟩ := play_utcNow h₂
      obtain ⟨hdb, hrest⟩ := ih h₃
      refine ⟨hdb.trans (play_newUuid h₁).1, ?_⟩
      rw [List.map_cons, List.map_cons, hrest]
      rfl

theorem cutOff_reminderEntries (h : cutOff (reminderEntries app tasks) es s = some s') :
    s'.db = s.db :=
  cutOff_sameDb (reminderEntries_safe sameDb_patient) h

/-- The audit rows that are written when `record_due_reminders` returns. -/
theorem play_recordDueReminders_log {n : Nat}
    (h : play (recordDueReminders app tenantId) es s = some (.ok n, s')) :
    ∃ e ∈ es, auditLog s' = auditLog s ++ reminderLog app tenantId s e.now e.rank := by
  obtain ⟨tasks, es₁, es₂, t, rfl, h₁, h⟩ := play_bind_ok h
  obtain ⟨rfl, e, rfl, htasks⟩ := play_select h₁
  obtain rfl := htasks tasks rfl
  obtain ⟨entries, es₃, es₄, u, rfl, h₂, h⟩ := play_bind_ok h
  obtain ⟨hdb, hentries⟩ := play_reminderEntries h₂
  refine ⟨e, List.mem_append_left _ (List.mem_singleton_self e), ?_⟩
  obtain ⟨e', -, ⟨-, x, hx⟩ | ⟨hs', hr⟩⟩ := play_sql h
  · cases hx
  · have hr := hr n rfl
    cases hins : u.db.taskAudit.insertAll entries with
    | none =>
        simp only [hins] at hr
        cases hr
    | some taskAudit =>
        simp only [hins] at hs'
        subst hs'
        rw [auditLog, Table.rows_insertAll hins, List.map_append, hentries, hdb]
        rfl

/-- No audit row is written where there is no task to remind of. -/
theorem cutOff_recordDueReminders_log
    (hnone : ∀ e ∈ es, remindedTasks tenantId s e.now e.rank = [])
    (h : cutOff (recordDueReminders app tenantId) es s = some s') :
    s'.db.taskAudit = s.db.taskAudit := by
  rcases cutOff_bind h with h | ⟨tasks, es₁, es₂, t, rfl, h₁, h⟩
  · rcases cutOff_atomic h with rfl | ⟨r, hr⟩
    · rfl
    · rw [(play_select hr).1]
  obtain ⟨rfl, e, rfl, htasks⟩ := play_select h₁
  obtain rfl : tasks = [] := (htasks tasks rfl).trans
    (hnone e (List.mem_append_left _ (List.mem_singleton_self e)))
  rcases cutOff_bind h with h | ⟨entries, es₃, es₄, u, rfl, h₂, h⟩
  · rw [cutOff_reminderEntries h]
  obtain ⟨hdb, hentries⟩ := play_reminderEntries h₂
  obtain rfl : entries = [] := List.map_eq_nil_iff.mp hentries
  rw [← hdb]
  rcases cutOff_atomic h with rfl | ⟨r, hr⟩
  · rfl
  · obtain ⟨e', -, ⟨rfl, -⟩ | ⟨rfl, -⟩⟩ := play_sql hr <;> rfl

end Audit

/-! ### Executions in one window -/

/-- The rows of the reminders of all candidates, without stamps. -/
def reminderRows (app : App) (tenantId : Option Uuid) (s : AppState) (now : Time)
    (rank : Uuid → Nat) : List NotificationRecord :=
  (candidates app tenantId s now rank).map (reminderRow app now)

/-- The row is the reminder of a candidate, where ties are broken in some way. -/
def IsReminder (app : App) (tenantId : Option Uuid) (s : AppState) (now : Time)
    (n : NotificationRecord) : Prop :=
  ∃ rank, n ∈ reminderRows app tenantId s now rank

/-- Reminders of the sweep have been added, and nothing else that it reads has changed. -/
structure SweptInPart (app : App) (tenantId : Option Uuid) (now : Time) (s s' : AppState) :
    Prop where
  sources : SameSources s s'
  added : Absorbs (·.dedupeKey) (IsReminder app tenantId s now) (outbox s) (outbox s')

section Window

variable {app : App} {tenantId : Option Uuid} {now t : Time} {es : List Env} {s s' t' : AppState}
  {rank : Uuid → Nat}

theorem steady_self (app : App) (s : AppState) (now : Time) : Steady app s now now :=
  ⟨rfl, fun _ _ _ _ => Iff.rfl, fun _ _ _ _ => Iff.rfl⟩

theorem steady_congr (h : Steady app s now t) (hs : SameSources s s') : Steady app s' now t where
  bucket := h.bucket
  overdue task htask := h.overdue task (hs.1 ▸ htask)
  dueSoon task htask := h.dueSoon task (hs.1 ▸ htask)

/-- The query finds the same candidates throughout. -/
theorem candidates_steady (h : Steady app s now t) :
    candidates app tenantId s t rank = candidates app tenantId s now rank := by
  have hcandidate : s.db.tasks.rows.filterMap
      (dueReminderCandidate s t app.config.reminderDueSoonHours tenantId) =
        s.db.tasks.rows.filterMap
          (dueReminderCandidate s now app.config.reminderDueSoonHours tenantId) := by
    refine List.filterMap_congr fun task htask => ?_
    unfold dueReminderCandidate
    cases hdue : task.dueAt with
    | none => rfl
    | some d =>
        have hoverdue := h.overdue task htask d hdue
        have hsoon := h.dueSoon task htask d hdue
        simp only [Option.bind_eq_bind, Option.bind_some, hoverdue, hsoon]
  rw [candidates, allCandidates, hcandidate, candidates, allCandidates]

/-- They get the same reminders throughout. -/
theorem reminderRows_steady (h : Steady app s now t) :
    (candidates app tenantId s now rank).map (reminderRow app t) =
      reminderRows app tenantId s now rank := by
  refine List.map_congr_left fun c hc => ?_
  obtain ⟨task, htask, d, hcandidate⟩ := mem_candidates hc
  obtain ⟨hdue, -, hd, -⟩ := dueReminderCandidate_eq hcandidate
  have hkind : decide (d ≤ t) = decide (d ≤ now) :=
    decide_eq_decide.mpr (h.overdue task htask d hdue)
  have hbucket := h.bucket
  unfold bucketAt at hbucket
  simp only [reminderRow, Jobs.reminderNotification, hd, Option.any_some, hkind, hbucket]

theorem remindedTasks_steady (h : Steady app s now t) :
    remindedTasks tenantId s t rank = remindedTasks tenantId s now rank := by
  have hselect : s.db.tasks.select (sweepsTask tenantId t) =
      s.db.tasks.select (sweepsTask tenantId now) := by
    refine List.filter_congr fun task htask => ?_
    cases hdue : task.dueAt with
    | none => simp [sweepsTask, isOverdue, compares, hdue]
    | some d =>
        have hoverdue := h.overdue task htask d hdue
        simp [sweepsTask, isOverdue, compares, hdue, hoverdue]
  rw [remindedTasks, hselect, remindedTasks]

/-- **How far a sweep that is cut off has gone.** -/
theorem cutOff_sweep (hes : ∀ e ∈ es, Steady app s now e.now)
    (h : cutOff (Jobs.enqueueDueReminderNotifications app tenantId) es s = some s') :
    OnlyNotifications s s' ∧ SweptInPart app tenantId now s s' := by
  have hnothing : OnlyNotifications s s ∧ SweptInPart app tenantId now s s :=
    ⟨.refl s, .refl s, .refl _⟩
  rcases cutOff_bind h with h₁ | ⟨cs, es₁, es₂, u, rfl, h₁, h₂⟩
  · rcases cutOff_atomic h₁ with rfl | ⟨r, hr⟩
    · exact hnothing
    · rwa [(play_select hr).1]
  obtain ⟨rfl, e₁, rfl, hcs⟩ := play_select h₁
  have hsteady₁ := hes e₁ (by simp)
  obtain rfl : cs = candidates app tenantId u e₁.now e₁.rank := hcs cs rfl
  rcases cutOff_bind h₂ with h₃ | ⟨at', es₃, es₄, v, rfl, h₃, h₄⟩
  · rcases cutOff_atomic h₃ with rfl | ⟨r, hr⟩
    · exact hnothing
    · rwa [(play_utcNow hr).1]
  obtain ⟨rfl, e₂, rfl, hnow⟩ := play_utcNow h₃
  obtain rfl := Except.ok.inj hnow
  have hsteady₂ := hes e₂ (by simp)
  obtain ⟨honly, m, hm⟩ := cutOff_enqueueCandidates h₄
  rw [candidates_steady hsteady₁, reminderRows_steady hsteady₂] at hm
  refine ⟨honly, honly.sources, ?_⟩
  rw [hm]
  exact .addAll fun n hn => ⟨e₁.rank, List.mem_of_mem_take hn⟩

theorem auditLog_of_only (h : OnlyNotifications s s') : auditLog s' = auditLog s := by
  rw [auditLog, h, auditLog]

theorem outbox_of_same (h : SameNotifications s s') : outbox s' = outbox s := by
  rw [outbox, h.2, outbox]

theorem cutOff_recordDueReminders (h : cutOff (recordDueReminders app tenantId) es s = some s') :
    SameNotifications s s' :=
  (recordDueReminders_safe frame_tolerant (i := 0)).cutOff (R := SameNotifications)
    (fun _ => ⟨.refl _, rfl⟩) (fun h h' => ⟨h.1.trans h'.1, h'.2.trans h.2⟩) h

theorem isReminder_congr (h : SameSources s s') {n : NotificationRecord} :
    IsReminder app tenantId s' now n ↔ IsReminder app tenantId s now n := by
  simp only [IsReminder, reminderRows, candidates_congr h]

/-- The audit rows of the sweep do not come into what it enqueues. -/
theorem SweptInPart.of_same (h : SameNotifications s s') (h' : SweptInPart app tenantId now s' t') :
    SweptInPart app tenantId now s t' where
  sources := h.1.trans h'.sources
  added := by
    rw [← outbox_of_same h]
    exact h'.added.mono fun _ => (isReminder_congr h.1).mp

/-- **How far an execution of the job that is cut off has gone.** -/
theorem cutOff_sweepJob (hes : ∀ e ∈ es, Steady app s now e.now)
    (h : cutOff (Jobs.processDueReminderJob app tenantId) es s = some s') :
    SweptInPart app tenantId now s s' ∧
      ((∀ rank, remindedTasks tenantId s now rank = []) → auditLog s' = auditLog s) := by
  have hlog {es' : List Env} {u : AppState} (hes' : ∀ e ∈ es', Steady app s now e.now)
      (hu : cutOff (recordDueReminders app tenantId) es' s = some u)
      (hnone : ∀ rank, remindedTasks tenantId s now rank = []) : auditLog u = auditLog s := by
    have hsame := cutOff_recordDueReminders_log
      (fun e he => (remindedTasks_steady (hes' e he)).trans (hnone e.rank)) hu
    rw [auditLog, hsame, auditLog]
  rcases cutOff_bind h with h₁ | ⟨n, es₁, es₂, u, rfl, h₁, h₂⟩
  · have hsame := cutOff_recordDueReminders h₁
    refine ⟨⟨hsame.1, ?_⟩, hlog hes h₁⟩
    rw [outbox_of_same hsame]
    exact .refl _
  have hcut := cutOff_of_play h₁
  have hsame := cutOff_recordDueReminders hcut
  have hlog := hlog (fun e he => hes e (List.mem_append_left _ he)) hcut
  -- The rest enqueues, and ends with a reading of the clock.
  obtain ⟨es', hsub, hsweep⟩ : ∃ es', (∀ e ∈ es', e ∈ es₂) ∧
      cutOff (Jobs.enqueueDueReminderNotifications app tenantId) es' u = some s' := by
    rcases cutOff_bind h₂ with h₃ | ⟨m, es₃, es₄, v, rfl, h₃, h₄⟩
    · exact ⟨es₂, fun _ he => he, h₃⟩
    refine ⟨es₃, fun e he => List.mem_append_left _ he, ?_⟩
    rw [cutOff_of_play h₃]
    rcases cutOff_bind h₄ with h₅ | ⟨at', es₅, es₆, w, rfl, h₅, h₆⟩
    · rcases cutOff_atomic h₅ with rfl | ⟨r, hr⟩
      · rfl
      · rw [(play_utcNow hr).1]
    · rw [cutOff_done h₆, (play_utcNow h₅).1]
  have hsteady : ∀ e ∈ es', Steady app u now e.now := fun e he =>
    steady_congr (hes e (List.mem_append_right _ (hsub e he))) hsame.1
  obtain ⟨honly, hswept⟩ := cutOff_sweep hsteady hsweep
  exact ⟨.of_same hsame hswept, fun hnone => (auditLog_of_only honly).trans (hlog hnone)⟩

/-- **What a complete execution of the job leaves.** -/
theorem play_sweepJob {v : Value} (hes : ∀ e ∈ es, Steady app s now e.now)
    (h : play (Jobs.processDueReminderJob app tenantId) es s = some (.ok v, s')) :
    ∃ e₁ ∈ es, ∃ e₂ ∈ es,
      outbox s' = addAll (·.dedupeKey) (outbox s) (reminderRows app tenantId s now e₂.rank) ∧
        auditLog s' = auditLog s ++ reminderLog app tenantId s now e₁.rank := by
  obtain ⟨n, es₁, es₂, u, rfl, h₁, h₂⟩ := play_bind_ok h
  obtain ⟨m, es₃, es₄, w, rfl, h₃, h₄⟩ := play_bind_ok h₂
  obtain ⟨at', es₅, es₆, x, rfl, h₅, h₆⟩ := play_bind_ok h₄
  obtain ⟨rfl, -⟩ := play_utcNow h₅
  obtain ⟨-, -, rfl⟩ := play_done h₆
  have hsame := play_recordDueReminders h₁
  obtain ⟨e, he, hlog⟩ := play_recordDueReminders_log h₁
  rw [reminderLog, remindedTasks_steady (hes e (List.mem_append_left _ he))] at hlog
  have hsteady : ∀ e ∈ es₃, Steady app u now e.now := fun e he =>
    steady_congr (hes e (by simp [he])) hsame.1
  have honly := (cutOff_sweep hsteady (cutOff_of_play h₃)).1
  rcases play_sweep h₃ with ⟨-, x, hx⟩ | ⟨e₁, e₂, rest, rfl, hplay⟩
  · cases hx
  refine ⟨e, List.mem_append_left _ he, e₁, by simp, ?_, (auditLog_of_only honly).trans hlog⟩
  rw [play_enqueueCandidates hplay, candidates_steady (hsteady e₁ (by simp)),
    reminderRows_steady (hsteady e₂ (by simp)), outbox_of_same hsame, reminderRows,
    candidates_congr hsame.1, reminderRows]

end Window

/-! ### Several executions -/

/-- What executions of the job from state `s` have done up to state `t`, cut off or not. -/
structure SweptSoFar (app : App) (tenantId : Option Uuid) (now : Time) (s t : AppState) : Prop
    extends SweptInPart app tenantId now s t where
  unaudited : (∀ rank, remindedTasks tenantId s now rank = []) → auditLog t = auditLog s

section Several

variable {app : App} {tenantId : Option Uuid} {now : Time} {es : List Env} {s t t' : AppState}
  {rank : Uuid → Nat}

theorem remindedTasks_congr (h : SameSources s t) :
    remindedTasks tenantId t now rank = remindedTasks tenantId s now rank := by
  rw [remindedTasks, h.1, remindedTasks]

theorem reminderRows_congr (h : SameSources s t) :
    reminderRows app tenantId t now rank = reminderRows app tenantId s now rank := by
  rw [reminderRows, candidates_congr h, reminderRows]

/-- **One execution more**, cut off anywhere, is absorbed. -/
theorem SweptSoFar.step (hs : SweptSoFar app tenantId now s t)
    (hes : ∀ e ∈ es, Steady app s now e.now)
    (h : cutOff (Jobs.processDueReminderJob app tenantId) es t = some t') :
    SweptSoFar app tenantId now s t' := by
  obtain ⟨hswept, hlog⟩ := cutOff_sweepJob (fun e he => steady_congr (hes e he) hs.sources) h
  simp only [remindedTasks_congr hs.sources] at hlog
  refine ⟨⟨hs.sources.trans hswept.sources, ?_⟩, fun hnone => ?_⟩
  · exact hs.added.trans (hswept.added.mono fun _ => (isReminder_congr hs.sources).mp)
  · exact (hlog hnone).trans (hs.unaudited hnone)

theorem sweptSoFar_self : SweptSoFar app tenantId now s s := ⟨⟨.refl s, .refl _⟩, fun _ => rfl⟩

/-- The executions before the last one. -/
theorem sweptSoFar_of_cutOffs {ess : List (List Env)}
    (hess : ∀ es ∈ ess, ∀ e ∈ es, Steady app s now e.now)
    (h : cutOffs (Jobs.processDueReminderJob app tenantId) ess s = some t) :
    SweptSoFar app tenantId now s t :=
  cutOffs_invariant (fun _ _ _ hs hes hcut => hs.step hes hcut) hess sweptSoFar_self h

/-- The key of a reminder determines it. -/
theorem candidate_eq_of_key (hids : UuidText app) {c c' : DueReminderCandidate}
    {rank' : Uuid → Nat} (hc : c ∈ candidates app tenantId s now rank)
    (hc' : c' ∈ candidates app tenantId s now rank') (h : keyAt app now c = keyAt app now c') :
    c = c' := by
  obtain ⟨task, htask, d, hcandidate⟩ := mem_candidates hc
  obtain ⟨task', htask', d', hcandidate'⟩ := mem_candidates hc'
  obtain ⟨-, -, -, hid, -⟩ := dueReminderCandidate_eq hcandidate
  obtain ⟨-, -, -, hid', -⟩ := dueReminderCandidate_eq hcandidate'
  obtain ⟨-, hsame, -⟩ := reminderKey_inj hids h
  obtain rfl : task = task' := Table.eq_of_key htask htask' (hid.symm.trans (hsame.trans hid'))
  exact (Prod.mk.inj (Option.some.inj (hcandidate.symm.trans hcandidate'))).2

theorem isReminder_inj (hids : UuidText app) {n n' : NotificationRecord}
    (hn : IsReminder app tenantId s now n) (hn' : IsReminder app tenantId s now n')
    (h : n.dedupeKey = n'.dedupeKey) : n = n' := by
  obtain ⟨rank, hmem⟩ := hn
  obtain ⟨rank', hmem'⟩ := hn'
  obtain ⟨c, hc, rfl⟩ := List.mem_map.mp hmem
  obtain ⟨c', hc', rfl⟩ := List.mem_map.mp hmem'
  rw [candidate_eq_of_key hids hc hc' (Option.some.inj h)]

end Several

/-! ### Ties -/

/-- Whichever of the tasks that are due at the same time the queries take, the sweep audits the
same tasks and finds the same candidates that have no reminder yet. -/
structure Untied (app : App) (tenantId : Option Uuid) (s : AppState) (now : Time) : Prop where
  audited : ∀ rank rank', ∀ t ∈ remindedTasks tenantId s now rank,
    t ∈ remindedTasks tenantId s now rank'
  reminded : ∀ rank rank', ∀ c ∈ candidates app tenantId s now rank,
    ¬ HasKey (keyAt app now c) s → c ∈ candidates app tenantId s now rank'

section Ties

variable {app : App} {tenantId : Option Uuid} {now : Time} {s t : AppState}

/-- Where the limits cut nothing off, there are no such ties. -/
theorem untied_of_few (ht : (s.db.tasks.select (sweepsTask tenantId now)).length ≤ 200)
    (hc : (s.db.tasks.rows.filterMap (dueReminderCandidate s now app.config.reminderDueSoonHours
      tenantId)).length ≤ Jobs.reminderCandidateLimit) : Untied app tenantId s now where
  audited rank rank' task hmem := by
    unfold remindedTasks at hmem ⊢
    rw [List.take_of_length_le (by rwa [List.length_insertionSort]),
      List.mem_insertionSort] at hmem ⊢
    exact hmem
  reminded rank rank' c hmem _ := by
    unfold candidates allCandidates at hmem ⊢
    rw [List.take_of_length_le (by rwa [List.length_insertionSort])] at hmem ⊢
    obtain ⟨x, hx, rfl⟩ := List.mem_map.mp hmem
    rw [List.mem_insertionSort] at hx
    exact List.mem_map_of_mem ((List.mem_insertionSort _).mpr hx)

/-- The audit rows are those of the same tasks. -/
theorem perm_reminderLog (h : Untied app tenantId s now) (rank rank' : Uuid → Nat) :
    List.Perm (reminderLog app tenantId s now rank) (reminderLog app tenantId s now rank') := by
  have hnodup : ∀ rank, (remindedTasks tenantId s now rank).Nodup := fun rank =>
    ((List.perm_insertionSort _ _).nodup_iff.mpr
      (s.db.tasks.nodup.of_map.filter _)).sublist (List.take_sublist _ _)
  refine List.Perm.map _ ((List.perm_ext_iff_of_nodup (hnodup rank) (hnodup rank')).mpr
    fun task => ⟨h.audited rank rank' task, h.audited rank' rank task⟩)

/-- In the end every reminder is there. -/
theorem Untied.key_mem (h : Untied app tenantId s now) {rank : Uuid → Nat}
    (ht : Absorbs (·.dedupeKey) (IsReminder app tenantId s now) (outbox s) (outbox t))
    {n : NotificationRecord} (hn : IsReminder app tenantId s now n) :
    n.dedupeKey ∈ (addAll (·.dedupeKey) (outbox t)
      (reminderRows app tenantId s now rank)).map (·.dedupeKey) := by
  obtain ⟨rank', hmem⟩ := hn
  obtain ⟨c, hc, rfl⟩ := List.mem_map.mp hmem
  by_cases hkey : HasKey (keyAt app now c) s
  · refine addAll_keeps ?_
    obtain ⟨added, hadded, -⟩ := ht
    rw [hadded, List.map_append]
    exact List.mem_append_left _ (hasKey_iff_outbox.mp hkey)
  · exact key_mem_addAll (List.mem_map_of_mem (h.reminded rank' rank c hc hkey))

end Ties

/-! ### Executions without a failure -/

section Existence

variable {app : App} {tenantId : Option Uuid}

theorem exists_play_reminderEntries (app : App) (now : Time) (rank : Uuid → Nat)
    (tasks : List TaskRecord) (taken : List Uuid) (s : AppState) :
    ∃ es entries s', (∀ e ∈ es, At now rank e) ∧
      play (reminderEntries app tasks) es s = some (.ok entries, s') ∧
        (entries.map (·.id)).Nodup ∧ ∀ entry ∈ entries, entry.id ∉ taken := by
  induction tasks generalizing s taken with
  | nil => exact ⟨[], [], s, by simp, rfl, List.nodup_nil, by simp⟩
  | cons task tasks ih =>
      obtain ⟨id, hid⟩ := exists_fresh taken
      let e : Env := { (default : Env) with uuid := id, now, rank }
      let t : AppState := { s with history.issued := (id, e.pid) :: s.history.issued }
      obtain ⟨es, entries, s', hnow, h, hnodup, hnew⟩ := ih (id :: taken) t
      have h₁ : play newUuid [e] s = some (.ok id, t) := rfl
      have h₂ : play utcNow [e] t = some (.ok now, t) := rfl
      refine ⟨[e] ++ ([e] ++ (es ++ [])), ?_⟩
      unfold reminderEntries
      rw [Prog.bind_eq, play_bind h₁, Prog.bind_eq, play_bind h₂, Prog.bind_eq, play_bind h]
      refine ⟨_, s', ?_, rfl, ?_, ?_⟩
      · intro e' he'
        simp only [List.append_nil, List.mem_append, List.mem_singleton] at he'
        rcases he' with rfl | rfl | he'
        · exact ⟨rfl, rfl⟩
        · exact ⟨rfl, rfl⟩
        · exact hnow e' he'
      · rw [List.map_cons, List.nodup_cons]
        refine ⟨fun hmem => ?_, hnodup⟩
        obtain ⟨entry, hentry, heq⟩ := List.mem_map.mp hmem
        exact hnew entry hentry (heq ▸ List.mem_cons_self)
      · intro entry hentry
        rcases List.mem_cons.mp hentry with rfl | hentry
        · exact hid
        · exact fun hmem => hnew entry hentry (List.mem_cons_of_mem _ hmem)

theorem exists_play_recordDueReminders (now : Time) (rank : Uuid → Nat) (s : AppState) :
    ∃ es n s', (∀ e ∈ es, At now rank e) ∧
      play (recordDueReminders app tenantId) es s = some (.ok n, s') := by
  let e : Env := { (default : Env) with now, rank }
  obtain ⟨es, entries, t, hnow, h, hnodup, hnew⟩ := exists_play_reminderEntries app now rank
    (remindedTasks tenantId s now rank) (s.db.taskAudit.rows.map (·.id)) s
  obtain ⟨taskAudit, hins⟩ := Table.insertAll_of_fresh (t := s.db.taskAudit) hnodup
    fun entry hentry b hb heq => hnew entry hentry (List.mem_map.mpr ⟨b, hb, heq⟩)
  have hdb := (play_reminderEntries h).1
  have h₁ : play (select fun e s => remindedTasks tenantId s e.now e.rank) [e] s =
      some (.ok (remindedTasks tenantId s now rank), s) := rfl
  refine ⟨[e] ++ (es ++ [e]), (remindedTasks tenantId s now rank).length,
    { t with db.taskAudit := taskAudit }, ?_, ?_⟩
  · intro e' he'
    simp only [List.mem_append, List.mem_singleton] at he'
    rcases he' with rfl | he' | rfl
    · exact ⟨rfl, rfl⟩
    · exact hnow e' he'
    · exact ⟨rfl, rfl⟩
  · refine (play_bind h₁).trans ?_
    rw [Prog.bind_eq, play_bind h]
    rw [← hdb] at hins
    simp only [sql, sqlWhen, Prog.atomic, play, if_true, hins]
    rfl

/-- The job can be executed completely at any time. -/
theorem exists_play_sweepJob (now : Time) (rank : Uuid → Nat) (s : AppState) :
    ∃ es v s', (∀ e ∈ es, At now rank e) ∧
      play (Jobs.processDueReminderJob app tenantId) es s = some (.ok v, s') := by
  obtain ⟨es₁, n, t, hnow₁, h₁⟩ := @exists_play_recordDueReminders app tenantId now rank s
  obtain ⟨e₁, e₂, es₂, m, s', hnow₂, hnow₃, hnow₄, h₂⟩ :=
    @exists_play_sweep app tenantId t now now rank
  let e : Env := { (default : Env) with now, rank }
  have h₃ : play utcNow [e] s' = some (.ok now, s') := rfl
  refine ⟨es₁ ++ ((e₁ :: e₂ :: es₂) ++ ([e] ++ [])), ?_⟩
  unfold Jobs.processDueReminderJob
  rw [Prog.bind_eq, play_bind h₁, Prog.bind_eq, play_bind h₂, Prog.bind_eq, play_bind h₃]
  refine ⟨_, s', fun e' he' => ?_, rfl⟩
  simp only [List.mem_append, List.mem_cons, List.not_mem_nil, or_false] at he'
  rcases he' with he' | (rfl | rfl | he') | rfl
  · exact hnow₁ e' he'
  · exact hnow₂
  · exact hnow₃
  · exact hnow₄ e' he'
  · exact ⟨rfl, rfl⟩

end Existence

end Sweeps

open Sweeps

namespace Sweeps

section Both

variable {app : App} {tenantId : Option Uuid} {s : AppState} {now : Time} {k : Nat}

theorem steady_of_at {rank : Uuid → Nat} {es : List Env} (hes : ∀ e ∈ es, At now rank e) :
    ∀ e ∈ es, Steady app s now e.now := fun e he => (hes e he).1 ▸ steady_self app s now

/-- Two complete executions, with ties broken in two ways. -/
theorem perm_of_idempotent (h : SweepIdempotent app tenantId s now k) (hk : 0 < k)
    (rank rank' : Uuid → Nat) :
    List.Perm (addAll (·.dedupeKey) (outbox s) (reminderRows app tenantId s now rank))
        (addAll (·.dedupeKey) (outbox s) (reminderRows app tenantId s now rank')) ∧
      List.Perm (reminderLog app tenantId s now rank) (reminderLog app tenantId s now rank') := by
  obtain ⟨last, v, s', hat, hlast⟩ := @exists_play_sweepJob app tenantId now rank s
  obtain ⟨once, v', t', hat', honce⟩ := @exists_play_sweepJob app tenantId now rank' s
  have hcount : (List.replicate (k - 1) ([] : List Env)).length + 1 = k := by
    rw [List.length_replicate]
    omega
  have hall : ∀ es ∈ once :: last :: List.replicate (k - 1) [], ∀ e ∈ es,
      Steady app s now e.now := by
    intro es hes
    simp only [List.mem_cons, List.mem_replicate] at hes
    rcases hes with rfl | rfl | ⟨-, rfl⟩
    · exact steady_of_at hat'
    · exact steady_of_at hat
    · exact fun e he => absurd he List.not_mem_nil
  have hrows := h _ last once s s' t' v v' hcount hall (cutOffs_replicate _ _ _) hlast honce
  obtain ⟨e₁, he₁, e₂, he₂, houtbox, hlog⟩ := play_sweepJob (steady_of_at hat) hlast
  obtain ⟨e₁', he₁', e₂', he₂', houtbox', hlog'⟩ := play_sweepJob (steady_of_at hat') honce
  have hnotifications : List.Perm (outbox s') (outbox t') := hrows.notifications
  have haudit : List.Perm (auditLog s') (auditLog t') := hrows.taskAudit
  rw [houtbox, houtbox', (hat e₂ he₂).2, (hat' e₂' he₂').2] at hnotifications
  rw [hlog, hlog', (hat e₁ he₁).2, (hat' e₁' he₁').2, List.perm_append_left_iff] at haudit
  exact ⟨hnotifications, haudit⟩

/-- Ties must not matter, not even to one execution. -/
theorem untied_of_idempotent (h : SweepIdempotent app tenantId s now k) (hk : 0 < k)
    (hids : UuidText app) : Untied app tenantId s now where
  audited rank rank' task htask := by
    obtain ⟨-, haudit⟩ := perm_of_idempotent h hk rank rank'
    have hmem : reminderEntry app task ∈ reminderLog app tenantId s now rank' :=
      haudit.subset (List.mem_map_of_mem htask)
    obtain ⟨task', htask', heq⟩ := List.mem_map.mp hmem
    have hid : task'.id = task.id := Option.some.inj (congrArg TaskAuditRecord.taskId heq)
    have hin {rank : Uuid → Nat} {task : TaskRecord}
        (ht : task ∈ remindedTasks tenantId s now rank) : task ∈ s.db.tasks :=
      (Table.mem_select.mp ((List.mem_insertionSort _).mp (List.mem_of_mem_take ht))).1
    exact Table.eq_of_key (hin htask') (hin htask) hid ▸ htask'
  reminded rank rank' c hc hkey := by
    obtain ⟨houtbox, -⟩ := perm_of_idempotent h hk rank rank'
    have hthere : (reminderRow app now c).dedupeKey ∈
        (addAll (·.dedupeKey) (outbox s) (reminderRows app tenantId s now rank')).map
          (·.dedupeKey) :=
      (houtbox.map _).subset (key_mem_addAll (List.mem_map_of_mem hc))
    obtain ⟨n, hn, hkeys⟩ := List.mem_map.mp hthere
    have hadd : Absorbs (·.dedupeKey) (· ∈ reminderRows app tenantId s now rank') (outbox s)
        (addAll (·.dedupeKey) (outbox s) (reminderRows app tenantId s now rank')) :=
      Absorbs.addAll fun _ hn => hn
    obtain ⟨added, hadded, -, hnew⟩ := hadd
    rw [hadded] at hn
    rcases List.mem_append.mp hn with hold | hn
    · exact absurd (hasKey_iff_outbox.mpr (hkeys ▸ List.mem_map_of_mem hold)) hkey
    · obtain ⟨c', hc', rfl⟩ := List.mem_map.mp (hnew n hn).1
      rwa [candidate_eq_of_key hids hc hc' (Option.some.inj hkeys.symm)]

/-- Each execution that gets past the insertion of the audit rows inserts them again. -/
theorem unaudited_of_idempotent (h : SweepIdempotent app tenantId s now k) (hk : 1 < k) :
    remindedTasks tenantId s now (fun _ => 0) = [] := by
  -- One complete execution, others that do not begin, and another complete one.
  obtain ⟨once, v', t', hat, honce⟩ := @exists_play_sweepJob app tenantId now (fun _ => 0) s
  obtain ⟨last, v, s', hat', hlast⟩ := @exists_play_sweepJob app tenantId now (fun _ => 0) t'
  have hearlier : cutOffs (Jobs.processDueReminderJob app tenantId)
      (once :: List.replicate (k - 2) []) s = some t' := by
    rw [cutOffs, cutOff_of_play honce, Option.bind_some, cutOffs_replicate]
  have hall : ∀ es ∈ once :: last :: once :: List.replicate (k - 2) [],
      ∀ e ∈ es, Steady app s now e.now := by
    intro es hes
    simp only [List.mem_cons, List.mem_replicate] at hes
    rcases hes with rfl | rfl | rfl | ⟨-, rfl⟩
    · exact steady_of_at hat
    · exact steady_of_at hat'
    · exact steady_of_at hat
    · exact fun e he => absurd he List.not_mem_nil
  have hcount : (once :: List.replicate (k - 2) []).length + 1 = k := by
    rw [List.length_cons, List.length_replicate]
    omega
  have hrows := h _ last once t' s' t' v v' hcount hall hearlier hlast honce
  have hsources := (cutOff_sweepJob (steady_of_at hat) (cutOff_of_play honce)).1.sources
  obtain ⟨e, he, -, -, -, hlog⟩ :=
    play_sweepJob (fun e he => steady_congr (steady_of_at hat' e he) hsources) hlast
  have hlength : (auditLog s').length = (auditLog t').length := hrows.taskAudit.length_eq
  rw [hlog, List.length_append, reminderLog, List.length_map, remindedTasks_congr hsources,
    (hat' e he).2] at hlength
  exact List.length_eq_zero_iff.mp (by omega)

/-- Without ties that matter, what has been done before does not matter either, but for audit
rows. -/
theorem sweepIdempotent_of_untied (hids : UuidText app) (huntied : Untied app tenantId s now)
    (h : k = 1 ∨ ∀ rank, remindedTasks tenantId s now rank = []) :
    SweepIdempotent app tenantId s now k := by
  intro earlier last once s₁ s' t' v v' hk hall hearlier hlast honce
  have hsofar := sweptSoFar_of_cutOffs (fun es hes => hall es (by simp [hes])) hearlier
  obtain ⟨e₁, -, e₂, -, houtbox, hlog⟩ := play_sweepJob
    (fun e he => steady_congr (hall last (by simp) e he) hsofar.sources) hlast
  obtain ⟨e₁', -, e₂', -, houtbox', hlog'⟩ := play_sweepJob (hall once (by simp)) honce
  rw [reminderRows_congr hsofar.sources] at houtbox
  rw [reminderLog, remindedTasks_congr hsofar.sources, ← reminderLog] at hlog
  have hreminders (rank : Uuid → Nat) (n : NotificationRecord)
      (hn : n ∈ reminderRows app tenantId s now rank) : IsReminder app tenantId s now n :=
    ⟨rank, hn⟩
  have hsame : auditLog s₁ = auditLog s := by
    rcases h with rfl | hnone
    · obtain rfl : earlier = [] := List.length_eq_zero_iff.mp (by omega)
      obtain rfl := Option.some.inj hearlier
      rfl
    · exact hsofar.unaudited hnone
  constructor
  · have hperm : List.Perm (outbox s') (outbox t') := by
      rw [houtbox, houtbox']
      refine Absorbs.perm (hsofar.added.trans (.addAll (hreminders e₂.rank)))
        (.addAll (hreminders e₂'.rank)) (fun a b ha hb => isReminder_inj hids ha hb)
        (fun _ => huntied.key_mem hsofar.added) fun _ => huntied.key_mem (.refl _)
    exact hperm
  · have hperm : List.Perm (auditLog s') (auditLog t') := by
      rw [hlog, hlog', hsame]
      exact (perm_reminderLog huntied _ _).append_left _
    exact hperm

end Both

end Sweeps

/-- **A sweep may be repeated exactly when** it has no overdue task, as each execution that gets
past the insertion of the audit rows inserts them again, and the limits of its queries do not cut
through tasks that are due at the same time. -/
theorem sweep_idempotent_iff {app : App} (hids : UuidText app) {tenantId : Option Uuid}
    {s : AppState} {now : Time} {k : Nat} (hk : 0 < k) :
    SweepIdempotent app tenantId s now k ↔ Untied app tenantId s now ∧
      (k = 1 ∨ ¬ ∃ t ∈ s.db.tasks, sweepsTask tenantId now t = true) := by
  constructor
  · refine fun h => ⟨untied_of_idempotent h hk hids, ?_⟩
    by_cases hone : k = 1
    · exact .inl hone
    · exact .inr (remindedTasks_eq_nil.mp (unaudited_of_idempotent h (by omega)))
  · rintro ⟨huntied, h⟩
    exact sweepIdempotent_of_untied hids huntied
      (h.imp_right fun hnone _ => remindedTasks_eq_nil.mpr hnone)

/-- The task of `overdueDisabled` is due soon: a sweep may be executed twice. -/
theorem sweep_idempotent_iff_dueSoon :
    SweepIdempotent default none overdueDisabled (seconds 99) 2 := by
  refine (sweep_idempotent_iff uuidText_default (by decide)).mpr
    ⟨untied_of_few (by decide +kernel) (by decide +kernel), .inr ?_⟩
  rintro ⟨t, ht, hdue⟩
  obtain rfl := List.mem_singleton.mp ht
  exact absurd hdue (by decide +kernel)

/-- The task of `overdueDisabled` is overdue, and a sweep is executed twice: the second execution
audits it again. -/
theorem reminder_audited_twice :
    ¬ SweepIdempotent default none overdueDisabled (seconds 101) 2 := by
  intro h
  let job := Jobs.processDueReminderJob default none
  let inputs (id : Uuid) : List Env :=
    List.replicate 7 { (default : Env) with now := seconds 101, uuid := id }
  let count (x : Except AppError Value × AppState) : Bool × Nat :=
    (x.1.isOk, x.2.db.taskAudit.rows.length)
  have honce : (play job (inputs 1) overdueDisabled).map count = some (true, 1) := by
    decide +kernel
  have htwice : ((cutOffs job [inputs 1] overdueDisabled).bind fun s =>
      (play job (inputs 2) s).map count) = some (true, 2) := by
    decide +kernel
  obtain ⟨⟨r', t'⟩, hplay', hcount'⟩ := Option.map_eq_some_iff.mp honce
  obtain ⟨s₁, hearlier, htwice⟩ := Option.bind_eq_some_iff.mp htwice
  obtain ⟨⟨r, s'⟩, hplay, hcount⟩ := Option.map_eq_some_iff.mp htwice
  have hok {x : Except AppError Value} (hx : x.isOk = true) : ∃ v, x = .ok v := by
    cases x with
    | ok v => exact ⟨v, rfl⟩
    | error x => cases hx
  obtain ⟨v', rfl⟩ := hok (Prod.mk.inj hcount').1
  obtain ⟨v, rfl⟩ := hok (Prod.mk.inj hcount).1
  have hsteady : ∀ es ∈ [inputs 1, inputs 2, inputs 1], ∀ e ∈ es,
      Steady default overdueDisabled (seconds 101) e.now := by
    intro es hes e he
    have hnow : e.now = seconds 101 := by
      simp only [List.mem_cons, List.not_mem_nil, or_false] at hes
      rcases hes with rfl | rfl | rfl <;> rw [(List.mem_replicate.mp he).2]
    exact hnow ▸ steady_self _ _ _
  have hrows := h _ _ _ _ _ _ _ _ rfl hsteady hearlier hplay hplay'
  have hlength := hrows.taskAudit.length_eq
  rw [List.length_map, List.length_map, (Prod.mk.inj hcount).2, (Prod.mk.inj hcount').2] at hlength
  omega

end Fluxa
