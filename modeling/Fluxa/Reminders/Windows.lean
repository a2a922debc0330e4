import Fluxa.Interleave.Visits
import Fluxa.Services.Delivery
import Fluxa.Services.Jobs
import Fluxa.Services.Quiet
import Fluxa.State.Clock

/-!
# Reminders — windows

A due reminder is not enqueued again within its dedupe window, as long as the row of the first one is there.  The purge of old notifications takes the row, and with it the memory of the first reminder.

**`reminder_once`**: a reminder is enqueued once in a run in which sweeps insert their reminders within the window for which they have named them, and no purge takes a reminder while its window lasts; where the window is not longer than the retention of notifications, no purge does.  **`reminder_twice`** is a run where it is longer.
-/

namespace Fluxa
open Interleave Relational OutboxRow Db Contract

/-- Sweeps, deliveries and purges. -/
inductive ReminderCall where
  | sweep (tenantId : Option Uuid)
  | deliver
  | purge

/-- They run side by side, one statement at a time. -/
def reminderSystem (app : App) : System Event Env AppState AppError ReminderCall Unit where
  body
    | .sweep tenantId => do
      let _ ← Jobs.processDueReminderJob app tenantId
      return ()
    | .deliver => deliverPendingNotifications app
    | .purge => do
      let _ ← Jobs.processRetentionJob app
      return ()
  adm := admissible

/-- The dedupe key of a reminder. -/
def reminderKey (app : App) (kind : NotificationKind) (taskId assigneeId : Uuid) (bucket : Nat) :
    String :=
  s!"{kind.asStr}:{app.lib.uuidString taskId}:{app.lib.uuidString assigneeId}:{bucket}"

/-- The number of the dedupe window at time `t`. -/
def bucketAt (app : App) (t : Time) : Nat :=
  t.timestamp / max (app.config.reminderDedupeTtlHours * 3600) 1

/-- The notification is the reminder of a task for its assignee, under the key of its kind, its task,
its assignee and the window in which the sweep has read the clock. -/
def IsKeyed (app : App) (n : NewNotification) : Prop :=
  ∃ now c, n = Jobs.reminderNotification app now c ∧ n.userId = some c.assigneeId ∧
    n.dedupeKey = some (reminderKey app n.kind c.taskId c.assigneeId (bucketAt app now))

theorem reminderNotification_keyed (app : App) (now : Time) (c : DueReminderCandidate) :
    IsKeyed app (Jobs.reminderNotification app now c) :=
  ⟨now, c, rfl, rfl, rfl⟩

/-- A notification with the dedupe key is there. -/
def HasKey (k : String) (s : AppState) : Prop := ∃ n ∈ s.db.notifications, n.dedupeKey = some k

instance (k : String) (s : AppState) : Decidable (HasKey k s) :=
  inferInstanceAs (Decidable (∃ n ∈ s.db.notifications.rows, n.dedupeKey = some k))

/-- How many notifications have been enqueued under the dedupe key. -/
def enqueuedUnder (k : String) (s : AppState) : Nat :=
  s.history.enqueued.countP fun n => n.dedupeKey = some k

/-- A step at time `now` that inserts the reminder does so in the window with this number. -/
def InsertedInWindow (app : App) (k : String) (bucket : Nat) (now : Time) (s s' : AppState) :
    Prop :=
  ¬ HasKey k s → HasKey k s' → bucketAt app now = bucket

/-- A step at time `now` that takes the reminder does so after that window. -/
def TakenAfterWindow (app : App) (k : String) (bucket : Nat) (now : Time) (s s' : AppState) :
    Prop :=
  HasKey k s → ¬ HasKey k s' → bucket < bucketAt app now

/-- Each step of a run, with its clock, is in `R`. -/
def EachStep {C : Type} (sys : System Event Env AppState AppError C Unit)
    (R : Time → AppState → AppState → Prop) (s : AppState) (ms : List (Move Env C)) : Prop :=
  sys.Along (fun d m => ∀ d', sys.step d m = some d' →
    ∀ t ∈ moveTime m, R t d.st d'.st) (.start s) ms

namespace Reminders

/-! ### What the calls do to notifications -/

/-- What a statement does to the notifications and to the record of them. -/
inductive Action (app : App) : Env → AppState → AppState → Prop where
  /-- Messages are claimed, sent and marked: keys and times of creation stay. -/
  | keep {e s s'} (hrows : ∀ r ∈ s'.db.notifications, ∃ r₀ ∈ s.db.notifications,
        r₀.dedupeKey = r.dedupeKey ∧ r₀.createdAt = r.createdAt)
      (hback : ∀ r₀ ∈ s.db.notifications, ∃ r ∈ s'.db.notifications, r.dedupeKey = r₀.dedupeKey)
      (henq : s'.history.enqueued = s.history.enqueued) : Action app e s s'
  /-- A reminder is enqueued whose dedupe key was not there. -/
  | enqueue {e s s' r} (n : NewNotification) (hn : IsKeyed app n)
      (hnew : hasDedupeKey s n.dedupeKey = false)
      (hk : r.dedupeKey = n.dedupeKey) (ht : r.createdAt = e.now)
      (hrows : ∀ r', r' ∈ s'.db.notifications ↔ r' ∈ s.db.notifications ∨ r' = r)
      (henq : s'.history.enqueued = n :: s.history.enqueued) : Action app e s s'
  /-- Finished notifications past their retention are deleted. -/
  | purge {e s s'} {p : NotificationRecord → Bool}
      (hp : ∀ r, p r = true →
        pastRetention app.config.notificationRetentionDays e.now r.createdAt = true)
      (hrows : s'.db.notifications = s.db.notifications.delete p)
      (henq : s'.history.enqueued = s.history.enqueued) : Action app e s s'

theorem Action.of_eq {app : App} {e : Env} {s s' : AppState}
    (hn : s'.db.notifications = s.db.notifications)
    (henq : s'.history.enqueued = s.history.enqueued) : Action app e s s' :=
  .keep (fun r hr => ⟨r, hn ▸ hr, rfl, rfl⟩) (fun r hr => ⟨r, hn ▸ hr, rfl⟩) henq

/-- A change of the columns of messages. -/
theorem Action.of_change {app : App} {e : Env} {s s' : AppState} {p : NotificationRecord → Bool}
    (f : OutboxColumns Uuid → OutboxColumns Uuid) (hf : KeepsId f)
    (hrows : s'.db.notifications = change s.db.notifications p f hf)
    (henq : s'.history.enqueued = s.history.enqueued) : Action app e s s' := by
  refine .keep (fun r hr => ?_) (fun r hr => ?_) henq
  · rw [hrows] at hr
    rcases mem_change hr with ⟨r₀, h₀, -, rfl⟩ | ⟨h₀, -⟩
    · exact ⟨r₀, h₀, rfl, rfl⟩
    · exact ⟨r, h₀, rfl, rfl⟩
  · rw [hrows]
    refine ⟨_, Table.mem_update.mpr ⟨r, hr, rfl⟩, ?_⟩
    split <;> rfl

/-- Only reminders have been enqueued, each under its key. -/
def AllKeyed (app : App) (s : AppState) : Prop := ∀ n ∈ s.history.enqueued, IsKeyed app n

theorem Action.allKeyed {app : App} {e : Env} {s s' : AppState} (h : Action app e s s')
    (hs : AllKeyed app s) : AllKeyed app s' := by
  unfold AllKeyed at *
  cases h with
  | keep _ _ henq => rwa [henq]
  | enqueue n hn _ _ _ _ henq =>
      rw [henq]
      exact List.forall_mem_cons.mpr ⟨hn, hs⟩
  | purge _ _ henq => rwa [henq]

/-- The contract: every statement is an `Action`. -/
def reminderContract (app : App) : Contract Event Env AppState where
  inv := AllKeyed app
  guar _ _ := Action app
  adm _ _ _ _ := True
  guar_inv hi h := h.allKeyed hi

theorem reminderContract_tolerant (app : App) : Tolerant (reminderContract app) where
  stay _ _ _ _ _ _ := .of_eq rfl rfl
  bystander _ _ _ _ _ h := .of_eq h.notifications (by rw [h.history])
  issue _ _ _ _ _ := .of_eq rfl rfl

section Calls

variable {app : App} {i : Nat}

/-- A statement that leaves the notifications and their record alone. -/
theorem sql_apart {A : Type} {event : Event}
    {run : Env → AppState → Except AppError A × AppState}
    (h : ∀ e s, (run e s).2.db.notifications = s.db.notifications ∧
      (run e s).2.history.enqueued = s.history.enqueued) :
    (reminderContract app).Safe i (sql event run) :=
  sql_safe (reminderContract_tolerant app) fun s e _ _ _ => .of_eq (h e s).1 (h e s).2

theorem enqueueNotification_safe {n : NewNotification} (hn : IsKeyed app n) {maxAttempts : Nat} :
    (reminderContract app).Safe i (enqueueNotification n maxAttempts) :=
  enqueue_safe (reminderContract_tolerant app) fun _ _ _ _ _ hd hins =>
    .enqueue n hn hd rfl rfl (Table.insert_eq_some hins).2 rfl

theorem enqueueCandidates_safe {now : Time} {cs : List DueReminderCandidate} :
    (reminderContract app).Safe i (Jobs.enqueueCandidates app now cs) := by
  induction cs with
  | nil => exact .done
  | cons c cs ih =>
      exact .bind (enqueueNotification_safe (reminderNotification_keyed app now c)) fun _ =>
        .bind ih fun _ => .done

theorem deliverAll_safe {rs : List NotificationRecord} :
    (reminderContract app).Safe i
      (Delivery.deliverAll (notifierRound app) rs) := by
  have send : ∀ r, (reminderContract app).Safe i (sendNotification app r) := fun r =>
    .atomic fun s e _ _ _ => .of_change (.sent (columns r).claim) ⟨fun _ => rfl⟩ rfl rfl
  have finish : ∀ (r : NotificationRecord) f hf,
      (reminderContract app).Safe i (endMessage notificationOutbox r f hf) := fun r f hf =>
    sql_safe (reminderContract_tolerant app) fun s e _ _ _ => .of_change (f e) (hf e) rfl rfl
  induction rs with
  | nil => exact .done
  | cons r rs ih =>
      refine .bind (.attempt (send r)) fun result => ?_
      cases result with
      | ok => exact .bind (finish r _ _) fun _ => ih
      | error x =>
          refine .bind (.bind (utcNow_safe (reminderContract_tolerant app)) fun _ => ?_) fun _ => ih
          exact finish r _ _

theorem deliver_safe : (reminderContract app).Safe i (deliverPendingNotifications app) := by
  refine .bind ?_ fun _ => deliverAll_safe
  exact sql_safe (reminderContract_tolerant app) fun s e _ _ _ =>
    .of_change (.claimed s.history.leases.length (e.now + claimLease)) ⟨fun _ => rfl⟩ rfl rfl

theorem sweep_safe {tenantId : Option Uuid} :
    (reminderContract app).Safe i (Jobs.processDueReminderJob app tenantId) := by
  refine .bind (recordDueReminders_safe (reminderContract_tolerant app)) fun _ => ?_
  refine .bind (.bind (select_safe (reminderContract_tolerant app)) fun _ => ?_) fun _ => ?_
  · exact .bind (utcNow_safe (reminderContract_tolerant app)) fun _ => enqueueCandidates_safe
  · exact .bind (utcNow_safe (reminderContract_tolerant app)) fun _ => .done

theorem purgeNotifications_safe : (reminderContract app).Safe i
    (purgeTerminalNotifications app.config.notificationRetentionDays) := by
  refine sql_safe (reminderContract_tolerant app) fun s e _ _ _ => .purge (fun r hp => ?_) rfl rfl
  exact (Bool.and_eq_true_iff.mp hp).2

theorem purge_safe : (reminderContract app).Safe i (Jobs.processRetentionJob app) := by
  refine .bind ?_ fun _ => .bind ?_ fun _ => .bind purgeNotifications_safe fun _ => ?_
  · refine .bind (.atomic fun _ _ _ _ _ => .of_eq rfl rfl) fun _ => ?_
    exact sqlWhen_safe (reminderContract_tolerant app) fun _ _ _ _ _ _ => .of_eq rfl rfl
  · exact sql_apart fun _ _ => ⟨rfl, rfl⟩
  · refine .bind (sql_apart fun _ _ => ⟨rfl, rfl⟩) fun _ => ?_
    exact .bind (utcNow_safe (reminderContract_tolerant app)) fun _ => .done

theorem reminderCall_safe (k : ReminderCall) :
    (reminderContract app).Safe i ((reminderSystem app).body k) := by
  cases k with
  | sweep => exact .bind sweep_safe fun _ => .done
  | deliver => exact deliver_safe
  | purge => exact .bind purge_safe fun _ => .done

end Calls

/-! ### Windows -/

section Windows

variable {app : App} {k : String} {bucket : Nat}

theorem bucketAt_mono {t t' : Time} (h : t ≤ t') : bucketAt app t ≤ bucketAt app t' :=
  Nat.div_le_div_right (Nat.div_le_div_right h)

/-- What is past its retention is of an earlier window, where windows are not longer. -/
theorem bucketAt_lt_of_pastRetention {days : Nat} {now t : Time}
    (hlen : max (app.config.reminderDedupeTtlHours * 3600) 1 ≤ days * 24 * 3600)
    (h : pastRetention days now t = true) : bucketAt app t < bucketAt app now := by
  have hnow : t + days * 24 * 3600 * 1000000 ≤ now := le_of_lt (of_decide_eq_true h)
  have hseconds : t.timestamp + days * 24 * 3600 ≤ now.timestamp := by
    have := Nat.div_le_div_right (c := 1000000) hnow
    rwa [Nat.add_mul_div_right _ _ (by decide)] at this
  have hpos : 0 < max (app.config.reminderDedupeTtlHours * 3600) 1 := Nat.lt_of_lt_of_le one_pos (le_max_right _ _)
  calc bucketAt app t + 1
      = (t.timestamp + max (app.config.reminderDedupeTtlHours * 3600) 1) /
          max (app.config.reminderDedupeTtlHours * 3600) 1 := (Nat.add_div_right _ hpos).symm
    _ ≤ bucketAt app now := Nat.div_le_div_right ((Nat.add_le_add_left hlen _).trans hseconds)

/-- The reminder has been enqueued at most once; if it has been, the rows under its key are of its
window, and there is one as long as the window may last, at the clock readings still to come. -/
structure Once (app : App) (k : String) (bucket : Nat) (times : List Time) (s : AppState) :
    Prop where
  count : enqueuedUnder k s ≤ 1
  created : 0 < enqueuedUnder k s →
    ∀ r ∈ s.db.notifications, r.dedupeKey = some k → bucketAt app r.createdAt = bucket
  row : 0 < enqueuedUnder k s → HasKey k s ∨ ∀ t ∈ times, bucket < bucketAt app t

theorem hasKey_of_hasDedupeKey {s : AppState} (h : hasDedupeKey s (some k) = false) :
    ¬ HasKey k s := by
  rintro ⟨n, hn, hk⟩
  have : hasDedupeKey s (some k) = true := by
    simp only [hasDedupeKey, Option.isSome_some, Bool.true_and, Table.any_eq_true]
    exact ⟨n, hn, by simpa using hk⟩
  rw [h] at this
  cases this

theorem Once.tail {t : Time} {times : List Time} {s : AppState}
    (h : Once app k bucket (t :: times) s) : Once app k bucket times s :=
  ⟨h.count, h.created, fun hpos => (h.row hpos).imp_right fun ho t' ht' =>
    ho t' (List.mem_cons_of_mem _ ht')⟩

/-- Where the enqueued notifications stay the same, so does the count. -/
theorem enqueuedUnder_eq {s s' : AppState} (h : s'.history.enqueued = s.history.enqueued) :
    enqueuedUnder k s' = enqueuedUnder k s := by
  rw [enqueuedUnder, h, enqueuedUnder]

/-- One step keeps the reminder from being enqueued again. -/
theorem Action.once {e : Env} {s s' : AppState} {later : List Time} (ha : Action app e s s')
    (hin : InsertedInWindow app k bucket e.now s s')
    (htaken : max (app.config.reminderDedupeTtlHours * 3600) 1 ≤
        app.config.notificationRetentionDays * 24 * 3600 ∨
      TakenAfterWindow app k bucket e.now s s')
    (hlater : ∀ t ∈ later, e.now ≤ t) (h : Once app k bucket (e.now :: later) s) :
    Once app k bucket later s' := by
  cases ha with
  | keep hrows hback henq =>
      have hcount := enqueuedUnder_eq (k := k) henq
      refine ⟨hcount ▸ h.count, fun hpos r hr hk => ?_, fun hpos => ?_⟩
      · obtain ⟨r₀, h₀, hk₀, ht₀⟩ := hrows r hr
        exact ht₀ ▸ h.created (hcount ▸ hpos) r₀ h₀ (hk₀.trans hk)
      · refine (h.tail.row (hcount ▸ hpos)).imp_left ?_
        rintro ⟨r₀, h₀, hk₀⟩
        obtain ⟨r, hr, hk⟩ := hback r₀ h₀
        exact ⟨r, hr, hk.trans hk₀⟩
  | @enqueue r n _ hnew hk ht hrows henq =>
      by_cases hn : n.dedupeKey = some k
      · -- Enqueued before, the reminder would still have its row.
        rw [hn] at hnew hk
        have hno : ¬ HasKey k s := hasKey_of_hasDedupeKey hnew
        have hhas : HasKey k s' := ⟨r, (hrows r).mpr (.inr rfl), hk⟩
        have hwindow : bucketAt app e.now = bucket := hin hno hhas
        have hzero : enqueuedUnder k s = 0 := by
          by_contra hne
          rcases h.row (Nat.pos_of_ne_zero hne) with hrow | hover
          · exact hno hrow
          · exact absurd hwindow (hover e.now List.mem_cons_self).ne'
        have hone : enqueuedUnder k s' = 1 := by
          rw [enqueuedUnder, henq, List.countP_cons_of_pos (by simpa using hn)]
          exact congrArg (· + 1) hzero
        refine ⟨hone.le, fun _ r' hr' hk' => ?_, fun _ => .inl hhas⟩
        rcases (hrows r').mp hr' with hr' | rfl
        · exact absurd ⟨r', hr', hk'⟩ hno
        · exact ht ▸ hwindow
      · have hcount : enqueuedUnder k s' = enqueuedUnder k s := by
          rw [enqueuedUnder, henq, List.countP_cons_of_neg (by simpa using hn)]
          rfl
        refine ⟨hcount ▸ h.count, fun hpos r' hr' hk' => ?_, fun hpos => ?_⟩
        · rcases (hrows r').mp hr' with hr' | rfl
          · exact h.created (hcount ▸ hpos) r' hr' hk'
          · exact absurd (hk.symm.trans hk') hn
        · refine (h.tail.row (hcount ▸ hpos)).imp_left ?_
          rintro ⟨r₀, h₀, hk₀⟩
          exact ⟨r₀, (hrows r₀).mpr (.inl h₀), hk₀⟩
  | @purge p hp hrows henq =>
      have hcount := enqueuedUnder_eq (k := k) henq
      refine ⟨hcount ▸ h.count, fun hpos r hr hk => ?_, fun hpos => ?_⟩
      · rw [hrows] at hr
        exact h.created (hcount ▸ hpos) r (Table.mem_delete.mp hr).1 hk
      · rcases h.row (hcount ▸ hpos) with hhas | hover
        · by_cases hhas' : HasKey k s'
          · exact .inl hhas'
          · -- The row has been taken, so its window is over.
            refine .inr fun t ht => ?_
            have hover : bucket < bucketAt app e.now := by
              rcases htaken with hlen | htaken
              · obtain ⟨r, hr, hk⟩ := hhas
                have hpr : p r = true := by
                  by_contra hpr
                  rw [Bool.not_eq_true] at hpr
                  exact hhas' ⟨r, hrows ▸ Table.mem_delete.mpr ⟨hr, hpr⟩, hk⟩
                exact h.created (hcount ▸ hpos) r hr hk ▸
                  bucketAt_lt_of_pastRetention hlen (hp r hpr)
              · exact htaken hhas hhas'
            exact hover.trans_le (bucketAt_mono (hlater t ht))
        · exact .inr fun t ht => hover t (List.mem_cons_of_mem _ ht)

/-- What is known of a step: it takes a call, or it is an action under the conditions on the
run. -/
def Step (app : App) (k : String) (bucket : Nat)
    (d : Config Event Env AppState AppError ReminderCall Unit) (m : Move Env ReminderCall) : Prop :=
  ∀ d', (reminderSystem app).step d m = some d' →
    moveTime m = none ∧ d'.st = d.st ∨
      ∃ e, moveTime m = some e.now ∧ Action app e d.st d'.st ∧
        InsertedInWindow app k bucket e.now d.st d'.st ∧
        (max (app.config.reminderDedupeTtlHours * 3600) 1 ≤
            app.config.notificationRetentionDays * 24 * 3600 ∨
          TakenAfterWindow app k bucket e.now d.st d'.st)

theorem Step.once {d d' : Config Event Env AppState AppError ReminderCall Unit}
    {m : Move Env ReminderCall} {ms : List (Move Env ReminderCall)}
    (hm : Step app k bucket d m) (hd : (reminderSystem app).step d m = some d')
    (hclock : Chronological (m :: ms))
    (h : Once app k bucket ((m :: ms).filterMap moveTime) d.st) :
    Once app k bucket (ms.filterMap moveTime) d'.st ∧ Chronological ms := by
  rcases hm d' hd with ⟨hnone, hst⟩ | ⟨e, htime, ha, hin, htaken⟩
  · rw [Chronological, List.filterMap_cons_none hnone] at hclock
    rw [List.filterMap_cons_none hnone] at h
    exact ⟨hst ▸ h, hclock⟩
  · rw [Chronological, List.filterMap_cons_some htime, List.pairwise_cons] at hclock
    rw [List.filterMap_cons_some htime] at h
    exact ⟨ha.once hin htaken hclock.1 h, hclock.2⟩

end Windows

end Reminders

open Reminders

/-- In every run only reminders are enqueued, each under the key of its kind, task, assignee and
window; and in a run in which sweeps insert the reminder only within its window, and no purge takes
it before the window is over, the reminder is enqueued at most once.  No purge does where the window
is not longer than the retention. -/
theorem reminder_once {app : App} {config : Cli} (hconfig : app.config.validate = .ok config)
    {s : AppState} (hs : s.history.enqueued = []) {ms : List (Move Env ReminderCall)}
    {c : Config Event Env AppState AppError ReminderCall Unit}
    (h : (reminderSystem app).exec (.start s) ms = some c) (hclock : Chronological ms)
    (kind : NotificationKind) (taskId assigneeId : Uuid) (bucket : Nat)
    (hin : EachStep (reminderSystem app)
      (InsertedInWindow app (reminderKey app kind taskId assigneeId bucket) bucket) s ms)
    (htaken : app.config.reminderDedupeTtlHours ≤ 24 * app.config.notificationRetentionDays ∨
      EachStep (reminderSystem app)
        (TakenAfterWindow app (reminderKey app kind taskId assigneeId bucket) bucket) s ms) :
    (∀ n ∈ c.st.history.enqueued, IsKeyed app n) ∧
      enqueuedUnder (reminderKey app kind taskId assigneeId bucket) c.st ≤ 1 := by
  generalize reminderKey app kind taskId assigneeId bucket = k at hin htaken ⊢
  have hkeyed : AllKeyed app s := by
    rw [AllKeyed, hs]
    exact fun _ hn => absurd hn List.not_mem_nil
  -- What has been validated is positive, so the bound on hours is one on seconds.
  have hwindow : (max (app.config.reminderDedupeTtlHours * 3600) 1 ≤
      app.config.notificationRetentionDays * 24 * 3600) ∨
      EachStep (reminderSystem app) (TakenAfterWindow app k bucket) s ms := by
    refine htaken.imp_left fun hle => ?_
    have hpos := (Cli.pos_of_validate hconfig).2.1
    omega
  have hsteps : EachStep (reminderSystem app) (fun t s s' =>
      (max (app.config.reminderDedupeTtlHours * 3600) 1 ≤
        app.config.notificationRetentionDays * 24 * 3600) ∨
      TakenAfterWindow app k bucket t s s') s ms := by
    rcases hwindow with hle | htaken
    · exact System.along_of_forall fun _ _ _ _ _ _ => .inl hle
    · exact htaken.mono fun d m hd d' hd' t ht => .inr (hd d' hd' t ht)
  have hguar := along_guar (K := reminderContract app) (fun _ k => reminderCall_safe k)
    (fun _ _ _ _ _ => trivial) hkeyed h
  have hend := sound_all (K := reminderContract app) (fun _ k => reminderCall_safe k)
    (fun _ _ _ _ _ => trivial) hkeyed h
  have hall : (reminderSystem app).Along (Step app k bucket) (.start s) ms := by
    refine ((hguar.and hin).and hsteps).mono fun d m hd d' hd' => ?_
    rcases hd.1.1 d' hd' with ⟨⟨_, rfl⟩, hst⟩ | ⟨i, e, l, rfl, hg⟩
    · exact .inl ⟨rfl, hst⟩
    · exact .inr ⟨e, rfl, hg, hd.1.2 d' hd' e.now rfl, hd.2 d' hd' e.now rfl⟩
  have hzero : enqueuedUnder k s = 0 := by
    rw [enqueuedUnder, hs]
    rfl
  have hstart : Once app k bucket (ms.filterMap moveTime) s :=
    ⟨hzero.le.trans (Nat.zero_le 1), fun hpos => absurd hzero hpos.ne',
      fun hpos => absurd hzero hpos.ne'⟩
  -- The times that are still to come bound how far the invariant must look ahead.
  have honce := System.exec_remaining
    (I := fun ms d => (Once app k bucket (ms.filterMap moveTime) d.st ∧ Chronological ms) ∧
      (reminderSystem app).Along (Step app k bucket) d ms)
    (fun m ms d d' hI hd => ⟨hI.2.1.once hd hI.1.2 hI.1.1, hI.2.2 d' hd⟩)
    ⟨⟨hstart, hclock⟩, hall⟩ h
  exact ⟨hend.1, honce.1.1.count⟩

/-! ### A window that is longer than the retention -/

namespace Reminders

instance (app : App) (k : String) (bucket : Nat) (now : Time) (s s' : AppState) :
    Decidable (InsertedInWindow app k bucket now s s') :=
  inferInstanceAs (Decidable (¬ HasKey k s → HasKey k s' → bucketAt app now = bucket))

instance {C : Type} (sys : System Event Env AppState AppError C Unit)
    (R : Time → AppState → AppState → Prop) [∀ t s s', Decidable (R t s s')] (s : AppState)
    (ms : List (Move Env C)) : Decidable (EachStep sys R s ms) :=
  have (d : Config Event Env AppState AppError C Unit) (m : Move Env C) :
      Decidable (∀ d', sys.step d m = some d' → ∀ t ∈ moveTime m, R t d.st d'.st) :=
    System.decidableAfterStep (P := fun d' => ∀ t ∈ moveTime m, R t d.st d'.st) sys d m
  inferInstanceAs (Decidable (System.Along sys _ (.start s) ms))

/-- A task that is due in 60 hours, and its assignee. -/
def dueInSixtyHours : AppState :=
  { (default : AppState) with
    db := { (default : Database) with
      users := .single ⟨10, "a@x", "h", none, none, 0⟩
      tenants := .single ⟨1, "T", 0⟩
      tasks := ⟨[⟨5, 1, none, "t", none, .open, .low, some 10, some (seconds (60 * 3600)), 10, 10,
        0, 0⟩], by decide⟩ } }

/-- The statements of call `i`, executed one after the other at time `now`. -/
def atTime (i : Nat) (now : Time) (uuids : List Uuid) : List (Move Env ReminderCall) :=
  uuids.map fun uuid => .exec i { (default : Env) with pid := i, now, uuid }

/-- A sweep finds the task, its reminder is delivered, old notifications are purged, and a second
sweep finds the task again. -/
def twoSweeps (purge second : Time) : List (Move Env ReminderCall) :=
  [.call (.sweep none), .call .deliver, .call .purge, .call (.sweep none)] ++
    atTime 0 (seconds 1) [0, 0, 0, 0, 7, 0] ++ atTime 1 (seconds 2) [0, 0, 0] ++
    atTime 2 purge [0, 0, 0, 0] ++ atTime 3 second [0, 0, 0, 0, 8, 0]

/-- Reminders three days ahead, once a week, and notifications kept for a day. -/
def onceAWeek : App :=
  { (default : App) with
    config := { (default : Cli) with
      reminderDueSoonHours := 72, reminderDedupeTtlHours := 168, notificationRetentionDays := 1 } }

/-- The reminders of the default configuration three days ahead. -/
def threeDaysAhead : App :=
  { (default : App) with config := { (default : Cli) with reminderDueSoonHours := 72 } }

end Reminders

/-- The statement at a run with two sweeps within one window. -/
theorem reminder_once_two_sweeps :
    ∃ c, (reminderSystem threeDaysAhead).exec (.start dueInSixtyHours)
        (twoSweeps (seconds 3) (seconds 60)) = some c ∧
      (∀ n ∈ c.st.history.enqueued, IsKeyed threeDaysAhead n) ∧
      enqueuedUnder (reminderKey threeDaysAhead .taskDueSoon 5 10 0) c.st ≤ 1 := by
  have h : ((reminderSystem threeDaysAhead).exec (.start dueInSixtyHours)
      (twoSweeps (seconds 3) (seconds 60))).isSome := by decide +kernel
  obtain ⟨c, hc⟩ := Option.isSome_iff_exists.mp h
  have hvalid : threeDaysAhead.config.validate = .ok threeDaysAhead.config := rfl
  exact ⟨c, hc, reminder_once hvalid rfl hc (by decide +kernel) .taskDueSoon 5 10 0
    (by decide +kernel) (.inl (by decide))⟩

/-- A configuration that is accepted, and a run in which one reminder is enqueued twice in its
window. -/
theorem reminder_twice : onceAWeek.config.validate = .ok onceAWeek.config ∧
    Chronological (twoSweeps (seconds (24 * 3600 + 10)) (seconds (24 * 3600 + 20))) ∧
    ∃ c, (reminderSystem onceAWeek).exec (.start dueInSixtyHours)
        (twoSweeps (seconds (24 * 3600 + 10)) (seconds (24 * 3600 + 20))) = some c ∧
      enqueuedUnder (reminderKey onceAWeek .taskDueSoon 5 10 0) c.st = 2 := by
  have h : ((reminderSystem onceAWeek).exec (.start dueInSixtyHours)
      (twoSweeps (seconds (24 * 3600 + 10)) (seconds (24 * 3600 + 20)))).map (fun c =>
        enqueuedUnder (reminderKey onceAWeek .taskDueSoon 5 10 0) c.st) = some 2 := by
    decide +kernel
  obtain ⟨c, hc, h⟩ := Option.map_eq_some_iff.mp h
  exact ⟨rfl, by decide +kernel, c, hc, h⟩

end Fluxa
