import Fluxa.Reminders.Windows
import Fluxa.State.Plays
import Mathlib.Data.Fintype.EquivFin

/-!
# Reminders — sweeps

What one sweep enqueues.  The candidates are those of the database at the time of the query, at most 500 of them in the order of their due times; each is classified again as due soon or overdue by the clock of the application, and its reminder inserted unless its dedupe key is there (`enqueueCandidates_rows`).

**Preferences** (`reminders_respect_preferences_iff`): the sweep enqueues only reminders of kinds that are not disabled, unless a task falls due between the two clock readings.

**Completeness** (`due_reminders_complete_iff`): a sweep leaves no due task without its reminder, unless the task is beyond the first 500 candidates, or falls due between the two clock readings, and has not been reminded before.
-/

namespace Fluxa
open Interleave Relational Db

namespace Sweeps
open Plays

/-! ### Enqueueing -/

/-- The tables that the sweep reads. -/
def SameSources (s s' : AppState) : Prop :=
  s'.db.tasks = s.db.tasks ∧ s'.db.users = s.db.users ∧ s'.db.preferences = s.db.preferences

theorem SameSources.refl (s : AppState) : SameSources s s := ⟨rfl, rfl, rfl⟩

theorem SameSources.trans {s t u : AppState} (h : SameSources s t) (h' : SameSources t u) :
    SameSources s u :=
  ⟨h'.1.trans h.1, h'.2.1.trans h.2.1, h'.2.2.trans h.2.2⟩

/-- At most the notifications differ. -/
def OnlyNotifications (s s' : AppState) : Prop :=
  s'.db = { s.db with notifications := s'.db.notifications }

theorem OnlyNotifications.sources {s s' : AppState} (h : OnlyNotifications s s') :
    SameSources s s' :=
  ⟨by rw [h], by rw [h], by rw [h]⟩

/-- The row is the given notification, enqueued. -/
def IsRowOf (n : NewNotification) (row : NotificationRecord) : Prop :=
  row.dedupeKey = n.dedupeKey ∧ row.userId = n.userId ∧ row.kind = n.kind

theorem hasDedupeKey_iff {s : AppState} {k : String} :
    hasDedupeKey s (some k) = true ↔ HasKey k s := by
  simp only [hasDedupeKey, Option.isSome_some, Bool.true_and, Table.any_eq_true, decide_eq_true_eq]
  rfl

/-- What `enqueue_notification` does: nothing, where the key is there if it returns; or it inserts
the row. -/
theorem play_enqueueNotification {n : NewNotification} {k : String} (hk : n.dedupeKey = some k)
    {maxAttempts : Nat} {es : List Env} {s s' : AppState} {r : Except AppError Bool}
    (h : play (enqueueNotification n maxAttempts) es s = some (r, s')) :
    OnlyNotifications s s' ∧
      ((s'.db.notifications = s.db.notifications ∧ ∀ b, r = .ok b → HasKey k s) ∨
        (¬ HasKey k s ∧ ∃ id now, (∀ b ∈ s.db.notifications, b.id ≠ id) ∧
          s'.db.notifications.rows =
            s.db.notifications.rows ++ [newNotification id n maxAttempts now])) := by
  obtain ⟨id, es₁, es₂, t, -, h₁, h₂⟩ | ⟨x, -, h₁⟩ := (play_bind_cases h).symm
  · have hdb := (play_newUuid h₁).1
    have hkey : HasKey k t ↔ HasKey k s := by rw [HasKey, hdb, HasKey]
    obtain ⟨e, -, ⟨rfl, x, rfl⟩ | ⟨hs', hr⟩⟩ := play_sql h₂
    · exact ⟨by rw [OnlyNotifications, hdb], .inl ⟨by rw [hdb], fun b hb => by cases hb⟩⟩
    · dsimp only at hs' hr
      rw [hk] at hs' hr
      by_cases hhas : hasDedupeKey t (some k) = true
      · rw [if_pos hhas] at hs'
        subst hs'
        exact ⟨by rw [OnlyNotifications, hdb],
          .inl ⟨by rw [hdb], fun _ _ => hkey.mp (hasDedupeKey_iff.mp hhas)⟩⟩
      · rw [if_neg hhas] at hs' hr
        cases hins : t.db.notifications.insert (newNotification id n maxAttempts e.now) with
        | none =>
            simp only [hins] at hs' hr
            subst hs'
            exact ⟨by rw [OnlyNotifications, hdb], .inl ⟨by rw [hdb], fun b hb => by cases hr b hb⟩⟩
        | some rows =>
            simp only [hins] at hs'
            subst hs'
            refine ⟨by simp only [OnlyNotifications, hdb], .inr
              ⟨fun hs => hhas (hasDedupeKey_iff.mpr (hkey.mpr hs)), id, e.now, ?_, ?_⟩⟩
            · intro b hb
              exact (Table.insert_eq_some hins).1 b (hdb ▸ hb)
            · rw [← hdb]
              exact Table.rows_insert hins
  · obtain ⟨-, id, hid⟩ := play_newUuid h₁
    cases hid

/-! ### Candidates -/

/-- The kind of the reminder of a candidate, by the clock of the application. -/
def kindAt (now : Time) (c : DueReminderCandidate) : NotificationKind :=
  if c.dueAt.any (· ≤ now) then .taskOverdue else .taskDueSoon

/-- The dedupe key of the reminder of a candidate. -/
def keyAt (app : App) (now : Time) (c : DueReminderCandidate) : String :=
  reminderKey app (kindAt now c) c.taskId c.assigneeId (bucketAt app now)

/-- The candidate is the first of the list with its dedupe key. -/
def First (app : App) (now : Time) (cs : List DueReminderCandidate) (c : DueReminderCandidate) :
    Prop :=
  cs.find? (fun b => keyAt app now b = keyAt app now c) = some c

/-- What a sweep does: each new row is the reminder of the first candidate with a key that was not
there. -/
structure Enqueues (app : App) (now : Time) (cs : List DueReminderCandidate) (s s' : AppState) :
    Prop where
  sources : SameSources s s'
  kept : ∀ n ∈ s.db.notifications, n ∈ s'.db.notifications
  new : ∀ n ∈ s'.db.notifications, n ∉ s.db.notifications → ∃ c, First app now cs c ∧
    ¬ HasKey (keyAt app now c) s ∧ IsRowOf (Jobs.reminderNotification app now c) n

section Candidates

variable {app : App} {now : Time} {c : DueReminderCandidate} {cs : List DueReminderCandidate}
  {es : List Env} {s t s' : AppState}

theorem hasKey_kept {k : String} (h : HasKey k s)
    (hkept : ∀ n ∈ s.db.notifications, n ∈ s'.db.notifications) : HasKey k s' := by
  obtain ⟨n, hn, hk⟩ := h
  exact ⟨n, hkept n hn, hk⟩

theorem First.head : First app now (c :: cs) c := by simp [First]

theorem First.tail {c' : DueReminderCandidate} (h : First app now cs c')
    (hne : keyAt app now c ≠ keyAt app now c') : First app now (c :: cs) c' := by
  unfold First
  rw [List.find?_cons_of_neg (by simpa using hne)]
  exact h

/-- The reminder of one candidate. -/
theorem play_reminder {maxAttempts : Nat} {r : Except AppError Bool}
    (h : play (enqueueNotification (Jobs.reminderNotification app now c) maxAttempts) es s =
      some (r, s')) :
    Enqueues app now (c :: cs) s s' ∧ ∀ b, r = .ok b → HasKey (keyAt app now c) s' := by
  obtain ⟨honly, ⟨hsame, hok⟩ | ⟨hnone, id, written, hnew, hrows⟩⟩ :=
    play_enqueueNotification (k := keyAt app now c) rfl h
  · refine ⟨⟨honly.sources, fun n hn => hsame ▸ hn, fun n hn hnot => absurd (hsame ▸ hn) hnot⟩,
      fun b hb => ?_⟩
    exact hasKey_kept (hok b hb) fun n hn => hsame ▸ hn
  · have hmem : ∀ x, x ∈ s'.db.notifications ↔ x ∈ s.db.notifications ∨ x =
        newNotification id (Jobs.reminderNotification app now c) maxAttempts written := fun x => by
      simp only [Table.mem_def, hrows, List.mem_append, List.mem_singleton]
    refine ⟨⟨honly.sources, fun n hn => (hmem n).mpr (.inl hn), fun n hn hnot => ?_⟩,
      fun _ _ => ⟨_, (hmem _).mpr (.inr rfl), rfl⟩⟩
    obtain rfl := ((hmem n).mp hn).resolve_left hnot
    exact ⟨c, .head, hnone, rfl, rfl, rfl⟩

/-- The reminder of the first candidate, and then those of the others. -/
theorem Enqueues.step (h : Enqueues app now (c :: cs) s t) (hkey : HasKey (keyAt app now c) t)
    (h' : Enqueues app now cs t s') : Enqueues app now (c :: cs) s s' where
  sources := h.sources.trans h'.sources
  kept n hn := h'.kept n (h.kept n hn)
  new n hn hnot := by
    by_cases hmid : n ∈ t.db.notifications
    · exact h.new n hmid hnot
    · obtain ⟨c', hfirst, hnone, hrow⟩ := h'.new n hn hmid
      -- The key of the first candidate is taken by then.
      refine ⟨c', hfirst.tail fun heq => hnone (heq ▸ hkey), fun hs => ?_, hrow⟩
      exact hnone (hasKey_kept hs h.kept)

/-- **What the sweep enqueues** for its candidates, in a run that ends with a value or an error;
with a value, each candidate has its reminder. -/
theorem enqueueCandidates_rows {r : Except AppError Nat}
    (h : play (Jobs.enqueueCandidates app now cs) es s = some (r, s')) :
    Enqueues app now cs s s' ∧ ∀ m, r = .ok m → ∀ c ∈ cs, HasKey (keyAt app now c) s' := by
  induction cs generalizing es s r with
  | nil =>
      obtain ⟨-, -, rfl⟩ := play_done h
      exact ⟨⟨.refl _, fun _ hn => hn, fun n hn hnot => absurd hn hnot⟩,
        fun _ _ c hc => absurd hc List.not_mem_nil⟩
  | cons c cs ih =>
      rcases play_bind_cases h with ⟨x, rfl, h₁⟩ | ⟨inserted, es₁, es₂, t, -, h₁, h₂⟩
      · exact ⟨(play_reminder h₁).1, fun m hm => by cases hm⟩
      · obtain ⟨hone, hkey⟩ := (@play_reminder _ _ _ cs _ _ _ _ _ h₁)
        have hkey := hkey inserted rfl
        rcases play_bind_cases h₂ with ⟨x, rfl, h₃⟩ | ⟨rest, es₃, es₄, u, -, h₃, h₄⟩
        · exact ⟨hone.step hkey (ih h₃).1, fun m hm => by cases hm⟩
        · obtain ⟨-, -, rfl⟩ := play_done h₄
          obtain ⟨hrest, hkeys⟩ := ih h₃
          refine ⟨hone.step hkey hrest, fun _ _ c' hc' => ?_⟩
          rcases List.mem_cons.mp hc' with rfl | hc'
          · exact hasKey_kept hkey hrest.kept
          · exact hkeys rest rfl c' hc'

end Candidates

/-! ### Runs without a failure -/

/-- An identifier that no row has. -/
theorem exists_fresh (ids : List Uuid) : ∃ id : Uuid, id ∉ ids := by
  obtain ⟨id, hid⟩ := Infinite.exists_notMem_finset ids.toFinset
  exact ⟨id, by simpa using hid⟩

/-- The inputs of a statement at this time, where ties are broken so. -/
def At (now : Time) (rank : Uuid → Nat) (e : Env) : Prop := e.now = now ∧ e.rank = rank

theorem exists_play_enqueueNotification (n : NewNotification) (maxAttempts : Nat) (now : Time)
    (rank : Uuid → Nat) (s : AppState) : ∃ es b s', (∀ e ∈ es, At now rank e) ∧
      play (enqueueNotification n maxAttempts) es s = some (.ok b, s') := by
  obtain ⟨id, hid⟩ := exists_fresh (s.db.notifications.rows.map (·.id))
  let e : Env := { (default : Env) with uuid := id, now, rank }
  let t : AppState := { s with history.issued := (id, e.pid) :: s.history.issued }
  have h₁ : play newUuid [e] s = some (.ok id, t) := rfl
  refine ⟨[e] ++ [e], ?_⟩
  unfold enqueueNotification
  rw [Prog.bind_eq, play_bind h₁]
  by_cases hhas : hasDedupeKey t n.dedupeKey = true
  · refine ⟨false, t, by simp [e, At], ?_⟩
    simp only [sql, sqlWhen, Prog.atomic, play, if_true, hhas]
    rfl
  · have hfresh : ∀ b ∈ t.db.notifications, b.id ≠ (newNotification id n maxAttempts now).id :=
      fun b hb heq => hid (List.mem_map.mpr ⟨b, hb, heq⟩)
    obtain ⟨rows, hrows⟩ := Table.insert_of_fresh hfresh
    refine ⟨true, { t with
      db.notifications := rows
      history.enqueued := n :: t.history.enqueued }, by simp [e, At], ?_⟩
    have hins : t.db.notifications.insert (newNotification id n maxAttempts e.now) = some rows :=
      hrows
    simp only [sql, sqlWhen, Prog.atomic, play, if_true, hhas, hins]
    rfl

/-- There is a run in which no statement fails. -/
theorem exists_play_enqueueCandidates (app : App) (now : Time) (rank : Uuid → Nat)
    (cs : List DueReminderCandidate) (s : AppState) : ∃ es m s', (∀ e ∈ es, At now rank e) ∧
      play (Jobs.enqueueCandidates app now cs) es s = some (.ok m, s') := by
  induction cs generalizing s with
  | nil => exact ⟨[], 0, s, by simp, rfl⟩
  | cons c cs ih =>
      obtain ⟨es₁, b, t, hnow₁, h₁⟩ := exists_play_enqueueNotification
        (Jobs.reminderNotification app now c) app.config.maxJobAttempts now rank s
      obtain ⟨es₂, m, s', hnow₂, h₂⟩ := ih t
      refine ⟨es₁ ++ (es₂ ++ []), if b then m + 1 else m, s', ?_, ?_⟩
      · intro e he
        rw [List.append_nil, List.mem_append] at he
        exact he.elim (hnow₁ e) (hnow₂ e)
      · unfold Jobs.enqueueCandidates
        rw [Prog.bind_eq, play_bind h₁, Prog.bind_eq, play_bind h₂]
        rfl

/-! ### The candidates of the query -/

/-- The candidates with their due times, before the limit. -/
def allCandidates (app : App) (tenantId : Option Uuid) (s : AppState) (now : Time)
    (rank : Uuid → Nat) : List (Time × DueReminderCandidate) :=
  (s.db.tasks.rows.filterMap
    (dueReminderCandidate s now app.config.reminderDueSoonHours tenantId)).insertionSort
      fun a b => inDueOrder rank (a.1, a.2.taskId) (b.1, b.2.taskId)

/-- What `list_due_reminder_candidates` finds at time `now`, where ties are broken by `rank`. -/
def candidates (app : App) (tenantId : Option Uuid) (s : AppState) (now : Time)
    (rank : Uuid → Nat) : List DueReminderCandidate :=
  ((allCandidates app tenantId s now rank).take Jobs.reminderCandidateLimit).map (·.2)

/-- The kind of reminder that is due at time `now` for a task due at `dueAt`. -/
def dueKind (dueAt now : Time) : NotificationKind :=
  if dueAt ≤ now then .taskOverdue else .taskDueSoon

section Query

variable {app : App} {tenantId : Option Uuid} {s s' : AppState} {now : Time} {t : TaskRecord}
  {d : Time} {c : DueReminderCandidate} {es : List Env} {rank : Uuid → Nat}

/-- What the `WHERE` clause says of a candidate. -/
theorem dueReminderCandidate_eq {windowHours : Nat}
    (h : dueReminderCandidate s now windowHours tenantId t = some (d, c)) :
    t.dueAt = some d ∧ t.assigneeId = some c.assigneeId ∧ c.dueAt = some d ∧ c.taskId = t.id ∧
      kindNotDisabled s c.assigneeId (dueKind d now) = true := by
  unfold dueReminderCandidate at h
  simp only [Option.bind_eq_bind, Option.bind_eq_some_iff] at h
  obtain ⟨d', hd, a, ha, u, hu, h⟩ := h
  rw [show (if d' ≤ now then NotificationKind.taskOverdue else .taskDueSoon) = dueKind d' now
    from rfl] at h
  split at h
  · rename_i hwhere
    obtain ⟨rfl, rfl⟩ := Prod.mk.inj (Option.some.inj h)
    simp only [Bool.and_eq_true] at hwhere
    exact ⟨hd, ha, hd, rfl, hwhere.2⟩
  · cases h

theorem mem_candidates (h : c ∈ candidates app tenantId s now rank) : ∃ t ∈ s.db.tasks, ∃ d,
    dueReminderCandidate s now app.config.reminderDueSoonHours tenantId t = some (d, c) := by
  obtain ⟨⟨d, c'⟩, hmem, rfl⟩ := List.mem_map.mp h
  have hall := List.mem_of_mem_take hmem
  unfold allCandidates at hall
  rw [List.mem_insertionSort] at hall
  obtain ⟨t, ht, hc⟩ := List.mem_filterMap.mp hall
  exact ⟨t, ht, d, hc⟩

/-- The sweep reads the candidates, then the clock, and enqueues. -/
theorem play_sweep {r : Except AppError Nat}
    (h : play (Jobs.enqueueDueReminderNotifications app tenantId) es s = some (r, s')) :
    (s' = s ∧ ∃ x, r = .error x) ∨ ∃ e₁ e₂ rest, es = e₁ :: e₂ :: rest ∧
      play (Jobs.enqueueCandidates app e₂.now (candidates app tenantId s e₁.now e₁.rank)) rest s =
        some (r, s') := by
  rcases play_bind_cases h with ⟨x, rfl, h₁⟩ | ⟨cs, es₁, es₂, u, rfl, h₁, h₂⟩
  · exact .inl ⟨(play_select h₁).1, x, rfl⟩
  · obtain ⟨rfl, e₁, rfl, hcs⟩ := play_select h₁
    obtain rfl := hcs cs rfl
    rcases play_bind_cases h₂ with ⟨x, rfl, h₃⟩ | ⟨now, es₃, es₄, v, rfl, h₃, h₄⟩
    · obtain ⟨-, e, -, hr⟩ := play_utcNow h₃
      cases hr
    · obtain ⟨rfl, e₂, rfl, hnow⟩ := play_utcNow h₃
      obtain rfl := Except.ok.inj hnow
      exact .inr ⟨e₁, e₂, es₄, rfl, h₄⟩

theorem exists_play_sweep (t₁ t₂ : Time) (rank : Uuid → Nat) : ∃ e₁ e₂ es m s',
    At t₁ rank e₁ ∧ At t₂ rank e₂ ∧ (∀ e ∈ es, At t₂ rank e) ∧
      play (Jobs.enqueueDueReminderNotifications app tenantId) (e₁ :: e₂ :: es) s =
        some (.ok m, s') := by
  obtain ⟨es, m, s', hnow, h⟩ :=
    exists_play_enqueueCandidates app t₂ rank (candidates app tenantId s t₁ rank) s
  exact ⟨{ (default : Env) with now := t₁, rank }, { (default : Env) with now := t₂, rank }, es, m,
    s', ⟨rfl, rfl⟩, ⟨rfl, rfl⟩, hnow, h⟩

end Query

end Sweeps

open Plays Sweeps

/-! ### Preferences -/

/-- In every run of the sweep alone, with the query at time `queried` and the classification at
time `classified`, each new notification is of a kind that its recipient has not disabled. -/
def RespectsPreferences (app : App) (tenantId : Option Uuid) (s : AppState)
    (queried classified : Time) : Prop :=
  ∀ es r s', play (Jobs.enqueueDueReminderNotifications app tenantId) es s = some (r, s') →
    (∀ e ∈ es[0]?, e.now = queried) → (∀ e ∈ es[1]?, e.now = classified) →
    ∀ n ∈ s'.db.notifications, n ∉ s.db.notifications →
      ∃ u, n.userId = some u ∧ kindNotDisabled s u n.kind = true

/-- A candidate that falls due between the two clock readings, whose assignee has disabled overdue
reminders, and whose reminder is new, where ties are broken in some way. -/
structure TurnsOverdue (app : App) (tenantId : Option Uuid) (s : AppState)
    (queried classified : Time) (c : DueReminderCandidate) : Prop where
  first : ∃ rank, First app classified (candidates app tenantId s queried rank) c
  due : ∃ d, c.dueAt = some d ∧ queried < d ∧ d ≤ classified
  disabled : kindNotDisabled s c.assigneeId .taskOverdue = false
  unnamed : ¬ HasKey (keyAt app classified c) s

/-- **A sweep respects the preferences exactly when** no candidate turns overdue between the query
and the classification whose assignee has disabled overdue reminders. -/
theorem reminders_respect_preferences_iff {app : App} {tenantId : Option Uuid} {s : AppState}
    {queried classified : Time} (hclock : queried ≤ classified) :
    RespectsPreferences app tenantId s queried classified ↔
      ¬ ∃ c, TurnsOverdue app tenantId s queried classified c := by
  constructor
  · rintro h ⟨c, ⟨rank, hfirst⟩, ⟨d, hd, hlate, hdue⟩, hdisabled, hunnamed⟩
    obtain ⟨e₁, e₂, es, m, s', ⟨rfl, rfl⟩, ⟨rfl, -⟩, -, hplay⟩ :=
      @exists_play_sweep app tenantId s queried classified rank
    rcases play_sweep hplay with ⟨-, x, hx⟩ | ⟨_, _, rest, hes, hrest⟩
    · cases hx
    · cases hes
      obtain ⟨henq, hkeys⟩ := enqueueCandidates_rows hrest
      obtain ⟨n, hn, hkey⟩ := hkeys m rfl c (List.mem_of_find?_eq_some hfirst)
      have hnew : n ∉ s.db.notifications := fun hmem => hunnamed ⟨n, hmem, hkey⟩
      obtain ⟨c', hfirst', -, hrow⟩ := henq.new n hn hnew
      -- The row under the key is the reminder of the first candidate with it.
      have hsame : keyAt app e₂.now c' = keyAt app e₂.now c :=
        Option.some.inj (hrow.1.symm.trans hkey)
      unfold First at hfirst'
      rw [hsame] at hfirst'
      obtain rfl := Option.some.inj (hfirst'.symm.trans hfirst)
      obtain ⟨u, hu, henabled⟩ := h _ _ _ hplay (by simp) (by simp) n hn hnew
      obtain rfl : c'.assigneeId = u := Option.some.inj (hrow.2.1.symm.trans hu)
      have hkind : n.kind = .taskOverdue := by
        rw [hrow.2.2]
        change kindAt e₂.now c' = _
        rw [kindAt, hd, Option.any_some, decide_eq_true hdue]
        rfl
      rw [hkind, hdisabled] at henabled
      cases henabled
  · intro hnone es r s' hplay hqueried hclassified n hn hnew
    rcases play_sweep hplay with ⟨rfl, -⟩ | ⟨e₁, e₂, rest, rfl, hrest⟩
    · exact absurd hn hnew
    · obtain rfl : e₁.now = queried := hqueried e₁ rfl
      obtain rfl : e₂.now = classified := hclassified e₂ rfl
      obtain ⟨c, hfirst, hunnamed, hrow⟩ := (enqueueCandidates_rows hrest).1.new n hn hnew
      obtain ⟨t, -, d, hcandidate⟩ := mem_candidates (List.mem_of_find?_eq_some hfirst)
      obtain ⟨-, -, hd, -, henabled⟩ := dueReminderCandidate_eq hcandidate
      refine ⟨c.assigneeId, hrow.2.1, ?_⟩
      have hkind : n.kind = dueKind d e₂.now := by
        rw [hrow.2.2]
        change kindAt e₂.now c = _
        simp [kindAt, dueKind, hd]
      rw [hkind]
      by_cases hlate : d ≤ e₁.now
      · rw [dueKind, if_pos hlate] at henabled
        rw [dueKind, if_pos (le_trans hlate hclock)]
        exact henabled
      · rw [dueKind, if_neg hlate] at henabled
        by_cases hdue : d ≤ e₂.now
        · by_contra hdisabled
          rw [dueKind, if_pos hdue] at hdisabled
          exact hnone ⟨c, ⟨_, hfirst⟩, ⟨d, hd, not_le.mp hlate, hdue⟩, by simpa using hdisabled, hunnamed⟩
        · rw [dueKind, if_neg hdue]
          exact henabled

/-- A task of user 10 that is due after 100 seconds; the user has disabled overdue reminders. -/
def overdueDisabled : AppState :=
  { (default : AppState) with
    db := { (default : Database) with
      users := .single ⟨10, "a@x", "h", none, none, 0⟩
      tenants := .single ⟨1, "T", 0⟩
      tasks := ⟨[⟨5, 1, none, "t", none, .open, .low, some 10, some (seconds 100), 10, 10, 0, 0⟩],
        by decide⟩
      preferences := ⟨[⟨10, .taskOverdue, false⟩], by decide⟩ } }

/-- The candidates are read when the task is due soon, and classified when it is overdue. -/
theorem reminder_of_disabled_kind :
    ¬ RespectsPreferences default none overdueDisabled (seconds 99) (seconds 101) := by
  intro h
  let es : List Env := [{ (default : Env) with now := seconds 99 },
    { (default : Env) with now := seconds 101 }, default, default]
  have hrun : (play (Jobs.enqueueDueReminderNotifications default none) es overdueDisabled).map
      (fun x => x.2.db.notifications.rows.map fun n => (n.userId, n.kind)) =
        some [(some 10, .taskOverdue)] := by
    decide +kernel
  obtain ⟨⟨r, s'⟩, hplay, hrows⟩ := Option.map_eq_some_iff.mp hrun
  obtain ⟨n, hn, hrow⟩ : ∃ n ∈ s'.db.notifications.rows,
      (n.userId, n.kind) = (some 10, NotificationKind.taskOverdue) := by
    rw [← List.mem_map, hrows]
    exact List.mem_singleton.mpr rfl
  obtain ⟨u, hu, henabled⟩ := h es r s' hplay (by simp [es]) (by simp [es]) n hn
    Table.not_mem_empty
  rw [(Prod.mk.inj hrow).1] at hu
  cases hu
  rw [(Prod.mk.inj hrow).2] at henabled
  exact absurd henabled (by decide)

/-- The sweep respects the preference where both clocks read the same. -/
theorem reminders_respect_preferences_iff_oneClock :
    RespectsPreferences default none overdueDisabled (seconds 101) (seconds 101) := by
  refine (reminders_respect_preferences_iff (le_refl _)).mpr ?_
  rintro ⟨c, h⟩
  obtain ⟨d, -, hlate, hdue⟩ := h.due
  exact absurd (hlate.trans_le hdue) (lt_irrefl _)

/-! ### Completeness -/

/-- The task is open and due within the reminder window at time `now`, and its assignee has not
disabled the kind of reminder that it then calls for. -/
structure AwaitsReminder (app : App) (tenantId : Option Uuid) (s : AppState) (now : Time)
    (t : TaskRecord) (assigneeId : Uuid) (kind : NotificationKind) : Prop where
  task : t ∈ s.db.tasks
  tenant : wanted tenantId (t.tenantId = ·) = true
  isOpen : t.status ≠ .done ∧ t.status ≠ .archived
  assignee : t.assigneeId = some assigneeId ∧ ∃ u, s.db.users.find? assigneeId = some u
  due : ∃ d, t.dueAt = some d ∧ d ≤ now + seconds (app.config.reminderDueSoonHours * 3600) ∧
    kind = dueKind d now
  enabled : kindNotDisabled s assigneeId kind = true

/-- The reminder of the task is there, for the dedupe window of time `now`. -/
def Reminded (app : App) (s : AppState) (now : Time) (t : TaskRecord) (assigneeId : Uuid)
    (kind : NotificationKind) : Prop :=
  HasKey (reminderKey app kind t.id assigneeId (bucketAt app now)) s

/-- A sweep that returns `Ok` leads from `s` to `s'`, and no other operation comes between; the
candidates are read at time `queried`, with ties broken by `rank`, and classified at time
`classified`. -/
def SweepRun (app : App) (tenantId : Option Uuid) (s s' : AppState) (queried classified : Time)
    (rank : Uuid → Nat) : Prop :=
  ∃ es₁ e₁ e₂ rest n s₁ v, play (recordDueReminders app tenantId) es₁ s = some (.ok n, s₁) ∧
    play (Jobs.processDueReminderJob app tenantId) (es₁ ++ e₁ :: e₂ :: rest) s =
      some (.ok v, s') ∧ e₁.now = queried ∧ e₁.rank = rank ∧ e₂.now = classified

/-- Every task that awaits a reminder after the sweep has it, from this sweep or an earlier one. -/
def RemindersComplete (app : App) (tenantId : Option Uuid) (s' : AppState)
    (queried classified : Time) : Prop :=
  ∀ t a kind, AwaitsReminder app tenantId s' queried t a kind → Reminded app s' classified t a kind

/-- The task is one of the first 500 candidates, by due time and where ties are broken by `rank`,
and does not fall due between the query and the classification. -/
def WithinReach (app : App) (tenantId : Option Uuid) (s : AppState) (queried classified : Time)
    (rank : Uuid → Nat) (t : TaskRecord) : Prop :=
  (∃ c ∈ candidates app tenantId s queried rank, c.taskId = t.id) ∧
    ∀ d ∈ t.dueAt, d ≤ queried ↔ d ≤ classified

/-- Identifiers are rendered one-to-one and without a colon. -/
structure UuidText (app : App) : Prop where
  injective : Function.Injective app.lib.uuidString
  noColon : ∀ id, ':' ∉ (app.lib.uuidString id).toList

namespace Sweeps

/-! ### Dedupe keys -/

theorem asStr_noColon (kind : NotificationKind) : ':' ∉ kind.asStr.toList := by
  cases kind <;> decide +kernel

theorem asStr_injective : Function.Injective NotificationKind.asStr := by
  intro kind kind' h
  cases kind <;> cases kind' <;> first | rfl | exact absurd h (by decide +kernel)

theorem append_colon_inj {a b a' b' : List Char} (ha : ':' ∉ a) (ha' : ':' ∉ a')
    (h : a ++ ':' :: b = a' ++ ':' :: b') : a = a' ∧ b = b' := by
  induction a generalizing a' with
  | nil =>
      cases a' with
      | nil => exact ⟨rfl, (List.cons.inj h).2⟩
      | cons c a' => exact absurd ((List.cons.inj h).1 ▸ List.mem_cons_self) ha'
  | cons c a ih =>
      cases a' with
      | nil => exact absurd ((List.cons.inj h).1 ▸ List.mem_cons_self) ha
      | cons c' a' =>
          obtain ⟨rfl, hrest⟩ := List.cons.inj h
          obtain ⟨rfl, hb⟩ := ih (fun hm => ha (List.mem_cons_of_mem _ hm))
            (fun hm => ha' (List.mem_cons_of_mem _ hm)) hrest
          exact ⟨rfl, hb⟩

theorem reminderKey_toList (app : App) (kind : NotificationKind) (t a : Uuid) (bucket : Nat) :
    (reminderKey app kind t a bucket).toList = kind.asStr.toList ++
      ':' :: ((app.lib.uuidString t).toList ++
        ':' :: ((app.lib.uuidString a).toList ++ ':' :: (toString bucket).toList)) := by
  simp only [reminderKey, String.toList_append, List.append_assoc]
  rfl

/-- A dedupe key names one kind, one task and one assignee. -/
theorem reminderKey_inj {app : App} (h : UuidText app) {kind kind' : NotificationKind}
    {t t' a a' : Uuid} {bucket bucket' : Nat}
    (heq : reminderKey app kind t a bucket = reminderKey app kind' t' a' bucket') :
    kind = kind' ∧ t = t' ∧ a = a' := by
  have hlist := congrArg String.toList heq
  rw [reminderKey_toList, reminderKey_toList] at hlist
  obtain ⟨hkind, hlist⟩ := append_colon_inj (asStr_noColon _) (asStr_noColon _) hlist
  obtain ⟨ht, hlist⟩ := append_colon_inj (h.noColon _) (h.noColon _) hlist
  obtain ⟨ha, -⟩ := append_colon_inj (h.noColon _) (h.noColon _) hlist
  exact ⟨asStr_injective (String.toList_inj.mp hkind), h.injective (String.toList_inj.mp ht),
    h.injective (String.toList_inj.mp ha)⟩

/-! ### The sweep as a whole -/

section Whole

variable {app : App} {tenantId : Option Uuid} {s s' s₁ : AppState} {queried classified now : Time}
  {t : TaskRecord} {a : Uuid} {kind : NotificationKind} {rank : Uuid → Nat}

/-- The tables that the sweep reads, and the notifications. -/
def SameNotifications (s s' : AppState) : Prop :=
  SameSources s s' ∧ s'.db.notifications = s.db.notifications

theorem frame_tolerant :
    Tolerant (Contract.frame SameNotifications : Contract Event Env AppState) where
  stay _ _ _ _ _ _ := ⟨.refl _, rfl⟩
  bystander _ _ _ _ _ h := ⟨⟨h.tasks, h.users, h.preferences⟩, h.notifications⟩
  issue _ _ _ _ _ := ⟨.refl _, rfl⟩

/-- The audit rows of the sweep are beside the point. -/
theorem play_recordDueReminders {es : List Env} {r : Except AppError Nat}
    (h : play (recordDueReminders app tenantId) es s = some (r, s')) : SameNotifications s s' := by
  refine (recordDueReminders_safe frame_tolerant (i := 0)).ends (fun _ => ⟨.refl _, rfl⟩)
    (fun h h' => ⟨h.1.trans h'.1, h'.2.trans h.2⟩) (ends_of_play (fun _ => ⟨.refl _, rfl⟩) h)

theorem kindNotDisabled_congr (h : SameSources s s') (u : Uuid) :
    kindNotDisabled s' u kind = kindNotDisabled s u kind := by
  simp only [kindNotDisabled, h.2.2]

theorem candidates_congr (h : SameSources s s') :
    candidates app tenantId s' now rank = candidates app tenantId s now rank := by
  have hcandidate : dueReminderCandidate s' now app.config.reminderDueSoonHours tenantId =
      dueReminderCandidate s now app.config.reminderDueSoonHours tenantId := by
    funext t
    simp only [dueReminderCandidate, h.2.1, kindNotDisabled_congr h]
  rw [candidates, allCandidates, hcandidate, h.1, candidates, allCandidates]

theorem awaitsReminder_congr (h : SameSources s s')
    (ha : AwaitsReminder app tenantId s' now t a kind) :
    AwaitsReminder app tenantId s now t a kind where
  task := h.1 ▸ ha.task
  tenant := ha.tenant
  isOpen := ha.isOpen
  assignee := h.2.1 ▸ ha.assignee
  due := ha.due
  enabled := kindNotDisabled_congr h a ▸ ha.enabled

/-- **What a sweep leaves**: the keys that were there, and those of its candidates. -/
theorem sweepRun_hasKey (h : SweepRun app tenantId s s' queried classified rank) :
    SameSources s s' ∧ ∀ k, HasKey k s' ↔ HasKey k s ∨
      ∃ c ∈ candidates app tenantId s queried rank, keyAt app classified c = k := by
  obtain ⟨es₁, e₁, e₂, rest, n, s₁, v, hrecord, hall, rfl, rfl, rfl⟩ := h
  have hsame := play_recordDueReminders hrecord
  have hkey₁ : ∀ k, HasKey k s₁ ↔ HasKey k s := fun k => by rw [HasKey, hsame.2, HasKey]
  unfold Jobs.processDueReminderJob at hall
  rw [Prog.bind_eq, play_bind hrecord] at hall
  obtain ⟨m, es₂, es₃, u, hes, hsweep, hend⟩ := play_bind_ok hall
  obtain ⟨now, es₄, es₅, w, -, hnow, hdone⟩ := play_bind_ok hend
  obtain ⟨rfl, -⟩ := play_utcNow hnow
  obtain ⟨-, -, rfl⟩ := play_done hdone
  rcases play_sweep hsweep with ⟨-, x, hx⟩ | ⟨e₁', e₂', rest', rfl, hplay⟩
  · cases hx
  · obtain ⟨rfl, hes₂⟩ := List.cons.inj hes
    obtain ⟨rfl, -⟩ := List.cons.inj hes₂
    obtain ⟨henq, hkeys⟩ := enqueueCandidates_rows hplay
    rw [candidates_congr hsame.1] at henq hkeys
    refine ⟨hsame.1.trans henq.sources, fun k => ⟨?_, ?_⟩⟩
    · rintro ⟨x, hx, hk⟩
      by_cases hold : x ∈ s₁.db.notifications
      · exact .inl ((hkey₁ k).mp ⟨x, hold, hk⟩)
      · obtain ⟨c, hfirst, -, hrow⟩ := henq.new x hx hold
        exact .inr ⟨c, List.mem_of_find?_eq_some hfirst,
          Option.some.inj (hrow.1.symm.trans hk)⟩
    · rintro (hk | ⟨c, hc, rfl⟩)
      · exact hasKey_kept ((hkey₁ k).mpr hk) henq.kept
      · exact hkeys m rfl c hc

/-- A run of a sweep that returns `Ok` is of this form. -/
theorem exists_sweepRun {es : List Env} {v : Value}
    (h : play (Jobs.processDueReminderJob app tenantId) es s = some (.ok v, s')) :
    ∃ queried classified rank, SweepRun app tenantId s s' queried classified rank := by
  have hall := h
  unfold Jobs.processDueReminderJob at h
  obtain ⟨n, es₁, es₂, s₁, rfl, hrecord, h⟩ := play_bind_ok h
  obtain ⟨m, es₃, es₄, u, rfl, hsweep, h⟩ := play_bind_ok h
  rcases play_sweep hsweep with ⟨-, x, hx⟩ | ⟨e₁, e₂, rest, rfl, -⟩
  · cases hx
  · exact ⟨_, _, _, es₁, e₁, e₂, rest ++ es₄, n, s₁, v, hrecord, hall, rfl, rfl, rfl⟩

/-- The candidate of a task names its reminder if both clock readings call for the same kind. -/
theorem keyAt_eq_iff (hids : UuidText app) (ha : AwaitsReminder app tenantId s queried t a kind)
    {c : DueReminderCandidate} (hc : c ∈ candidates app tenantId s queried rank) :
    keyAt app classified c = reminderKey app kind t.id a (bucketAt app classified) ↔
      c.taskId = t.id ∧ ∀ d ∈ t.dueAt, d ≤ queried ↔ d ≤ classified := by
  obtain ⟨t', ht', d, hcandidate⟩ := mem_candidates hc
  obtain ⟨hdue', hassignee', hdue, htask, -⟩ := dueReminderCandidate_eq hcandidate
  obtain ⟨d', hd', -, rfl⟩ := ha.due
  have hkind : kindAt classified c = dueKind d classified := by simp [kindAt, dueKind, hdue]
  have hsame : dueKind d classified = dueKind d queried ↔ (d ≤ queried ↔ d ≤ classified) := by
    unfold dueKind
    by_cases h₁ : d ≤ queried <;> by_cases h₂ : d ≤ classified <;> simp [h₁, h₂]
  constructor
  · intro h
    obtain ⟨hk, htid, -⟩ := reminderKey_inj hids h
    obtain rfl : t' = t := Table.eq_of_key ht' ha.task (htask.symm.trans htid)
    obtain rfl : d' = d := Option.some.inj (hd'.symm.trans hdue')
    refine ⟨htid, fun x hx => ?_⟩
    obtain rfl : d' = x := Option.some.inj (hd'.symm.trans hx)
    exact hsame.mp (hkind.symm.trans hk)
  · rintro ⟨htid, hclock⟩
    obtain rfl : t' = t := Table.eq_of_key ht' ha.task (htask.symm.trans htid)
    obtain rfl : d' = d := Option.some.inj (hd'.symm.trans hdue')
    have hassignee : c.assigneeId = a := Option.some.inj (hassignee'.symm.trans ha.assignee.1)
    rw [keyAt, hkind, hsame.mpr (hclock d' hd'), htid, hassignee]

/-- Which tasks have their reminder after the sweep. -/
theorem sweepRun_reminded (hids : UuidText app)
    (h : SweepRun app tenantId s s' queried classified rank)
    (ha : AwaitsReminder app tenantId s queried t a kind) :
    Reminded app s' classified t a kind ↔
      Reminded app s classified t a kind ∨ WithinReach app tenantId s queried classified rank t := by
  rw [Reminded, (sweepRun_hasKey h).2]
  refine or_congr_right ⟨?_, ?_⟩
  · rintro ⟨c, hc, hk⟩
    obtain ⟨htask, hclock⟩ := (keyAt_eq_iff hids ha hc).mp hk
    exact ⟨⟨c, hc, htask⟩, hclock⟩
  · rintro ⟨⟨c, hc, htask⟩, hclock⟩
    exact ⟨c, hc, (keyAt_eq_iff hids ha hc).mpr ⟨htask, hclock⟩⟩

/-- Where the audit rows can be written, the sweep can return `Ok`. -/
theorem sweepRun_of_record {es : List Env} {n : Nat}
    (h : play (recordDueReminders app tenantId) es s = some (.ok n, s₁)) :
    ∃ s', SweepRun app tenantId s s' queried classified rank := by
  obtain ⟨e₁, e₂, rest, m, s', ⟨h₁, hrank⟩, ⟨h₂, -⟩, -, hsweep⟩ :=
    @exists_play_sweep app tenantId s₁ queried classified rank
  have hend : ∀ f : Time → Value, play (utcNow.bind fun now => .done (.ok (f now))) [default] s' =
      some (.ok (f (default : Env).now), s') := fun _ => rfl
  obtain ⟨v, hv⟩ : ∃ v, play (Jobs.processDueReminderJob app tenantId)
      (es ++ e₁ :: e₂ :: (rest ++ [default])) s = some (.ok v, s') := by
    rw [show e₁ :: e₂ :: (rest ++ [default]) = (e₁ :: e₂ :: rest) ++ [default] from rfl]
    unfold Jobs.processDueReminderJob
    rw [Prog.bind_eq, play_bind h, Prog.bind_eq, play_bind hsweep]
    exact ⟨_, hend _⟩
  exact ⟨s', es, e₁, e₂, rest ++ [default], n, s₁, v, h, hv, h₁, hrank, h₂⟩

end Whole

end Sweeps

/-- **A sweep is complete exactly when** each task that awaits a reminder has been reminded before
or is within reach: one of the first 500 candidates that the query returns, and not falling due
between the query and the classification. -/
theorem due_reminders_complete_iff {app : App} (hids : UuidText app) {tenantId : Option Uuid}
    {s s' : AppState} {queried classified : Time} {rank : Uuid → Nat}
    (h : SweepRun app tenantId s s' queried classified rank) :
    RemindersComplete app tenantId s' queried classified ↔
      ∀ t a kind, AwaitsReminder app tenantId s queried t a kind →
        Reminded app s classified t a kind ∨ WithinReach app tenantId s queried classified rank t := by
  have hsources := (sweepRun_hasKey h).1
  have hsources' : SameSources s' s := ⟨hsources.1.symm, hsources.2.1.symm, hsources.2.2.symm⟩
  constructor
  · intro hcomplete t a kind ha
    exact (sweepRun_reminded hids h ha).mp (hcomplete t a kind (awaitsReminder_congr hsources' ha))
  · intro hcovered t a kind ha
    have ha := awaitsReminder_congr hsources ha
    exact (sweepRun_reminded hids h ha).mpr (hcovered t a kind ha)

namespace Sweeps

theorem uuidText_default : UuidText default where
  injective a b h := by
    have htext : String.ofList (Nat.toDigits 10 a) = String.ofList (Nat.toDigits 10 b) := by
      rw [← Nat.repr_eq_ofList_toDigits, ← Nat.repr_eq_ofList_toDigits]
      exact h
    rw [← @Nat.ofDigitChars_ten_toDigits a, ← @Nat.ofDigitChars_ten_toDigits b,
      String.ofList_injective htext]
  noColon id h := by
    have hdigit : ':' ∈ Nat.toDigits 10 id := by
      rw [← Nat.toList_repr]
      exact h
    exact absurd (Nat.isDigit_of_mem_toDigits (by decide) (by decide) hdigit) (by decide)

/-- The `i`-th of many tasks of user 10, each due one microsecond after the one before. -/
def manyDueTask (i : Nat) : TaskRecord :=
  ⟨i, 1, none, "t", none, .open, .low, some 10, some (seconds 100 + i), 10, 10, 0, 0⟩

/-- 501 of them. -/
def manyDueTasks : List TaskRecord := (List.range 501).map manyDueTask

/-- They are due soon, and nothing has been enqueued. -/
def manyDue : AppState :=
  { (default : AppState) with
    db := { (default : Database) with
      users := .single ⟨10, "a@x", "h", none, none, 0⟩
      tenants := .single ⟨1, "T", 0⟩
      tasks := ⟨manyDueTasks, by
        rw [manyDueTasks, List.map_map]
        exact (List.map_id _).symm ▸ List.nodup_range⟩ } }

theorem mem_manyDue {i : Nat} (hi : i < 501) : manyDueTask i ∈ manyDue.db.tasks := by
  have hrows : manyDue.db.tasks.rows = manyDueTasks := by simp only [manyDue]
  rw [Table.mem_def, hrows, manyDueTasks]
  exact List.mem_map_of_mem (List.mem_range.mpr hi)

end Sweeps

/-- A sweep that returns `Ok` leaves the last of 501 tasks without its reminder. -/
theorem reminder_beyond_the_limit :
    ∃ s', SweepRun default none manyDue s' (seconds 50) (seconds 50) (fun _ => 0) ∧
      ¬ RemindersComplete default none s' (seconds 50) (seconds 50) := by
  have hrecord : ((play (recordDueReminders default none) [default, default] manyDue).bind
      fun x => x.1.toOption) = some 0 := by
    decide +kernel
  obtain ⟨⟨r, s₁⟩, hplay, hr⟩ := Option.bind_eq_some_iff.mp hrecord
  obtain ⟨n, rfl⟩ : ∃ n, r = .ok n := by
    cases r with
    | ok n => exact ⟨n, rfl⟩
    | error x => cases hr
  obtain ⟨s', hrun⟩ := sweepRun_of_record hplay
  refine ⟨s', hrun, fun hcomplete => ?_⟩
  have hawaits : AwaitsReminder default none manyDue (seconds 50) (manyDueTask 500) 10
      .taskDueSoon := {
    task := mem_manyDue (by decide)
    tenant := rfl
    isOpen := by decide
    assignee := ⟨rfl, _, rfl⟩
    due := ⟨_, rfl, by decide, by decide⟩
    enabled := by decide }
  have hsources := (sweepRun_hasKey hrun).1
  have hreminded := hcomplete _ _ _
    (awaitsReminder_congr ⟨hsources.1.symm, hsources.2.1.symm, hsources.2.2.symm⟩ hawaits)
  rcases (sweepRun_reminded uuidText_default hrun hawaits).mp hreminded with ⟨x, hx, -⟩ | hreach
  · exact Table.not_mem_empty hx
  · obtain ⟨⟨c, hc, htask⟩, -⟩ := hreach
    have hnone : ∀ c ∈ candidates default none manyDue (seconds 50) (fun _ => 0),
        c.taskId ≠ 500 := by
      decide +kernel
    exact hnone c hc htask

/-- A sweep with one candidate. -/
theorem due_reminders_complete_iff_single :
    ∃ s', SweepRun default none overdueDisabled s' (seconds 50) (seconds 50) (fun _ => 0) ∧
      RemindersComplete default none s' (seconds 50) (seconds 50) := by
  have hrecord : ((play (recordDueReminders default none) [default, default] overdueDisabled).bind
      fun x => x.1.toOption) = some 0 := by
    decide +kernel
  obtain ⟨⟨r, s₁⟩, hplay, hr⟩ := Option.bind_eq_some_iff.mp hrecord
  obtain ⟨n, rfl⟩ : ∃ n, r = .ok n := by
    cases r with
    | ok n => exact ⟨n, rfl⟩
    | error x => cases hr
  obtain ⟨s', hrun⟩ := sweepRun_of_record hplay
  refine ⟨s', hrun, (due_reminders_complete_iff uuidText_default hrun).mpr ?_⟩
  intro t a kind ha
  obtain rfl := List.mem_singleton.mp ha.task
  exact .inr ⟨by decide +kernel, fun _ _ => Iff.rfl⟩

end Fluxa
