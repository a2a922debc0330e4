import Fluxa.Jobs.Actions
import Fluxa.State.Clock

/-!
# Jobs — the cadence of the retention sweeps

The scheduler infers from the rows of `background_jobs` when the last sweep was created.  The sweeps delete old rows of that table, and retries move the time that the scheduler reads.

**`retention_cadence`**: with one scheduler, and executions that end with their leases, any two sweeps are created at least the configured interval apart.  The row of the newest sweep carries it: it is there until a newer sweep is created, since every purge is run by a sweep that is not yet over, and the time in it only moves forward.
-/

namespace Fluxa
open Interleave Relational Db Contract Jobs

variable {app : App} {i : Nat}

/-- The time that is to lie between two sweeps. -/
def sweepInterval (app : App) : Nat := seconds (app.config.retentionSweepIntervalHours * 3600)

/-! ### The conditions on a run -/

/-- The call has lost no claim to a lease recovery. -/
def InLease (i : Nat) (_ : Event) (_ : Env) (s : AppState) : Prop :=
  ∀ x ∈ s.history.claims, x.2.2 = i → (x.1, x.2.1) ∉ s.history.recovered

instance (i : Nat) (l : Event) (e : Env) (s : AppState) : Decidable (InLease i l e s) := by
  unfold InLease
  infer_instance

/-- A retention sweep is inserted by the call that has looked last. -/
def OneScheduler (i : Nat) (l : Event) (_ : Env) (s : AppState) : Prop :=
  match l with
  | .insertJob .retentionSweep _ => s.history.looked.head?.map (·.1) = some i
  | _ => True

instance (i : Nat) (l : Event) (e : Env) (s : AppState) : Decidable (OneScheduler i l e s) := by
  unfold OneScheduler
  split <;> infer_instance

/-- No earlier than `t` are the looks of the schedulers and the starts of the sweeps created so
far. -/
structure RecordedBy (t : Time) (s : AppState) : Prop where
  looked : ∀ x ∈ s.history.looked, x.2 ≤ t
  started : ∀ x ∈ s.history.sweeps, ∀ r ∈ s.db.jobs, r.id = x.1 →
    ∀ st, r.startedAt = some st → st ≤ t

/-! ### The newest sweep -/

/-- The times of the row are no earlier than `t`. -/
structure DatedFrom (t : Time) (r : BackgroundJobRecord) : Prop where
  scheduled : t ≤ r.scheduledAt
  started : r.status = .running → ∃ st, r.startedAt = some st ∧ t ≤ st

/-- The sweeps keep the interval; the newest one has a row whose times are no earlier than its
creation; and no other sweep is pending. -/
structure CadenceInv (app : App) (s : AppState) : Prop where
  jobs : JobInv s
  spaced : s.history.sweeps.Pairwise fun new old => old.2 + sweepInterval app ≤ new.2
  newest : ∀ x ∈ s.history.sweeps.head?, ∃ r ∈ s.db.jobs, r.id = x.1 ∧
    r.jobType = .retentionSweep ∧ DatedFrom x.2 r
  ended : ∀ x ∈ s.history.sweeps.head?, ∀ r ∈ s.db.jobs, r.jobType = .retentionSweep →
    r.status.terminal = false → r.id = x.1

/-- No sweep is pending, and all were created an interval before `t`. -/
structure Clear (app : App) (t : Time) (s : AppState) : Prop where
  ended : ∀ r ∈ s.db.jobs, r.jobType = .retentionSweep → r.status.terminal = true
  past : ∀ x ∈ s.history.sweeps, x.2 + sweepInterval app ≤ t

/-- What a statement does to the sweeps besides being an action. -/
structure Sweeping (app : App) (i : Nat) (l : Event) (e : Env) (s s' : AppState) : Prop where
  looked : s'.history.looked = s.history.looked ∨
    s'.history.looked = (i, e.now) :: s.history.looked
  /-- A sweep is created by the call that has looked last, and found the way clear. -/
  created : ∀ tenantId, l = .insertJob .retentionSweep tenantId → e.fault ≠ .failed →
    ∃ t, s.history.looked.head? = some (i, t) ∧ Clear app t s ∧
      ∀ x, s'.history.sweeps = x :: s.history.sweeps → t ≤ x.2
  /-- The row of the newest sweep stays, with times that are late enough. -/
  dated : ∀ x ∈ s.history.sweeps.head?, ∀ r ∈ s.db.jobs, r.id = x.1 → DatedFrom x.2 r →
    ∃ r' ∈ s'.db.jobs, r'.id = x.1 ∧ DatedFrom x.2 r'

section Steps

variable {l : Event} {e : Env} {s s' : AppState}

/-- An action leaves the sweeps as they are, or creates one. -/
theorem JobAction.sweeps_of (h : JobAction app i l e s s') :
    s'.history.sweeps = s.history.sweeps ∨
      ∃ job ∈ s'.db.jobs, Unused i job.id s ∧ l = .insertJob .retentionSweep job.tenantId ∧
        e.fault ≠ .failed ∧ job.jobType = .retentionSweep ∧ NewJob app job ∧
        (∀ r ∈ s'.db.jobs, r ∈ s.db.jobs ∨ r = job) ∧
        s'.history.sweeps = (job.id, job.scheduledAt) :: s.history.sweeps := by
  cases h with
  | quiet h => exact .inl h.sweeps
  | @create _ _ _ job hu hnew hj _ _ _ _ hfault hs =>
      by_cases htype : job.jobType = .retentionSweep
      · refine .inr ⟨job, (hj job).mpr (.inr rfl), hu, by rw [htype], hfault, htype, hnew,
          fun r hr => (hj r).mp hr, ?_⟩
        rw [hs, withSweep, if_pos htype]
      · exact .inl (by rw [hs, withSweep, if_neg htype])
  | _ => exact .inl rfl

/-- An action that leaves the sweeps as they are keeps the newest row the newest. -/
theorem CadenceInv.keep (hi : CadenceInv app s) (h : JobAction app i l e s s')
    (hf : Fenced i l e s) (hs : Sweeping app i l e s s')
    (hsame : s'.history.sweeps = s.history.sweeps) : CadenceInv app s' := by
  refine ⟨h.inv hi.jobs, by rw [hsame]; exact hi.spaced, fun x hx => ?_, fun x hx r hr htype hp => ?_⟩
  · rw [hsame] at hx
    obtain ⟨r₀, h₀, hid₀, htype₀, hdated₀⟩ := hi.newest x hx
    obtain ⟨r, hr, hid, hdated⟩ := hs.dated x hx r₀ h₀ hid₀ hdated₀
    refine ⟨r, hr, hid, ?_, hdated⟩
    rcases h.row_of hr with ⟨r₁, h₁, hid₁, -, htype₁, -⟩ | ⟨hu, -⟩
    · obtain rfl := Table.eq_of_key h₁ h₀ (hid₁.symm.trans (hid.trans hid₀.symm))
      exact htype₁.trans htype₀
    · exact absurd (hid₀.trans hid.symm) (hu.no_job r₀ h₀)
  · rcases h.pending_of hf hr hp with ⟨r₀, h₀, hid₀, htype₀, -, hp₀⟩ | ⟨-, -, hnew⟩
    · rw [hsame] at hx
      exact hid₀.symm.trans (hi.ended x hx r₀ h₀ (htype₀.trans htype) hp₀)
    · rw [hsame, withSweep, if_pos htype] at hnew
      exact absurd hnew.symm (List.cons_ne_self _ _)

/-- A sweep that is created where the way is clear becomes the newest. -/
theorem CadenceInv.create (hi : CadenceInv app s) (hj : JobInv s') {t : Time}
    (hclear : Clear app t s) {job : BackgroundJobRecord} (hm : job ∈ s'.db.jobs)
    (htype : job.jobType = .retentionSweep) (hnew : NewJob app job) (ht : t ≤ job.scheduledAt)
    (hrows : ∀ r ∈ s'.db.jobs, r ∈ s.db.jobs ∨ r = job)
    (hs : s'.history.sweeps = (job.id, job.scheduledAt) :: s.history.sweeps) :
    CadenceInv app s' := by
  refine ⟨hj, ?_, fun x hx => ?_, fun x hx r hr htype hp => ?_⟩
  · rw [hs]
    exact List.pairwise_cons.mpr ⟨fun x hx => (hclear.past x hx).trans ht, hi.spaced⟩
  · rw [hs] at hx
    obtain rfl := Option.some.inj hx
    refine ⟨job, hm, rfl, htype, Nat.le_refl _, fun hrun => ?_⟩
    rw [hnew.status] at hrun
    cases hrun
  · rw [hs] at hx
    obtain rfl := Option.some.inj hx
    rcases hrows r hr with h | rfl
    · rw [hclear.ended r h htype] at hp
      cases hp
    · rfl

/-- A fenced action that treats the sweeps as it should keeps the invariant. -/
theorem CadenceInv.step (hi : CadenceInv app s) (h : JobAction app i l e s s')
    (hf : Fenced i l e s) (hs : Sweeping app i l e s s') : CadenceInv app s' := by
  rcases h.sweeps_of with hsame | ⟨job, hm, -, hl, hfault, htype, hnew, hrows, hcons⟩
  · exact hi.keep h hf hs hsame
  · obtain ⟨t, -, hclear, hafter⟩ := hs.created _ hl hfault
    exact hi.create (h.inv hi.jobs) hclear hm htype hnew (hafter _ hcons) hrows hcons

end Steps

/-! ### The contract -/

/-- The contract: every statement is a fenced action that treats the sweeps as it should. -/
def cadenceContract (app : App) : Contract Event Env AppState where
  inv := CadenceInv app
  guar i l e s s' := (JobAction app i l e s s' ∧ Fenced i l e s) ∧ Sweeping app i l e s s'
  adm i l e s := admissible i l e s = true ∧ InLease i l e s ∧ OneScheduler i l e s ∧
    RecordedBy e.now s
  guar_inv hi h := hi.step h.1.1 h.1.2 h.2

/-- What is stable under the fenced actions is stable here. -/
theorem stable_of_jobs {P : AppState → Prop} (h : (jobContract app True).Stable i P) :
    (cadenceContract app).Stable i P :=
  h.refine (fun _ hi => hi.jobs) fun _ _ _ _ _ hg => ⟨hg.1.1, fun _ => hg.1.2⟩

/-- A statement that leaves the jobs and the looks alone. -/
theorem Sweeping.of_jobs {l : Event} {e : Env} {s s' : AppState} (hl : e.fault = .failed ∨ l = .quiet)
    (hj : s'.db.jobs = s.db.jobs) (hk : s'.history.looked = s.history.looked) :
    Sweeping app i l e s s' := by
  refine ⟨.inl hk, fun tenantId hins hfault => ?_, fun x _ r hr hid hdated => ⟨r, ?_, hid, hdated⟩⟩
  · rcases hl with hf | rfl
    · exact absurd hf hfault
    · cases hins
  · rwa [hj]

theorem cadenceContract_tolerant : TolerantOfWork (cadenceContract app) where
  stay i l e s _ hf := ⟨⟨.idle hf, fenced_of_failed hf⟩, .of_jobs (.inl hf) rfl rfl⟩
  bystander i e s s' _ h := ⟨⟨.quiet h.jobQuiet, fenced_of_quiet⟩,
    .of_jobs (.inr rfl) h.jobs h.jobIdle.looked⟩
  issue i e s _ ha := by
    obtain ⟨rfl, hf⟩ := not_issued_of_admissible ha.1
    exact ⟨⟨.issue hf, fenced_of_quiet⟩, .of_jobs (.inr rfl) rfl rfl⟩
  idle i e s s' _ h := ⟨⟨.quiet h.toJobQuiet, fenced_of_quiet⟩,
    .of_jobs (.inr rfl) h.jobs h.looked⟩

/-- Where call `i` has looked last, at `t`, the way is clear, and has been from `t` on. -/
def Due (app : App) (i : Nat) (s : AppState) : Prop :=
  ∀ t, s.history.looked.head? = some (i, t) → Clear app t s

/-- Where call `i` has looked last, it was no later than `now`. -/
def LookedBy (i : Nat) (now : Time) (s : AppState) : Prop :=
  ∀ t, s.history.looked.head? = some (i, t) → t ≤ now

/-- Another call that looks is the last to have looked from then on. -/
theorem Sweeping.looked_of {k : Nat} {l : Event} {e : Env} {s s' : AppState}
    (h : Sweeping app k l e s s') (hk : k ≠ i) {t : Time}
    (ht : s'.history.looked.head? = some (i, t)) : s.history.looked.head? = some (i, t) := by
  rcases h.looked with hsame | hcons
  · rwa [hsame] at ht
  · rw [hcons] at ht
    exact absurd (Prod.ext_iff.mp (Option.some.inj ht)).1 hk

theorem lookedBy_stable {now : Time} : (cadenceContract app).Stable i (LookedBy i now) :=
  fun _ _ _ _ _ _ hs hk hg t ht => hs t (hg.2.looked_of hk ht)

/-- The way stays clear while the others run: another call that creates a sweep has looked since,
and what has ended stays so. -/
theorem due_stable : (cadenceContract app).Stable i (Due app i) := by
  rintro s s' k l e hi hs hk ⟨⟨h, hf⟩, hsw⟩ t ht
  have hlast := hsw.looked_of hk ht
  have hclear := hs t hlast
  have hother : ∀ tenantId, l = .insertJob .retentionSweep tenantId → e.fault ≠ .failed →
      False := by
    intro tenantId hl hfault
    obtain ⟨t', hlast', -⟩ := hsw.created tenantId hl hfault
    rw [hlast] at hlast'
    exact hk (Prod.ext_iff.mp (Option.some.inj hlast')).1.symm
  refine ⟨fun r hr htype => ?_, fun x hx => ?_⟩
  · cases hp : r.status.terminal with
    | true => rfl
    | false =>
        rcases h.pending_of hf hr hp with ⟨r₀, h₀, -, htype₀, -, hp₀⟩ | ⟨hl, hfault, -⟩
        · rw [hclear.ended r₀ h₀ (htype₀.trans htype)] at hp₀
          cases hp₀
        · rw [htype] at hl
          exact (hother _ hl hfault).elim
  · rcases h.sweeps_of with hsame | ⟨_, -, -, hl, hfault, -⟩
    · rw [hsame] at hx
      exact hclear.past x hx
    · exact (hother _ hl hfault).elim

/-! ### The scheduler -/

/-- A look that finds no sweep pending, and none scheduled within the interval, finds the way
clear. -/
theorem CadenceInv.clear {s : AppState} {now : Time} (hi : CadenceInv app s)
    (h : s.db.jobs.any (hasRecentRetention app.config.retentionSweepIntervalHours now) = false) :
    Clear app now s := by
  have hrow : ∀ r ∈ s.db.jobs, r.jobType = .retentionSweep →
      r.status.terminal = true ∧ r.scheduledAt + sweepInterval app ≤ now := by
    intro r hr htype
    have hnot : ¬ hasRecentRetention app.config.retentionSweepIntervalHours now r = true := by
      intro hp
      rw [Table.any_eq_true.mpr ⟨r, hr, hp⟩] at h
      cases h
    simpa [hasRecentRetention, htype, sweepInterval] using hnot
  refine ⟨fun r hr htype => (hrow r hr htype).1, fun x hx => ?_⟩
  have hspaced := hi.spaced
  have hnewest := hi.newest
  cases hsweeps : s.history.sweeps with
  | nil =>
      rw [hsweeps] at hx
      cases hx
  | cons y rest =>
      rw [hsweeps] at hx hspaced hnewest
      obtain ⟨r, hr, -, htype, hdated⟩ := hnewest y rfl
      have hy : y.2 + sweepInterval app ≤ now :=
        (Nat.add_le_add_right hdated.scheduled _).trans (hrow r hr htype).2
      rcases List.mem_cons.mp hx with rfl | hx
      · exact hy
      · calc x.2 + sweepInterval app ≤ y.2 := (List.pairwise_cons.mp hspaced).1 x hx
          _ ≤ y.2 + sweepInterval app := Nat.le_add_right _ _
          _ ≤ now := hy

/-- A scheduler that finds nothing has looked last where the way is clear. -/
theorem lookForRetention_due :
    (cadenceContract app).Triple i (fun _ => True)
      (lookForRetention app.config.retentionSweepIntervalHours)
      (onOk fun found s => found = false → Due app i s) := by
  refine sql_triple cadenceContract_tolerant.toPatient stable_const (fun found => ?_)
    fun s e hi _ ha _ => ?_
  · exact fun s s' k l e hi h hk hg hfound => due_stable s s' k l e hi (h hfound) hk hg
  · obtain ⟨hpid, -⟩ := not_issued_of_admissible ha.1
    refine ⟨⟨⟨.quiet ⟨rfl, rfl, rfl, rfl, rfl, rfl⟩, fenced_of_quiet⟩, ?_⟩, fun hfound t ht => ?_⟩
    · refine ⟨.inr (by rw [hpid]), fun tenantId hl => ?_, fun x _ r hr hid hdated => ?_⟩
      · cases hl
      · exact ⟨r, hr, hid, hdated⟩
    · obtain rfl := (Prod.ext_iff.mp (Option.some.inj ht)).2
      exact ⟨(hi.clear hfound).ended, (hi.clear hfound).past⟩

/-- The insertion of a job; of a retention sweep, where the way is clear. -/
theorem insert_guar {s : AppState} {e : Env} {job : BackgroundJobRecord}
    {jobs : Table BackgroundJobRecord BackgroundJobRecord.id} (hu : Unused i job.id s)
    (hnew : NewJob app job) (hdue : job.jobType = .retentionSweep → Due app i s)
    (hlooked : LookedBy i job.scheduledAt s)
    (hone : OneScheduler i (.insertJob job.jobType job.tenantId) e s) (hf : e.fault ≠ .failed)
    (hins : s.db.jobs.insert job = some jobs) :
    (cadenceContract app).guar i (.insertJob job.jobType job.tenantId) e s
      { s with db.jobs := jobs, history := noteJob e job s.history } := by
  obtain ⟨hc, hr, ho, hn, hs, hk⟩ := noteJob_eq e job s.history
  have hmem := (Table.insert_eq_some hins).2
  refine ⟨⟨.create hu hnew hmem hc hr ho hn hf hs, fenced_of_insertJob⟩, .inl hk,
    fun tenantId hl _ => ?_, fun x _ r hr hid hdated => ⟨r, (hmem r).mpr (.inl hr), hid, hdated⟩⟩
  have htype : job.jobType = .retentionSweep := by
    injection hl
  simp only [OneScheduler, htype, Option.map_eq_some_iff] at hone
  obtain ⟨⟨k, t⟩, hlast, rfl⟩ := hone
  refine ⟨t, hlast, hdue htype t hlast, fun x hx => ?_⟩
  rw [show (noteJob e job s.history).sweeps = x :: s.history.sweeps from hx, withSweep,
    if_pos htype, List.cons.injEq] at hs
  rw [hs.1]
  exact hlooked t hlast

/-- A job is created; a retention sweep, where the way is clear. -/
theorem createJob_cadence {tenantId : Option Uuid} {jobType : JobType} {payload : JobPayload} :
    (cadenceContract app).Triple i (fun s => jobType = .retentionSweep → Due app i s)
      (createJob tenantId jobType payload app.config.maxJobAttempts) fun _ _ => True := by
  have hdue : (cadenceContract app).Stable i fun s => jobType = .retentionSweep → Due app i s :=
    fun s s' k l e hi h hk hg htype => due_stable s s' k l e hi (h htype) hk hg
  have hready : ∀ id, (cadenceContract app).Stable i fun s =>
      Unused i id s ∧ (jobType = .retentionSweep → Due app i s) := fun id =>
    (stable_of_jobs unused_stable).and hdue
  refine Triple.bind (Q := onOk fun id s =>
    Unused i id s ∧ (jobType = .retentionSweep → Due app i s)) ?_ (fun id => ?_) fun _ _ _ _ => trivial
  · refine Triple.atomic hdue (stable_onOk hready) fun s e hi hs _ ha => ?_
    obtain ⟨rfl, hf⟩ := not_issued_of_admissible ha.1
    exact ⟨cadenceContract_tolerant.issue _ e s hi ha, hi.jobs.unused hf, fun htype t ht =>
      ⟨(hs htype t ht).ended, (hs htype t ht).past⟩⟩
  refine Triple.bind (Q := onOk fun now s =>
    (Unused i id s ∧ (jobType = .retentionSweep → Due app i s)) ∧ LookedBy i now s) ?_ (fun now => ?_)
    fun _ _ _ _ => trivial
  · refine utcNow_reads cadenceContract_tolerant.toPatient (hready id)
      (fun now => (hready id).and lookedBy_stable) fun s e hi hs ha => ⟨hs, fun t ht => ?_⟩
    exact ha.2.2.2.looked _ (List.mem_of_mem_head? ht)
  refine sql_from cadenceContract_tolerant.toPatient
    (P := fun s => (Unused i id s ∧ (jobType = .retentionSweep → Due app i s)) ∧ LookedBy i now s)
    ((hready id).and lookedBy_stable) fun s e hi hs ha hf => ?_
  obtain ⟨⟨hu, hdue⟩, hlooked⟩ := hs
  dsimp only
  split
  · rename_i jobs hins
    have hcreate : ∀ job : BackgroundJobRecord, job.id = id → job.jobType = jobType →
        job.tenantId = tenantId → job.scheduledAt = now → NewJob app job →
        s.db.jobs.insert job = some jobs →
        (cadenceContract app).guar i (.insertJob job.jobType job.tenantId) e s
          { s with db.jobs := jobs, history := noteJob e job s.history } := by
      rintro job rfl rfl rfl rfl hnew hins
      exact insert_guar hu hnew hdue hlooked ha.2.2.1 hf hins
    exact hcreate _ rfl rfl rfl rfl ⟨rfl, rfl, rfl, rfl, rfl⟩ hins
  · rename_i hnone
    obtain ⟨r, hr, hid⟩ := Table.insert_eq_none hnone
    exact absurd hid (hu.no_job r hr)

theorem ensureRetentionJob_cadence :
    (cadenceContract app).Safe i (ensureRetentionJob app.config.retentionSweepIntervalHours
      app.config.maxJobAttempts) := by
  refine Triple.bind lookForRetention_due (fun found => ?_) fun _ _ _ _ => trivial
  cases found with
  | true => exact Triple.pre Safe.done fun _ _ _ => trivial
  | false =>
      refine (Triple.bind createJob_cadence (fun _ => Safe.done) fun _ _ _ _ => trivial).pre ?_
      exact fun s _ h _ => h rfl

theorem createOther_cadence {tenantId : Option Uuid} {jobType : JobType} {payload : JobPayload}
    (h : jobType ≠ .retentionSweep) : (cadenceContract app).Safe i
      (createJob tenantId jobType payload app.config.maxJobAttempts) :=
  createJob_cadence.pre fun _ _ _ htype => absurd htype h

/-! ### Workers -/

/-- Where an action updates the rows, the row of the newest sweep is updated to one whose times are
late enough. -/
theorem Sweeping.of_update {l : Event} {e : Env} {s s' : AppState} {p : BackgroundJobRecord → Bool}
    (f : BackgroundJobRecord → BackgroundJobRecord) (hf : Table.KeepsKey BackgroundJobRecord.id f)
    (hl : ∀ jobType tenantId, l ≠ .insertJob jobType tenantId)
    (hj : s'.db.jobs = s.db.jobs.update p f hf) (hk : s'.history.looked = s.history.looked)
    (hdated : ∀ x ∈ s.history.sweeps.head?, ∀ r ∈ s.db.jobs, r.id = x.1 → DatedFrom x.2 r →
      p r = true → DatedFrom x.2 (f r)) : Sweeping app i l e s s' := by
  refine ⟨.inl hk, fun tenantId hins => absurd hins (hl _ _), fun x hx r hr hid hd => ?_⟩
  rw [hj]
  cases hp : p r with
  | false => exact ⟨r, Table.mem_update_of_false hr hp hf, hid, hd⟩
  | true =>
      refine ⟨f r, Table.mem_update.mpr ⟨r, hr, by rw [if_pos hp]⟩, ?_, hdated x hx r hr hid hd hp⟩
      exact (hf.key_eq r).trans hid

theorem requeueStaleJobs_cadence {lease : Nat} :
    (cadenceContract app).Safe i (requeueStaleJobs lease) := by
  refine .bind (utcNow_safe cadenceContract_tolerant.toPatient) fun now =>
    sql_safe cadenceContract_tolerant.toPatient fun s e _ ha _ => ?_
  refine ⟨⟨.requeue, fenced_of_quiet⟩,
    .of_update (requeued e.now) ⟨fun _ => rfl⟩ (fun _ _ h => ?_) rfl rfl ?_⟩
  · cases h
  · intro x hx r hr hid hd hst
    simp only [isStale, Bool.and_eq_true, decide_eq_true_eq] at hst
    obtain ⟨st, hstarted, hle⟩ := hd.started hst.1
    have hnow := ha.2.2.2.started x (List.mem_of_mem_head? hx) r hr hid st hstarted
    exact ⟨hle.trans hnow, fun hrun => absurd hrun requeued_not_running⟩

/-- A claim starts the row no earlier than it is scheduled. -/
theorem markJobRunning_cadence {jobId : Uuid} :
    (cadenceContract app).Triple i (fun _ => True) (markJobRunning jobId)
      (onOk fun o s => ∀ job, o = some job → Claimed True i job s) := by
  refine sql_refine cadenceContract_tolerant.toPatient
    (@markJobRunning_claimed app True i jobId) (fun _ hi => hi.jobs)
    (fun e s ha => ⟨ha.1, fun _ row n hw => by cases hw.1⟩) stable_const (fun o => ?_)
    fun s e _ _ _ hg => ⟨⟨⟨hg.1, hg.2 trivial⟩, ?_⟩, id⟩
  · exact fun s s' k l e hi h hk hg job hj =>
      stable_of_jobs claimed_stable s s' k l e hi (h job hj) hk hg
  · dsimp only
    split
    · exact .of_jobs (.inr rfl) rfl rfl
    · refine .of_update (claimed e.now) ⟨fun _ => rfl⟩ (fun _ _ h => ?_) rfl rfl ?_
      · cases h
      · intro x _ r _ _ hd hp
        simp only [isClaimable, Bool.and_eq_true, decide_eq_true_eq] at hp
        exact ⟨hd.scheduled, fun _ => ⟨e.now, rfl, hd.scheduled.trans hp.2⟩⟩

/-- The call has lost no claim, so it is still running the row that it has claimed. -/
theorem Claimed.running {job : BackgroundJobRecord} {l : Event} {e : Env} {s : AppState}
    (h : Claimed True i job s) (hl : InLease i l e s) :
    ∃ r ∈ s.db.jobs, r.id = job.id ∧ r.status = .running := by
  rcases h.held trivial with hrec | ⟨r, hr, hid, hrun, -⟩
  · exact absurd hrec (hl _ h.claim rfl)
  · exact ⟨r, hr, hid, hrun⟩

/-- The call has lost no claim, so an outcome that it writes is fenced. -/
theorem Claimed.fenced {job : BackgroundJobRecord} {e : Env} {s : AppState}
    (h : Claimed True i job s) (hl : InLease i (.outcome job.id job.attempts) e s) :
    Fenced i (.outcome job.id job.attempts) e s := by
  refine fenced_of_claimed h (fun _ row n hw => ?_) trivial
  obtain ⟨hid, rfl⟩ := Event.outcome.inj hw.1
  rw [← hid]
  exact hl _ h.claim rfl

theorem completeJob_cadence {job : BackgroundJobRecord} {result : Value} :
    (cadenceContract app).Triple i (Claimed True i job)
      (completeJob job.id job.attempts result) fun _ _ => True := by
  refine sql_from cadenceContract_tolerant.toPatient (stable_of_jobs claimed_stable)
    fun s e _ hc ha hfault => ?_
  refine ⟨⟨.outcome hfault hc.claim hc.no_outcome hc.maxAttempts (.complete result),
    hc.fenced ha.2.1⟩, .of_update (completed e.now result) ⟨fun _ => rfl⟩ (fun _ _ h => ?_) rfl rfl ?_⟩
  · cases h
  · intro x _ r _ _ hd _
    exact ⟨hd.scheduled, fun hrun => by cases hrun⟩

/-- The newest sweep, if it is the job, was created by `now`. -/
def CreatedBy (job : BackgroundJobRecord) (now : Time) (s : AppState) : Prop :=
  ∀ x ∈ s.history.sweeps.head?, x.1 = job.id → x.2 ≤ now

theorem createdBy_stable {job : BackgroundJobRecord} {now : Time} :
    (cadenceContract app).Stable i fun s => Claimed True i job s ∧ CreatedBy job now s := by
  rintro s s' k l e hi ⟨hc, hs⟩ hk hg
  refine ⟨stable_of_jobs claimed_stable s s' k l e hi hc hk hg, fun x hx hid => ?_⟩
  rcases hg.1.1.sweeps_of with hsame | ⟨new, -, hu, -, -, -, -, -, hcons⟩
  · rw [hsame] at hx
    exact hs x hx hid
  · rw [hcons] at hx
    obtain rfl := Option.some.inj hx
    exact absurd (hid ▸ hc.claim) (hu.no_claim _ _)

/-- A retry is scheduled no earlier than the claim started. -/
theorem failJob_cadence {job : BackgroundJobRecord} {message : String} :
    (cadenceContract app).Triple i (Claimed True i job) (failJob job message) fun _ _ => True := by
  refine Triple.bind (Q := onOk fun now s => Claimed True i job s ∧ CreatedBy job now s) ?_
    (fun now => ?_) fun _ _ _ _ => trivial
  · refine utcNow_reads cadenceContract_tolerant.toPatient (stable_of_jobs claimed_stable)
      (fun now => createdBy_stable) fun s e hi hc ha => ⟨hc, fun x hx hid => ?_⟩
    obtain ⟨r, hr, hidr, hrun⟩ := hc.running ha.2.1
    obtain ⟨r₀, h₀, hid₀, -, hd⟩ := hi.newest x hx
    obtain rfl := Table.eq_of_key hr h₀ (hidr.trans (hid.symm.trans hid₀.symm))
    obtain ⟨st, hst, hle⟩ := hd.started hrun
    exact hle.trans (ha.2.2.2.started x (List.mem_of_mem_head? hx) r hr hid₀ st hst)
  · refine sql_from cadenceContract_tolerant.toPatient
      (P := fun s => Claimed True i job s ∧ CreatedBy job now s) createdBy_stable
      fun s e _ hc ha hfault => ?_
    refine ⟨⟨.outcome hfault hc.1.claim hc.1.no_outcome hc.1.maxAttempts (.fail _ message),
      hc.1.fenced ha.2.1⟩, .of_update (failed e.now _ _ message) ⟨fun _ => rfl⟩ (fun _ _ h => ?_) rfl rfl ?_⟩
    · cases h
    · intro x hx r _ hid _ hjob
      refine ⟨?_, fun hrun => absurd hrun (@OutcomeOf.fail e.now _ _ message).not_running⟩
      have hnow := hc.2 x hx (hid.symm.trans (of_decide_eq_true hjob))
      simp only [failed]
      split
      · exact hnow
      · exact hnow.trans (Nat.le_add_right _ _)

/-! ### The work of a sweep -/

/-- The contract for the work of a job: it keeps the running jobs besides. -/
abbrev cadenceWork (app : App) (i : Nat) : Contract Event Env AppState :=
  (cadenceContract app).within i JobsKept

theorem cadenceWork_tolerant : TolerantOfWork (cadenceWork app i) := cadenceContract_tolerant.kept

theorem claimed_lasting_work {job : BackgroundJobRecord} :
    (cadenceWork app i).Lasting (Claimed True i job) :=
  lasting_within (stable_of_jobs claimed_stable) fun _ _ _ _ _ h _ hk => h.kept hk

/-- The sweep that purges is running, so it is the newest one, and stays. -/
theorem purgeTerminalJobs_cadence {job : BackgroundJobRecord} (htype : job.jobType = .retentionSweep) :
    (cadenceWork app i).Triple i (Claimed True i job)
      (purgeTerminalJobs app.config.jobRetentionDays) fun _ _ => True := by
  refine sql_from cadenceWork_tolerant.toPatient (claimed_lasting_work.stable i)
    fun s e hi hc ha _ => ?_
  refine ⟨⟨⟨.purge, fenced_of_quiet⟩, .inl rfl, fun tenantId hl => ?_, fun x hx r hr hid hd => ?_⟩,
    fun _ => kept_of_purge⟩
  · cases hl
  · obtain ⟨r', hr', hid', hrun⟩ := hc.running ha.2.1
    have hnewest : r'.id = x.1 := hi.ended x hx r' hr' ((hc.jobType r' hr' hid').trans htype)
      (by rw [hrun]; rfl)
    obtain rfl := Table.eq_of_key hr' hr (hnewest.trans hid.symm)
    exact ⟨r', (kept_of_purge (l := .quiet) (e := e)).running r' hr' hrun, hid, hd⟩

theorem runJob_cadence {rounds : Nat} {job : BackgroundJobRecord} :
    (cadenceWork app i).Triple i (Claimed True i job) (runJob app rounds job) fun _ _ => True := by
  unfold runJob
  cases htype : job.jobType with
  | taskExport =>
      cases job.payload with
      | taskExport =>
          exact Triple.pre (processExportJob_safe cadenceWork_tolerant.lenient.discreet) fun _ _ _ => trivial
      | dueReminder => exact Triple.pre Safe.fail fun _ _ _ => trivial
      | empty => exact Triple.pre Safe.fail fun _ _ _ => trivial
  | dueReminderSweep =>
      exact Triple.pre (processDueReminderJob_safe cadenceWork_tolerant) fun _ _ _ => trivial
  | retentionSweep =>
      refine (purgeTokens_keepsJobs cadenceWork_tolerant).carry_bind claimed_lasting_work fun _ => ?_
      exact Triple.bind (purgeTerminalJobs_cadence htype)
        (fun _ => afterJobPurge_safe cadenceWork_tolerant) fun _ _ _ _ => trivial

theorem processJob_cadence {rounds : Nat} {jobId : Uuid} :
    (cadenceContract app).Safe i (processJob app rounds jobId) := by
  refine processJob_of markJobRunning_cadence (fun job => ?_) (fun _ _ => completeJob_cadence)
    fun _ _ => failJob_cadence
  have hwork : (cadenceWork app i).Triple i (Claimed True i job)
      (runJob app rounds job).attempt (onOk fun _ _ => True) := runJob_cadence.attempt
  refine Triple.of_within ((hwork.keep claimed_lasting_work).conseq (fun _ _ h => ⟨h, h⟩) ?_)
  intro r s _ h
  cases r with
  | ok _ => exact h.2
  | error _ => trivial

theorem jobCall_cadence (k : JobCall) :
    (cadenceContract app).Safe i ((jobSystem app).body k) :=
  jobCall_of cadenceContract_tolerant (fun _ _ => createOther_cadence (by decide))
    (fun _ => ensureDueReminderJob_of cadenceContract_tolerant.toPatient fun _ =>
      createOther_cadence (by decide))
    ensureRetentionJob_cadence (fun _ => requeueStaleJobs_cadence) (fun _ _ => processJob_cadence) k

/-! ### The clock -/

/-- A row has started when it had started before, or starts now. -/
theorem JobAction.started_of {l : Event} {e : Env} {s s' : AppState}
    (h : JobAction app i l e s s') {r : BackgroundJobRecord} (hr : r ∈ s'.db.jobs) {st : Time}
    (hst : r.startedAt = some st) :
    (∃ r₀ ∈ s.db.jobs, r₀.id = r.id ∧ r₀.startedAt = some st) ∨ st = e.now := by
  cases h with
  | idle => exact .inl ⟨r, hr, rfl, hst⟩
  | quiet h => exact .inl ⟨r, h.jobs ▸ hr, rfl, hst⟩
  | issue => exact .inl ⟨r, hr, rfl, hst⟩
  | create _ hnew hj =>
      rcases (hj r).mp hr with h | rfl
      · exact .inl ⟨r, h, rfl, hst⟩
      · rw [hnew.startedAt] at hst
        cases hst
  | claim hm _ hp =>
      rcases mem_update_claimed hm hp hr with rfl | ⟨h, -⟩
      · exact .inr (Option.some.inj hst).symm
      · exact .inl ⟨r, h, rfl, hst⟩
  | requeue =>
      simp only [Table.mem_update] at hr
      obtain ⟨r₀, h₀, rfl⟩ := hr
      refine .inl ⟨r₀, h₀, ?_⟩
      split at hst
      · rename_i hstale
        rw [if_pos hstale]
        exact ⟨rfl, hst⟩
      · rename_i hstale
        rw [if_neg hstale]
        exact ⟨rfl, hst⟩
  | outcome _ _ _ _ ho =>
      simp only [Table.mem_update] at hr
      obtain ⟨r₀, h₀, rfl⟩ := hr
      refine .inl ⟨r₀, h₀, ?_⟩
      split at hst
      · rename_i hid
        rw [if_pos hid]
        exact ⟨ho.id_eq.symm, by rw [← ho.startedAt_eq]; exact hst⟩
      · rename_i hid
        rw [if_neg hid]
        exact ⟨rfl, hst⟩
  | purge => exact .inl ⟨r, (Table.mem_delete.mp hr).1, rfl, hst⟩

/-- What is recorded at a time that is not after `t` is no later than `t`. -/
theorem RecordedBy.step {l : Event} {e : Env} {s s' : AppState} {t : Time} (hr : RecordedBy t s)
    (h : JobAction app i l e s s') (hs : Sweeping app i l e s s') (ht : e.now ≤ t) :
    RecordedBy t s' := by
  refine ⟨fun x hx => ?_, fun x hx r hm hid st hst => ?_⟩
  · rcases hs.looked with hsame | hcons
    · exact hr.looked x (hsame ▸ hx)
    · rw [hcons] at hx
      rcases List.mem_cons.mp hx with rfl | hx
      · exact ht
      · exact hr.looked x hx
  · rcases h.started_of hm hst with ⟨r₀, h₀, hid₀, hst₀⟩ | rfl
    · have hx' : x ∈ s.history.sweeps := by
        rcases h.sweeps_of with hsame | ⟨job, -, hu, -, -, -, -, -, hcons⟩
        · exact hsame ▸ hx
        · rw [hcons] at hx
          rcases List.mem_cons.mp hx with rfl | hx
          · exact absurd (hid₀.trans hid) (hu.no_job r₀ h₀)
          · exact hx
      exact hr.started x hx' r₀ h₀ (hid₀.trans hid) st hst₀
    · exact ht

/-! ### Runs -/

/-- The history of a run starts here: no sweep has been created and no scheduler has looked. -/
structure CadenceStart (s : AppState) : Prop extends JobStart s where
  looked : s.history.looked = []
  sweeps : s.history.sweeps = []

theorem CadenceStart.cadenceInv {s : AppState} (h : CadenceStart s) : CadenceInv app s where
  jobs := h.inv
  spaced := by
    rw [h.sweeps]
    exact .nil
  newest _ hx := by simp [h.sweeps] at hx
  ended _ hx := by simp [h.sweeps] at hx

/-- What is known in the middle of a run: its remaining moves meet the conditions, at times that are
not before what has been recorded. -/
structure CadenceRemaining (app : App) (ms : List (Move Env JobCall))
    (d : Config Event Env AppState AppError JobCall Unit) : Prop where
  keeps : Keeps (cadenceContract app) (fun _ _ _ _ => True) d
  recorded : ∀ t ∈ times ms, RecordedBy t d.st
  clock : Chronological ms
  conditions : (jobSystem app).Along (fun d m => d.Meets InLease m ∧ d.Meets OneScheduler m) d ms

theorem CadenceRemaining.step {m : Move Env JobCall} {ms : List (Move Env JobCall)}
    {d d' : Config Event Env AppState AppError JobCall Unit}
    (h : CadenceRemaining app (m :: ms) d) (hd : (jobSystem app).step d m = some d') :
    CadenceRemaining app ms d' := by
  have hcond : ∀ i l e s, admissible i l e s = true →
      (InLease i l e s ∧ OneScheduler i l e s ∧ RecordedBy e.now s) →
      (cadenceContract app).adm i l e s := fun _ _ _ _ ha hc => ⟨ha, hc⟩
  have hmeets : d.Meets (fun i l e s => InLease i l e s ∧ OneScheduler i l e s ∧
      RecordedBy e.now s) m := by
    rintro i e rfl l hl
    exact ⟨h.conditions.1.1 i e rfl l hl, h.conditions.1.2 i e rfl l hl,
      h.recorded e.now List.mem_cons_self⟩
  refine ⟨keeps_step (fun _ k => jobCall_cadence k) hcond h.keeps hmeets hd, ?_, h.clock.tail,
    h.conditions.2 d' hd⟩
  cases m with
  | call k =>
      obtain rfl := System.step_call hd
      exact h.recorded
  | exec i e =>
      obtain ⟨l, hl, -⟩ := label_of_step hd
      have hg := h.keeps.guar_of_meets hcond hmeets hd hl
      intro t ht
      exact (h.recorded t (List.mem_cons_of_mem _ ht)).step hg.1.1 hg.2 (h.clock.le t ht)

/-- In a run with one scheduler and one clock, in which no execution outlives its lease, any two
retention sweeps are created at least the configured interval apart. -/
theorem retention_cadence {s : AppState} (hs : CadenceStart s) {ms : List (Move Env JobCall)}
    {c : Config Event Env AppState AppError JobCall Unit}
    (h : (jobSystem app).exec (.start s) ms = some c) (hclock : Chronological ms)
    (hlease : (jobSystem app).Along (fun d m => d.Meets InLease m) (.start s) ms)
    (hone : (jobSystem app).Along (fun d m => d.Meets OneScheduler m) (.start s) ms) :
    c.st.history.sweeps.Pairwise fun new old => old.2 + sweepInterval app ≤ new.2 := by
  have hstart : CadenceRemaining app ms (.start s) := by
    refine ⟨keeps_start hs.cadenceInv, fun t _ => ⟨fun x hx => ?_, fun x hx => ?_⟩, hclock,
      hlease.and hone⟩
    · simp [Config.start, hs.looked] at hx
    · simp [Config.start, hs.sweeps] at hx
  have hend := System.exec_remaining (I := CadenceRemaining app)
    (fun m ms d d' hI hd => hI.step hd) hstart h
  exact hend.keeps.1.spaced

/-- Sweeps are 60 days apart, and jobs are kept for 30. -/
def slowSweeps : App :=
  { (default : App) with
    config := { (default : Cli) with retentionSweepIntervalHours := 60 * 24 } }

/-- The next `n` statements of call `i`, at the time given in seconds; what they generate is numbered
from `first`. -/
def sweepStatements (i n second first : Nat) : List (Move Env JobCall) :=
  (List.range n).map fun k =>
    .exec i { (default : Env) with pid := i, now := seconds second, uuid := first + k }

/-- A sweep is created and run; the scheduler finds it after a day, and creates another after 60 days
and a second; that sweep deletes the row of the first one. -/
def slowRun : List (Move Env JobCall) :=
  .call .enqueueRetentionSweep :: sweepStatements 0 5 1 0 ++
  .call (.processJob 0 1) :: sweepStatements 1 8 2 10 ++
  .call .enqueueRetentionSweep :: sweepStatements 2 1 (24 * 3600) 20 ++
  .call .enqueueRetentionSweep :: sweepStatements 3 5 (60 * 24 * 3600 + 1) 30 ++
  .call (.processJob 0 31) :: sweepStatements 4 8 (60 * 24 * 3600 + 2) 40

/-- The two sweeps of that run are 60 days apart. -/
theorem retention_cadence_slowRun :
    ∃ c, (jobSystem slowSweeps).exec (.start default) slowRun = some c ∧
      c.st.history.sweeps.length = 2 ∧ c.st.db.jobs.rows.map (·.id) = [31] ∧
      c.st.history.sweeps.Pairwise fun new old => old.2 + sweepInterval slowSweeps ≤ new.2 := by
  have hrun : ((jobSystem slowSweeps).exec (.start default) slowRun).map (fun c =>
      (c.st.history.sweeps.length, c.st.db.jobs.rows.map (·.id))) = some (2, [31]) := by
    decide +kernel
  obtain ⟨c, hc, hends⟩ := Option.map_eq_some_iff.mp hrun
  obtain ⟨htwo, hrows⟩ := Prod.ext_iff.mp hends
  exact ⟨c, hc, htwo, hrows, retention_cadence ⟨default_jobStart, rfl, rfl⟩ hc (by decide +kernel)
    (by decide +kernel) (by decide +kernel)⟩

end Fluxa
