import Fluxa.Jobs.Fencing

/-!
# Jobs — one pending sweep

A scheduler looks for a pending sweep and inserts another one when it finds none.  Nothing holds the two statements together.

**`one_pending_sweep`**: there is never more than one pending sweep of a scope in a run in which no call makes a sweep pending — by an insertion, or by a late outcome that puts an ended one back into the queue — when, since its first statement, another call has made one pending.  That first statement is the scheduler's look, or the worker's claim: one finds no pending sweep, the other finds the only one, and until another becomes pending that remains so.

**`two_schedulers_two_sweeps`** is a run of two schedulers that both look before either inserts.
-/

namespace Fluxa
open Interleave Relational Db Contract Jobs

variable {app : App} {i : Nat}

/-- A job of the type and tenant is a sweep of the scope: reminder sweeps have a tenant, or all of
them, as their scope. -/
def inScope (jobType : JobType) (tenantId : Option Uuid) (type : JobType) (tenant : Option Uuid) :
    Bool :=
  type = jobType && (jobType = .retentionSweep || tenant = tenantId)

/-- The job is queued or running, and is a sweep of the scope. -/
def pendingSweep (jobType : JobType) (tenantId : Option Uuid) (j : BackgroundJobRecord) : Bool :=
  !j.status.terminal && inScope jobType tenantId j.jobType j.tenantId

/-- At most one sweep of the scope is queued or running. -/
def OnePending (jobType : JobType) (tenantId : Option Uuid) (s : AppState) : Prop :=
  ∀ a ∈ s.db.jobs, ∀ b ∈ s.db.jobs,
    pendingSweep jobType tenantId a = true → pendingSweep jobType tenantId b = true → a = b

/-- No sweep of the scope is queued or running. -/
def NonePending (jobType : JobType) (tenantId : Option Uuid) (s : AppState) : Prop :=
  ∀ r ∈ s.db.jobs, pendingSweep jobType tenantId r = false

/-- A sweep of the scope is pending afterwards that was not pending before. -/
def becomesPending (jobType : JobType) (tenantId : Option Uuid) (s s' : AppState) : Bool :=
  s'.db.jobs.any fun r => pendingSweep jobType tenantId r &&
    !s.db.jobs.any fun r₀ => r₀.id = r.id && pendingSweep jobType tenantId r₀

/-- A call that makes a sweep of the scope pending relies on its first statement, a scheduler's
look or a worker's claim, and disturbs the others. -/
def sweepWatch (jobType : JobType) (tenantId : Option Uuid) : Watch AppState where
  looks n := n = 1
  disturbs := becomesPending jobType tenantId
  relies := becomesPending jobType tenantId

/-! ### Pending rows -/

section Steps

variable {jobType : JobType} {tenantId : Option Uuid} {s s' : AppState} {l : Event} {e : Env}

theorem becomesPending_eq_false : becomesPending jobType tenantId s s' = false ↔
    ∀ r ∈ s'.db.jobs, pendingSweep jobType tenantId r = true →
      ∃ r₀ ∈ s.db.jobs, r₀.id = r.id ∧ pendingSweep jobType tenantId r₀ = true := by
  simp only [becomesPending, ← Bool.not_eq_true, Table.any_eq_true, Bool.and_eq_true,
    Bool.not_eq_true', not_exists, not_and, decide_eq_true_eq, not_forall, not_not, exists_prop]

theorem OnePending.of_not_becomes (hs : OnePending jobType tenantId s)
    (h : becomesPending jobType tenantId s s' = false) : OnePending jobType tenantId s' := by
  rw [becomesPending_eq_false] at h
  intro a ha b hb hpa hpb
  obtain ⟨a₀, ha₀, hida, hpa₀⟩ := h a ha hpa
  obtain ⟨b₀, hb₀, hidb, hpb₀⟩ := h b hb hpb
  have hab := hs a₀ ha₀ b₀ hb₀ hpa₀ hpb₀
  exact Table.eq_of_key ha hb (by rw [← hida, ← hidb, hab])

theorem NonePending.of_not_becomes (hs : NonePending jobType tenantId s)
    (h : becomesPending jobType tenantId s s' = false) : NonePending jobType tenantId s' := by
  intro r hr
  rw [← Bool.not_eq_true]
  intro hp
  obtain ⟨r₀, h₀, -, hp₀⟩ := becomesPending_eq_false.mp h r hr hp
  rw [hs r₀ h₀] at hp₀
  cases hp₀

theorem not_becomes_of_subset (h : ∀ r ∈ s'.db.jobs, r ∈ s.db.jobs) :
    becomesPending jobType tenantId s s' = false :=
  becomesPending_eq_false.mpr fun r hr hp => ⟨r, h r hr, rfl, hp⟩

theorem not_becomes_of_jobs (h : s'.db.jobs = s.db.jobs) :
    becomesPending jobType tenantId s s' = false :=
  not_becomes_of_subset fun _ hr => h ▸ hr

/-- A statement that neither inserts a job nor writes an outcome makes none pending. -/
theorem JobAction.not_becomes (h : JobAction app i .quiet e s s') :
    becomesPending jobType tenantId s s' = false := by
  refine becomesPending_eq_false.mpr fun r hr hp => ?_
  simp only [pendingSweep, Bool.and_eq_true, Bool.not_eq_true'] at hp ⊢
  rcases h.pending_of fenced_of_quiet hr hp.1 with ⟨r₀, h₀, hid, htype, htenant, hp₀⟩ | ⟨hl, -⟩
  · exact ⟨r₀, h₀, hid, hp₀, by rw [htype, htenant]; exact hp.2⟩
  · cases hl

/-- An insertion leaves one pending sweep if none of its scope was pending. -/
theorem JobAction.onePending_insert {type : JobType} {tenant : Option Uuid}
    (h : JobAction app i (.insertJob type tenant) e s s') (hs : OnePending jobType tenantId s)
    (hnone : inScope jobType tenantId type tenant = true → NonePending jobType tenantId s) :
    OnePending jobType tenantId s' := by
  cases h with
  | idle => exact hs
  | @create _ _ _ job _ _ hj =>
      -- If the new row is pending in the scope, no other row is.
      have hother : ∀ r ∈ s.db.jobs, pendingSweep jobType tenantId job = true →
          pendingSweep jobType tenantId r = true → r = job := by
        intro r hr hpjob hp
        simp only [pendingSweep, Bool.and_eq_true] at hpjob
        rw [hnone hpjob.2 r hr] at hp
        cases hp
      intro a ha b hb hpa hpb
      rcases (hj a).mp ha with ha | rfl
      · rcases (hj b).mp hb with hb | rfl
        · exact hs a ha b hb hpa hpb
        · exact hother a ha hpb hpa
      · rcases (hj b).mp hb with hb | rfl
        · exact (hother b hb hpa hpb).symm
        · rfl

/-- The call has claimed the job, and if that is a sweep of the scope, no other one is pending. -/
structure Alone (jobType : JobType) (tenantId : Option Uuid) (i : Nat) (job : BackgroundJobRecord)
    (s : AppState) : Prop where
  claimed : Claimed False i job s
  only : inScope jobType tenantId job.jobType job.tenantId = true →
    ∀ r ∈ s.db.jobs, pendingSweep jobType tenantId r = true → r.id = job.id

theorem Alone.of_not_becomes {job : BackgroundJobRecord} (h : Alone jobType tenantId i job s)
    (hclaimed : Claimed False i job s') (hs : becomesPending jobType tenantId s s' = false) :
    Alone jobType tenantId i job s' := by
  refine ⟨hclaimed, fun hscope r hr hp => ?_⟩
  obtain ⟨r₀, h₀, hid, hp₀⟩ := becomesPending_eq_false.mp hs r hr hp
  exact hid.symm.trans (h.only hscope r₀ h₀ hp₀)

/-- The outcome of a job beside which no other sweep of its scope is pending leaves one pending. -/
theorem JobAction.onePending_outcome {job : BackgroundJobRecord}
    (h : JobAction app i (.outcome job.id job.attempts) e s s') (hs : OnePending jobType tenantId s)
    (hjob : Alone jobType tenantId i job s) : OnePending jobType tenantId s' := by
  generalize hl : Event.outcome job.id job.attempts = l at h
  cases h with
  | idle => exact hs
  | @outcome _ _ job' ok f hf _ _ _ _ ho =>
      obtain ⟨hid, -⟩ := Event.outcome.inj hl
      -- A pending row afterwards is the job's, which is in the scope, or was pending before.
      have hrow : ∀ r ∈ s.db.jobs.update (fun r => r.id = job'.id) f hf,
          pendingSweep jobType tenantId r = true →
          (r.id = job.id ∧ inScope jobType tenantId job.jobType job.tenantId = true) ∨
            r ∈ s.db.jobs := by
        intro r hr hp
        simp only [Table.mem_update, decide_eq_true_eq] at hr
        obtain ⟨r₀, h₀, rfl⟩ := hr
        split at hp
        · rename_i hr₀
          have hid₀ := hr₀.trans hid.symm
          simp only [pendingSweep, ho.jobType_eq, ho.tenantId_eq, Bool.and_eq_true] at hp
          rw [if_pos hr₀, ← hjob.claimed.jobType r₀ h₀ hid₀, ← hjob.claimed.tenantId r₀ h₀ hid₀]
          exact .inl ⟨ho.id_eq.trans hid₀, hp.2⟩
        · rename_i hr₀
          rw [if_neg hr₀]
          exact .inr h₀
      intro a ha b hb hpa hpb
      rcases hrow a ha hpa with ⟨hida, hscope⟩ | ha₀
      · rcases hrow b hb hpb with ⟨hidb, -⟩ | hb₀
        · exact Table.eq_of_key ha hb (hida.trans hidb.symm)
        · exact Table.eq_of_key ha hb (hida.trans (hjob.only hscope b hb₀ hpb).symm)
      · rcases hrow b hb hpb with ⟨hidb, hscope⟩ | hb₀
        · exact Table.eq_of_key ha hb ((hjob.only hscope a ha₀ hpa).trans hidb.symm)
        · exact hs a ha₀ b hb₀ hpa hpb
  | _ => cases hl

end Steps

/-! ### The contract -/

/-- The contract: at most one sweep of the scope is pending. -/
def sweepContract (app : App) (jobType : JobType) (tenantId : Option Uuid) :
    Contract Event Env AppState where
  inv s := JobInv s ∧ OnePending jobType tenantId s
  guar i l e s s' := (jobContract app False).guar i l e s s' ∧ OnePending jobType tenantId s'
  adm := (jobContract app False).adm
  guar_inv hi h := ⟨(jobContract app False).guar_inv hi.1 h.1, h.2⟩

/-- The contract as long as nobody makes a sweep of the scope pending but call `i`. -/
abbrev calmSweep (app : App) (jobType : JobType) (tenantId : Option Uuid) (i : Nat) :
    Contract Event Env AppState :=
  (sweepContract app jobType tenantId).calm (sweepWatch jobType tenantId) i

section Contract

variable {jobType : JobType} {tenantId : Option Uuid}

/-- A statement that makes no sweep pending keeps to the contract. -/
theorem calmSweep_guar {j : Nat} {l : Event} {e : Env} {s s' : AppState}
    (hs : OnePending jobType tenantId s) (h : (jobContract app False).guar j l e s s')
    (hb : becomesPending jobType tenantId s s' = false) :
    (calmSweep app jobType tenantId i).guar j l e s s' :=
  ⟨⟨h, hs.of_not_becomes hb⟩, fun _ => hb⟩

/-- So does a statement of call `i` after which one sweep is pending. -/
theorem calmSweep_own {l : Event} {e : Env} {s s' : AppState} (h : JobAction app i l e s s')
    (hs : OnePending jobType tenantId s') :
    (calmSweep app jobType tenantId i).guar i l e s s' :=
  ⟨⟨⟨h, False.elim⟩, hs⟩, fun hne => absurd rfl hne⟩

theorem calmSweep_tolerant : TolerantOfWork (calmSweep app jobType tenantId i) where
  stay j l e s hi hf := calmSweep_guar hi.2 (jobContract_tolerant.stay j l e s hi.1 hf)
    (not_becomes_of_jobs rfl)
  bystander j e s s' hi h := calmSweep_guar hi.2 (jobContract_tolerant.bystander j e s s' hi.1 h)
    (not_becomes_of_jobs h.jobs)
  issue j e s hi ha := calmSweep_guar hi.2 (jobContract_tolerant.issue j e s hi.1 ha)
    (not_becomes_of_jobs rfl)
  idle j e s s' hi h := calmSweep_guar hi.2 (jobContract_tolerantOfWork.idle j e s s' hi.1 h)
    (not_becomes_of_jobs h.jobs)

/-- What the calls keep is kept where nobody disturbs. -/
theorem stable_of_jobContract {P : AppState → Prop} (h : (jobContract app False).Stable i P) :
    (calmSweep app jobType tenantId i).Stable i P :=
  h.refine (fun _ hi => hi.1) fun _ _ _ _ _ hg => hg.1.1

theorem nonePending_stable :
    (calmSweep app jobType tenantId i).Stable i (NonePending jobType tenantId) :=
  stable_calm fun _ _ _ _ _ _ hs _ hb => hs.of_not_becomes hb

theorem alone_stable {job : BackgroundJobRecord} :
    (calmSweep app jobType tenantId i).Stable i (Alone jobType tenantId i job) :=
  fun s s' k l e hi hs hk hg => hs.of_not_becomes
    (stable_of_jobContract claimed_stable s s' k l e hi hs.claimed hk hg) (hg.2 hk)

/-! ### The schedulers -/

/-- A sweep may be created where none of its scope is pending. -/
theorem createJob_sweep {type : JobType} {tenant : Option Uuid} {payload : JobPayload} :
    (calmSweep app jobType tenantId i).Triple i
      (fun s => inScope jobType tenantId type tenant = true → NonePending jobType tenantId s)
      (createJob tenant type payload app.config.maxJobAttempts) fun _ _ => True :=
  createJob_from calmSweep_tolerant.toPatient (stable_imp nonePending_stable) (fun _ _ h => h)
    (fun _ hi => hi.1) (fun _ _ _ ha => ha.1) (fun _ => stable_of_jobContract unused_stable)
    fun _ _ _ hi hs _ h => calmSweep_own h (h.onePending_insert hi.2 hs)

/-- A look of a reminder scheduler that finds nothing. -/
theorem nonePending_of_reminder {s : AppState} {tenant : Option Uuid}
    (h : s.db.jobs.any (hasPendingReminder tenant) = false)
    (hscope : inScope jobType tenantId .dueReminderSweep tenant = true) :
    NonePending jobType tenantId s := by
  simp only [inScope, Bool.and_eq_true, Bool.or_eq_true, decide_eq_true_eq] at hscope
  obtain ⟨rfl, htenant⟩ := hscope
  obtain rfl := htenant.resolve_left (by decide)
  intro r hr
  rw [← Bool.not_eq_true]
  intro hp
  have hfound : hasPendingReminder tenant r = true := by
    simpa [pendingSweep, inScope, hasPendingReminder, and_comm, and_assoc] using hp
  rw [Table.any_eq_true.mpr ⟨r, hr, hfound⟩] at h
  cases h

/-- A look of a retention scheduler that finds nothing. -/
theorem nonePending_of_retention {s : AppState} {intervalHours : Nat} {now : Time}
    (h : s.db.jobs.any (hasRecentRetention intervalHours now) = false)
    (hscope : inScope jobType tenantId .retentionSweep none = true) :
    NonePending jobType tenantId s := by
  simp only [inScope, Bool.and_eq_true, decide_eq_true_eq] at hscope
  obtain ⟨rfl, -⟩ := hscope
  intro r hr
  rw [← Bool.not_eq_true]
  intro hp
  simp only [pendingSweep, inScope, Bool.and_eq_true, Bool.not_eq_true', decide_eq_true_eq] at hp
  have hfound : hasRecentRetention intervalHours now r = true := by
    simp [hasRecentRetention, hp.1, hp.2.1]
  rw [Table.any_eq_true.mpr ⟨r, hr, hfound⟩] at h
  cases h

/-- A look, and the creation of a sweep where it finds none. -/
theorem ensure_sweep {look : Service Bool} {type : JobType} {tenant : Option Uuid}
    {payload : JobPayload}
    (hlook : (calmSweep app jobType tenantId i).Triple i (fun _ => True) look (onOk fun found s =>
      found = false → inScope jobType tenantId type tenant = true → NonePending jobType tenantId s)) :
    (calmSweep app jobType tenantId i).Safe i (look.bind fun found =>
      if found then .done (.ok none) else
        (createJob tenant type payload app.config.maxJobAttempts).bind fun job =>
          .done (.ok (some job))) := by
  refine Triple.bind hlook (fun found => ?_) fun _ _ _ _ => trivial
  cases found with
  | true => exact Triple.pre Safe.done fun _ _ _ => trivial
  | false =>
      exact (Triple.bind createJob_sweep (fun _ => Safe.done) fun _ _ _ _ => trivial).pre
        fun _ _ h => h rfl

theorem ensureDueReminderJob_sweep {tenant : Option Uuid} :
    (calmSweep app jobType tenantId i).Safe i
      (ensureDueReminderJob tenant app.config.maxJobAttempts) :=
  ensure_sweep <| sql_triple calmSweep_tolerant.toPatient stable_const
    (fun _ => stable_imp (stable_imp nonePending_stable))
    fun s e hi _ _ _ => ⟨calmSweep_tolerant.same i e s hi, nonePending_of_reminder⟩

theorem ensureRetentionJob_sweep {intervalHours : Nat} :
    (calmSweep app jobType tenantId i).Safe i
      (ensureRetentionJob intervalHours app.config.maxJobAttempts) :=
  ensure_sweep <| sql_triple calmSweep_tolerant.toPatient stable_const
    (fun _ => stable_imp (stable_imp nonePending_stable))
    fun _ _ hi _ _ _ => ⟨calmSweep_guar hi.2
      ⟨.quiet ⟨rfl, rfl, rfl, rfl, rfl, rfl⟩, False.elim⟩ (not_becomes_of_jobs rfl),
      nonePending_of_retention⟩

/-! ### The workers -/

theorem requeueStaleJobs_sweep {lease : Nat} :
    (calmSweep app jobType tenantId i).Safe i (requeueStaleJobs lease) :=
  .bind (utcNow_safe calmSweep_tolerant.toPatient) fun _ =>
    sql_safe calmSweep_tolerant.toPatient fun _ _ hi _ _ =>
      have h := JobAction.requeue
      calmSweep_guar hi.2 ⟨h, False.elim⟩ h.not_becomes

/-- The claim finds the only pending sweep of its scope. -/
theorem markJobRunning_sweep {jobId : Uuid} :
    (calmSweep app jobType tenantId i).Triple i (fun _ => True) (markJobRunning jobId)
      (onOk fun o s => ∀ job, o = some job → Alone jobType tenantId i job s) := by
  refine sql_refine calmSweep_tolerant.toPatient (@markJobRunning_claimed app False i jobId)
    (fun _ hi => hi.1) (fun _ _ ha => ha) stable_const
    (fun _ => stable_forall fun _ => stable_imp alone_stable) fun s e hi _ _ hg =>
      ⟨calmSweep_guar hi.2 hg hg.1.not_becomes, ?_⟩
  have hkept : becomesPending jobType tenantId s _ = false := hg.1.not_becomes
  rcases ho : (s.db.jobs.find? jobId).filter (isClaimable jobId e.now) with _ | row
  · exact fun _ _ hjob => by cases hjob
  · obtain ⟨hfind, hp⟩ := Option.filter_eq_some_iff.mp ho
    obtain ⟨hm, -⟩ := Table.find?_eq_some.mp hfind
    simp only [isClaimable, Bool.and_eq_true, decide_eq_true_eq] at hp
    simp only [ho] at hkept
    intro hclaimed job hjob
    obtain rfl := Option.some.inj hjob
    refine ⟨hclaimed _ rfl, fun hscope r hr hpr => ?_⟩
    obtain ⟨r₀, h₀, hid, hp₀⟩ := becomesPending_eq_false.mp hkept r hr hpr
    have hrow : pendingSweep jobType tenantId row = true := by
      simp only [pendingSweep, hp.1.2, Bool.and_eq_true]
      exact ⟨rfl, hscope⟩
    rw [← hid, hi.2 r₀ h₀ row hm hp₀ hrow]
    rfl

/-- The work of a job that keeps the running jobs makes no sweep pending. -/
theorem runJob_sweep {rounds : Nat} {job : BackgroundJobRecord} :
    (calmSweep app jobType tenantId i).Triple i (Alone jobType tenantId i job)
      (runJob app rounds job).attempt (onOk fun _ => Alone jobType tenantId i job) := by
  have hwork : ((calmSweep app jobType tenantId i).within i JobsKept).Safe i
      (runJob app rounds job) := by
    refine runJob_safe.transfer (J := workContract app False i) (fun _ hi => hi.1)
      (fun _ _ _ ha => ha) (fun j l e s s' hj _ hg => ⟨hg.1.1.1, fun h => absurd h hj⟩)
      fun l e s s' hi _ hg => ?_
    exact ⟨calmSweep_guar hi.2 hg.1 (not_becomes_of_subset (hg.2 rfl).subset), hg.2⟩
  refine (hwork.attempt.carry (lasting_within alone_stable fun l e s s' _ hs _ hk => ?_)).of_within
  exact hs.of_not_becomes (hs.claimed.kept hk) (not_becomes_of_subset hk.subset)

theorem processJob_sweep {rounds : Nat} {jobId : Uuid} :
    (calmSweep app jobType tenantId i).Safe i (processJob app rounds jobId) :=
  have hK := calmSweep_tolerant.toPatient
  have houtcome : ∀ job s s' e, JobInv s ∧ OnePending jobType tenantId s →
      Alone jobType tenantId i job s →
      (jobContract app False).adm i (.outcome job.id job.attempts) e s →
      JobAction app i (.outcome job.id job.attempts) e s s' →
      (calmSweep app jobType tenantId i).guar i (.outcome job.id job.attempts) e s s' :=
    fun _ _ _ _ hi hs _ h => calmSweep_own h (h.onePending_outcome hi.2 hs)
  processJob_of markJobRunning_sweep (fun _ => runJob_sweep)
    (fun job _ => completeJob_from hK alone_stable (fun _ h => h.claimed) (houtcome job))
    (fun job _ => failJob_from hK alone_stable (fun _ h => h.claimed) (houtcome job))

theorem jobCall_sweep (htype : jobType ≠ .taskExport) (k : JobCall) :
    (calmSweep app jobType tenantId i).Safe i ((jobSystem app).body k) := by
  refine jobCall_of calmSweep_tolerant (fun _ _ => ?_) (fun _ => ensureDueReminderJob_sweep)
    ensureRetentionJob_sweep (fun _ => requeueStaleJobs_sweep) (fun _ _ => processJob_sweep) k
  refine createJob_sweep.pre fun s _ _ hscope => ?_
  simp only [inScope, Bool.and_eq_true, decide_eq_true_eq] at hscope
  exact absurd hscope.1.symm htype

/-- A call looks with its first statement only. -/
theorem jobCall_fromLooks (htype : jobType ≠ .taskExport) (k : JobCall) {s : AppState} :
    (sweepContract app jobType tenantId).FromLooks (sweepWatch jobType tenantId) i 0
      ((jobSystem app).body k) s :=
  fromLooks_of_triple (P := fun _ => True)
    (fun _ hm => decide_eq_false (Nat.ne_of_gt hm)) stable_const (jobCall_sweep htype k) trivial

end Contract

/-! ### Runs -/

/-- In a run of schedulers, workers and other job calls in which no call makes a sweep of the scope
pending when another has done so since its first statement, there is in every state at most one
pending sweep of the scope. -/
theorem one_pending_sweep {jobType : JobType} {tenantId : Option Uuid}
    (htype : jobType ≠ .taskExport) {s : AppState} (hstart : JobStart s)
    (hs : OnePending jobType tenantId s) {ms : List (Move Env JobCall)}
    (hschedule : (sweepWatch jobType tenantId).Scheduled (jobSystem app) (.start s) ms) :
    (jobSystem app).Through (fun d => OnePending jobType tenantId d.st) (.start s) ms :=
  System.Through.mono (fun _ h => h.2) <|
    scheduled_through (K := sweepContract app jobType tenantId) (J := jobContract app False)
      (P := fun _ _ _ _ => True) (fun _ => jobCall_safe) (fun _ => jobCall_sweep htype)
      (fun _ k _ _ => jobCall_fromLooks htype k)
      (fun _ _ _ _ ha => ⟨ha, False.elim⟩) (fun _ _ _ _ ha _ => ⟨ha, False.elim⟩)
      (fun _ _ _ _ _ hi _ hg hb => ⟨hg, hi.2.of_not_becomes hb⟩) ⟨hstart.inv, hs⟩ hstart.inv
      hschedule (System.along_of_forall fun _ _ _ _ _ _ _ => trivial)

/-- A statement of call `i` that generates the identifier `uuid`, if one, at the time given in
seconds. -/
def sweepMove (i uuid second : Nat) (fault : Fault) : Move Env JobCall :=
  .exec i { (default : Env) with pid := i, now := seconds second, uuid, fault }

/-- The statements of a scheduler that creates a sweep. -/
def createSweep (i uuid : Nat) : List (Move Env JobCall) :=
  [sweepMove i 0 1 .none, sweepMove i uuid 1 .none, sweepMove i 0 1 .none, sweepMove i 0 1 .none,
    sweepMove i 0 1 .none]

/-- One scheduler creates a sweep, another finds it, and a worker claims it and puts it back into
the queue. -/
def retriedSweep : List (Move Env JobCall) :=
  .call .enqueueRetentionSweep :: createSweep 0 1 ++
  [.call .enqueueRetentionSweep, sweepMove 1 0 2 .none, .call (.processJob 0 1),
    sweepMove 2 0 3 .none, sweepMove 2 0 3 .failed, sweepMove 2 0 3 .failed, sweepMove 2 0 3 .none,
    sweepMove 2 0 3 .none]

/-- In that run one sweep is pending throughout, and at the end it is queued again. -/
theorem one_pending_sweep_retried :
    (jobSystem default).Through (fun d => OnePending .retentionSweep none d.st) (.start default)
      retriedSweep ∧
    ((jobSystem default).exec (.start default) retriedSweep).map (fun c =>
      c.st.db.jobs.rows.map fun r => (r.id, r.attempts, r.status)) = some [(1, 1, .queued)] :=
  ⟨one_pending_sweep (by decide) default_jobStart (fun _ ha => by cases ha) (by decide +kernel),
    by decide +kernel⟩

/-! ### Two schedulers -/

/-- Both schedulers look for a sweep before either inserts one. -/
def overlappingRun : List (Move Env JobCall) :=
  [.call .enqueueRetentionSweep, .call .enqueueRetentionSweep, sweepMove 0 0 1 .none] ++
    createSweep 1 1 ++ (createSweep 0 2).tail

/-- Two schedulers leave two sweeps queued. -/
theorem two_schedulers_two_sweeps :
    JobStart default ∧ OnePending .retentionSweep none default ∧
      ∃ c, (jobSystem default).exec (.start default) overlappingRun = some c ∧
        ¬ OnePending .retentionSweep none c.st := by
  have hrun : (((jobSystem default).exec (.start default) overlappingRun).map fun c =>
      (c.st.db.jobs.find? 1, c.st.db.jobs.find? 2).map
        (Option.map fun r => (r.id, pendingSweep .retentionSweep none r))
        (Option.map fun r => (r.id, pendingSweep .retentionSweep none r))) =
      some (some (1, true), some (2, true)) := by decide
  obtain ⟨c, hc, hrows⟩ := Option.map_eq_some_iff.mp hrun
  obtain ⟨hone, htwo⟩ := by simpa only [Prod.map, Prod.mk.injEq] using hrows
  obtain ⟨a, ha, ha'⟩ := Option.map_eq_some_iff.mp hone
  obtain ⟨b, hb, hb'⟩ := Option.map_eq_some_iff.mp htwo
  simp only [Prod.mk.injEq] at ha' hb'
  refine ⟨default_jobStart, fun _ ha => (by cases ha), c, hc, fun hs => ?_⟩
  have hab := hs a (Table.find?_eq_some.mp ha).1 b (Table.find?_eq_some.mp hb).1 ha'.2 hb'.2
  rw [hab, hb'.1] at ha'
  exact absurd ha'.1 (by decide)

end Fluxa
