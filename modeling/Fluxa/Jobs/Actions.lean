import Fluxa.Services.Quiet

/-!
# Jobs — what the calls do

Any number of workers claim jobs, run them and write their outcomes, while other calls create jobs, put them into the queue and recover those whose lease has expired.  **`JobAction`** lists what a single statement does to the jobs and to the record of their claims; **`jobCall_safe`** says that the calls do nothing else.  Everything about jobs follows from the list.
-/

namespace Fluxa
open Interleave Relational Db Contract Jobs

/-! ### The system -/

/-- The calls. -/
inductive JobCall where
  | createExportJob (tenantId requestedBy : Uuid) (filters : TaskFilters) (format : ExportFormat)
  | enqueueDueReminderSweep (tenantId : Option Uuid)
  | enqueueRetentionSweep
  | dispatchReadyJobs (limit : Nat)
  | reapStaleJobs
  | processJob (rounds : Nat) (jobId : Uuid)

def JobCall.body (app : App) : JobCall → Service Unit
  | .createExportJob tenantId requestedBy filters format => do
    let _ ← Jobs.createExportJob app tenantId requestedBy filters format
    return ()
  | .enqueueDueReminderSweep tenantId => do
    let _ ← Jobs.enqueueDueReminderSweep app tenantId
    return ()
  | .enqueueRetentionSweep => do
    let _ ← Jobs.enqueueRetentionSweep app
    return ()
  | .dispatchReadyJobs limit => Jobs.dispatchReadyJobs limit
  | .reapStaleJobs => Jobs.reapStaleJobs app
  | .processJob rounds jobId => Jobs.processJob app rounds jobId

/-- Any number of workers and other job calls, side by side. -/
def jobSystem (app : App) : System Event Env AppState AppError JobCall Unit :=
  ⟨JobCall.body app, admissible⟩

/-- The statement writes to `row` the outcome of the execution that obtained claim number `n`. -/
def WritesOutcome (l : Event) (e : Env) (s : AppState) (row : BackgroundJobRecord) (n : Nat) :
    Prop :=
  l = .outcome row.id n ∧ e.fault ≠ .failed ∧ row ∈ s.db.jobs

/-- An outcome is written only to a row that is running under the claim it belongs to. -/
def Fenced (_ : Nat) (l : Event) (e : Env) (s : AppState) : Prop :=
  ∀ row n, WritesOutcome l e s row n → row.status = .running ∧ row.attempts = n

/-- No outcome is written for a claim that a lease recovery has ended. -/
def NotRecovered (_ : Nat) (l : Event) (e : Env) (s : AppState) : Prop :=
  ∀ row n, WritesOutcome l e s row n → (row.id, n) ∉ s.history.recovered

/-! ### The invariant -/

/-- What holds of the jobs and of the claims on them. -/
structure JobInv (s : AppState) : Prop where
  issued_once : IssuedOnce s
  job_issued : ∀ r ∈ s.db.jobs, Issued s r.id
  claim_issued : ∀ j n i, (j, n, i) ∈ s.history.claims → Issued s j
  recovered_issued : ∀ j n, (j, n) ∈ s.history.recovered → Issued s j
  /-- Outcomes are written for claims. -/
  outcome_claimed : ∀ j n ok, (j, n, ok) ∈ s.history.outcomes → ∃ i, (j, n, i) ∈ s.history.claims
  /-- The attempts of a row count its claims. -/
  claim_le : ∀ r ∈ s.db.jobs, ∀ n i, (r.id, n, i) ∈ s.history.claims → n ≤ r.attempts
  /-- No two calls obtain one claim. -/
  claim_unique : ∀ j n i i', (j, n, i) ∈ s.history.claims → (j, n, i') ∈ s.history.claims → i = i'
  recovered_le : ∀ r ∈ s.db.jobs, ∀ n, (r.id, n) ∈ s.history.recovered → n ≤ r.attempts
  /-- A row that is running is running under a claim that has not been recovered. -/
  not_recovered : ∀ r ∈ s.db.jobs, r.status = .running → (r.id, r.attempts) ∉ s.history.recovered

/-- The history of a run starts here: nothing has been claimed, recovered or ended yet, and the
jobs there are have identifiers that will not be generated again. -/
structure JobStart (s : AppState) : Prop where
  issued_once : IssuedOnce s
  job_issued : ∀ r ∈ s.db.jobs, Issued s r.id
  claims : s.history.claims = []
  recovered : s.history.recovered = []
  outcomes : s.history.outcomes = []

theorem JobStart.inv {s : AppState} (h : JobStart s) : JobInv s where
  issued_once := h.issued_once
  job_issued := h.job_issued
  claim_issued _ _ _ hc := by simp [h.claims] at hc
  recovered_issued _ _ hr := by simp [h.recovered] at hr
  outcome_claimed _ _ _ ho := by simp [h.outcomes] at ho
  claim_le _ _ _ _ hc := by simp [h.claims] at hc
  claim_unique _ _ _ _ hc := by simp [h.claims] at hc
  recovered_le _ _ _ hr := by simp [h.recovered] at hr
  not_recovered _ _ _ hr := by simp [h.recovered] at hr

/-- A run may start from the empty state. -/
theorem default_jobStart : JobStart default where
  issued_once _ _ _ hi := by cases hi
  job_issued _ hr := by cases hr
  claims := rfl
  recovered := rfl
  outcomes := rfl

/-! ### What a statement does to the jobs -/

/-- The jobs and the claims on them are as they were. -/
structure JobQuiet (s s' : AppState) : Prop where
  jobs : s'.db.jobs = s.db.jobs
  claims : s'.history.claims = s.history.claims
  recovered : s'.history.recovered = s.history.recovered
  outcomes : s'.history.outcomes = s.history.outcomes
  issued : s'.history.issued = s.history.issued
  sweeps : s'.history.sweeps = s.history.sweeps

/-- So is the record of the schedulers' looks. -/
structure JobIdle (s s' : AppState) : Prop extends JobQuiet s s' where
  looked : s'.history.looked = s.history.looked

theorem JobIdle.refl (s : AppState) : JobIdle s s := ⟨⟨rfl, rfl, rfl, rfl, rfl, rfl⟩, rfl⟩

theorem JobQuiet.refl (s : AppState) : JobQuiet s s := (JobIdle.refl s).toJobQuiet

theorem JobIdle.of_db {s s' : AppState} (hj : s'.db.jobs = s.db.jobs)
    (hh : s'.history = s.history) : JobIdle s s' := by
  constructor
  · constructor
    · exact hj
    all_goals rw [hh]
  · rw [hh]

theorem Bystander.jobIdle {s s' : AppState} (h : Bystander s s') : JobIdle s s' :=
  .of_db h.jobs h.history

theorem Bystander.jobQuiet {s s' : AppState} (h : Bystander s s') : JobQuiet s s' :=
  h.jobIdle.toJobQuiet

/-- The identifier was generated by call `i`, and nothing has it yet. -/
structure Unused (i : Nat) (id : Uuid) (s : AppState) : Prop where
  issued : (id, i) ∈ s.history.issued
  no_job : ∀ r ∈ s.db.jobs, r.id ≠ id
  no_claim : ∀ n k, (id, n, k) ∉ s.history.claims
  no_recovery : ∀ n, (id, n) ∉ s.history.recovered

/-- The row that `create_job` inserts. -/
structure NewJob (app : App) (job : BackgroundJobRecord) : Prop where
  status : job.status = .queued
  attempts : job.attempts = 0
  maxAttempts : job.maxAttempts = app.config.maxJobAttempts
  startedAt : job.startedAt = none
  finishedAt : job.finishedAt = none

/-- The retention sweeps once the job has been created. -/
def withSweep (job : BackgroundJobRecord) (sweeps : List (Uuid × Time)) : List (Uuid × Time) :=
  if job.jobType = .retentionSweep then (job.id, job.scheduledAt) :: sweeps else sweeps

/-- The assignments of the outcome, a success or not, of the claim that returned `job`. -/
inductive OutcomeOf (now : Time) (job : BackgroundJobRecord) :
    Bool → (BackgroundJobRecord → BackgroundJobRecord) → Prop where
  | complete (result : Value) : OutcomeOf now job true (completed now result)
  | fail (nextTime : Time) (message : String) : OutcomeOf now job false
      (failed now (if job.attempts ≥ job.maxAttempts then .deadLetter else .queued) nextTime message)

namespace OutcomeOf

variable {now : Time} {job r : BackgroundJobRecord} {ok : Bool}
  {f : BackgroundJobRecord → BackgroundJobRecord}

theorem id_eq (h : OutcomeOf now job ok f) : (f r).id = r.id := by cases h <;> rfl

theorem attempts_eq (h : OutcomeOf now job ok f) : (f r).attempts = r.attempts := by
  cases h <;> rfl

theorem maxAttempts_eq (h : OutcomeOf now job ok f) : (f r).maxAttempts = r.maxAttempts := by
  cases h <;> rfl

theorem jobType_eq (h : OutcomeOf now job ok f) : (f r).jobType = r.jobType := by cases h <;> rfl

theorem startedAt_eq (h : OutcomeOf now job ok f) : (f r).startedAt = r.startedAt := by
  cases h <;> rfl

theorem tenantId_eq (h : OutcomeOf now job ok f) : (f r).tenantId = r.tenantId := by
  cases h <;> rfl

theorem not_running (h : OutcomeOf now job ok f) : (f r).status ≠ .running := by
  cases h with
  | complete => simp [completed]
  | fail =>
      simp only [failed]
      split <;> simp

end OutcomeOf

/-- What a statement of call `i` does to the jobs. -/
inductive JobAction (app : App) (i : Nat) : Event → Env → AppState → AppState → Prop where
  | idle {l e s} (hfault : e.fault = .failed) : JobAction app i l e s s
  | quiet {e s s'} (h : JobQuiet s s') : JobAction app i .quiet e s s'
  | issue {e s} (hf : ¬ Issued s e.uuid) : JobAction app i .quiet e s
      { s with history.issued := (e.uuid, i) :: s.history.issued }
  | create {e s s' job} (hu : Unused i job.id s) (hnew : NewJob app job)
      (hj : ∀ r, r ∈ s'.db.jobs ↔ r ∈ s.db.jobs ∨ r = job)
      (hc : s'.history.claims = s.history.claims) (hr : s'.history.recovered = s.history.recovered)
      (ho : s'.history.outcomes = s.history.outcomes)
      (hi : s'.history.issued = s.history.issued) (hfault : e.fault ≠ .failed)
      (hs : s'.history.sweeps = withSweep job s.history.sweeps) :
      JobAction app i (.insertJob job.jobType job.tenantId) e s s'
  | claim {e s} {row : BackgroundJobRecord} (hm : row ∈ s.db.jobs) (hq : row.status = .queued)
      (hp : isClaimable row.id e.now row = true) : JobAction app i .quiet e s
      { s with
        db.jobs := s.db.jobs.update (isClaimable row.id e.now) (claimed e.now)
        history.claims := (row.id, row.attempts + 1, i) :: s.history.claims }
  | requeue {e s} {cutoff} : JobAction app i .quiet e s
      { s with
        db.jobs := s.db.jobs.update (isStale cutoff) (requeued e.now)
        history.recovered :=
          (s.db.jobs.select (isStale cutoff)).map (fun j => (j.id, j.attempts)) ++
            s.history.recovered }
  | outcome {e s} {job : BackgroundJobRecord} {ok : Bool}
      {f : BackgroundJobRecord → BackgroundJobRecord} {hf : Table.KeepsKey _ f}
      (hfault : e.fault ≠ .failed) (hc : (job.id, job.attempts, i) ∈ s.history.claims)
      (hfirst : ∀ ok', (job.id, job.attempts, ok') ∉ s.history.outcomes)
      (hmax : ∀ r ∈ s.db.jobs, r.id = job.id → r.maxAttempts = job.maxAttempts)
      (ho : OutcomeOf e.now job ok f) : JobAction app i (.outcome job.id job.attempts) e s
      { s with
        db.jobs := s.db.jobs.update (fun r => r.id = job.id) f hf
        history.outcomes := (job.id, job.attempts, ok) :: s.history.outcomes }
  | purge {e s} : JobAction app i .quiet e s
      { s with db.jobs := s.db.jobs.delete (isPurgeable app.config.jobRetentionDays e.now) }

theorem terminal_of_isPurgeable {days : Nat} {now : Time} {r : BackgroundJobRecord}
    (h : isPurgeable days now r = true) : r.status.terminal = true := by
  simp only [isPurgeable, Bool.and_eq_true] at h
  exact h.1

/-- The invariant survives where the rows keep their identifiers and attempts, a row that is
running is left alone, and what is recovered stops running. -/
theorem JobInv.of_rows {s s' : AppState} (hi : JobInv s)
    (hn : s'.history.issued = s.history.issued) (hc : s'.history.claims = s.history.claims)
    (hj : ∀ r ∈ s'.db.jobs, ∃ r₀ ∈ s.db.jobs, r.id = r₀.id ∧ r.attempts = r₀.attempts ∧
      (r.status = .running → r = r₀))
    (hr : ∀ j n, (j, n) ∈ s'.history.recovered → (j, n) ∈ s.history.recovered ∨
      ∃ r₀ ∈ s.db.jobs, r₀.id = j ∧ r₀.attempts = n ∧
        ∀ r ∈ s'.db.jobs, r.id = j → r.status ≠ .running)
    (ho : ∀ j n ok, (j, n, ok) ∈ s'.history.outcomes → (j, n, ok) ∈ s.history.outcomes ∨
      ∃ k, (j, n, k) ∈ s.history.claims) : JobInv s' := by
  have hiss : ∀ {id}, Issued s id → Issued s' id := fun h => by simpa only [Issued, hn] using h
  refine ⟨?_, fun r h => ?_, fun j n k h => ?_, fun j n h => ?_, fun j n ok h => ?_,
    fun r h n k hk => ?_, ?_, fun r h n hk => ?_, fun r h hs hk => ?_⟩
  · simpa only [IssuedOnce, hn] using hi.issued_once
  · obtain ⟨r₀, h₀, hid, -⟩ := hj r h
    rw [hid]
    exact hiss (hi.job_issued r₀ h₀)
  · rw [hc] at h
    exact hiss (hi.claim_issued j n k h)
  · rcases hr j n h with h | ⟨r₀, h₀, rfl, -⟩
    · exact hiss (hi.recovered_issued j n h)
    · exact hiss (hi.job_issued r₀ h₀)
  · rw [hc]
    exact (ho j n ok h).elim (hi.outcome_claimed j n ok) id
  · obtain ⟨r₀, h₀, hid, ha, -⟩ := hj r h
    rw [hc, hid] at hk
    rw [ha]
    exact hi.claim_le r₀ h₀ n k hk
  · simpa only [hc] using hi.claim_unique
  · obtain ⟨r₀, h₀, hid, ha, -⟩ := hj r h
    rw [hid] at hk
    rw [ha]
    rcases hr _ n hk with hk | ⟨r₁, h₁, hid₁, rfl, -⟩
    · exact hi.recovered_le r₀ h₀ n hk
    · rw [Table.eq_of_key h₁ h₀ hid₁]
  · obtain ⟨r₀, h₀, -, -, hrun⟩ := hj r h
    obtain rfl := hrun hs
    rcases hr _ _ hk with hk | ⟨-, -, -, -, hstop⟩
    · exact hi.not_recovered r h₀ hs hk
    · exact hstop r h rfl hs

theorem JobInv.issue {s : AppState} {id : Uuid} {i : Nat} (hi : JobInv s) (hf : ¬ Issued s id) :
    JobInv { s with history.issued := (id, i) :: s.history.issued } :=
  ⟨hi.issued_once.cons hf, fun r hr => (hi.job_issued r hr).cons _, fun j n k hc =>
    (hi.claim_issued j n k hc).cons _, fun j n hr => (hi.recovered_issued j n hr).cons _,
    hi.outcome_claimed, hi.claim_le, hi.claim_unique, hi.recovered_le, hi.not_recovered⟩

theorem JobInv.create {s s' : AppState} {i : Nat} {job : BackgroundJobRecord} (hi : JobInv s)
    (hu : Unused i job.id s) (hj : ∀ r, r ∈ s'.db.jobs ↔ r ∈ s.db.jobs ∨ r = job)
    (hc : s'.history.claims = s.history.claims) (hr : s'.history.recovered = s.history.recovered)
    (ho : s'.history.outcomes = s.history.outcomes) (hn : s'.history.issued = s.history.issued) :
    JobInv s' := by
  refine ⟨?_, ?_, ?_, ?_, ?_, ?_, ?_, ?_, ?_⟩ <;>
    simp only [Issued, IssuedOnce, hj, hc, hr, ho, hn]
  · exact hi.issued_once
  · rintro r (h | rfl)
    · exact hi.job_issued r h
    · exact ⟨i, hu.issued⟩
  · exact hi.claim_issued
  · exact hi.recovered_issued
  · exact hi.outcome_claimed
  · rintro r (h | rfl) n k hk
    · exact hi.claim_le r h n k hk
    · exact absurd hk (hu.no_claim n k)
  · exact hi.claim_unique
  · rintro r (h | rfl) n hk
    · exact hi.recovered_le r h n hk
    · exact absurd hk (hu.no_recovery n)
  · rintro r (h | rfl) hs
    · exact hi.not_recovered r h hs
    · exact hu.no_recovery _

/-- The rows after a claim: the claimed one, and the others as they were. -/
theorem mem_update_claimed {s : AppState} {row r : BackgroundJobRecord} {now : Time}
    (hm : row ∈ s.db.jobs) (hp : isClaimable row.id now row = true)
    (h : r ∈ s.db.jobs.update (isClaimable row.id now) (claimed now)) :
    r = claimed now row ∨ r ∈ s.db.jobs ∧ r.id ≠ row.id := by
  rw [Table.mem_update] at h
  obtain ⟨r₀, h₀, rfl⟩ := h
  by_cases hid : r₀.id = row.id
  · obtain rfl := Table.eq_of_key h₀ hm hid
    exact .inl (by simp [hp])
  · refine .inr ?_
    have : isClaimable row.id now r₀ = false := by simp [isClaimable, hid]
    simpa [this] using ⟨h₀, hid⟩

theorem JobInv.claim {s : AppState} {i : Nat} {row : BackgroundJobRecord} {now : Time}
    (hi : JobInv s) (hm : row ∈ s.db.jobs) (hp : isClaimable row.id now row = true) :
    JobInv { s with
      db.jobs := s.db.jobs.update (isClaimable row.id now) (claimed now)
      history.claims := (row.id, row.attempts + 1, i) :: s.history.claims } := by
  refine ⟨hi.issued_once, fun r h => ?_, fun j n k h => ?_, hi.recovered_issued,
    fun j n ok h => ?_, fun r h n k hk => ?_, ?_, fun r h n hk => ?_, fun r h hs hk => ?_⟩
  · rcases mem_update_claimed hm hp h with rfl | ⟨h, -⟩
    · exact hi.job_issued row hm
    · exact hi.job_issued r h
  · rcases List.mem_cons.mp h with h | h
    · cases h
      exact hi.job_issued row hm
    · exact hi.claim_issued j n k h
  · exact (hi.outcome_claimed j n ok h).imp fun _ => List.mem_cons_of_mem _
  · rcases mem_update_claimed hm hp h with rfl | ⟨h, hne⟩
    · rcases List.mem_cons.mp hk with hk | hk
      · cases hk
        exact Nat.le_refl _
      · exact Nat.le_succ_of_le (hi.claim_le row hm n k hk)
    · rcases List.mem_cons.mp hk with hk | hk
      · exact absurd (Prod.ext_iff.mp hk).1 hne
      · exact hi.claim_le r h n k hk
  · -- The new claim has a number above those of all earlier claims on the row.
    have new : ∀ k, (row.id, row.attempts + 1, k) ∉ s.history.claims := fun k hk => by
      have := hi.claim_le row hm _ k hk
      omega
    intro j n a b ha hb
    rcases List.mem_cons.mp ha with ha | ha
    · cases ha
      rcases List.mem_cons.mp hb with hb | hb
      · cases hb
        rfl
      · exact absurd hb (new b)
    · rcases List.mem_cons.mp hb with hb | hb
      · cases hb
        exact absurd ha (new a)
      · exact hi.claim_unique _ _ _ _ ha hb
  · rcases mem_update_claimed hm hp h with rfl | ⟨h, -⟩
    · exact Nat.le_succ_of_le (hi.recovered_le row hm n hk)
    · exact hi.recovered_le r h n hk
  · rcases mem_update_claimed hm hp h with rfl | ⟨h, -⟩
    · exact absurd (hi.recovered_le row hm _ hk) (Nat.not_succ_le_self _)
    · exact hi.not_recovered r h hs hk

theorem requeued_not_running {now : Time} {r : BackgroundJobRecord} :
    (requeued now r).status ≠ .running := by
  simp only [requeued]
  split <;> simp

theorem JobInv.requeue {s : AppState} {cutoff now : Time} (hi : JobInv s) :
    JobInv { s with
      db.jobs := s.db.jobs.update (isStale cutoff) (requeued now)
      history.recovered :=
        (s.db.jobs.select (isStale cutoff)).map (fun j => (j.id, j.attempts)) ++
          s.history.recovered } := by
  refine hi.of_rows rfl rfl (fun r h => ?_) (fun j n h => ?_) fun j n ok h => .inl h
  · simp only [Table.mem_update] at h
    obtain ⟨r₀, h₀, rfl⟩ := h
    refine ⟨r₀, h₀, ?_⟩
    split
    · exact ⟨rfl, rfl, fun hs => absurd hs requeued_not_running⟩
    · exact ⟨rfl, rfl, fun _ => rfl⟩
  · rcases List.mem_append.mp h with h | h
    · simp only [List.mem_map, Table.mem_select, Prod.mk.injEq] at h
      obtain ⟨r₀, ⟨h₀, hst⟩, hid, ha⟩ := h
      refine .inr ⟨r₀, h₀, hid, ha, fun r hr hrid => ?_⟩
      simp only [Table.mem_update] at hr
      obtain ⟨r₁, h₁, rfl⟩ := hr
      have hid₁ : r₁.id = j := by
        rw [← hrid]
        split <;> rfl
      obtain rfl := Table.eq_of_key h₁ h₀ (hid₁.trans hid.symm)
      simpa [hst] using requeued_not_running
    · exact .inl h

/-- Every action keeps the invariant. -/
theorem JobAction.inv {app : App} {i : Nat} {l : Event} {e : Env} {s s' : AppState} (hi : JobInv s)
    (h : JobAction app i l e s s') : JobInv s' := by
  cases h with
  | idle => exact hi
  | quiet h =>
      refine hi.of_rows h.issued h.claims (fun r hr => ⟨r, ?_, rfl, rfl, fun _ => rfl⟩)
        (fun j n hr => .inl ?_) fun j n ok ho => .inl ?_
      · rwa [h.jobs] at hr
      · rwa [h.recovered] at hr
      · rwa [h.outcomes] at ho
  | issue hf => exact hi.issue hf
  | create hu _ hj hc hr ho hn => exact hi.create hu hj hc hr ho hn
  | claim hm _ hp => exact hi.claim hm hp
  | requeue => exact hi.requeue
  | @outcome _ _ job ok f hf hfault hc hfirst hmax ho =>
      refine hi.of_rows rfl rfl (fun r hr => ?_) (fun j n hr => .inl hr) fun j n ok' h => ?_
      · simp only [Table.mem_update] at hr
        obtain ⟨r₀, h₀, rfl⟩ := hr
        refine ⟨r₀, h₀, ?_⟩
        split
        · exact ⟨ho.id_eq, ho.attempts_eq, fun h => absurd h ho.not_running⟩
        · exact ⟨rfl, rfl, fun _ => rfl⟩
      · rcases List.mem_cons.mp h with h | h
        · cases h
          exact .inr ⟨i, hc⟩
        · exact .inl h
  | purge =>
      refine hi.of_rows rfl rfl (fun r hr => ⟨r, ?_, rfl, rfl, fun _ => rfl⟩)
        (fun j n hr => .inl hr) fun j n ok h => .inl h
      exact (Table.mem_delete.mp hr).1

/-! ### The contract -/

/-- The contract: every statement is a `JobAction`.  With `strict`, the runs considered write no
outcome for a recovered claim, and outcomes are fenced. -/
def jobContract (app : App) (strict : Prop) : Contract Event Env AppState where
  inv := JobInv
  guar i l e s s' := JobAction app i l e s s' ∧ (strict → Fenced i l e s)
  adm i l e s := admissible i l e s = true ∧ (strict → NotRecovered i l e s)
  guar_inv hi h := h.1.inv hi

/-- The claim has been recovered, or the row is running under it. -/
def Held (j : Uuid) (n : Nat) (s : AppState) : Prop :=
  (j, n) ∈ s.history.recovered ∨ ∃ r ∈ s.db.jobs, r.id = j ∧ r.status = .running ∧ r.attempts = n

/-- What a call knows of the claim that has returned `job` to it, until it writes the outcome. -/
structure Claimed (strict : Prop) (i : Nat) (job : BackgroundJobRecord) (s : AppState) : Prop where
  claim : (job.id, job.attempts, i) ∈ s.history.claims
  no_outcome : ∀ ok, (job.id, job.attempts, ok) ∉ s.history.outcomes
  maxAttempts : ∀ r ∈ s.db.jobs, r.id = job.id → r.maxAttempts = job.maxAttempts
  jobType : ∀ r ∈ s.db.jobs, r.id = job.id → r.jobType = job.jobType
  tenantId : ∀ r ∈ s.db.jobs, r.id = job.id → r.tenantId = job.tenantId
  held : strict → Held job.id job.attempts s

variable {app : App} {strict : Prop} {i : Nat}

theorem fenced_of_quiet {e : Env} {s : AppState} : Fenced i .quiet e s := by
  rintro row n ⟨hl, -⟩
  cases hl

theorem fenced_of_insertJob {jobType : JobType} {tenantId : Option Uuid} {e : Env}
    {s : AppState} : Fenced i (.insertJob jobType tenantId) e s := by
  rintro row n ⟨hl, -⟩
  cases hl

theorem fenced_of_failed {l : Event} {e : Env} {s : AppState} (hf : e.fault = .failed) :
    Fenced i l e s := by
  rintro row n ⟨-, hf', -⟩
  exact absurd hf hf'

theorem jobContract_tolerant : Tolerant (jobContract app strict) where
  stay i l e s _ hf := ⟨.idle hf, fun _ => fenced_of_failed hf⟩
  bystander i e s s' _ h := ⟨.quiet h.jobQuiet, fun _ => fenced_of_quiet⟩
  issue i e s _ ha := by
    obtain ⟨rfl, hf⟩ := not_issued_of_admissible ha.1
    exact ⟨.issue hf, fun _ => fenced_of_quiet⟩

/-- A row after an action was there before, as the same job, or is new. -/
theorem JobAction.row_of {l : Event} {e : Env} {s s' : AppState} (h : JobAction app i l e s s')
    {r : BackgroundJobRecord} (hr : r ∈ s'.db.jobs) :
    (∃ r₀ ∈ s.db.jobs, r.id = r₀.id ∧ r.maxAttempts = r₀.maxAttempts ∧ r.jobType = r₀.jobType ∧
      r.tenantId = r₀.tenantId) ∨ Unused i r.id s ∧ NewJob app r := by
  cases h with
  | idle => exact .inl ⟨r, hr, rfl, rfl, rfl, rfl⟩
  | quiet h => exact .inl ⟨r, h.jobs ▸ hr, rfl, rfl, rfl, rfl⟩
  | issue => exact .inl ⟨r, hr, rfl, rfl, rfl, rfl⟩
  | create hu hnew hj =>
      rcases (hj r).mp hr with h | rfl
      · exact .inl ⟨r, h, rfl, rfl, rfl, rfl⟩
      · exact .inr ⟨hu, hnew⟩
  | claim hm _ hp =>
      rcases mem_update_claimed hm hp hr with rfl | ⟨h, -⟩
      · exact .inl ⟨_, hm, rfl, rfl, rfl, rfl⟩
      · exact .inl ⟨r, h, rfl, rfl, rfl, rfl⟩
  | requeue =>
      simp only [Table.mem_update] at hr
      obtain ⟨r₀, h₀, rfl⟩ := hr
      refine .inl ⟨r₀, h₀, ?_⟩
      split
      · exact ⟨rfl, rfl, rfl, rfl⟩
      · exact ⟨rfl, rfl, rfl, rfl⟩
  | outcome _ _ _ _ ho =>
      simp only [Table.mem_update] at hr
      obtain ⟨r₀, h₀, rfl⟩ := hr
      refine .inl ⟨r₀, h₀, ?_⟩
      split
      · exact ⟨ho.id_eq, ho.maxAttempts_eq, ho.jobType_eq, ho.tenantId_eq⟩
      · exact ⟨rfl, rfl, rfl, rfl⟩
  | purge => exact .inl ⟨r, (Table.mem_delete.mp hr).1, rfl, rfl, rfl, rfl⟩

/-- A row that is pending after a fenced action was pending before, or is new. -/
theorem JobAction.pending_of {l : Event} {e : Env} {s s' : AppState} (h : JobAction app i l e s s')
    (hf : Fenced i l e s) {r : BackgroundJobRecord} (hr : r ∈ s'.db.jobs)
    (hp : r.status.terminal = false) :
    (∃ r₀ ∈ s.db.jobs, r₀.id = r.id ∧ r₀.jobType = r.jobType ∧ r₀.tenantId = r.tenantId ∧
        r₀.status.terminal = false) ∨
      l = .insertJob r.jobType r.tenantId ∧ e.fault ≠ .failed ∧
        s'.history.sweeps = withSweep r s.history.sweeps := by
  cases h with
  | idle => exact .inl ⟨r, hr, rfl, rfl, rfl, hp⟩
  | quiet h => exact .inl ⟨r, h.jobs ▸ hr, rfl, rfl, rfl, hp⟩
  | issue => exact .inl ⟨r, hr, rfl, rfl, rfl, hp⟩
  | create _ _ hj _ _ _ _ hfault hs =>
      rcases (hj r).mp hr with h | rfl
      · exact .inl ⟨r, h, rfl, rfl, rfl, hp⟩
      · exact .inr ⟨rfl, hfault, hs⟩
  | claim hm hq hclaim =>
      rcases mem_update_claimed hm hclaim hr with rfl | ⟨h, -⟩
      · exact .inl ⟨_, hm, rfl, rfl, rfl, by rw [hq]; rfl⟩
      · exact .inl ⟨r, h, rfl, rfl, rfl, hp⟩
  | requeue =>
      simp only [Table.mem_update] at hr
      obtain ⟨r₀, h₀, rfl⟩ := hr
      refine .inl ⟨r₀, h₀, ?_⟩
      split
      · rename_i hst
        simp only [isStale, Bool.and_eq_true, decide_eq_true_eq] at hst
        exact ⟨rfl, rfl, rfl, by rw [hst.1]; rfl⟩
      · rename_i hst
        rw [if_neg hst] at hp
        exact ⟨rfl, rfl, rfl, hp⟩
  | @outcome _ _ job _ f hk hfault _ _ _ ho =>
      simp only [Table.mem_update, decide_eq_true_eq] at hr
      obtain ⟨r₀, h₀, rfl⟩ := hr
      refine .inl ⟨r₀, h₀, ?_⟩
      split
      · rename_i hid
        have hrun := (hf r₀ job.attempts ⟨by rw [hid], hfault, h₀⟩).1
        exact ⟨ho.id_eq.symm, ho.jobType_eq.symm, ho.tenantId_eq.symm, by rw [hrun]; rfl⟩
      · rename_i hid
        rw [if_neg hid] at hp
        exact ⟨rfl, rfl, rfl, hp⟩
  | purge => exact .inl ⟨r, (Table.mem_delete.mp hr).1, rfl, rfl, rfl, hp⟩

/-- An unused identifier of call `i` stays so while the others run. -/
theorem unused_stable {id : Uuid} : (jobContract app strict).Stable i (Unused i id) := by
  rintro s s' k l e hi hu hk ⟨ha, -⟩
  have hjob : ∀ r ∈ s'.db.jobs, r.id ≠ id := by
    intro r hr
    rcases ha.row_of hr with ⟨r₀, h₀, hid, -⟩ | ⟨hu', -⟩
    · rw [hid]
      exact hu.no_job r₀ h₀
    · rintro rfl
      exact hk (hi.issued_once _ _ _ hu'.issued hu.issued)
  cases ha with
  | idle => exact hu
  | quiet h =>
      exact ⟨by rw [h.issued]; exact hu.issued, hjob, by rw [h.claims]; exact hu.no_claim,
        by rw [h.recovered]; exact hu.no_recovery⟩
  | issue hf => exact ⟨List.mem_cons_of_mem _ hu.issued, hjob, hu.no_claim, hu.no_recovery⟩
  | create _ _ _ hc hr _ hn =>
      exact ⟨by rw [hn]; exact hu.issued, hjob, by rw [hc]; exact hu.no_claim,
        by rw [hr]; exact hu.no_recovery⟩
  | claim hm =>
      refine ⟨hu.issued, hjob, fun n k' h => ?_, hu.no_recovery⟩
      rcases List.mem_cons.mp h with h | h
      · exact hu.no_job _ hm (Prod.ext_iff.mp h).1.symm
      · exact hu.no_claim n k' h
  | requeue =>
      refine ⟨hu.issued, hjob, hu.no_claim, fun n h => ?_⟩
      rcases List.mem_append.mp h with h | h
      · simp only [List.mem_map, Table.mem_select, Prod.mk.injEq] at h
        obtain ⟨r₀, ⟨h₀, -⟩, hid, -⟩ := h
        exact hu.no_job r₀ h₀ hid
      · exact hu.no_recovery n h
  | outcome => exact ⟨hu.issued, hjob, hu.no_claim, hu.no_recovery⟩
  | purge => exact ⟨hu.issued, hjob, hu.no_claim, hu.no_recovery⟩

/-- An action keeps the claims there are. -/
theorem JobAction.claims_mono {l : Event} {e : Env} {s s' : AppState}
    (h : JobAction app i l e s s') {x : Uuid × Nat × Nat} (hx : x ∈ s.history.claims) :
    x ∈ s'.history.claims := by
  cases h with
  | quiet h => rwa [h.claims]
  | create _ _ _ hc => rwa [hc]
  | claim => exact List.mem_cons_of_mem _ hx
  | _ => exact hx

/-- A fenced action of another call leaves a running row running under its claim, or ends the
claim by a recovery. -/
theorem JobAction.held {l : Event} {e : Env} {s s' : AppState} {j : Uuid} {n k : Nat}
    (hi : JobInv s) (ha : JobAction app k l e s s') (hfence : Fenced k l e s) (hk : k ≠ i)
    (hc : (j, n, i) ∈ s.history.claims) (hh : Held j n s) : Held j n s' := by
  rcases hh with h | ⟨r, h, hid, hrun, hat⟩
  · refine .inl ?_
    cases ha with
    | quiet h' => rwa [h'.recovered]
    | create _ _ _ _ hr => rwa [hr]
    | requeue => exact List.mem_append_right _ h
    | _ => exact h
  · cases ha with
    | idle => exact .inr ⟨r, h, hid, hrun, hat⟩
    | quiet h' => exact .inr ⟨r, by rwa [h'.jobs], hid, hrun, hat⟩
    | issue => exact .inr ⟨r, h, hid, hrun, hat⟩
    | create _ _ hj => exact .inr ⟨r, (hj r).mpr (.inl h), hid, hrun, hat⟩
    | claim =>
        refine .inr ⟨r, Table.mem_update_of_false h ?_, hid, hrun, hat⟩
        simp [isClaimable, hrun]
    | @requeue _ _ cutoff =>
        cases hst : isStale cutoff r with
        | true =>
            refine .inl (List.mem_append_left _ (List.mem_map.mpr ⟨r, ?_, by rw [hid, hat]⟩))
            exact Table.mem_select.mpr ⟨h, hst⟩
        | false =>
            exact .inr ⟨r, Table.mem_update_of_false h hst, hid, hrun, hat⟩
    | @outcome _ _ job ok f hf hfault hck _ _ ho =>
        -- The outcome belongs to another claim, so being fenced it is one of another job.
        have hne : r.id ≠ job.id := by
          intro heq
          have hn := (hfence r job.attempts ⟨by rw [heq], hfault, h⟩).2
          rw [← hn, hat, ← heq, hid] at hck
          exact hk (hi.claim_unique _ _ _ _ hck hc)
        refine .inr ⟨r, ?_, hid, hrun, hat⟩
        exact Table.mem_update_of_false h (by simpa using hne) hf
    | purge =>
        refine .inr ⟨r, Table.mem_delete.mpr ⟨h, ?_⟩, hid, hrun, hat⟩
        by_contra hpr
        have := terminal_of_isPurgeable (by simpa using hpr)
        simp [hrun, JobStatus.terminal] at this

/-- What a call knows of its claim stays true while the others run. -/
theorem claimed_stable {job : BackgroundJobRecord} :
    (jobContract app strict).Stable i (Claimed strict i job) := by
  rintro s s' k l e hi hc hk ⟨ha, hfence⟩
  have hrow : ∀ r ∈ s'.db.jobs, r.id = job.id → r.maxAttempts = job.maxAttempts ∧
      r.jobType = job.jobType ∧ r.tenantId = job.tenantId := by
    intro r hr hid
    rcases ha.row_of hr with ⟨r₀, h₀, hid₀, hmax, htype, htenant⟩ | ⟨hu, -⟩
    · have hid' := hid₀.symm.trans hid
      rw [hmax, htype, htenant]
      exact ⟨hc.maxAttempts r₀ h₀ hid', hc.jobType r₀ h₀ hid', hc.tenantId r₀ h₀ hid'⟩
    · rw [hid] at hu
      exact absurd hc.claim (hu.no_claim _ _)
  refine ⟨ha.claims_mono hc.claim, fun ok h => ?_, fun r hr hid => (hrow r hr hid).1,
    fun r hr hid => (hrow r hr hid).2.1, fun r hr hid => (hrow r hr hid).2.2, fun hs => ?_⟩
  · cases ha with
    | quiet h' => exact hc.no_outcome ok (by rwa [h'.outcomes] at h)
    | create _ _ _ _ _ ho => exact hc.no_outcome ok (by rwa [ho] at h)
    | @outcome _ _ job' _ _ _ _ hck =>
        rcases List.mem_cons.mp h with h | h
        · simp only [Prod.mk.injEq] at h
          rw [← h.1, ← h.2.1] at hck
          exact hk (hi.claim_unique _ _ _ _ hck hc.claim)
        · exact hc.no_outcome ok h
    | _ => exact hc.no_outcome ok h
  · exact ha.held hi (hfence hs) hk hc.claim (hc.held hs)

/-! ### Creating, claiming and recovering -/

/-- A new identifier is unused. -/
theorem JobInv.unused {s : AppState} {id : Uuid} (hi : JobInv s) (hf : ¬ Issued s id) :
    Unused i id { s with history.issued := (id, i) :: s.history.issued } where
  issued := List.mem_cons_self
  no_job r hr hid := hf (hid ▸ hi.job_issued r hr)
  no_claim n k hc := hf (hi.claim_issued _ n k hc)
  no_recovery n hr := hf (hi.recovered_issued _ n hr)

theorem noteJob_eq (e : Env) (job : BackgroundJobRecord) (h : History) :
    (noteJob e job h).claims = h.claims ∧ (noteJob e job h).recovered = h.recovered ∧
      (noteJob e job h).outcomes = h.outcomes ∧ (noteJob e job h).issued = h.issued ∧
      (noteJob e job h).sweeps = withSweep job h.sweeps ∧
      (noteJob e job h).looked = h.looked := by
  unfold noteJob withSweep
  split
  · rename_i htype
    simp [htype, noteCreated]
  · rename_i htype
    simp [htype]
  · rename_i htype
    simp [htype]

/-- The three statements of `create_job`, under a contract that allows the insertion where `P`
holds. -/
theorem createJob_from {K : Contract Event Env AppState} (hK : Patient K)
    {tenantId : Option Uuid} {jobType : JobType} {payload : JobPayload} {P : AppState → Prop}
    (hP : K.Stable i P) (hissue : ∀ s x, P s → P { s with history.issued := x :: s.history.issued })
    (hinv : ∀ s, K.inv s → JobInv s) (hadm : ∀ l e s, K.adm i l e s → admissible i l e s = true)
    (hunused : ∀ id, K.Stable i (Unused i id))
    (hcreate : ∀ s s' e, K.inv s → P s → K.adm i (.insertJob jobType tenantId) e s →
      JobAction app i (.insertJob jobType tenantId) e s s' →
      K.guar i (.insertJob jobType tenantId) e s s') :
    K.Triple i P (createJob tenantId jobType payload app.config.maxJobAttempts)
      fun _ _ => True := by
  have hready : ∀ id, K.Stable i fun s => Unused i id s ∧ P s := fun id => (hunused id).and hP
  have hid : K.Triple i P newUuid (onOk fun id s => Unused i id s ∧ P s) := by
    refine Triple.atomic hP (stable_onOk hready) fun s e hi hs _ ha => ?_
    obtain ⟨rfl, hf⟩ := not_issued_of_admissible (hadm _ e s ha)
    exact ⟨hK.issue _ e s hi ha, (hinv s hi).unused hf, hissue s _ hs⟩
  refine Triple.bind hid (fun id => ?_) fun _ _ _ _ => trivial
  refine Triple.bind (utcNow_keep hK (hready id)) (fun now => ?_) fun _ _ _ _ => trivial
  refine sql_from hK (hready id) fun s e hi hs ha hf => ?_
  refine hcreate s _ e hi hs.2 ha ?_
  dsimp only
  split
  · rename_i jobs hins
    have haction : ∀ job : BackgroundJobRecord, job.id = id → NewJob app job →
        s.db.jobs.insert job = some jobs → JobAction app i (.insertJob job.jobType job.tenantId) e s
          { s with db.jobs := jobs, history := noteJob e job s.history } := by
      rintro job rfl hnew hins
      obtain ⟨hc, hr, ho, hn, hsweeps, -⟩ := noteJob_eq e job s.history
      exact .create hs.1 hnew (Table.insert_eq_some hins).2 hc hr ho hn hf hsweeps
    exact haction _ rfl ⟨rfl, rfl, rfl, rfl, rfl⟩ hins
  · rename_i hnone
    obtain ⟨r, hr, hid⟩ := Table.insert_eq_none hnone
    exact absurd hid (hs.1.no_job r hr)

theorem createJob_safe {tenantId : Option Uuid} {jobType : JobType} {payload : JobPayload} :
    (jobContract app strict).Safe i
      (createJob tenantId jobType payload app.config.maxJobAttempts) :=
  createJob_from jobContract_tolerant.toPatient stable_const (fun _ _ h => h) (fun _ hi => hi)
    (fun _ _ _ ha => ha.1) (fun _ => unused_stable)
    fun _ _ _ _ _ _ h => ⟨h, fun _ => fenced_of_insertJob⟩

theorem requeueStaleJobs_safe {lease : Nat} :
    (jobContract app strict).Safe i (requeueStaleJobs lease) :=
  .bind (utcNow_safe jobContract_tolerant.toPatient) fun _ => sql_safe jobContract_tolerant.toPatient
    fun _ _ _ _ _ => ⟨.requeue, fun _ => fenced_of_quiet⟩

/-- A claim that succeeds is held. -/
theorem markJobRunning_claimed {jobId : Uuid} :
    (jobContract app strict).Triple i (fun _ => True) (markJobRunning jobId)
      (onOk fun o s => ∀ job, o = some job → Claimed strict i job s) := by
  refine sql_triple jobContract_tolerant.toPatient stable_const (fun o => ?_) fun s e hi _ ha _ => ?_
  · exact fun s s' k l e hi h hk hg job hj => claimed_stable s s' k l e hi (h job hj) hk hg
  · obtain ⟨hpid, -⟩ := not_issued_of_admissible ha.1
    rcases ho : (s.db.jobs.find? jobId).filter (isClaimable jobId e.now) with _ | row
    · exact ⟨⟨.quiet (.refl s), fun _ => fenced_of_quiet⟩, fun job hj => by cases hj⟩
    · obtain ⟨hfind, hp⟩ := Option.filter_eq_some_iff.mp ho
      obtain ⟨hm, rfl⟩ := Table.find?_eq_some.mp hfind
      have hq : row.status = .queued := by
        simp only [isClaimable, Bool.and_eq_true, decide_eq_true_eq] at hp
        exact hp.1.2
      refine ⟨⟨?_, fun _ => fenced_of_quiet⟩, fun job hj => ?_⟩
      · rw [hpid]
        exact .claim hm hq hp
      · obtain rfl := Option.some.inj hj
        have hrow : ∀ r ∈ s.db.jobs.update (isClaimable row.id e.now) (claimed e.now),
            r.id = row.id → r = claimed e.now row := fun r hr hid =>
          (mem_update_claimed hm hp hr).resolve_right fun h => h.2 hid
        refine ⟨by simp [claimed, hpid], fun ok h => ?_, fun r hr hid => ?_, fun r hr hid => ?_,
          fun r hr hid => ?_, fun _ => ?_⟩
        · obtain ⟨k, hk⟩ := hi.outcome_claimed _ _ ok h
          exact absurd (hi.claim_le row hm _ k hk) (Nat.not_succ_le_self _)
        · rw [hrow r hr hid]
        · rw [hrow r hr hid]
        · rw [hrow r hr hid]
        · refine .inr ⟨claimed e.now row, ?_, rfl, rfl, rfl⟩
          rw [Table.mem_update]
          exact ⟨row, hm, by simp [hp]⟩

/-! ### The outcome -/

/-- For a claim that the call has obtained, and that no recovery has ended, the row is still
running under it. -/
theorem fenced_of_claimed {job : BackgroundJobRecord} {e : Env} {s : AppState}
    (hc : Claimed strict i job s)
    (ha : strict → NotRecovered i (.outcome job.id job.attempts) e s) :
    strict → Fenced i (.outcome job.id job.attempts) e s := by
  rintro hs row n' ⟨hl, hf, hm⟩
  simp only [Event.outcome.injEq] at hl
  obtain ⟨hid, rfl⟩ := hl
  rcases hc.held hs with h | ⟨r, hr, hidr, hrun, hat⟩
  · exact absurd (hid ▸ h) (ha hs row _ ⟨by rw [hid], hf, hm⟩)
  · obtain rfl := Table.eq_of_key hr hm (hidr.trans hid)
    exact ⟨hrun, hat⟩

theorem Claimed.weaken {job : BackgroundJobRecord} {s : AppState} (h : Claimed strict i job s) :
    Claimed False i job s :=
  { h with held := False.elim }

section Outcome

variable {K : Contract Event Env AppState} (hK : Patient K) {job : BackgroundJobRecord}
  {P : AppState → Prop} (hP : K.Stable i P) (hclaim : ∀ s, P s → Claimed False i job s)
  (houtcome : ∀ s s' e, K.inv s → P s → K.adm i (.outcome job.id job.attempts) e s →
    JobAction app i (.outcome job.id job.attempts) e s s' →
    K.guar i (.outcome job.id job.attempts) e s s')
include hK hP hclaim houtcome

/-- A statement that writes an outcome of a claim that the call has obtained, under a contract
that allows it where `P` holds. -/
theorem outcome_from {ok : Bool} {f : Env → BackgroundJobRecord → BackgroundJobRecord}
    {hf : ∀ e, Table.KeepsKey BackgroundJobRecord.id (f e)}
    (ho : ∀ e, OutcomeOf e.now job ok (f e)) :
    K.Triple i P
      (sql (.outcome job.id job.attempts) fun e s => (.ok (), { s with
        db.jobs := s.db.jobs.update (fun r => r.id = job.id) (f e) (hf e)
        history.outcomes := (job.id, job.attempts, ok) :: s.history.outcomes }))
      fun _ _ => True := by
  refine sql_from hK hP fun s e hi hs ha hfault => houtcome s _ e hi hs ha ?_
  have hc := hclaim s hs
  exact .outcome hfault hc.claim hc.no_outcome hc.maxAttempts (ho e)

theorem completeJob_from {result : Value} :
    K.Triple i P (completeJob job.id job.attempts result) fun _ _ => True :=
  outcome_from hK hP hclaim houtcome fun _ => .complete result

theorem failJob_from {message : String} : K.Triple i P (failJob job message) fun _ _ => True :=
  Triple.bind (utcNow_keep hK hP)
    (fun _ => outcome_from hK hP hclaim houtcome fun _ => .fail _ message) fun _ _ _ _ => trivial

end Outcome

/-- A worker claims a job, runs it and writes the outcome: what holds of a claimed job, and holds
until the outcome, is `P`. -/
theorem processJob_of {K : Contract Event Env AppState} {P : BackgroundJobRecord → AppState → Prop}
    {rounds : Nat} {jobId : Uuid}
    (hclaim : K.Triple i (fun _ => True) (markJobRunning jobId)
      (onOk fun o s => ∀ job, o = some job → P job s))
    (hwork : ∀ job, K.Triple i (P job) (runJob app rounds job).attempt (onOk fun _ => P job))
    (hcomplete : ∀ job result,
      K.Triple i (P job) (completeJob job.id job.attempts result) fun _ _ => True)
    (hfail : ∀ job message, K.Triple i (P job) (failJob job message) fun _ _ => True) :
    K.Safe i (processJob app rounds jobId) := by
  refine Triple.bind hclaim (fun o => ?_) fun _ _ _ _ => trivial
  cases o with
  | none => exact Triple.pre Safe.done fun _ _ _ => trivial
  | some job =>
      refine (Triple.bind (hwork job) (fun r => ?_) fun _ _ _ _ => trivial).pre fun s _ h => h job rfl
      cases r with
      | ok result => exact hcomplete job result
      | error error => exact hfail job _

/-! ### The work between claim and outcome -/

/-- The claims, and the jobs that are running, are as they were. -/
structure JobsKept (_ : Event) (_ : Env) (s s' : AppState) : Prop where
  claims : s'.history.claims = s.history.claims
  recovered : s'.history.recovered = s.history.recovered
  outcomes : s'.history.outcomes = s.history.outcomes
  running : ∀ r ∈ s.db.jobs, r.status = .running → r ∈ s'.db.jobs
  subset : ∀ r ∈ s'.db.jobs, r ∈ s.db.jobs

theorem JobQuiet.kept {l : Event} {e : Env} {s s' : AppState} (h : JobQuiet s s') :
    JobsKept l e s s' :=
  ⟨h.claims, h.recovered, h.outcomes, fun _ hr _ => by rwa [h.jobs],
    fun _ hr => by rwa [h.jobs] at hr⟩

/-- The contract for the work of a job: it keeps the running jobs besides. -/
abbrev workContract (app : App) (strict : Prop) (i : Nat) : Contract Event Env AppState :=
  (jobContract app strict).within i JobsKept

/-- Work that keeps the running jobs keeps what a call knows of its claim. -/
theorem Claimed.kept {job : BackgroundJobRecord} {l : Event} {e : Env} {s s' : AppState}
    (h : Claimed strict i job s) (hk : JobsKept l e s s') : Claimed strict i job s' := by
  refine ⟨by rw [hk.claims]; exact h.claim, by rw [hk.outcomes]; exact h.no_outcome,
    fun r hr => h.maxAttempts r (hk.subset r hr), fun r hr => h.jobType r (hk.subset r hr),
    fun r hr => h.tenantId r (hk.subset r hr), fun hs => ?_⟩
  rcases h.held hs with hr | ⟨r, hr, hid, hrun, hat⟩
  · exact .inl (by rwa [hk.recovered])
  · exact .inr ⟨r, hk.running r hr hrun, hid, hrun, hat⟩

theorem claimed_lasting {job : BackgroundJobRecord} :
    (workContract app strict i).Lasting (Claimed strict i job) :=
  lasting_within claimed_stable fun _ _ _ _ _ h _ hk => h.kept hk

/-- The contract allows statements that have nothing to do with jobs. -/
structure TolerantOfWork (K : Contract Event Env AppState) : Prop extends Tolerant K where
  idle : ∀ i e s s', K.inv s → JobIdle s s' → K.guar i .quiet e s s'

theorem TolerantOfWork.kept {K : Contract Event Env AppState} (hK : TolerantOfWork K) :
    TolerantOfWork (K.within i JobsKept) where
  toTolerant := hK.toTolerant.within (fun _ _ s => (JobQuiet.refl s).kept)
    (fun _ _ _ h => h.jobQuiet.kept) fun _ _ => ⟨rfl, rfl, rfl, fun _ hr _ => hr, fun _ hr => hr⟩
  idle j e s s' hi h := ⟨hK.idle j e s s' hi h, fun _ => h.kept⟩

section Work

variable {K : Contract Event Env AppState} (hK : TolerantOfWork K)
include hK

/-- A statement of a job's work that has nothing to do with jobs. -/
theorem sql_work {A : Type} {ready : AppState → Bool}
    {run : Env → AppState → Except AppError A × AppState}
    (h : ∀ e s, JobIdle s (run e s).2) : K.Safe i (sqlWhen .quiet ready run) :=
  sqlWhen_safe hK.toPatient fun s e hi _ _ _ => hK.idle i e s _ hi (h e s)

theorem purgeTokens_keepsJobs {retentionDays : Nat} :
    K.Safe i (purgeStaleRefreshTokens retentionDays) :=
  .bind (.atomic fun s e hi _ _ => hK.idle i e s _ hi (.refl s)) fun _ =>
    sql_work hK fun _ _ => .of_db rfl rfl

theorem enqueueNotification_safe {n : NewNotification} {maxAttempts : Nat} :
    K.Safe i (enqueueNotification n maxAttempts) :=
  enqueue_safe hK.toPatient fun s e _ _ hi _ _ =>
    hK.idle i e s _ hi ⟨⟨rfl, rfl, rfl, rfl, rfl, rfl⟩, rfl⟩

theorem enqueueCandidates_safe {now : Time} {cs : List DueReminderCandidate} :
    K.Safe i (enqueueCandidates app now cs) := by
  induction cs with
  | nil => exact .done
  | cons c cs ih => exact .bind (enqueueNotification_safe hK) fun _ => .bind ih fun _ => .done

theorem processDueReminderJob_safe {tenantId : Option Uuid} :
    K.Safe i (processDueReminderJob app tenantId) :=
  .bind (recordDueReminders_safe hK.lenient) fun _ =>
    .bind (.bind (select_safe hK.toPatient) fun _ =>
      .bind (utcNow_safe hK.toPatient) fun _ => enqueueCandidates_safe hK) fun _ =>
    .bind (utcNow_safe hK.toPatient) fun _ => .done

/-- What a retention sweep does once it has purged the jobs. -/
theorem afterJobPurge_safe {refreshTokens jobs : Nat} :
    K.Safe i (do
      let notifications ← purgeTerminalNotifications app.config.notificationRetentionDays
      let auditEvents ← purgeOldAuditEvents app.config.auditRetentionDays
      let now ← utcNow
      return (.obj [("generated_at", .str (app.lib.jsonTime now)),
        ("refresh_tokens_purged", .num refreshTokens), ("jobs_purged", .num jobs),
        ("notifications_purged", .num notifications),
        ("audit_events_purged", .num auditEvents)] : Value)) :=
  .bind (sql_work hK fun _ _ => ⟨⟨rfl, rfl, rfl, rfl, rfl, rfl⟩, rfl⟩) fun _ =>
    .bind (sql_work hK fun _ _ => ⟨⟨rfl, rfl, rfl, rfl, rfl, rfl⟩, rfl⟩) fun _ =>
    .bind (utcNow_safe hK.toPatient) fun _ => .done

end Work

theorem jobContract_tolerantOfWork : TolerantOfWork (jobContract app strict) where
  toTolerant := jobContract_tolerant
  idle _ _ _ _ _ h := ⟨.quiet h.toJobQuiet, fun _ => fenced_of_quiet⟩

theorem workContract_tolerant : TolerantOfWork (workContract app strict i) :=
  jobContract_tolerantOfWork.kept

/-- The purge takes no running job. -/
theorem kept_of_purge {days : Nat} {now : Time} {l : Event} {e : Env} {s : AppState} :
    JobsKept l e s { s with db.jobs := s.db.jobs.delete (isPurgeable days now) } := by
  refine ⟨rfl, rfl, rfl, fun r hr hrun => ?_, fun r hr => (Table.mem_delete.mp hr).1⟩
  refine Table.mem_delete.mpr ⟨hr, ?_⟩
  simp [isPurgeable, hrun, JobStatus.terminal]

theorem purgeTerminalJobs_safe :
    (workContract app strict i).Safe i (purgeTerminalJobs app.config.jobRetentionDays) :=
  sql_safe workContract_tolerant.toPatient fun _ _ _ _ _ =>
    ⟨⟨.purge, fun _ => fenced_of_quiet⟩, fun _ => kept_of_purge⟩

theorem processRetentionJob_safe :
    (workContract app strict i).Safe i (processRetentionJob app) :=
  .bind (purgeTokens_keepsJobs workContract_tolerant) fun _ =>
    .bind purgeTerminalJobs_safe fun _ => afterJobPurge_safe workContract_tolerant

theorem runJob_safe {rounds : Nat} {job : BackgroundJobRecord} :
    (workContract app strict i).Safe i (runJob app rounds job) := by
  unfold runJob
  cases job.jobType with
  | taskExport =>
      cases job.payload with
      | taskExport => exact processExportJob_safe workContract_tolerant.lenient.discreet
      | dueReminder => exact .fail
      | empty => exact .fail
  | dueReminderSweep => exact processDueReminderJob_safe workContract_tolerant
  | retentionSweep => exact processRetentionJob_safe

theorem processJob_safe {rounds : Nat} {jobId : Uuid} :
    (jobContract app strict).Safe i (processJob app rounds jobId) :=
  have houtcome : ∀ job s s' e, JobInv s → Claimed strict i job s →
      (jobContract app strict).adm i (.outcome job.id job.attempts) e s →
      JobAction app i (.outcome job.id job.attempts) e s s' →
      (jobContract app strict).guar i (.outcome job.id job.attempts) e s s' :=
    fun _ _ _ _ _ hc ha h => ⟨h, fenced_of_claimed hc ha.2⟩
  have hP := jobContract_tolerant.toPatient
  processJob_of markJobRunning_claimed
    (fun _ => (runJob_safe.attempt.carry claimed_lasting).of_within)
    (fun job _ => completeJob_from hP claimed_stable (fun _ h => h.weaken) (houtcome job))
    (fun job _ => failJob_from hP claimed_stable (fun _ h => h.weaken) (houtcome job))

/-! ### The other calls -/

section Calls

variable {K : Contract Event Env AppState} (hK : TolerantOfWork K)
include hK

theorem enqueueCreated_safe {o : Option BackgroundJobRecord} : K.Safe i (enqueueCreated o) := by
  cases o with
  | none => exact .done
  | some job => exact enqueueJob_safe hK.lenient

theorem enqueueAll_safe {jobIds : List Uuid} : K.Safe i (enqueueAll jobIds) := by
  induction jobIds with
  | nil => exact .done
  | cons jobId jobIds ih => exact .bind (enqueueJob_safe hK.lenient) fun _ => ih

/-- The calls keep to a contract to which their statements on the jobs keep. -/
theorem jobCall_of
    (hexport : ∀ tenantId payload,
      K.Safe i (createJob tenantId .taskExport payload app.config.maxJobAttempts))
    (hreminder : ∀ tenantId, K.Safe i (ensureDueReminderJob tenantId app.config.maxJobAttempts))
    (hensure : K.Safe i (ensureRetentionJob app.config.retentionSweepIntervalHours
      app.config.maxJobAttempts))
    (hrequeue : ∀ lease, K.Safe i (requeueStaleJobs lease))
    (hprocess : ∀ rounds jobId, K.Safe i (processJob app rounds jobId)) (k : JobCall) :
    K.Safe i ((jobSystem app).body k) := by
  cases k with
  | createExportJob =>
      exact .bind (.bind (hexport _ _) fun _ =>
        .bind (enqueueJob_safe hK.lenient) fun _ => .done) fun _ => .done
  | enqueueDueReminderSweep =>
      exact .bind (.bind (hreminder _) fun _ =>
        .bind (enqueueCreated_safe hK) fun _ => .done) fun _ => .done
  | enqueueRetentionSweep =>
      exact .bind (.bind hensure fun _ =>
        .bind (enqueueCreated_safe hK) fun _ => .done) fun _ => .done
  | dispatchReadyJobs =>
      exact .bind (select_safe hK.toPatient) fun _ => enqueueAll_safe hK
  | reapStaleJobs => exact .bind (hrequeue _) fun _ => .done
  | processJob => exact hprocess _ _

end Calls

/-- A sweep of a tenant's reminders is created where none is found, if a job may be created at
all. -/
theorem ensureDueReminderJob_of {K : Contract Event Env AppState} (hK : Patient K)
    {tenantId : Option Uuid} (hcreate : ∀ payload,
      K.Safe i (createJob tenantId .dueReminderSweep payload app.config.maxJobAttempts)) :
    K.Safe i (ensureDueReminderJob tenantId app.config.maxJobAttempts) :=
  .bind (select_safe hK) fun _ => .ite (fun _ => .done) fun _ =>
    .bind (hcreate _) fun _ => .done

theorem ensureRetentionJob_safe {intervalHours : Nat} :
    (jobContract app strict).Safe i
      (ensureRetentionJob intervalHours app.config.maxJobAttempts) :=
  .bind (sql_safe jobContract_tolerant.toPatient fun _ _ _ _ _ =>
      ⟨.quiet ⟨rfl, rfl, rfl, rfl, rfl, rfl⟩, fun _ => fenced_of_quiet⟩) fun _ =>
    .ite (fun _ => .done) fun _ => .bind createJob_safe fun _ => .done

theorem jobCall_safe (k : JobCall) :
    (jobContract app strict).Safe i ((jobSystem app).body k) :=
  jobCall_of jobContract_tolerantOfWork (fun _ _ => createJob_safe)
    (fun _ => ensureDueReminderJob_of jobContract_tolerant.toPatient fun _ => createJob_safe)
    ensureRetentionJob_safe (fun _ => requeueStaleJobs_safe) (fun _ _ => processJob_safe) k

end Fluxa
