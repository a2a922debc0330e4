import Fluxa.Jobs.Actions

/-!
# Jobs — fencing of outcomes

An outcome is written to the row with the job's identifier, whatever has become of the row since it was claimed.

* **`fenced_iff_not_recovered`**: in every run, each outcome finds the row still running under the claim it belongs to exactly when no outcome is written for a claim that a lease recovery has ended; and then no outcome changes a terminal row or the row of a later claim.
* **`stale_outcome_lands`**: a worker that outlives its lease fails the job that a second worker has completed.
-/

namespace Fluxa
open Interleave Relational Db Contract Jobs

variable {app : App} {strict : Prop} {i : Nat}

/-! ### Runs -/

abbrev JobConfig := Config Event Env AppState AppError JobCall Unit

/-- The move writes no outcome to a terminal row, to another job or to the row of a later
claim. -/
def KeepsSettled (app : App) (c : JobConfig) (m : Move Env JobCall) : Prop :=
  ∀ i e d j n, m = .exec i e → c.label? i = some (.outcome j n) →
    (jobSystem app).step c m = some d → ∀ r ∈ c.st.db.jobs,
      r.status.terminal = true ∨ r.id ≠ j ∨ n < r.attempts → r ∈ d.st.db.jobs

theorem jobSystem_step {c d : JobConfig} {m : Move Env JobCall}
    (hc : Keeps (jobContract app strict) (fun _ _ _ _ => True) c)
    (hm : c.Meets (fun i l e s => strict → NotRecovered i l e s) m)
    (h : (jobSystem app).step c m = some d) :
    Keeps (jobContract app strict) (fun _ _ _ _ => True) d :=
  keeps_step (fun _ k => jobCall_safe k) (fun _ _ _ _ ha hn => ⟨ha, hn⟩) hc hm h

/-- A statement is fenced as long as no claim has been recovered for which it writes. -/
theorem JobAction.settled {l : Event} {e : Env} {s s' : AppState} {j : Uuid} {n : Nat}
    (h : JobAction app i l e s s') (hl : l = .outcome j n) (hf : Fenced i l e s)
    {r : BackgroundJobRecord} (hr : r ∈ s.db.jobs)
    (hset : r.status.terminal = true ∨ r.id ≠ j ∨ n < r.attempts) : r ∈ s'.db.jobs := by
  cases h with
  | idle => exact hr
  | @outcome _ _ job ok f hk hfault _ _ _ _ =>
      cases hl
      have hne : r.id ≠ job.id := by
        intro hid
        obtain ⟨hrun, hat⟩ := hf r job.attempts ⟨by rw [hid], hfault, hr⟩
        rcases hset with ht | hne | hlt
        · simp [hrun, JobStatus.terminal] at ht
        · exact hne hid
        · exact absurd hat (Nat.ne_of_gt hlt)
      exact Table.mem_update_of_false hr (by simpa using hne) hk
  | _ => cases hl

/-- In every run, an outcome is always written to a row that is running under the claim it
belongs to exactly when none is written for a claim that a lease recovery has ended; and then no
outcome changes a terminal row or the row of a later claim. -/
theorem fenced_iff_not_recovered {app : App} {s : AppState} {ms : List (Move Env JobCall)}
    {c : JobConfig} (hs : JobStart s) (h : (jobSystem app).exec (.start s) ms = some c) :
    ((jobSystem app).Along (fun d m => d.Meets Fenced m) (.start s) ms ↔
        (jobSystem app).Along (fun d m => d.Meets NotRecovered m) (.start s) ms) ∧
      ((jobSystem app).Along (fun d m => d.Meets NotRecovered m) (.start s) ms →
        (jobSystem app).Along (KeepsSettled app) (.start s) ms) := by
  have hk : ∀ strict, Keeps (jobContract app strict) (fun _ _ _ _ => True) (.start s : JobConfig) :=
    fun _ => keeps_start hs.inv
  have hfence : ∀ (c d : JobConfig) (m : Move Env JobCall),
      Keeps (jobContract app True) (fun _ _ _ _ => True) c → c.Meets NotRecovered m →
      (jobSystem app).step c m = some d → ∀ i e, m = .exec i e → ∀ l, c.label? i = some l →
      JobAction app i l e c.st d.st ∧ Fenced i l e c.st := by
    rintro c d m hc hm hd i e rfl l hl
    have hg := hc.guar_of_meets (fun _ _ _ _ ha hn => ⟨ha, fun _ => hn⟩) hm hd hl
    exact ⟨hg.1, hg.2 trivial⟩
  have hstep : ∀ (c : JobConfig) m d, Keeps (jobContract app True) (fun _ _ _ _ => True) c →
      c.Meets NotRecovered m → (jobSystem app).step c m = some d →
      Keeps (jobContract app True) (fun _ _ _ _ => True) d := fun c m d hc hm hd =>
    jobSystem_step hc (fun i e he l hl _ => hm i e he l hl) hd
  refine ⟨⟨fun hf => ?_, fun hn => ?_⟩, fun hn => ?_⟩
  · refine hf.of_invariant (I := Keeps (jobContract app False) fun _ _ _ _ => True) ?_ ?_ (hk False) h
    · exact fun c m d hc _ hd => jobSystem_step hc (fun _ _ _ _ _ hF => hF.elim) hd
    · rintro c m d hc hm - i e rfl l hl row n hw
      -- A row that is running is running under a claim that has not been recovered.
      obtain ⟨hrun, rfl⟩ := hm i e rfl l hl row n hw
      exact hc.1.not_recovered row hw.2.2 hrun
  · refine hn.of_invariant hstep ?_ (hk True) h
    exact fun c m d hc hm hd i e he l hl => (hfence c d m hc hm hd i e he l hl).2
  · refine hn.of_invariant hstep ?_ (hk True) h
    intro c m d hc hm hd i e d' j n he hl hd' r hr hset
    obtain rfl := Option.some.inj (hd.symm.trans hd')
    obtain ⟨ha, hf⟩ := hfence c d m hc hm hd i e he _ hl
    exact ha.settled rfl hf hr hset

/-! ### A worker that outlives its lease -/

/-- One retention job, queued. -/
def oneJob : AppState :=
  { (default : AppState) with
    db.jobs := ⟨[{ id := 1, tenantId := none, jobType := .retentionSweep, status := .queued,
                   attempts := 0, maxAttempts := 5, scheduledAt := 0, startedAt := none,
                   finishedAt := none, payload := .empty, resultPayload := none,
                   lastError := none }], by decide⟩
    history.issued := [(1, 0)] }

theorem oneJob_start : JobStart oneJob where
  issued_once id i j hi hj := by
    simp only [oneJob, List.mem_singleton, Prod.mk.injEq] at hi hj
    rw [hi.2, hj.2]
  job_issued r hr := by
    obtain rfl := List.mem_singleton.mp hr
    exact ⟨0, List.mem_singleton.mpr rfl⟩
  claims := rfl
  recovered := rfl
  outcomes := rfl

/-- A statement at the time given in seconds. -/
def jobMove (i : Nat) (second : Nat) (fault : Fault) : Move Env JobCall :=
  .exec i { (default : Env) with pid := i, now := seconds second, uuid := 2, fault }

/-- Worker 0 claims the job and stalls; the lease is recovered after 300 seconds; worker 2 claims
the job and completes it; then the first purge of worker 0 fails. -/
def staleRun : List (Move Env JobCall) :=
  [.call (.processJob 0 1), jobMove 0 1 .none, .call .reapStaleJobs, jobMove 1 301 .none,
    jobMove 1 301 .none, .call (.processJob 0 1)] ++ List.replicate 8 (jobMove 2 302 .none) ++
  [jobMove 0 303 .none, jobMove 0 303 .failed, jobMove 0 303 .none]

/-- The equivalence at that run. -/
theorem fenced_iff_not_recovered_staleRun :
    ∃ c, (jobSystem default).exec (.start oneJob) staleRun = some c ∧
      ((jobSystem default).Along (fun d m => d.Meets Fenced m) (.start oneJob) staleRun ↔
        (jobSystem default).Along (fun d m => d.Meets NotRecovered m) (.start oneJob) staleRun) := by
  have h : ((jobSystem default).exec (.start oneJob) staleRun).isSome := by decide
  obtain ⟨c, hc⟩ := Option.isSome_iff_exists.mp h
  exact ⟨c, hc, (fenced_iff_not_recovered oneJob_start hc).1⟩

/-- The late outcome of worker 0 puts the completed job back into the queue. -/
theorem stale_outcome_lands :
    JobStart oneJob ∧
      ∃ c d, (jobSystem default).exec (.start oneJob) staleRun = some c ∧
        (jobSystem default).step c (jobMove 0 303 .none) = some d ∧
        (c.st.db.jobs.find? 1).map (fun r => (r.status, r.attempts)) = some (.completed, 2) ∧
        (d.st.db.jobs.find? 1).map (fun r => (r.status, r.attempts)) = some (.queued, 2) ∧
        ¬ (jobSystem default).Along (fun d m => d.Meets Fenced m) (.start oneJob)
          (staleRun ++ [jobMove 0 303 .none]) := by
  have h : (((jobSystem default).exec (.start oneJob) staleRun).bind fun c =>
      ((jobSystem default).step c (jobMove 0 303 .none)).map fun d =>
        ((c.st.db.jobs.find? 1).map fun r => (r.id, r.status, r.attempts),
          (d.st.db.jobs.find? 1).map fun r => (r.status, r.attempts), c.label? 0)) =
      some (some (1, .completed, 2), some (.queued, 2), some (.outcome 1 1)) := by decide
  obtain ⟨c, hc, h⟩ := Option.bind_eq_some_iff.mp h
  obtain ⟨d, hd, h⟩ := Option.map_eq_some_iff.mp h
  obtain ⟨hrow, hlate, hl⟩ := by simpa only [Prod.mk.injEq] using h
  obtain ⟨r, hfind, hr⟩ := Option.map_eq_some_iff.mp hrow
  simp only [Prod.mk.injEq] at hr
  obtain ⟨hid, hst, hat⟩ := hr
  refine ⟨oneJob_start, c, d, hc, hd, by simp [hfind, hst, hat], hlate, ?_⟩
  intro hf
  obtain ⟨hrun, -⟩ := hf.last hc 0 _ rfl _ hl r 1
    ⟨by rw [hid], by decide, (Table.find?_eq_some.mp hfind).1⟩
  rw [hst] at hrun
  cases hrun

end Fluxa
