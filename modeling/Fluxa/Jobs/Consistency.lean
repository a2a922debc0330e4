import Fluxa.Jobs.Fencing

/-!
# Jobs — consistency of the rows

The statements on `background_jobs` each assign some of the columns, and an outcome may come late, to a row in any status.

* **`jobs_consistent`**: in every run the columns of every job agree with its status, and a job disappears only when it has ended and its retention is over.
-/

namespace Fluxa
open Interleave Relational Db Contract Jobs

variable {app : App} {i : Nat}

/-- The columns of a job agree with its status. -/
structure Consistent (r : BackgroundJobRecord) : Prop where
  finished : r.finishedAt.isSome = true ↔ r.status.terminal = true
  result : r.status = .completed → r.resultPayload.isSome = true
  started : r.status = .running → r.startedAt.isSome = true

/-- All jobs are consistent. -/
def JobsConsistent (s : AppState) : Prop := ∀ r ∈ s.db.jobs, Consistent r

/-- A job that the statement makes disappear is completed or dead, and has finished before the
cutoff of the retention. -/
def RemovesFinished (app : App) (e : Env) (s s' : AppState) : Prop :=
  ∀ r ∈ s.db.jobs, (∀ r' ∈ s'.db.jobs, r'.id ≠ r.id) → r.status.terminal = true ∧
    ∃ t, r.finishedAt = some t ∧ t + seconds (app.config.jobRetentionDays * 24 * 3600) < e.now

/-! ### The statements, one by one -/

namespace Consistent

variable {r job : BackgroundJobRecord} {now : Time}

theorem new (h : NewJob app r) : Consistent r where
  finished := by simp [h.finishedAt, h.status, JobStatus.terminal]
  result := by simp [h.status]
  started := by simp [h.status]

theorem claimed (h : Consistent r) (hq : r.status = .queued) : Consistent (claimed now r) where
  finished := by simpa [Db.claimed, hq, JobStatus.terminal] using h.finished
  result := by simp [Db.claimed]
  started := by simp [Db.claimed]

theorem requeued (h : Consistent r) (hr : r.status = .running) : Consistent (requeued now r) := by
  have hf : r.finishedAt = none := by simpa [hr, JobStatus.terminal] using h.finished
  by_cases hlast : r.attempts ≥ r.maxAttempts
  · exact ⟨by simp [Db.requeued, hlast, JobStatus.terminal], by simp [Db.requeued, hlast],
      by simp [Db.requeued, hlast]⟩
  · exact ⟨by simp [Db.requeued, hlast, hf, JobStatus.terminal], by simp [Db.requeued, hlast],
      by simp [Db.requeued, hlast]⟩

/-- An outcome leaves any row consistent, whatever it was. -/
theorem outcome {ok : Bool} {f : BackgroundJobRecord → BackgroundJobRecord}
    (h : OutcomeOf now job ok f) : Consistent (f r) := by
  cases h with
  | complete result => exact ⟨by simp [completed, JobStatus.terminal], by simp [completed],
      by simp [completed]⟩
  | fail nextTime message =>
      by_cases hlast : job.attempts ≥ job.maxAttempts
      · exact ⟨by simp [failed, hlast, JobStatus.terminal], by simp [failed, hlast],
          by simp [failed, hlast]⟩
      · exact ⟨by simp [failed, hlast, JobStatus.terminal], by simp [failed, hlast],
          by simp [failed, hlast]⟩

end Consistent

theorem running_of_isStale {cutoff : Time} {r : BackgroundJobRecord} (h : isStale cutoff r = true) :
    r.status = .running := by
  simp only [isStale, Bool.and_eq_true, decide_eq_true_eq] at h
  exact h.1

/-- Every action keeps the jobs consistent. -/
theorem JobAction.consistent {l : Event} {e : Env} {s s' : AppState} (hs : JobsConsistent s)
    (h : JobAction app i l e s s') : JobsConsistent s' := by
  intro r hr
  cases h with
  | idle => exact hs r hr
  | quiet h => exact hs r (by rwa [h.jobs] at hr)
  | issue => exact hs r hr
  | create _ hnew hj =>
      rcases (hj r).mp hr with h | rfl
      · exact hs r h
      · exact .new hnew
  | claim hm hq hp =>
      rcases mem_update_claimed hm hp hr with rfl | ⟨h, -⟩
      · exact (hs _ hm).claimed hq
      · exact hs r h
  | requeue =>
      simp only [Table.mem_update] at hr
      obtain ⟨r₀, h₀, rfl⟩ := hr
      split
      · exact (hs r₀ h₀).requeued (running_of_isStale ‹_›)
      · exact hs r₀ h₀
  | outcome _ _ _ _ ho =>
      simp only [Table.mem_update] at hr
      obtain ⟨r₀, h₀, rfl⟩ := hr
      split
      · exact .outcome ho
      · exact hs r₀ h₀
  | purge => exact hs r (Table.mem_delete.mp hr).1

/-- An action other than the purge keeps the jobs there are, and the purge removes finished
ones. -/
theorem JobAction.removesFinished {l : Event} {e : Env} {s s' : AppState} (hs : JobsConsistent s)
    (h : JobAction app i l e s s') : RemovesFinished app e s s' := by
  intro r hr hgone
  have kept : ∀ p f hf, ¬ ∀ r' ∈ s.db.jobs.update p f hf, r'.id ≠ r.id := by
    intro p f hf hgone
    obtain ⟨b, hb, hid⟩ := Table.exists_mem_update hr p f hf
    exact hgone b hb hid
  cases h with
  | idle => exact absurd rfl (hgone r hr)
  | quiet h => exact absurd rfl (hgone r (by rwa [h.jobs]))
  | issue => exact absurd rfl (hgone r hr)
  | create _ _ hj => exact absurd rfl (hgone r ((hj r).mpr (.inl hr)))
  | @claim e _ => exact absurd hgone (kept _ (claimed e.now) ⟨fun _ => rfl⟩)
  | @requeue e _ => exact absurd hgone (kept _ (requeued e.now) ⟨fun _ => rfl⟩)
  | @outcome _ _ _ _ _ hf => exact absurd hgone (kept _ _ hf)
  | purge =>
      have hp : isPurgeable app.config.jobRetentionDays e.now r = true := by
        by_contra hp
        exact hgone r (Table.mem_delete.mpr ⟨hr, by simpa using hp⟩) rfl
      have ht := terminal_of_isPurgeable hp
      obtain ⟨t, hfin⟩ := Option.isSome_iff_exists.mp ((hs r hr).finished.mpr ht)
      refine ⟨ht, t, hfin, ?_⟩
      simpa [isPurgeable, ht, hfin] using hp

/-- In every run of calls on jobs, late outcomes included, the columns of the jobs agree with
their status in every state reached, and only finished jobs past their retention disappear. -/
theorem jobs_consistent {s : AppState} {ms : List (Move Env JobCall)}
    {c : Config Event Env AppState AppError JobCall Unit} (hs : JobStart s)
    (hrows : JobsConsistent s) (h : (jobSystem app).exec (.start s) ms = some c) :
    JobsConsistent c.st ∧
      (jobSystem app).Along (fun d m => ∀ d', (jobSystem app).step d m = some d' →
        d.Meets (fun _ _ e s => RemovesFinished app e s d'.st) m) (.start s) ms :=
  Contract.invariant (K := jobContract app False)
    (R := fun _ _ e s s' => RemovesFinished app e s s') (fun _ k => jobCall_safe k)
    (fun _ _ _ _ ha (_ : True) => ⟨ha, fun h => h.elim⟩)
    (fun _ _ _ _ _ _ _ _ hP hg => ⟨hg.1.consistent hP, hg.1.removesFinished hP⟩) hs.inv hrows
    (System.along_of_forall fun _ _ _ _ _ _ _ => trivial) h

/-- The run in which a late outcome puts a completed job back into the queue. -/
theorem jobs_consistent_lateOutcome :
    ∃ c, (jobSystem default).exec (.start oneJob) (staleRun ++ [jobMove 0 303 .none]) = some c ∧
      JobsConsistent c.st := by
  have h : ((jobSystem default).exec (.start oneJob)
      (staleRun ++ [jobMove 0 303 .none])).isSome := by decide
  obtain ⟨c, hc⟩ := Option.isSome_iff_exists.mp h
  have hrows : JobsConsistent oneJob := by
    intro r hr
    obtain rfl := List.mem_singleton.mp hr
    exact ⟨by decide, by decide, by decide⟩
  exact ⟨c, hc, (jobs_consistent oneJob_start hrows hc).1⟩

end Fluxa
