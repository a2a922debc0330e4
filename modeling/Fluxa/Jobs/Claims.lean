import Fluxa.Interleave.Crash
import Fluxa.Jobs.Fencing

/-!
# Jobs — safety of claims

Workers may die at any moment, and ids reach them any number of times or not at all.  What keeps two of them from running one job is the lease: a claim is recovered only when its execution has died or ended.

* **`job_claims_safe`**: on every run that respects the leases, each job has at most one live execution, its attempts count the claims on it and stay within their bound, a queued job has attempts left, and one whose last attempt was lost or failed is dead and never claimed again.
-/

namespace Fluxa
open Interleave Relational Db Contract Jobs

variable {app : App} {i : Nat}

abbrev JobMortal := Mortal Event Env AppState AppError JobCall Unit

/-! ### Live executions -/

/-- Call `i` is a live execution of claim number `n` on the job: it has obtained the claim, is not
dead, has not ended, and has not written an outcome. -/
structure Live (c : JobMortal) (i : Nat) (j : Uuid) (n : Nat) : Prop where
  claim : (j, n, i) ∈ c.config.st.history.claims
  alive : i ∉ c.dead
  unfinished : c.config.result? i = none
  no_outcome : ∀ ok, (j, n, ok) ∉ c.config.st.history.outcomes

/-- The leases are long enough: no claim has been recovered whose execution is still live. -/
def LeasesKept (c : JobMortal) : Prop :=
  ∀ i j n, Live c i j n → (j, n) ∉ c.config.st.history.recovered

instance : DecidablePred LeasesKept := fun c =>
  decidable_of_iff (∀ x ∈ c.config.st.history.recovered, ∀ y ∈ c.config.st.history.claims,
    (y.1, y.2.1) = x → y.2.2 ∈ c.dead ∨ (c.config.result? y.2.2).isSome ∨
      ∃ o ∈ c.config.st.history.outcomes, (o.1, o.2.1) = x) <| by
    refine ⟨fun h i j n hl hrec => ?_, fun h x hx y hy hxy => ?_⟩
    · rcases h _ hrec _ hl.claim rfl with hd | hr | ⟨o, ho, hx⟩
      · exact hl.alive hd
      · simp [hl.unfinished] at hr
      · simp only [Prod.mk.injEq] at hx
        exact hl.no_outcome o.2.2 (by rw [← hx.1, ← hx.2]; exact ho)
    · obtain ⟨j, n, k⟩ := y
      by_contra hno
      simp only [not_or, not_exists, not_and] at hno
      subst hxy
      refine h k j n ⟨hy, hno.1, ?_, fun ok hok => hno.2.2 _ hok rfl⟩ hx
      simpa using hno.2.1

/-- Claim number `n` on the job has been lost to a recovery, or has failed. -/
def LostOrFailed (s : AppState) (j : Uuid) (n : Nat) : Prop :=
  (j, n) ∈ s.history.recovered ∨ (j, n, false) ∈ s.history.outcomes

/-- How many claims have been obtained on the job. -/
def claimCount (s : AppState) (j : Uuid) : Nat := s.history.claims.countP fun c => c.1 = j

/-! ### The invariant -/

/-- What holds of the claims on runs that respect the leases. -/
structure ClaimInv (s : AppState) : Prop where
  bound_pos : ∀ r ∈ s.db.jobs, 0 < r.maxAttempts
  counted : ∀ r ∈ s.db.jobs, claimCount s r.id = r.attempts
  bounded : ∀ r ∈ s.db.jobs, r.attempts ≤ r.maxAttempts
  queued_lt : ∀ r ∈ s.db.jobs, r.status = .queued → r.attempts < r.maxAttempts
  /-- A claim has been recovered, has got its outcome, or is the one its job is running under. -/
  settled : ∀ j n k, (j, n, k) ∈ s.history.claims → Held j n s ∨ ∃ ok, (j, n, ok) ∈ s.history.outcomes
  spent_dead : ∀ r ∈ s.db.jobs, LostOrFailed s r.id r.maxAttempts → r.status = .deadLetter

/-- The jobs there are have just been created, and their history starts here. -/
structure FreshJobs (s : AppState) : Prop where
  start : JobStart s
  queued : ∀ r ∈ s.db.jobs, r.status = .queued
  unclaimed : ∀ r ∈ s.db.jobs, r.attempts = 0
  bound_pos : ∀ r ∈ s.db.jobs, 0 < r.maxAttempts

theorem FreshJobs.inv {s : AppState} (h : FreshJobs s) : ClaimInv s where
  bound_pos := h.bound_pos
  counted r hr := by simp [claimCount, h.start.claims, h.unclaimed r hr]
  bounded r hr := by simp [h.unclaimed r hr]
  queued_lt r hr _ := by simpa [h.unclaimed r hr] using h.bound_pos r hr
  settled j n k hc := by simp [h.start.claims] at hc
  spent_dead r _ hs := by simp [LostOrFailed, h.start.recovered, h.start.outcomes] at hs

theorem not_lostOrFailed_of_unused {s : AppState} {id : Uuid} {n : Nat} (hi : JobInv s)
    (hu : Unused i id s) : ¬ LostOrFailed s id n := by
  rintro (hr | ho)
  · exact hu.no_recovery n hr
  · obtain ⟨k, hk⟩ := hi.outcome_claimed id n false ho
    exact hu.no_claim n k hk

/-- An outcome for a claim that has not been recovered finds its job running under the claim. -/
theorem JobAction.fenced {l : Event} {e : Env} {s s' : AppState} (hs : ClaimInv s)
    (h : JobAction app i l e s s') (hn : NotRecovered i l e s) : Fenced i l e s := by
  intro row n hw
  have hnr := hn row n hw
  obtain ⟨hl, hfault, hm⟩ := hw
  cases h with
  | idle hf => exact absurd hf hfault
  | @outcome _ _ job ok f hf _ hc hfirst _ _ =>
      simp only [Event.outcome.injEq] at hl
      obtain ⟨hid, rfl⟩ := hl
      rcases hs.settled _ _ _ hc with (hrec | ⟨r, hr, hidr, hrun, hat⟩) | ⟨ok', hok⟩
      · exact absurd (hid ▸ hrec) hnr
      · obtain rfl := Table.eq_of_key hr hm (hidr.trans hid)
        exact ⟨hrun, hat⟩
      · exact absurd hok (hfirst ok')
  | _ => cases hl

namespace ClaimInv

variable {s s' : AppState}

/-- The invariant looks only at the jobs and at their part of the history. -/
theorem of_same (hs : ClaimInv s) (hj : s'.db.jobs = s.db.jobs)
    (hc : s'.history.claims = s.history.claims) (hr : s'.history.recovered = s.history.recovered)
    (ho : s'.history.outcomes = s.history.outcomes) : ClaimInv s' := by
  refine ⟨?_, ?_, ?_, ?_, ?_, ?_⟩ <;> simp only [claimCount, Held, LostOrFailed, hj, hc, hr, ho]
  · exact hs.bound_pos
  · exact hs.counted
  · exact hs.bounded
  · exact hs.queued_lt
  · exact hs.settled
  · exact hs.spent_dead

theorem create (hs : ClaimInv s) (hi : JobInv s) (hmax : 0 < app.config.maxJobAttempts)
    {job : BackgroundJobRecord} (hu : Unused i job.id s) (hnew : NewJob app job)
    (hj : ∀ r, r ∈ s'.db.jobs ↔ r ∈ s.db.jobs ∨ r = job)
    (hc : s'.history.claims = s.history.claims) (hr : s'.history.recovered = s.history.recovered)
    (ho : s'.history.outcomes = s.history.outcomes) : ClaimInv s' := by
  have hpos : 0 < job.maxAttempts := hnew.maxAttempts ▸ hmax
  refine ⟨?_, ?_, ?_, ?_, ?_, ?_⟩ <;> simp only [claimCount, Held, LostOrFailed, hj, hc, hr, ho]
  · rintro r (h | rfl)
    · exact hs.bound_pos r h
    · exact hpos
  · rintro r (h | rfl)
    · exact hs.counted r h
    · rw [hnew.attempts, List.countP_eq_zero]
      rintro ⟨j, n, k⟩ hk
      simpa using fun hid : j = r.id => hu.no_claim n k (hid ▸ hk)
  · rintro r (h | rfl)
    · exact hs.bounded r h
    · simp [hnew.attempts]
  · rintro r (h | rfl) hq
    · exact hs.queued_lt r h hq
    · simpa [hnew.attempts] using hpos
  · intro j n k hk
    refine (hs.settled j n k hk).imp_left fun hh => hh.imp_right ?_
    rintro ⟨r, h, hrest⟩
    exact ⟨r, .inl h, hrest⟩
  · rintro r (h | rfl) hspent
    · exact hs.spent_dead r h hspent
    · exact absurd hspent (not_lostOrFailed_of_unused hi hu)

theorem claim (hs : ClaimInv s) {row : BackgroundJobRecord} {now : Time} (hm : row ∈ s.db.jobs)
    (hq : row.status = .queued) (hp : isClaimable row.id now row = true) :
    ClaimInv { s with
      db.jobs := s.db.jobs.update (isClaimable row.id now) (claimed now)
      history.claims := (row.id, row.attempts + 1, i) :: s.history.claims } := by
  have hlt := hs.queued_lt row hm hq
  refine ⟨fun r h => ?_, fun r h => ?_, fun r h => ?_, fun r h hq' => ?_, fun j n k h => ?_,
    fun r h hspent => ?_⟩
  · rcases mem_update_claimed hm hp h with rfl | ⟨h, -⟩
    · exact hs.bound_pos row hm
    · exact hs.bound_pos r h
  · rcases mem_update_claimed hm hp h with rfl | ⟨h, hne⟩
    · rw [claimCount, List.countP_cons_of_pos (by simp [claimed])]
      exact congrArg (· + 1) (hs.counted row hm)
    · rw [claimCount, List.countP_cons_of_neg (by simpa using Ne.symm hne)]
      exact hs.counted r h
  · rcases mem_update_claimed hm hp h with rfl | ⟨h, -⟩
    · exact hlt
    · exact hs.bounded r h
  · rcases mem_update_claimed hm hp h with rfl | ⟨h, -⟩
    · cases hq'
    · exact hs.queued_lt r h hq'
  · rcases List.mem_cons.mp h with h | h
    · cases h
      refine .inl (.inr ⟨claimed now row, ?_, rfl, rfl, rfl⟩)
      rw [Table.mem_update]
      exact ⟨row, hm, by simp [hp]⟩
    · refine (hs.settled j n k h).imp_left fun hh => hh.imp_right ?_
      rintro ⟨r, hr, hid, hrun, hat⟩
      exact ⟨r, Table.mem_update_of_false hr (by simp [isClaimable, hrun]), hid, hrun, hat⟩
  · rcases mem_update_claimed hm hp h with rfl | ⟨h, -⟩
    · have := hs.spent_dead row hm hspent
      rw [hq] at this
      cases this
    · exact hs.spent_dead r h hspent

/-- A row after a recovery. -/
theorem mem_update_requeued {cutoff now : Time} {r : BackgroundJobRecord}
    (h : r ∈ s.db.jobs.update (isStale cutoff) (requeued now)) :
    (∃ r₀ ∈ s.db.jobs, isStale cutoff r₀ = true ∧ r = requeued now r₀) ∨
      r ∈ s.db.jobs ∧ isStale cutoff r = false := by
  rw [Table.mem_update] at h
  obtain ⟨r₀, h₀, rfl⟩ := h
  cases hst : isStale cutoff r₀ with
  | true => exact .inl ⟨r₀, h₀, hst, by simp⟩
  | false => exact .inr ⟨by simpa using h₀, by simpa using hst⟩

theorem requeue (hs : ClaimInv s) {cutoff now : Time} :
    ClaimInv { s with
      db.jobs := s.db.jobs.update (isStale cutoff) (requeued now)
      history.recovered :=
        (s.db.jobs.select (isStale cutoff)).map (fun j => (j.id, j.attempts)) ++
          s.history.recovered } := by
  refine ⟨fun r h => ?_, fun r h => ?_, fun r h => ?_, fun r h hq => ?_, fun j n k h => ?_,
    fun r h hspent => ?_⟩
  · rcases mem_update_requeued h with ⟨r₀, h₀, -, rfl⟩ | ⟨h, -⟩
    · exact hs.bound_pos r₀ h₀
    · exact hs.bound_pos r h
  · rcases mem_update_requeued h with ⟨r₀, h₀, -, rfl⟩ | ⟨h, -⟩
    · exact hs.counted r₀ h₀
    · exact hs.counted r h
  · rcases mem_update_requeued h with ⟨r₀, h₀, -, rfl⟩ | ⟨h, -⟩
    · exact hs.bounded r₀ h₀
    · exact hs.bounded r h
  · rcases mem_update_requeued h with ⟨r₀, h₀, -, rfl⟩ | ⟨h, -⟩
    · by_contra hlast
      have hge : r₀.attempts ≥ r₀.maxAttempts := Nat.le_of_not_lt hlast
      simp [requeued, hge] at hq
    · exact hs.queued_lt r h hq
  -- A claim whose lease is over is settled by being recovered.
  · refine (hs.settled j n k h).imp_left ?_
    rintro (hrec | ⟨r, hr, hid, hrun, hat⟩)
    · exact .inl (List.mem_append_right _ hrec)
    · cases hst : isStale cutoff r with
      | true =>
          refine .inl (List.mem_append_left _ (List.mem_map.mpr ⟨r, ?_, by rw [hid, hat]⟩))
          exact Table.mem_select.mpr ⟨hr, hst⟩
      | false => exact .inr ⟨r, Table.mem_update_of_false hr hst, hid, hrun, hat⟩
  · -- What has just been recovered, or was spent before.
    have hcase : (∃ r₀ ∈ s.db.jobs, isStale cutoff r₀ = true ∧ r₀.id = r.id ∧
        r₀.attempts = r.maxAttempts) ∨ LostOrFailed s r.id r.maxAttempts := by
      rcases hspent with hrec | ho
      · rcases List.mem_append.mp hrec with h' | h'
        · simp only [List.mem_map, Table.mem_select, Prod.mk.injEq] at h'
          obtain ⟨r₀, ⟨h₀, hst⟩, hid, hat⟩ := h'
          exact .inl ⟨r₀, h₀, hst, hid, hat⟩
        · exact .inr (.inl h')
      · exact .inr (.inr ho)
    rcases mem_update_requeued h with ⟨r₀, h₀, hst, rfl⟩ | ⟨h, hst⟩
    · rcases hcase with ⟨r₁, h₁, -, hid, hat⟩ | hspent
      · obtain rfl := Table.eq_of_key h₁ h₀ hid
        have hge : r₁.attempts ≥ r₁.maxAttempts := Nat.le_of_eq hat.symm
        simp [requeued, hge]
      · have hdead := hs.spent_dead r₀ h₀ hspent
        simp [isStale, hdead] at hst
    · rcases hcase with ⟨r₁, h₁, hst₁, hid, -⟩ | hspent
      · obtain rfl := Table.eq_of_key h₁ h hid
        rw [hst] at hst₁
        cases hst₁
      · exact hs.spent_dead r h hspent

/-- The outcome of the claim under which its job is running. -/
theorem outcome (hs : ClaimInv s) {e : Env} {job : BackgroundJobRecord} {ok : Bool}
    {f : BackgroundJobRecord → BackgroundJobRecord} {hf : Table.KeepsKey _ f}
    (hmax : ∀ r ∈ s.db.jobs, r.id = job.id → r.maxAttempts = job.maxAttempts)
    (ho : OutcomeOf e.now job ok f)
    (hfence : ∀ r ∈ s.db.jobs, r.id = job.id → r.status = .running ∧ r.attempts = job.attempts) :
    ClaimInv { s with
      db.jobs := s.db.jobs.update (fun r => r.id = job.id) f hf
      history.outcomes := (job.id, job.attempts, ok) :: s.history.outcomes } := by
  -- The outcome writes one row, that of its job; `hfence` is that the claim still stands.
  have hmem : ∀ {r}, r ∈ s.db.jobs.update (fun r => r.id = job.id) f hf →
      (∃ r₀ ∈ s.db.jobs, r₀.id = job.id ∧ r = f r₀) ∨ r ∈ s.db.jobs ∧ r.id ≠ job.id := by
    intro r h
    rw [Table.mem_update] at h
    obtain ⟨r₀, h₀, rfl⟩ := h
    by_cases hid : r₀.id = job.id
    · exact .inl ⟨r₀, h₀, hid, by simp [hid]⟩
    · exact .inr ⟨by simpa [hid] using h₀, by simp [hid]⟩
  refine ⟨fun r h => ?_, fun r h => ?_, fun r h => ?_, fun r h hq => ?_, fun j n k h => ?_,
    fun r h hspent => ?_⟩
  · rcases hmem h with ⟨r₀, h₀, -, rfl⟩ | ⟨h, -⟩
    · rw [ho.maxAttempts_eq]
      exact hs.bound_pos r₀ h₀
    · exact hs.bound_pos r h
  · rcases hmem h with ⟨r₀, h₀, -, rfl⟩ | ⟨h, -⟩
    · rw [ho.id_eq, ho.attempts_eq]
      exact hs.counted r₀ h₀
    · exact hs.counted r h
  · rcases hmem h with ⟨r₀, h₀, -, rfl⟩ | ⟨h, -⟩
    · rw [ho.attempts_eq, ho.maxAttempts_eq]
      exact hs.bounded r₀ h₀
    · exact hs.bounded r h
  · rcases hmem h with ⟨r₀, h₀, hid, rfl⟩ | ⟨h, -⟩
    · rw [ho.attempts_eq, ho.maxAttempts_eq, hmax r₀ h₀ hid, (hfence r₀ h₀ hid).2]
      cases ho with
      | complete => cases hq
      | fail =>
          by_contra hlast
          have hge : job.attempts ≥ job.maxAttempts := Nat.le_of_not_lt hlast
          simp [failed, hge] at hq
    · exact hs.queued_lt r h hq
  -- The claim that the outcome ends is settled by it, all others as before.
  · rcases hs.settled j n k h with (hrec | ⟨r, hr, hid, hrun, hat⟩) | ⟨ok', hok⟩
    · exact .inl (.inl hrec)
    · by_cases hjob : r.id = job.id
      · refine .inr ⟨ok, ?_⟩
        rw [← hid, ← hat, hjob, (hfence r hr hjob).2]
        exact List.mem_cons_self
      · exact .inl (.inr ⟨r, Table.mem_update_of_false hr (by simpa using hjob) hf, hid, hrun, hat⟩)
    · exact .inr ⟨ok', List.mem_cons_of_mem _ hok⟩
  · rcases hmem h with ⟨r₀, h₀, hid, rfl⟩ | ⟨h, hne⟩
    · obtain ⟨hrun, hat⟩ := hfence r₀ h₀ hid
      rw [LostOrFailed, ho.id_eq, ho.maxAttempts_eq] at hspent
      -- The job was running, so its last claim had neither been lost nor failed before.
      have old : ¬ LostOrFailed s r₀.id r₀.maxAttempts := fun hold => by
        have := hs.spent_dead r₀ h₀ hold
        rw [hrun] at this
        cases this
      have hnew : (r₀.id, r₀.maxAttempts, false) = (job.id, job.attempts, ok) := by
        rcases hspent with hrec | hfail
        · exact absurd (.inl hrec) old
        · exact (List.mem_cons.mp hfail).resolve_right fun h => old (.inr h)
      simp only [Prod.mk.injEq] at hnew
      obtain ⟨-, hlast, rfl⟩ := hnew
      have hge : job.attempts ≥ job.maxAttempts := by
        rw [← hlast, hmax r₀ h₀ hid]
      cases ho with
      | fail => simp [failed, hge]
    · refine hs.spent_dead r h (hspent.imp_right fun ho => ?_)
      refine (List.mem_cons.mp ho).resolve_left fun h => hne ?_
      exact (Prod.ext_iff.mp h).1

theorem purge (hs : ClaimInv s) {days : Nat} {now : Time} :
    ClaimInv { s with db.jobs := s.db.jobs.delete (isPurgeable days now) } := by
  have hsub : ∀ {r}, r ∈ s.db.jobs.delete (isPurgeable days now) → r ∈ s.db.jobs := fun h =>
    (Table.mem_delete.mp h).1
  refine ⟨fun r h => hs.bound_pos r (hsub h), fun r h => hs.counted r (hsub h),
    fun r h => hs.bounded r (hsub h), fun r h => hs.queued_lt r (hsub h), fun j n k h => ?_,
    fun r h => hs.spent_dead r (hsub h)⟩
  refine (hs.settled j n k h).imp_left fun hh => hh.imp_right ?_
  rintro ⟨r, hr, hid, hrun, hat⟩
  refine ⟨r, Table.mem_delete.mpr ⟨hr, ?_⟩, hid, hrun, hat⟩
  simp [isPurgeable, hrun, JobStatus.terminal]

end ClaimInv

/-- Every fenced action keeps the invariant. -/
theorem JobAction.claimInv {l : Event} {e : Env} {s s' : AppState}
    (hmax : 0 < app.config.maxJobAttempts) (hi : JobInv s) (hs : ClaimInv s)
    (h : JobAction app i l e s s') (hf : Fenced i l e s) : ClaimInv s' := by
  cases h with
  | idle => exact hs
  | quiet h => exact hs.of_same h.jobs h.claims h.recovered h.outcomes
  | issue => exact hs.of_same rfl rfl rfl rfl
  | create hu hnew hj hc hr ho => exact hs.create hi hmax hu hnew hj hc hr ho
  | claim hm hq hp => exact hs.claim hm hq hp
  | requeue => exact hs.requeue
  | outcome hfault _ _ hbound ho =>
      exact hs.outcome hbound ho fun r hr hid => hf r _ ⟨by rw [hid], hfault, hr⟩
  | purge => exact hs.purge

/-! ### Jobs that are over -/

/-- What holds of a configuration on a run that respects the leases. -/
structure Respects (app : App) (c : JobMortal) : Prop where
  keeps : Keeps (jobContract app False) (fun _ _ _ _ => True) c.config
  claims : ClaimInv c.config.st

/-- A step from where the leases have been respected is no statement, or a fenced action. -/
theorem Respects.step {c d : JobMortal} {m : Fate Env JobCall}
    (hmax : 0 < app.config.maxJobAttempts) (hc : Respects app c) (hl : LeasesKept c)
    (h : (jobSystem app).stepMortal c m = some d) :
    Respects app d ∧ (d.config.st = c.config.st ∨ ∃ i l e,
      JobAction app i l e c.config.st d.config.st ∧ Fenced i l e c.config.st) := by
  cases m with
  | die i =>
      obtain rfl := Option.some.inj h
      exact ⟨⟨hc.keeps, hc.claims⟩, .inl rfl⟩
  | move m =>
      obtain ⟨halive, hdead, hd⟩ := System.stepMortal_move h
      have hkeep : Keeps (jobContract app False) (fun _ _ _ _ => True) d.config :=
        keeps_step_all (fun _ k => jobCall_safe k) (fun _ _ _ _ ha => ⟨ha, fun hF => hF.elim⟩)
          hc.keeps hd
      cases m with
      | call k =>
          have hst : d.config.st = c.config.st := by rw [System.step_call hd]
          exact ⟨⟨hkeep, hst ▸ hc.claims⟩, .inl hst⟩
      | exec i e =>
          obtain ⟨l, hlab, ha⟩ := label_of_step hd
          have hact := (hc.keeps.guar hd hlab ⟨ha, fun hF => hF.elim⟩).1
          have hfence : Fenced i l e c.config.st := by
            refine hact.fenced hc.claims fun row n hw hrec => ?_
            obtain ⟨rfl, hfault, hm⟩ := hw
            -- Call `i` is alive, so the claim that it writes for has not been recovered.
            have hun : c.config.result? i = none := by
              obtain ⟨k, l', _, _, _, hci, -⟩ := System.step_exec hd
              simp [Config.result?, hci]
            have hclaim : ∀ {l s s'}, JobAction app i l e s s' → l = .outcome row.id n →
                (row.id, n, i) ∈ s.history.claims ∧ ∀ ok, (row.id, n, ok) ∉ s.history.outcomes := by
              intro l s s' h hl
              cases h with
              | idle hf => exact absurd hf hfault
              | outcome _ hcl hfirst =>
                  simp only [Event.outcome.injEq] at hl
                  rw [← hl.1, ← hl.2]
                  exact ⟨hcl, hfirst⟩
              | _ => cases hl
            obtain ⟨hcl, hno⟩ := hclaim hact rfl
            exact hl i _ _ ⟨hcl, halive i rfl, hun, hno⟩ hrec
          exact ⟨⟨hkeep, hact.claimInv hmax hc.keeps.1 hc.claims hfence⟩,
            .inr ⟨i, l, e, hact, hfence⟩⟩

/-- The claims on the jobs are safe: one live execution for each job, and attempts that count the
claims and stay within their bound. -/
structure ClaimsSafe (c : JobMortal) : Prop where
  one_live : ∀ j i i' n n', Live c i j n → Live c i' j n' → i = i' ∧ n = n'
  counted : ∀ r ∈ c.config.st.db.jobs, claimCount c.config.st r.id = r.attempts
  bounded : ∀ r ∈ c.config.st.db.jobs, r.attempts ≤ r.maxAttempts
  queued_lt : ∀ r ∈ c.config.st.db.jobs, r.status = .queued → r.attempts < r.maxAttempts
  spent_dead : ∀ r ∈ c.config.st.db.jobs,
    LostOrFailed c.config.st r.id r.maxAttempts → r.status = .deadLetter

/-- A live execution runs the job. -/
theorem Respects.held {c : JobMortal} (hc : Respects app c) (hl : LeasesKept c) {i n : Nat}
    {j : Uuid} (h : Live c i j n) :
    ∃ r ∈ c.config.st.db.jobs, r.id = j ∧ r.status = .running ∧ r.attempts = n := by
  rcases hc.claims.settled j n i h.claim with (hrec | hrun) | ⟨ok, hok⟩
  · exact absurd hrec (hl i j n h)
  · exact hrun
  · exact absurd hok (h.no_outcome ok)

theorem Respects.safe {c : JobMortal} (hc : Respects app c) (hl : LeasesKept c) : ClaimsSafe c where
  one_live j i i' n n' h h' := by
    obtain ⟨r, hr, hid, -, rfl⟩ := hc.held hl h
    obtain ⟨r', hr', hid', -, rfl⟩ := hc.held hl h'
    obtain rfl := Table.eq_of_key hr hr' (hid.trans hid'.symm)
    exact ⟨hc.keeps.1.claim_unique _ _ _ _ h.claim h'.claim, rfl⟩
  counted := hc.claims.counted
  bounded := hc.claims.bounded
  queued_lt := hc.claims.queued_lt
  spent_dead := hc.claims.spent_dead

end Fluxa
