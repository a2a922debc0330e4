import Fluxa.State.AppState
import Mathlib.Algebra.Group.Nat.Defs

/-!
# Db — background jobs

`db/jobs.rs` and the purge of `db/retention.rs`.  Each function is one statement; the claims, their recoveries and their outcomes are noted in the history.
-/

namespace Fluxa

/-- `status IN ('completed', 'dead_letter')`. -/
def JobStatus.terminal : JobStatus → Bool
  | .completed | .deadLetter => true
  | .queued | .running => false

namespace Db
open Interleave

/-- Note the creation of an export job or of a retention sweep. -/
def noteJob (e : Env) (job : BackgroundJobRecord) (h : History) : History :=
  match job.jobType with
  | .taskExport => noteCreated e .export job.id h
  | .dueReminderSweep => h
  | .retentionSweep => { h with sweeps := (job.id, job.scheduledAt) :: h.sweeps }

def createJob (tenantId : Option Uuid) (jobType : JobType) (payload : JobPayload)
    (maxAttempts : Nat) : Service BackgroundJobRecord := do
  let id ← newUuid
  let now ← utcNow
  let job : BackgroundJobRecord :=
    { id, tenantId, jobType, status := .queued, attempts := 0, maxAttempts, scheduledAt := now,
      startedAt := none, finishedAt := none, payload, resultPayload := none, lastError := none }
  sql (.insertJob jobType tenantId) fun e s =>
    match s.db.jobs.insert job with
    | some jobs => (.ok job, { s with
        db.jobs := jobs
        history := noteJob e job s.history })
    | none => (.error uniqueViolation, s)

def getJob (jobId : Uuid) : Service (Option BackgroundJobRecord) :=
  select fun _ s => s.db.jobs.find? jobId

def listReadyJobIds (limit : Nat) : Service (List Uuid) :=
  select fun e s =>
    let ready := s.db.jobs.select fun j => j.status = .queued && j.scheduledAt ≤ e.now
    ((ready.insertionSort fun a b => a.scheduledAt ≤ b.scheduledAt).take limit).map (·.id)

/-- The jobs whose lease has expired: `started_at <= cutoff`. -/
def isStale (cutoff : Time) (j : BackgroundJobRecord) : Bool :=
  j.status = .running && j.startedAt.any (· ≤ cutoff)

/-- The assignments of `requeue_stale_jobs`. -/
def requeued (now : Time) (j : BackgroundJobRecord) : BackgroundJobRecord :=
  { j with
    status := if j.attempts ≥ j.maxAttempts then .deadLetter else .queued
    scheduledAt := now
    finishedAt := if j.attempts ≥ j.maxAttempts then some now else j.finishedAt
    lastError := some "job lease expired before completion" }

def requeueStaleJobs (lease : Nat) : Service (List (Uuid × JobStatus)) := do
  let now ← utcNow
  let cutoff := now - lease
  sql .quiet fun e s =>
    let stale := s.db.jobs.select (isStale cutoff)
    (.ok (stale.map fun j => (j.id, (requeued e.now j).status)), { s with
      db.jobs := s.db.jobs.update (isStale cutoff) (requeued e.now)
      history.recovered := stale.map (fun j => (j.id, j.attempts)) ++ s.history.recovered })

/-- The jobs that `mark_job_running` may claim. -/
def isClaimable (jobId : Uuid) (now : Time) (j : BackgroundJobRecord) : Bool :=
  j.id = jobId && j.status = .queued && j.scheduledAt ≤ now

/-- The assignments of `mark_job_running`. -/
def claimed (now : Time) (j : BackgroundJobRecord) : BackgroundJobRecord :=
  { j with
    status := .running, attempts := j.attempts + 1, startedAt := some now, lastError := none }

def markJobRunning (jobId : Uuid) : Service (Option BackgroundJobRecord) :=
  sql .quiet fun e s =>
    match (s.db.jobs.find? jobId).filter (isClaimable jobId e.now) with
    | none => (.ok none, s)
    | some j => (.ok (some (claimed e.now j)), { s with
        db.jobs := s.db.jobs.update (isClaimable jobId e.now) (claimed e.now)
        history.claims := (jobId, j.attempts + 1, e.pid) :: s.history.claims })

/-- The assignments of `complete_job`. -/
def completed (now : Time) (result : Value) (j : BackgroundJobRecord) : BackgroundJobRecord :=
  { j with status := .completed, finishedAt := some now, resultPayload := some result }

/-- `complete_job`.  `attempts` is the number of the claim that the caller has obtained; the
statement does not use it. -/
def completeJob (jobId : Uuid) (attempts : Nat) (result : Value) : Service Unit :=
  sql (.outcome jobId attempts) fun e s =>
    (.ok (), { s with
      db.jobs := s.db.jobs.update (fun j => j.id = jobId) (completed e.now result)
      history.outcomes := (jobId, attempts, true) :: s.history.outcomes })

/-- The assignments of `fail_job`. -/
def failed (now : Time) (status : JobStatus) (nextTime : Time) (message : String)
    (j : BackgroundJobRecord) : BackgroundJobRecord :=
  { j with
    status
    scheduledAt := nextTime
    finishedAt := if status = .deadLetter then some now else none
    lastError := some message }

def failJob (job : BackgroundJobRecord) (message : String) : Service Unit := do
  let status := if job.attempts ≥ job.maxAttempts then JobStatus.deadLetter else .queued
  let now ← utcNow
  let nextTime :=
    if status = .deadLetter then now else now + seconds (2 ^ (max 1 (min job.attempts 8)))
  sql (.outcome job.id job.attempts) fun e s =>
    (.ok (), { s with
      db.jobs := s.db.jobs.update (fun j => j.id = job.id) (failed e.now status nextTime message)
      history.outcomes := (job.id, job.attempts, false) :: s.history.outcomes })

/-- A job of the type and tenant is queued or running. -/
def hasPendingReminder (tenantId : Option Uuid) (j : BackgroundJobRecord) : Bool :=
  j.jobType = .dueReminderSweep && j.tenantId = tenantId && !j.status.terminal

def ensureDueReminderJob (tenantId : Option Uuid) (maxAttempts : Nat) :
    Service (Option BackgroundJobRecord) := do
  let found ← select fun _ s => s.db.jobs.any (hasPendingReminder tenantId)
  if found then return none
  else
    let job ← createJob tenantId .dueReminderSweep (.dueReminder tenantId) maxAttempts
    return some job

/-- A retention sweep is queued or running, or was scheduled within the interval. -/
def hasRecentRetention (intervalHours : Nat) (now : Time) (j : BackgroundJobRecord) : Bool :=
  j.jobType = .retentionSweep &&
    (!j.status.terminal || now < j.scheduledAt + seconds (intervalHours * 3600))

/-- The `SELECT` of `ensure_retention_job`, noted in the history. -/
def lookForRetention (intervalHours : Nat) : Service Bool :=
  sql .quiet fun e s => (.ok (s.db.jobs.any (hasRecentRetention intervalHours e.now)), { s with
    history.looked := (e.pid, e.now) :: s.history.looked })

def ensureRetentionJob (intervalHours maxAttempts : Nat) :
    Service (Option BackgroundJobRecord) := do
  let found ← lookForRetention intervalHours
  if found then return none
  else
    let job ← createJob none .retentionSweep .empty maxAttempts
    return some job

/-- The terminal jobs past their retention. -/
def isPurgeable (retentionDays : Nat) (now : Time) (j : BackgroundJobRecord) : Bool :=
  j.status.terminal &&
    (j.finishedAt.getD j.scheduledAt) + seconds (retentionDays * 24 * 3600) < now

def purgeTerminalJobs (retentionDays : Nat) : Service Nat :=
  sql .quiet fun e s =>
    (.ok (s.db.jobs.count (isPurgeable retentionDays e.now)),
      { s with db.jobs := s.db.jobs.delete (isPurgeable retentionDays e.now) })

end Db

end Fluxa
