import OpenAgentHub.Registry.Database
import Mathlib.Data.List.MinMax

namespace Registry.Outbox

open Relational

abbrev Jobs := Table QueueJob

/-- Membership in `ACTIVE_STATUSES`: a job that succeeded still blocks its key. -/
def activeJob : JobStatus → Bool
  | .dead => false
  | _ => true

structure DurableQueue where
  leaseSeconds : Time := seconds 60
  maxAttempts : Nat := 5
  backoffBaseSeconds : Time := seconds 1

namespace DurableQueue

variable (queue : DurableQueue) (now : Time) (jobs : Jobs)

def enqueue (jobType : String) (payload : Json) (dedupeKey : String) (schemaVersion : Nat) (runAt : Option Time) :
    Jobs × Bool :=
  match jobs.one fun job => job.jobType == jobType && job.dedupeKey == dedupeKey && activeJob job.status with
  | some _ => (jobs, false)
  | none =>
    (jobs.push fun id =>
      { id, jobType, payload, schemaVersion, dedupeKey, maxAttempts := queue.maxAttempts
        nextAttemptAt := runAt.getD now, updatedAt := now }, true)

def claimable (jobType : String) (job : QueueJob) : Bool :=
  job.jobType == jobType && job.status == .queued && decide (job.nextAttemptAt ≤ now) &&
    job.leasedUntil.all fun expiry => decide (expiry < now)

def candidate (jobType : String) : Option QueueJob :=
  (jobs.select (claimable now jobType)).argmin QueueJob.id

def leased (owner : String) (job : QueueJob) : QueueJob :=
  { job with
    status := .running, attempts := job.attempts + 1, leasedUntil := some (now + queue.leaseSeconds)
    leaseOwner := some owner, updatedAt := now }

def lease (owner : String) (jobId : Nat) : Jobs × Bool :=
  let queued (job : QueueJob) : Bool := job.id == jobId && job.status == .queued
  (jobs.modify queued (queue.leased now owner), jobs.rows.any queued)

def claim (jobType owner : String) : Jobs × Option QueueJob :=
  match candidate now jobs jobType with
  | none => (jobs, none)
  | some job =>
    match queue.lease now jobs owner job.id with
    | (jobs, true) => (jobs, some job)
    | (jobs, false) => (jobs, none)

def completed (job : QueueJob) : QueueJob :=
  { job with
    status := .succeeded, leasedUntil := none, leaseOwner := none, lastError := none, updatedAt := now }

def complete (jobId : Nat) : Jobs := jobs.modify (·.id == jobId) (completed now)

/-- `min(base * 2 ** (attempts - 1), 60)`. -/
def backoff (attempts : Nat) : Time := min (queue.backoffBaseSeconds * 2 ^ attempts / 2) (seconds 60)

def buried (error : String) (job : QueueJob) : QueueJob :=
  { job with
    status := .dead, leasedUntil := none, leaseOwner := none, lastError := some error, updatedAt := now }

def retried (error : String) (nextAttemptAt : Time) (job : QueueJob) : QueueJob :=
  { job with
    status := .queued, leasedUntil := none, leaseOwner := none, nextAttemptAt, lastError := some error
    updatedAt := now }

/-- The second statement of `fail`, by what the first one has read. -/
def settle (seen : QueueJob) (error : String) : Jobs :=
  if seen.maxAttempts ≤ seen.attempts then jobs.modify (·.id == seen.id) (buried now error)
  else jobs.modify (·.id == seen.id) (retried now error (now + queue.backoff seen.attempts))

def fail (jobId : Nat) (error : String) : Jobs :=
  match jobs.byId jobId with
  | none => jobs
  | some seen => queue.settle now jobs seen error

/-- The worker of the lease is taken to have crashed. -/
def stale (job : QueueJob) : Bool :=
  job.status == .running && job.leasedUntil.any fun expiry => decide (expiry < now)

def released (job : QueueJob) : QueueJob :=
  { job with status := .queued, leasedUntil := none, leaseOwner := none, updatedAt := now }

def reapStaleLeases : Jobs := jobs.modify (stale now) (released now)

def finished : JobStatus → Bool
  | .succeeded | .dead => true
  | _ => false

def reapOldJobs (retentionDays : Nat) : Jobs :=
  jobs.delete fun job => finished job.status && decide (job.updatedAt + days retentionDays < now)

end DurableQueue

end Registry.Outbox
