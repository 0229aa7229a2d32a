import OpenAgentHub.Registry.Outbox.Attempts

namespace Registry.Outbox

open Relational DurableQueue

inductive Interruption where
  | cancelled
  | raised (text : String)

abbrev Handler := Db → Json → Db × Option Interruption

structure JobWorker where
  jobType : String
  workerId : String
  queue : DurableQueue := {}

namespace JobWorker

/-- The committed state, with the number of jobs, or nothing when the
    cancellation goes on. A failed handler's session is committed as it is. -/
def runOnce (worker : JobWorker) (now : Time) (handle : Handler) (db : Db) : Db × Option Nat :=
  match worker.queue.claim now db.queueJobs worker.jobType worker.workerId with
  | (_, none) => (db, some 0)
  | (queueJobs, some job) =>
    match handle { db with queueJobs } job.payload with
    | (session, none) => ({ session with queueJobs := complete now session.queueJobs job.id }, some 1)
    | (_, some .cancelled) => (db, none)
    | (session, some (.raised text)) =>
      let error := String.ofList (text.toList.take 1000)
      ({ session with queueJobs := worker.queue.fail now session.queueJobs job.id error }, some 1)

end JobWorker

/-- The handler that raises when it has made some of its writes. -/
def raisingAfter (writes : List (Db → Db)) (count : Nat) (text : String) : Handler := fun session _ =>
  ((writes.take count).foldl (fun session write => write session) session, some (.raised text))

/-- `NotificationWorker.handle`. -/
def notImplemented : Handler := raisingAfter [] 0 "notification handlers are not implemented yet"

section Bookkeeping

def withoutBookkeeping (job : QueueJob) : QueueJob :=
  { job with
    status := .queued, attempts := 0, nextAttemptAt := 0, leasedUntil := none, leaseOwner := none
    lastError := none, updatedAt := 0 }

/-- The state but for one job's own bookkeeping fields. -/
def besides (jobId : Nat) (db : Db) : Db :=
  { db with queueJobs := db.queueJobs.modify (·.id == jobId) withoutBookkeeping }

variable {jobId : Nat} {db : Db} {jobs : Jobs} {condition : QueueJob → Bool}

theorem modify_withoutBookkeeping (update : QueueJob → QueueJob) (preserves : Table.Preserves update)
    (only : ∀ job, condition job = true → job.id = jobId)
    (erased : ∀ job, withoutBookkeeping (update job) = withoutBookkeeping job) :
    (jobs.modify condition update preserves).modify (·.id == jobId) withoutBookkeeping =
      jobs.modify (·.id == jobId) withoutBookkeeping := by
  apply Table.ext_rows
  · show List.map _ (List.map _ jobs.rows) = List.map _ jobs.rows
    rw [List.map_map]
    apply List.map_congr_left
    intro job _
    by_cases matched : condition job = true
    · have isJob : job.id = jobId := only job matched
      have kept : (update job).id = jobId := ((preserves job).1).trans isJob
      simp [matched, isJob, kept, erased]
    · simp [matched]
  · rfl

theorem besides_fail (queue : DurableQueue) (now : Time) (error : String) :
    besides jobId { db with queueJobs := queue.fail now db.queueJobs jobId error } = besides jobId db := by
  have same : (queue.fail now db.queueJobs jobId error).modify (·.id == jobId) withoutBookkeeping =
      db.queueJobs.modify (·.id == jobId) withoutBookkeeping := by
    unfold DurableQueue.fail
    split
    · rfl
    · rename_i seen found
      have isJob : seen.id = jobId := (Table.byId_eq_some.mp found).2
      unfold DurableQueue.settle
      split
      · exact modify_withoutBookkeeping _ _ (fun job matched => (beq_iff_eq.mp matched).trans isJob) fun _ => rfl
      · exact modify_withoutBookkeeping _ _ (fun job matched => (beq_iff_eq.mp matched).trans isJob) fun _ => rfl
  unfold besides
  rw [same]

theorem besides_lease (queue : DurableQueue) (now : Time) (owner : String) :
    besides jobId { db with queueJobs := (queue.lease now db.queueJobs owner jobId).1 } = besides jobId db := by
  have same : (queue.lease now db.queueJobs owner jobId).1.modify (·.id == jobId) withoutBookkeeping =
      db.queueJobs.modify (·.id == jobId) withoutBookkeeping := by
    apply modify_withoutBookkeeping (queue.leased now owner) (fun _ => ⟨rfl, fun _ => rfl⟩)
    · intro job matched
      exact (by simpa using matched : job.id = jobId ∧ job.status = .queued).1
    · exact fun _ => rfl
  unfold besides
  rw [same]

end Bookkeeping

section Failures

variable (worker : JobWorker) (now : Time) (db : Db)

def JobWorker.claimed (job : QueueJob) : Db :=
  { db with queueJobs := (worker.queue.lease now db.queueJobs worker.workerId job.id).1 }

theorem claim_candidate {job : QueueJob} (found : candidate now db.queueJobs worker.jobType = some job) :
    worker.queue.claim now db.queueJobs worker.jobType worker.workerId =
      ((worker.queue.lease now db.queueJobs worker.workerId job.id).1, some job) := by
  obtain ⟨stored, ready⟩ := candidate_mem found
  have matched : (worker.queue.lease now db.queueJobs worker.workerId job.id).2 = true :=
    List.any_eq_true.mpr ⟨job, stored, by simp [ready.queued]⟩
  unfold DurableQueue.claim
  rw [found]
  dsimp only
  split
  · rename_i leased
    rw [leased]
  · rename_i missed
    rw [missed] at matched
    cases matched

theorem runOnce_raised {job : QueueJob} (found : candidate now db.queueJobs worker.jobType = some job)
    (handle : Handler) {session : Db} {text : String}
    (ended : handle (worker.claimed now db job) job.payload = (session, some (.raised text))) :
    besides job.id (worker.runOnce now handle db).1 = besides job.id session := by
  unfold JobWorker.runOnce
  rw [claim_candidate worker now db found]
  dsimp only
  rw [show handle { db with queueJobs := (worker.queue.lease now db.queueJobs worker.workerId job.id).1 } job.payload =
    (session, some (.raised text)) from ended]
  exact besides_fail worker.queue now _

/-- A handler that raises leaves the committed state as it was, but for its
    job's bookkeeping, exactly when the writes it had made change nothing else. -/
theorem failed_job_is_atomic_iff (job : QueueJob) (found : candidate now db.queueJobs worker.jobType = some job)
    (writes : List (Db → Db)) (count : Nat) (text : String) :
    besides job.id (worker.runOnce now (raisingAfter writes count text) db).1 = besides job.id db ↔
      besides job.id ((writes.take count).foldl (fun session write => write session) (worker.claimed now db job)) =
        besides job.id (worker.claimed now db job) := by
  rw [runOnce_raised worker now db found (raisingAfter writes count text) rfl]
  rw [show besides job.id (worker.claimed now db job) = besides job.id db from besides_lease worker.queue now _]

end Failures

def notificationJob (id : Nat) : QueueJob :=
  { id, jobType := "notification.send", payload := .null, dedupeKey := "notification:1", maxAttempts := 5
    nextAttemptAt := 0, updatedAt := 0 }

def oneNotification : Db := { queueJobs := Table.empty.push notificationJob }

def notifier : JobWorker := ⟨"notification.send", "notification.send-host", {}⟩

theorem failed_job_is_atomic_not_implemented :
    besides 1 (notifier.runOnce 1 notImplemented oneNotification).1 = besides 1 oneNotification :=
  (failed_job_is_atomic_iff notifier 1 oneNotification (notificationJob 1) rfl [] 0 _).mpr rfl

def announce (db : Db) : Db :=
  { db with outboxEvents := db.outboxEvents.push fun id => { id, eventType := "scan.requested", payload := .null } }

theorem failed_handler_writes_are_committed :
    besides 1 (notifier.runOnce 1 (raisingAfter [announce, id] 1 "delivery failed") oneNotification).1 ≠
      besides 1 oneNotification := by
  intro same
  have events := congrArg (fun db => db.outboxEvents.rows.length) same
  revert events
  decide +kernel

end Registry.Outbox
