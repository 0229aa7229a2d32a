import OpenAgentHub.Lib.Runs
import OpenAgentHub.Registry.Outbox.Queue

namespace Registry.Outbox

open Relational DurableQueue

/-- A call on the queue. The queue is not told which worker completes or fails a job. -/
inductive Action where
  | enqueue (jobType : String) (payload : Json) (dedupeKey : String) (schemaVersion : Nat) (runAt : Option Time)
  | claim (owner jobType : String)
  | complete (owner : String) (jobId : Nat)
  | fail (owner : String) (jobId : Nat) (error : String)
  | reapStaleLeases
  | reapOldJobs (retentionDays : Nat)

structure Call where
  queue : DurableQueue := {}
  now : Time
  action : Action

def serve (jobs : Jobs) (call : Call) : Jobs :=
  match call.action with
  | .enqueue jobType payload dedupeKey schemaVersion runAt =>
    (call.queue.enqueue call.now jobs jobType payload dedupeKey schemaVersion runAt).1
  | .claim owner jobType => (call.queue.claim call.now jobs jobType owner).1
  | .complete _ jobId => complete call.now jobs jobId
  | .fail _ jobId error => call.queue.fail call.now jobs jobId error
  | .reapStaleLeases => reapStaleLeases call.now jobs
  | .reapOldJobs retentionDays => reapOldJobs call.now jobs retentionDays

def Action.worker : Action → Option String
  | .claim owner _ | .complete owner _ | .fail owner _ _ => some owner
  | _ => none

def Action.finishes : Action → Option (String × Nat)
  | .complete owner jobId | .fail owner jobId _ => some (owner, jobId)
  | _ => none

def Action.enqueues : Action → Bool
  | .enqueue .. => true
  | _ => false

def Holds (owner : String) (job : QueueJob) : Prop := job.status = .running ∧ job.leaseOwner = some owner

/-- Only the holder of a lease finishes a job, a lease that has not expired keeps others off the job, and
    a finished job stays finished. -/
structure LeaseLaw (before : Jobs) (call : Call) (after : Jobs) : Prop where
  holder : ∀ owner jobId, call.action.finishes = some (owner, jobId) →
    ∀ job ∈ before.rows, job.id = jobId → job ∉ after.rows → Holds owner job
  sheltered : ∀ job ∈ before.rows, ∀ owner, Holds owner job → call.action.worker ≠ some owner →
    (∀ expiry ∈ job.leasedUntil, call.now ≤ expiry) → job ∈ after.rows
  final : ∀ job ∈ before.rows, finished job.status = true → ∀ row ∈ after.rows, row.id = job.id →
    row.status = job.status

/-- Whoever completes or fails a job that is still there is the owner of its lease. -/
def finishesOwn (jobs : Jobs) (call : Call) : Prop :=
  ∀ owner jobId, call.action.finishes = some (owner, jobId) →
    ∀ job ∈ jobs.rows, job.id = jobId → job.leaseOwner = some owner

def Leased (jobs : Jobs) : Prop := ∀ job ∈ jobs.rows, job.leaseOwner ≠ none → job.status = .running

section Rows

variable {jobs after : Jobs} {condition : QueueJob → Bool} {update : QueueJob → QueueJob}

def Rewrites (condition : QueueJob → Bool) (update : QueueJob → QueueJob) (before after : Jobs) : Prop :=
  after.rows = before.rows.map fun job => if condition job then update job else job

theorem Rewrites.kept {job : QueueJob} (rewrites : Rewrites condition update jobs after) (stored : job ∈ jobs.rows)
    (unmatched : condition job = false) : job ∈ after.rows := by
  rw [Rewrites] at rewrites
  rw [rewrites]
  exact List.mem_map.mpr ⟨job, stored, by simp [unmatched]⟩

theorem Rewrites.cases {row : QueueJob} (rewrites : Rewrites condition update jobs after) (stored : row ∈ after.rows) :
    (∃ job ∈ jobs.rows, condition job = true ∧ row = update job) ∨ (row ∈ jobs.rows ∧ condition row = false) := by
  rw [Rewrites] at rewrites
  rw [rewrites] at stored
  obtain ⟨job, present, rfl⟩ := List.mem_map.mp stored
  cases matched : condition job with
  | true => exact .inl ⟨job, present, matched, by simp⟩
  | false => exact .inr ⟨by simpa using present, by simpa using matched⟩

theorem Rewrites.leased (rewrites : Rewrites condition update jobs after) (leased : Leased jobs)
    (updated : ∀ job, (update job).leaseOwner ≠ none → (update job).status = .running) : Leased after := by
  intro row stored
  rcases rewrites.cases stored with ⟨job, _, _, rfl⟩ | ⟨old, _⟩
  · exact updated job
  · exact leased row old

theorem Rewrites.final {job row : QueueJob} (rewrites : Rewrites condition update jobs after)
    (ids : ∀ job, (update job).id = job.id) (stored : job ∈ jobs.rows) (unmatched : condition job = false)
    (present : row ∈ after.rows) (same : row.id = job.id) : row = job := by
  rcases rewrites.cases present with ⟨old, oldStored, matched, rfl⟩ | ⟨old, _⟩
  · rw [ids] at same
    rw [Table.eq_of_id oldStored stored same, unmatched] at matched
    cases matched
  · exact Table.eq_of_id old stored same

end Rows

section Effects

variable {jobs after : Jobs} {call : Call}

structure New (queue : DurableQueue) (jobs : Jobs) (job : QueueJob) : Prop where
  id : job.id = jobs.next
  status : job.status = .queued
  unowned : job.leaseOwner = none
  attempts : job.attempts = 0
  maxAttempts : job.maxAttempts = queue.maxAttempts

structure Finishing (update : QueueJob → QueueJob) : Prop where
  id : ∀ job, (update job).id = job.id
  unowned : ∀ job, (update job).leaseOwner = none
  attempts : ∀ job, (update job).attempts = job.attempts
  maxAttempts : ∀ job, (update job).maxAttempts = job.maxAttempts

inductive Effect (jobs : Jobs) (call : Call) (after : Jobs) : Prop where
  | same (unchanged : after = jobs)
  | added (job : QueueJob) (rows : after.rows = jobs.rows ++ [job]) (next : after.next = jobs.next + 1)
    (new : New call.queue jobs job) (idle : call.action.finishes = none) (enqueues : call.action.enqueues = true)
  | leased (owner : String) (jobId : Nat) (claims : ∃ jobType, call.action = .claim owner jobType)
    (rewrites : Rewrites (fun job => job.id == jobId && job.status == .queued) (call.queue.leased call.now owner)
      jobs after) (next : after.next = jobs.next) (idle : call.action.finishes = none)
  | finished (owner : String) (jobId : Nat) (finishes : call.action.finishes = some (owner, jobId))
    (worker : call.action.worker = some owner) (update : QueueJob → QueueJob) (finishing : Finishing update)
    (rewrites : Rewrites (·.id == jobId) update jobs after) (next : after.next = jobs.next)
    (retries : ∀ job ∈ jobs.rows, job.id = jobId → (update job).status = .queued → job.attempts < job.maxAttempts)
  | reaped (rewrites : Rewrites (stale call.now) (released call.now) jobs after) (next : after.next = jobs.next)
    (idle : call.action.finishes = none) (reaps : call.action = .reapStaleLeases)
  | pruned (rows : ∀ job, job ∈ after.rows → job ∈ jobs.rows) (next : after.next = jobs.next)
    (spared : ∀ job ∈ jobs.rows, DurableQueue.finished job.status = false → job ∈ after.rows)
    (idle : call.action.finishes = none)

theorem enqueue_effect (jobs : Jobs) (queue : DurableQueue) (now : Time) (jobType : String) (payload : Json)
    (dedupeKey : String) (schemaVersion : Nat) (runAt : Option Time) :
    Effect jobs ⟨queue, now, .enqueue jobType payload dedupeKey schemaVersion runAt⟩
      (queue.enqueue now jobs jobType payload dedupeKey schemaVersion runAt).1 := by
  unfold DurableQueue.enqueue
  split
  · exact .same rfl
  · exact .added _ rfl rfl ⟨rfl, rfl, rfl, rfl, rfl⟩ rfl rfl

theorem claim_effect (jobs : Jobs) (queue : DurableQueue) (now : Time) (owner jobType : String) :
    Effect jobs ⟨queue, now, .claim owner jobType⟩ (queue.claim now jobs jobType owner).1 := by
  unfold DurableQueue.claim
  split
  · exact .same rfl
  · rename_i job _
    split
    · rename_i matched
      obtain ⟨rfl, _⟩ := Prod.mk.inj matched
      exact .leased owner job.id ⟨jobType, rfl⟩ rfl rfl rfl
    · rename_i matched
      obtain ⟨rfl, _⟩ := Prod.mk.inj matched
      exact .leased owner job.id ⟨jobType, rfl⟩ rfl rfl rfl

theorem fail_effect (jobs : Jobs) (queue : DurableQueue) (now : Time) (owner : String) (jobId : Nat) (error : String) :
    Effect jobs ⟨queue, now, .fail owner jobId error⟩ (queue.fail now jobs jobId error) := by
  unfold DurableQueue.fail
  split
  · exact .same rfl
  · rename_i seen found
    obtain ⟨present, sameId⟩ := Table.byId_eq_some.mp found
    change seen.id = jobId at sameId
    unfold settle
    rw [sameId]
    split
    · exact .finished owner jobId rfl rfl (buried now error) ⟨fun _ => rfl, fun _ => rfl, fun _ => rfl, fun _ => rfl⟩
        rfl rfl fun _ _ _ queued => nomatch queued
    · rename_i left
      refine .finished owner jobId rfl rfl (retried now error _)
        ⟨fun _ => rfl, fun _ => rfl, fun _ => rfl, fun _ => rfl⟩ rfl rfl ?_
      intro job stored jobIs _
      have isSeen : job = seen := Table.eq_of_id stored present (jobIs.trans sameId.symm)
      rw [isSeen]
      exact Nat.lt_of_not_le left

theorem serve_effect (jobs : Jobs) (call : Call) : Effect jobs call (serve jobs call) := by
  obtain ⟨queue, now, action⟩ := call
  cases action with
  | enqueue jobType payload dedupeKey schemaVersion runAt => exact enqueue_effect ..
  | claim owner jobType => exact claim_effect ..
  | complete owner jobId =>
    exact .finished owner jobId rfl rfl (completed now) ⟨fun _ => rfl, fun _ => rfl, fun _ => rfl, fun _ => rfl⟩
      rfl rfl fun _ _ _ queued => nomatch queued
  | fail owner jobId error => exact fail_effect ..
  | reapStaleLeases => exact .reaped rfl rfl rfl rfl
  | reapOldJobs retentionDays =>
    refine .pruned (fun job stored => (Table.mem_delete.mp stored).1) rfl ?_ rfl
    intro job stored unfinished
    exact Table.mem_delete.mpr ⟨stored, by simp [unfinished]⟩

theorem Effect.keeps_leased (effect : Effect jobs call after) (leased : Leased jobs) : Leased after := by
  cases effect with
  | same unchanged =>
    rw [unchanged]
    exact leased
  | added job rows _ new _ =>
    intro row stored
    rw [rows] at stored
    rcases List.mem_append.mp stored with old | fresh
    · exact leased row old
    · rw [List.mem_singleton.mp fresh]
      exact fun owned => absurd new.unowned owned
  | leased owner jobId _ rewrites => exact rewrites.leased leased fun _ _ => rfl
  | finished owner jobId _ _ update finishing rewrites =>
    exact rewrites.leased leased fun job owned => absurd (finishing.unowned job) owned
  | reaped rewrites => exact rewrites.leased leased fun _ owned => absurd rfl owned
  | pruned rows =>
    intro row stored
    exact leased row (rows row stored)

end Effects

section Law

variable {jobs after : Jobs} {call : Call}

theorem not_finished_of_running {job : QueueJob} (running : job.status = .running) :
    DurableQueue.finished job.status = false := by
  rw [running]
  rfl

theorem LeaseLaw.of_untouched {condition : QueueJob → Bool} {update : QueueJob → QueueJob}
    (rewrites : Rewrites condition update jobs after) (ids : ∀ job, (update job).id = job.id)
    (idle : call.action.finishes = none)
    (sheltered : ∀ job ∈ jobs.rows, ∀ owner, Holds owner job →
      (∀ expiry ∈ job.leasedUntil, call.now ≤ expiry) → condition job = false)
    (final : ∀ job ∈ jobs.rows, DurableQueue.finished job.status = true → condition job = false) :
    LeaseLaw jobs call after := by
  constructor
  · intro owner jobId finishes
    rw [idle] at finishes
    cases finishes
  · intro job stored owner held _ unexpired
    exact rewrites.kept stored (sheltered job stored owner held unexpired)
  · intro job stored isFinal row present same
    rw [rewrites.final ids stored (final job stored isFinal) present same]

theorem Effect.lawful (effect : Effect jobs call after) (leased : Leased jobs) (own : finishesOwn jobs call) :
    LeaseLaw jobs call after := by
  cases effect with
  | same unchanged =>
    rw [unchanged]
    refine ⟨fun _ _ _ job stored _ gone => absurd stored gone, fun job stored _ _ _ _ => stored, ?_⟩
    intro job stored _ row present sameId
    rw [Table.eq_of_id present stored sameId]
  | added job rows _ new idle =>
    constructor
    · intro _ _ finishes
      rw [idle] at finishes
      cases finishes
    · intro old stored _ _ _ _
      rw [rows]
      exact List.mem_append_left _ stored
    · intro old stored _ row present sameId
      rw [rows] at present
      rcases List.mem_append.mp present with kept | fresh
      · rw [Table.eq_of_id kept stored sameId]
      · have below : old.id < jobs.next := jobs.ids_below old stored
        rw [List.mem_singleton.mp fresh, new.id] at sameId
        omega
  | leased owner jobId _ rewrites _ idle =>
    apply LeaseLaw.of_untouched rewrites (fun _ => rfl) idle
    · intro job _ _ held _
      simp [held.1]
    · intro job _ isFinal
      cases status : job.status with
      | queued => simp [status, DurableQueue.finished] at isFinal
      | running | succeeded | dead => simp
  | finished owner jobId finishes worker update finishing rewrites =>
    have holds : ∀ job ∈ jobs.rows, job.id = jobId → Holds owner job := by
      intro job stored same
      have owned := own owner jobId finishes job stored same
      exact ⟨leased job stored (by simp [owned]), owned⟩
    constructor
    · intro owner' jobId' finishes' job stored same _
      rw [finishes] at finishes'
      cases finishes'
      exact holds job stored same
    · intro job stored owner' held other _
      apply rewrites.kept stored
      rw [beq_eq_false_iff_ne]
      intro same
      rw [worker, ← held.2, (holds job stored same).2] at other
      exact other rfl
    · intro job stored isFinal row present same
      have untouched : (job.id == jobId) = false := by
        rw [beq_eq_false_iff_ne]
        intro isJob
        rw [not_finished_of_running (holds job stored isJob).1] at isFinal
        cases isFinal
      rw [rewrites.final finishing.id stored untouched present same]
  | reaped rewrites _ idle =>
    apply LeaseLaw.of_untouched rewrites (fun _ => rfl) idle
    · intro job _ _ _ unexpired
      cases expiry : job.leasedUntil with
      | none => simp [stale, expiry]
      | some instant =>
        have later := unexpired instant expiry
        simp [stale, expiry, Nat.not_lt.mpr later]
    · intro job _ isFinal
      cases status : job.status with
      | running => simp [status, DurableQueue.finished] at isFinal
      | queued | succeeded | dead => simp [stale, status]
  | pruned rows _ spared idle =>
    constructor
    · intro _ _ finishes
      rw [idle] at finishes
      cases finishes
    · intro job stored _ held _ _
      exact spared job stored (not_finished_of_running held.1)
    · intro job stored _ row present same
      rw [Table.eq_of_id (rows row present) stored same]

end Law

/-- In every run in which workers finish only jobs whose lease is still theirs, leases are respected. -/
theorem leases_are_respected (calls : List Call) (own : Runs.AllMeet serve finishesOwn .empty calls) :
    Runs.EachStep serve LeaseLaw .empty calls := by
  apply own.eachStep_of_invariant Leased
  · intro jobs call leased
    exact (serve_effect jobs call).keeps_leased leased
  · intro jobs call leased met
    exact (serve_effect jobs call).lawful leased met
  · intro job stored
    cases stored

def relay : List Call :=
  [⟨{}, 0, .enqueue "scan.run" .null "scan:1" 1 none⟩, ⟨{}, 0, .claim "a" "scan.run"⟩,
    ⟨{}, seconds 5, .fail "a" 1 "boom"⟩, ⟨{}, seconds 10, .claim "b" "scan.run"⟩, ⟨{}, seconds 12, .complete "b" 1⟩,
    ⟨{}, seconds 20, .reapStaleLeases⟩, ⟨{}, days 15, .reapOldJobs 14⟩]

instance (jobs : Jobs) (call : Call) : Decidable (finishesOwn jobs call) :=
  match finishes : call.action.finishes with
  | none => .isTrue (by simp [finishesOwn, finishes])
  | some (owner, jobId) =>
    decidable_of_iff (∀ job ∈ jobs.rows, job.id = jobId → job.leaseOwner = some owner)
      (by simp [finishesOwn, finishes])

theorem leases_are_respected_relay : Runs.EachStep serve LeaseLaw .empty relay := by
  apply leases_are_respected
  exact ⟨by decide +kernel, by decide +kernel, by decide +kernel, by decide +kernel, by decide +kernel, by decide +kernel,
    by decide +kernel, trivial⟩

def takeover : List Call :=
  [⟨{}, 0, .enqueue "scan.run" .null "scan:1" 1 none⟩, ⟨{}, 0, .claim "a" "scan.run"⟩,
    ⟨{}, seconds 61, .reapStaleLeases⟩, ⟨{}, seconds 62, .claim "b" "scan.run"⟩, ⟨{}, seconds 63, .complete "a" 1⟩]

/-- The late worker completes the job under the lease of the other, whose failure then reopens it. -/
theorem late_worker_finishes_leased_job :
    ¬ Runs.EachStep serve LeaseLaw .empty takeover ∧
      (takeover.foldl serve .empty).rows.map (·.status) = [.succeeded] ∧
      (serve (takeover.foldl serve .empty) ⟨{}, seconds 64, .fail "b" 1 "boom"⟩).rows.map (·.status) = [.queued] := by
  refine ⟨?_, by decide +kernel, by decide +kernel⟩
  rintro ⟨_, _, _, _, law, _⟩
  have leased : ∃ job ∈ ((takeover.take 4).foldl serve .empty).rows, job.status = .running ∧ job.leaseOwner = some "b" ∧
      job.leasedUntil = some (seconds 122) := by decide +kernel
  obtain ⟨job, stored, running, owned, until_⟩ := leased
  have kept := law.sheltered job stored "b" ⟨running, owned⟩ (by decide) (by rw [until_]; decide)
  have completed : ∀ row ∈ (takeover.foldl serve .empty).rows, row.status = .succeeded := by decide +kernel
  have succeeded := completed job kept
  rw [running] at succeeded
  cases succeeded

end Registry.Outbox
