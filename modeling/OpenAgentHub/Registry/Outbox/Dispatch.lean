import OpenAgentHub.Registry.Outbox.Queue
import OpenAgentHub.Lib.Runs

namespace Registry.Outbox

open Relational DurableQueue

/-- `EVENT_TO_JOB`. -/
def eventToJob : String → Option (String × String)
  | "scan.requested" => some ("scan.run", "scan")
  | _ => none

structure EnqueueCall where
  jobType : String
  payload : Json
  dedupeKey : String
  schemaVersion : Nat := 1
  runAt : Option Time := none

abbrev JobKey := String × String

def EnqueueCall.key (call : EnqueueCall) : JobKey := (call.jobType, call.dedupeKey)

def jobKey (job : QueueJob) : JobKey := (job.jobType, job.dedupeKey)

/-- The call that `dispatch_once` makes for an event. How Python prints a
    payload's `version_id` is left open. -/
def jobFor (str : Json → String) (event : OutboxEvent) : Option EnqueueCall :=
  (eventToJob event.eventType).map fun (jobType, stem) =>
    { jobType, payload := event.payload
      dedupeKey := stem ++ ":" ++ ((event.payload.get "version_id").map str).getD (toString event.id)
      schemaVersion := event.schemaVersion }

def unpublished (events : Table OutboxEvent) (limit : Nat := 50) : List OutboxEvent :=
  ((events.select (·.publishedAt.isNone)).mergeSort fun first second => decide (first.id ≤ second.id)).take limit

inductive Errand where
  | event (event : OutboxEvent)
  | call (call : EnqueueCall)

/-- An open transaction. `passed` is set between the select of the first
    errand, when it has found no active job, and the insert. -/
structure Transaction where
  errands : List Errand
  passed : Bool := false
  inserted : List (EnqueueCall × Time) := []
  published : List (Nat × Time) := []

def Errand.wanted (str : Json → String) : Errand → Option EnqueueCall
  | .event emitted => jobFor str emitted
  | .call own => some own

def Errand.marks (now : Time) : Errand → List (Nat × Time)
  | .event emitted => [(emitted.id, now)]
  | .call _ => []

namespace Transaction

def finish (transaction : Transaction) (now : Time) (errand : Errand) (rest : List Errand) : Transaction :=
  { transaction with
    errands := rest, passed := false, published := transaction.published ++ errand.marks now }

/-- Whether the select of `enqueue` finds a job: one that is committed, or one
    that this transaction has flushed itself. -/
def finds (jobs : Jobs) (transaction : Transaction) (call : EnqueueCall) : Bool :=
  (jobs.rows.any fun job => decide (jobKey job = call.key) && activeJob job.status) ||
    transaction.inserted.any fun earlier => decide (earlier.1.key = call.key)

def select (str : Json → String) (now : Time) (jobs : Jobs) (transaction : Transaction) : Transaction :=
  match transaction.errands with
  | [] => transaction
  | errand :: rest =>
    match errand.wanted str with
    | none => transaction.finish now errand rest
    | some call =>
      if transaction.finds jobs call then transaction.finish now errand rest
      else { transaction with passed := true }

def insert (str : Json → String) (now : Time) (transaction : Transaction) : Transaction :=
  match transaction.errands, transaction.passed with
  | errand :: rest, true =>
    match errand.wanted str with
    | none => transaction
    | some call => { transaction with inserted := transaction.inserted ++ [(call, now)] }.finish now errand rest
  | _, _ => transaction

end Transaction

structure Broker where
  events : Table OutboxEvent
  jobs : Jobs
  transactions : Nat → Option Transaction

inductive Move where
  | begin (number : Nat)
  | enter (number : Nat) (calls : List EnqueueCall)
  | select (number : Nat) (now : Time)
  | insert (number : Nat) (now : Time)
  | commit (number : Nat)
  | crash (number : Nat)
  | addEvent (eventType : String) (payload : Json) (schemaVersion : Nat)
  | lease (now : Time) (owner : String) (jobId : Nat)
  | complete (now : Time) (jobId : Nat)
  | settle (now : Time) (seen : QueueJob) (error : String)
  | reapStaleLeases (now : Time)

def newJob (queue : DurableQueue) (call : EnqueueCall) (now : Time) (id : Nat) : QueueJob :=
  { id, jobType := call.jobType, payload := call.payload, schemaVersion := call.schemaVersion
    dedupeKey := call.dedupeKey, maxAttempts := queue.maxAttempts
    nextAttemptAt := call.runAt.getD now, updatedAt := now }

def addJobs (queue : DurableQueue) (jobs : Jobs) (inserted : List (EnqueueCall × Time)) : Jobs :=
  inserted.foldl (fun jobs added => jobs.push (newJob queue added.1 added.2)) jobs

def markPublished (events : Table OutboxEvent) (published : List (Nat × Time)) : Table OutboxEvent :=
  published.foldl
    (fun events mark => events.modify (·.id == mark.1) fun event => { event with publishedAt := some mark.2 }) events

namespace Broker

def set (broker : Broker) (number : Nat) (transaction : Option Transaction) : Broker :=
  { broker with transactions := Function.update broker.transactions number transaction }

def openWith (broker : Broker) (number : Nat) (errands : List Errand) : Broker :=
  match broker.transactions number with
  | none => broker.set number (some { errands })
  | some _ => broker

def update (broker : Broker) (number : Nat) (change : Transaction → Transaction) : Broker :=
  match broker.transactions number with
  | none => broker
  | some transaction => broker.set number (some (change transaction))

def commit (queue : DurableQueue) (broker : Broker) (transaction : Transaction) : Broker :=
  { broker with
    events := markPublished broker.events transaction.published
    jobs := addJobs queue broker.jobs transaction.inserted }

def withJobs (broker : Broker) (jobs : Jobs) : Broker := { broker with jobs }

def step (queue : DurableQueue) (str : Json → String) (broker : Broker) : Move → Broker
  | .begin number => broker.openWith number ((unpublished broker.events).map .event)
  | .enter number calls => broker.openWith number (calls.map .call)
  | .select number now => broker.update number (Transaction.select str now broker.jobs)
  | .insert number now => broker.update number (Transaction.insert str now)
  | .commit number =>
    match broker.transactions number with
    | none => broker
    | some transaction =>
      if transaction.errands.isEmpty then (broker.commit queue transaction).set number none else broker
  | .crash number => broker.set number none
  | .addEvent eventType payload schemaVersion =>
    { broker with events := broker.events.push fun id => { id, eventType, payload, schemaVersion } }
  | .lease now owner jobId => broker.withJobs (queue.lease now broker.jobs owner jobId).1
  | .complete now jobId => broker.withJobs (DurableQueue.complete now broker.jobs jobId)
  | .settle now seen error => broker.withJobs (queue.settle now broker.jobs seen error)
  | .reapStaleLeases now => broker.withJobs (DurableQueue.reapStaleLeases now broker.jobs)

end Broker

/-- A transaction of one errand that no other interrupts does what `enqueue` does. -/
theorem lone_transaction (queue : DurableQueue) (str : Json → String) (now : Time) (jobs : Jobs) (call : EnqueueCall) :
    addJobs queue jobs (((({ errands := [.call call] } : Transaction).select str now jobs).insert str now).inserted) =
      (queue.enqueue now jobs call.jobType call.payload call.dedupeKey call.schemaVersion call.runAt).1 := by
  have same : ({ errands := [.call call] } : Transaction).finds jobs call =
      (jobs.one fun job => job.jobType == call.jobType && job.dedupeKey == call.dedupeKey &&
        activeJob job.status).isSome := by
    rw [Bool.eq_iff_iff]
    simp [Transaction.finds, Table.one, jobKey, EnqueueCall.key]
  unfold enqueue Transaction.select
  dsimp only [Errand.wanted]
  rw [same]
  cases jobs.one fun job => job.jobType == call.jobType && job.dedupeKey == call.dedupeKey && activeJob job.status with
  | none => rfl
  | some found => rfl

end Registry.Outbox
