import OpenAgentHub.Registry.Outbox.Queue

namespace Registry.Outbox

open Relational DurableQueue

inductive Session where
  | idle
  | selected (now : Time) (owner : String) (job : QueueJob)
  | fetched (now : Time) (job : QueueJob) (error : String)

structure Pool where
  jobs : Jobs
  sessions : Nat → Session

inductive Statement where
  | enqueue (now : Time) (jobType : String) (payload : Json) (dedupeKey : String) (schemaVersion : Nat)
    (runAt : Option Time)
  | select (worker : Nat) (now : Time) (jobType owner : String)
  | update (worker : Nat)
  | complete (now : Time) (jobId : Nat)
  | fetch (worker : Nat) (now : Time) (jobId : Nat) (error : String)
  | settle (worker : Nat)
  | reapStaleLeases (now : Time)

inductive Event where
  | returned (worker jobId : Nat)
  | queued (jobId : Nat)
  deriving DecidableEq

namespace Pool

def setSession (pool : Pool) (worker : Nat) (session : Session) : Pool :=
  { pool with sessions := Function.update pool.sessions worker session }

def execute (queue : DurableQueue) (pool : Pool) : Statement → Pool × List Event
  | .enqueue now jobType payload dedupeKey schemaVersion runAt =>
    ({ pool with jobs := (queue.enqueue now pool.jobs jobType payload dedupeKey schemaVersion runAt).1 }, [])
  | .select worker now jobType owner =>
    match candidate now pool.jobs jobType with
    | none => (pool.setSession worker .idle, [])
    | some job => (pool.setSession worker (.selected now owner job), [])
  | .update worker =>
    match pool.sessions worker with
    | .selected now owner job =>
      match queue.lease now pool.jobs owner job.id with
      | (jobs, true) => ({ pool with jobs }.setSession worker .idle, [.returned worker job.id])
      | (jobs, false) => ({ pool with jobs }.setSession worker .idle, [])
    | _ => (pool, [])
  | .complete now jobId => ({ pool with jobs := complete now pool.jobs jobId }, [])
  | .fetch worker now jobId error =>
    match pool.jobs.byId jobId with
    | none => (pool.setSession worker .idle, [])
    | some job => (pool.setSession worker (.fetched now job error), [])
  | .settle worker =>
    match pool.sessions worker with
    | .fetched now job error => ({ pool with jobs := queue.settle now pool.jobs job error }.setSession worker .idle, [])
    | _ => (pool, [])
  | .reapStaleLeases now => ({ pool with jobs := reapStaleLeases now pool.jobs }, [])

end Pool

def moves (before after : Jobs) : List Event :=
  (after.select fun job => job.status == .queued &&
    !before.rows.any fun old => old.id == job.id && old.status == .queued).map fun job => .queued job.id

def step (queue : DurableQueue) (run : Pool × List Event) (statement : Statement) : Pool × List Event :=
  let (pool, answer) := run.1.execute queue statement
  (pool, run.2 ++ moves run.1.jobs pool.jobs ++ answer)

def run (queue : DurableQueue) (statements : List Statement) : Pool × List Event :=
  statements.foldl (step queue) (⟨.empty, fun _ => .idle⟩, [])

section Events

def returns (jobId : Nat) : Event → Bool
  | .returned _ id => id == jobId
  | .queued _ => false

def claims (jobId : Nat) (events : List Event) : Nat := events.countP (returns jobId)

def claimsSince (jobId : Nat) : List Event → Nat :=
  List.foldl (fun count event => if event = .queued jobId then 0 else count + if returns jobId event then 1 else 0) 0

/-- Between two claims that return the job, the job comes into status `queued`. -/
def Exclusive (jobId : Nat) (events : List Event) : Prop :=
  ∀ earlier first between second later,
    events = earlier ++ .returned first jobId :: (between ++ .returned second jobId :: later) → .queued jobId ∈ between

variable {jobId : Nat} {events : List Event}

theorem claimsSince_concat (event : Event) : claimsSince jobId (events ++ [event]) =
    if event = .queued jobId then 0 else claimsSince jobId events + if returns jobId event then 1 else 0 := by
  unfold claimsSince
  rw [List.foldl_append]
  rfl

theorem queued_of_claimsSince {earlier between : List Event} {worker : Nat}
    (none : claimsSince jobId (earlier ++ .returned worker jobId :: between) = 0) : .queued jobId ∈ between := by
  induction between using List.reverseRecOn with
  | nil =>
    rw [claimsSince_concat] at none
    simp [returns] at none
  | append_singleton between event ih =>
    rw [← List.cons_append, ← List.append_assoc, claimsSince_concat] at none
    split at none
    · rename_i isQueued
      simp [isQueued]
    · exact List.mem_append_left _ (ih (by omega))

theorem Exclusive.concat {event : Event} (exclusive : Exclusive jobId events)
    (fits : returns jobId event = true → claimsSince jobId events = 0) : Exclusive jobId (events ++ [event]) := by
  intro earlier first between second later same
  rcases List.eq_nil_or_concat later with rfl | ⟨later, last, rfl⟩
  · rw [← List.cons_append, ← List.append_assoc] at same
    obtain ⟨rfl, isEvent⟩ := List.append_inj' same rfl
    have isReturn : event = .returned second jobId := by simpa using isEvent
    exact queued_of_claimsSince (fits (by simp [isReturn, returns]))
  · have regrouped : earlier ++ Event.returned first jobId :: (between ++ .returned second jobId :: later.concat last) =
        (earlier ++ .returned first jobId :: (between ++ .returned second jobId :: later)) ++ [last] := by simp
    rw [regrouped] at same
    exact exclusive _ _ _ _ _ (List.append_inj' same rfl).1

def Silent (events : List Event) : Prop := ∀ jobId, ∀ event ∈ events, returns jobId event = false

theorem moves_silent (before after : Jobs) : Silent (moves before after) := by
  intro jobId event member
  obtain ⟨job, _, rfl⟩ := List.mem_map.mp member
  rfl

theorem mem_moves {before after : Jobs} : .queued jobId ∈ moves before after ↔
    (∃ job ∈ after.rows, job.status = .queued ∧ job.id = jobId) ∧
      ∀ old ∈ before.rows, old.id = jobId → old.status ≠ .queued := by
  simp only [moves, List.mem_map, Table.mem_select, Bool.and_eq_true, Bool.not_eq_true', List.any_eq_false, beq_iff_eq,
    Event.queued.injEq, not_and]
  constructor
  · rintro ⟨job, ⟨stored, queued, absent⟩, rfl⟩
    exact ⟨⟨job, stored, queued, rfl⟩, absent⟩
  · rintro ⟨⟨job, stored, queued, rfl⟩, absent⟩
    exact ⟨job, ⟨stored, queued, absent⟩, rfl⟩

variable {added : List Event}

theorem claims_append (silent : Silent added) : claims jobId (events ++ added) = claims jobId events := by
  unfold claims
  rw [List.countP_append, Nat.add_eq_left, List.countP_eq_zero]
  intro event member
  simp [silent jobId event member]

theorem claimsSince_append (silent : Silent added) : claimsSince jobId (events ++ added) =
    if .queued jobId ∈ added then 0 else claimsSince jobId events := by
  induction added using List.reverseRecOn with
  | nil => simp
  | append_singleton added event ih =>
    have earlier := ih fun id event member => silent id event (List.mem_append_left _ member)
    have last := silent jobId event (by simp)
    rw [← List.append_assoc, claimsSince_concat, earlier, last]
    by_cases isQueued : event = .queued jobId
    · simp [isQueued]
    · simp [isQueued, Ne.symm isQueued]

theorem Exclusive.append (exclusive : Exclusive jobId events) (silent : Silent added) :
    Exclusive jobId (events ++ added) := by
  induction added using List.reverseRecOn with
  | nil => simpa using exclusive
  | append_singleton added event ih =>
    rw [← List.append_assoc]
    apply (ih fun id event member => silent id event (List.mem_append_left _ member)).concat
    intro isReturn
    simp [silent jobId event (by simp)] at isReturn

end Events

structure Accounted (run : Pool × List Event) : Prop where
  attempts : ∀ job ∈ run.1.jobs.rows, job.attempts = claims job.id run.2
  waiting : ∀ job ∈ run.1.jobs.rows, job.status = .queued → claimsSince job.id run.2 = 0
  exclusive : ∀ jobId, Exclusive jobId run.2
  unborn : ∀ jobId, run.1.jobs.next ≤ jobId → claims jobId run.2 = 0

section Steps

variable {queue : DurableQueue} {pool after : Pool} {events : List Event}

theorem Accounted.keep (accounted : Accounted (pool, events)) (next : after.jobs.next = pool.jobs.next)
    (kept : ∀ job ∈ after.jobs.rows, ∃ old ∈ pool.jobs.rows, old.id = job.id ∧ old.attempts = job.attempts) :
    Accounted (after, events ++ moves pool.jobs after.jobs ++ []) := by
  have silent := moves_silent pool.jobs after.jobs
  rw [List.append_nil]
  constructor
  · intro job stored
    obtain ⟨old, present, sameId, sameAttempts⟩ := kept job stored
    rw [claims_append silent, ← sameId, ← sameAttempts]
    exact accounted.attempts old present
  · intro job stored queued
    rw [claimsSince_append silent]
    split
    · rfl
    · rename_i notMoved
      obtain ⟨old, present, sameId, _⟩ := kept job stored
      have wasQueued : old.status = .queued := by
        by_contra wasNot
        apply notMoved
        refine mem_moves.mpr ⟨⟨job, stored, queued, rfl⟩, ?_⟩
        intro other otherPresent otherId
        rw [Table.eq_of_id otherPresent present (otherId.trans sameId.symm)]
        exact wasNot
      rw [← sameId]
      exact accounted.waiting old present wasQueued
  · intro jobId
    exact (accounted.exclusive jobId).append silent
  · intro jobId beyond
    rw [claims_append silent]
    exact accounted.unborn jobId (by rw [← next]; exact beyond)

theorem Accounted.same (accounted : Accounted (pool, events)) (jobs : after.jobs = pool.jobs) :
    Accounted (after, events ++ moves pool.jobs after.jobs ++ []) := by
  apply accounted.keep
  · rw [jobs]
  · intro job stored
    rw [jobs] at stored
    exact ⟨job, stored, rfl, rfl⟩

theorem Accounted.modify (accounted : Accounted (pool, events)) (condition : QueueJob → Bool) (update : QueueJob → QueueJob)
    (next : after.jobs.next = pool.jobs.next)
    (rows : after.jobs.rows = pool.jobs.rows.map fun job => if condition job then update job else job)
    (spares : ∀ job, (update job).id = job.id ∧ (update job).attempts = job.attempts) :
    Accounted (after, events ++ moves pool.jobs after.jobs ++ []) := by
  apply accounted.keep next
  intro job stored
  rw [rows] at stored
  obtain ⟨old, present, rfl⟩ := List.mem_map.mp stored
  refine ⟨old, present, ?_⟩
  split
  · exact ⟨(spares old).1.symm, (spares old).2.symm⟩
  · exact ⟨rfl, rfl⟩

theorem Accounted.enqueue (accounted : Accounted (pool, events)) {now : Time} {jobType dedupeKey : String} {payload : Json}
    {schemaVersion : Nat} {runAt : Option Time}
    (jobs : after.jobs = (queue.enqueue now pool.jobs jobType payload dedupeKey schemaVersion runAt).1) :
    Accounted (after, events ++ moves pool.jobs after.jobs ++ []) := by
  unfold DurableQueue.enqueue at jobs
  split at jobs
  · exact accounted.same jobs
  · have silent := moves_silent pool.jobs after.jobs
    have next : after.jobs.next = pool.jobs.next + 1 := by rw [jobs]; rfl
    have cases : ∀ job ∈ after.jobs.rows, job ∈ pool.jobs.rows ∨
        (job.id = pool.jobs.next ∧ job.attempts = 0 ∧ .queued job.id ∈ moves pool.jobs after.jobs) := by
      intro job stored
      have inAfter := stored
      rw [jobs] at stored
      rcases List.mem_append.mp stored with old | new
      · exact .inl old
      · have isNew := List.mem_singleton.mp new
        refine .inr ⟨by rw [isNew], by rw [isNew], mem_moves.mpr ⟨⟨job, inAfter, by rw [isNew], rfl⟩, ?_⟩⟩
        intro old present sameId
        have below : old.id < pool.jobs.next := pool.jobs.ids_below old present
        rw [sameId, isNew] at below
        exact absurd below (Nat.lt_irrefl _)
    rw [List.append_nil]
    constructor
    · intro job stored
      rw [claims_append silent]
      rcases cases job stored with old | ⟨isNext, none, _⟩
      · exact accounted.attempts job old
      · rw [none, isNext]
        exact (accounted.unborn _ (Nat.le_refl _)).symm
    · intro job stored queued
      rw [claimsSince_append silent]
      rcases cases job stored with old | ⟨_, _, moved⟩
      · split
        · rfl
        · exact accounted.waiting job old queued
      · rw [if_pos moved]
    · intro jobId
      exact (accounted.exclusive jobId).append silent
    · intro jobId beyond
      rw [claims_append silent]
      apply accounted.unborn
      change after.jobs.next ≤ jobId at beyond
      change pool.jobs.next ≤ jobId
      omega

theorem Accounted.lease (accounted : Accounted (pool, events)) {now : Time} {owner : String} {worker jobId : Nat}
    (matched : queue.lease now pool.jobs owner jobId = (after.jobs, true)) :
    Accounted (after, events ++ moves pool.jobs after.jobs ++ [.returned worker jobId]) := by
  obtain ⟨jobs, found⟩ := Prod.mk.inj matched
  obtain ⟨target, present, isTarget⟩ := List.any_eq_true.mp found
  simp only [Bool.and_eq_true, beq_iff_eq] at isTarget
  obtain ⟨targetId, targetQueued⟩ := isTarget
  have next : after.jobs.next = pool.jobs.next := by rw [← jobs]; rfl
  -- every row is the leased target or another row as it was
  have cases : ∀ job ∈ after.jobs.rows, job = queue.leased now owner target ∨
      (job ∈ pool.jobs.rows ∧ job.id ≠ jobId) := by
    intro job stored
    rw [← jobs] at stored
    obtain ⟨old, oldPresent, rfl⟩ := (Table.mem_modify _).mp stored
    by_cases same : old.id = jobId
    · have isOld : old = target := Table.eq_of_id oldPresent present (same.trans targetId.symm)
      subst isOld
      simp [targetId, targetQueued]
    · simp [same, oldPresent]
  have unmoved : moves pool.jobs after.jobs = [] := by
    rw [List.eq_nil_iff_forall_not_mem]
    intro event member
    cases event with
    | returned worker id => exact absurd (moves_silent _ _ id _ member) (by simp [returns])
    | queued id =>
      obtain ⟨⟨job, stored, queued, sameId⟩, absent⟩ := mem_moves.mp member
      rcases cases job stored with rfl | ⟨old, _⟩
      · cases queued
      · exact absent job old sameId queued
  rw [unmoved, List.append_nil]
  have counted : ∀ id, claims id (events ++ [.returned worker jobId]) =
      claims id events + if jobId = id then 1 else 0 := by
    intro id
    unfold claims
    rw [List.countP_append]
    simp [returns, List.countP_cons]
  constructor
  · intro job stored
    rw [counted]
    rcases cases job stored with rfl | ⟨old, other⟩
    · have sameId : (queue.leased now owner target).id = jobId := targetId
      rw [sameId, if_pos rfl, ← targetId, ← accounted.attempts target present]
      rfl
    · rw [if_neg (Ne.symm other)]
      exact accounted.attempts job old
  · intro job stored queued
    rcases cases job stored with rfl | ⟨old, other⟩
    · cases queued
    · rw [claimsSince_concat]
      simp only [reduceCtorEq, if_false, returns, beq_iff_eq, if_neg (Ne.symm other)]
      exact accounted.waiting job old queued
  · intro id
    apply (accounted.exclusive id).concat
    intro isReturn
    have isJob : jobId = id := by simpa [returns] using isReturn
    rw [← isJob, ← targetId]
    exact accounted.waiting target present targetQueued
  · intro id beyond
    have below : target.id < pool.jobs.next := pool.jobs.ids_below target present
    change after.jobs.next ≤ id at beyond
    rw [counted, accounted.unborn id (by rw [← next]; exact beyond), if_neg]
    omega

theorem lease_missed {now : Time} {owner : String} {jobs after : Jobs} {jobId : Nat}
    (matched : queue.lease now jobs owner jobId = (after, false)) : after = jobs := by
  obtain ⟨modified, unmatched⟩ := Prod.mk.inj matched
  rw [← modified]
  apply Table.modify_of_none
  intro job stored
  exact Bool.eq_false_iff.mpr (List.any_eq_false.mp unmatched job stored)

theorem step_accounted {statement : Statement} {history : Pool × List Event} (accounted : Accounted history) :
    Accounted (step queue history statement) := by
  obtain ⟨pool, events⟩ := history
  unfold step
  cases statement with
  | enqueue now jobType payload dedupeKey schemaVersion runAt => exact accounted.enqueue rfl
  | select worker now jobType owner =>
    unfold Pool.execute
    dsimp only
    split
    · exact accounted.same rfl
    · exact accounted.same rfl
  | update worker =>
    unfold Pool.execute
    dsimp only
    split
    · rename_i now owner job held
      split
      · rename_i jobs matched
        exact accounted.lease matched
      · rename_i jobs matched
        exact accounted.same (lease_missed matched)
    · exact accounted.same rfl
  | complete now jobId => exact accounted.modify (·.id == jobId) (completed now) rfl rfl fun _ => ⟨rfl, rfl⟩
  | fetch worker now jobId error =>
    unfold Pool.execute
    dsimp only
    split
    · exact accounted.same rfl
    · exact accounted.same rfl
  | settle worker =>
    unfold Pool.execute
    dsimp only
    split
    · rename_i now job error held
      unfold DurableQueue.settle
      split
      · exact accounted.modify (·.id == job.id) (buried now error) rfl rfl fun _ => ⟨rfl, rfl⟩
      · exact accounted.modify (·.id == job.id) (retried now error _) rfl rfl fun _ => ⟨rfl, rfl⟩
    · exact accounted.same rfl
  | reapStaleLeases now => exact accounted.modify (stale now) (released now) rfl rfl fun _ => ⟨rfl, rfl⟩

end Steps

/-- However the statements of the workers interleave, a job that comes to wait is returned by at most one
    claim until it comes to wait again, and its attempts count the claims that have returned it. -/
theorem claims_are_exclusive (queue : DurableQueue) (statements : List Statement) :
    (∀ jobId, Exclusive jobId (run queue statements).2) ∧
      ∀ job ∈ (run queue statements).1.jobs.rows, job.attempts = claims job.id (run queue statements).2 := by
  have accounted : Accounted (run queue statements) := by
    unfold run
    apply List.foldlRecOn statements (step queue)
    · exact ⟨by simp [Table.empty], by simp [Table.empty], by simp [Exclusive], by simp [claims]⟩
    · intro history accounted statement _
      exact step_accounted accounted
  exact ⟨accounted.exclusive, accounted.attempts⟩

/-- Two workers select the same job, and only the first to update it gets it. -/
example : (run {} [.enqueue 0 "scan.run" .null "scan:1" 1 none, .select 1 0 "scan.run" "a", .select 2 0 "scan.run" "b",
    .update 2, .update 1, .reapStaleLeases (seconds 61), .update 1]).2 = [.queued 1, .returned 2 1, .queued 1] := by
  decide +kernel

end Registry.Outbox
