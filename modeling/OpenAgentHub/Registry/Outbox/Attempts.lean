import OpenAgentHub.Registry.Outbox.Leases

namespace Registry.Outbox

open Relational DurableQueue

/-- A call that commits, or a claim that is rolled back after the handler was given the job. -/
inductive Turn where
  | commits (call : Call)
  | crashes (queue : DurableQueue) (now : Time) (owner jobType : String)

inductive Notice where
  | enqueued (jobId maxAttempts : Nat)
  | handed (jobId : Nat)
  deriving DecidableEq

def born (before after : Jobs) : List Notice :=
  (after.select fun job => decide (before.next ≤ job.id)).map fun job => .enqueued job.id job.maxAttempts

def handed (jobs : Jobs) : Turn → List Notice
  | .commits ⟨queue, now, .claim owner jobType⟩ | .crashes queue now owner jobType =>
    ((queue.claim now jobs jobType owner).2.map fun job => .handed job.id).toList
  | .commits _ => []

def Turn.jobs (jobs : Jobs) : Turn → Jobs
  | .commits call => serve jobs call
  | .crashes .. => jobs

def take (history : Jobs × List Notice) (turn : Turn) : Jobs × List Notice :=
  (turn.jobs history.1, history.2 ++ born history.1 (turn.jobs history.1) ++ handed history.1 turn)

def handings (jobId : Nat) (notices : List Notice) : Nat := notices.count (.handed jobId)

/-- No handler is lost before its claim commits, and no lease of a last attempt is left to expire. -/
def attemptsCounted (history : Jobs × List Notice) : Turn → Prop
  | .commits ⟨queue, _, .enqueue ..⟩ => 0 < queue.maxAttempts
  | .commits ⟨_, now, .reapStaleLeases⟩ =>
    ∀ job ∈ history.1.rows, stale now job = true → job.attempts < job.maxAttempts
  | .commits _ => True
  | .crashes _ now _ jobType => candidate now history.1 jobType = none

structure Bounded (history : Jobs × List Notice) : Prop where
  counted : ∀ job ∈ history.1.rows, job.attempts = handings job.id history.2
  waiting : ∀ job ∈ history.1.rows, job.status = .queued → job.attempts < job.maxAttempts
  known : ∀ job ∈ history.1.rows, .enqueued job.id job.maxAttempts ∈ history.2
  limited : ∀ jobId maxAttempts, .enqueued jobId maxAttempts ∈ history.2 → handings jobId history.2 ≤ maxAttempts
  unique : ∀ jobId first second, .enqueued jobId first ∈ history.2 → .enqueued jobId second ∈ history.2 → first = second
  unborn : ∀ jobId, history.1.next ≤ jobId →
    handings jobId history.2 = 0 ∧ ∀ maxAttempts, .enqueued jobId maxAttempts ∉ history.2

section Claims

variable {queue : DurableQueue} {now : Time} {jobs : Jobs} {jobType owner : String}

structure Ready (now : Time) (jobType : String) (job : QueueJob) : Prop where
  jobType : job.jobType = jobType
  queued : job.status = .queued
  arrived : job.nextAttemptAt ≤ now

theorem candidate_mem {job : QueueJob} (found : candidate now jobs jobType = some job) :
    job ∈ jobs.rows ∧ Ready now jobType job := by
  have selected := List.argmin_mem (Option.mem_def.mpr found)
  rw [Table.mem_select] at selected
  refine ⟨selected.1, ?_⟩
  have fits := selected.2
  simp only [claimable, Bool.and_eq_true, beq_iff_eq, decide_eq_true_eq] at fits
  exact ⟨fits.1.1.1, fits.1.1.2, fits.1.2⟩

theorem claim_cases (queue : DurableQueue) (now : Time) (jobs : Jobs) (jobType owner : String) :
    (candidate now jobs jobType = none ∧ queue.claim now jobs jobType owner = (jobs, none)) ∨
      ∃ job after, job ∈ jobs.rows ∧ Ready now jobType job ∧ queue.claim now jobs jobType owner = (after, some job) ∧
        Rewrites (fun row => row.id == job.id && row.status == .queued) (queue.leased now owner) jobs after ∧
        after.next = jobs.next := by
  unfold DurableQueue.claim
  cases found : candidate now jobs jobType with
  | none => exact .inl ⟨rfl, rfl⟩
  | some job =>
    obtain ⟨stored, ready⟩ := candidate_mem found
    have matched : (queue.lease now jobs owner job.id).2 = true :=
      List.any_eq_true.mpr ⟨job, stored, by simp [ready.queued]⟩
    refine .inr ⟨job, (queue.lease now jobs owner job.id).1, stored, ready, ?_, rfl, rfl⟩
    dsimp only
    split
    · rename_i leased
      rw [leased]
    · rename_i missed
      rw [missed] at matched
      cases matched

end Claims

section Turns

variable {jobs after : Jobs} {notices : List Notice}

theorem born_nil (below : ∀ job ∈ after.rows, job.id < jobs.next) : born jobs after = [] := by
  unfold born Table.select
  rw [List.map_eq_nil_iff, List.filter_eq_nil_iff]
  intro job stored
  simp [below job stored]

theorem Bounded.rewrite (bounded : Bounded (jobs, notices)) {condition : QueueJob → Bool}
    {update : QueueJob → QueueJob} (rewrites : Rewrites condition update jobs after) (next : after.next = jobs.next)
    (keeps : ∀ job, (update job).id = job.id ∧ (update job).attempts = job.attempts ∧
      (update job).maxAttempts = job.maxAttempts)
    (retries : ∀ job ∈ jobs.rows, condition job = true → (update job).status = .queued → job.attempts < job.maxAttempts) :
    Bounded (after, notices ++ born jobs after ++ []) := by
  have nothingBorn : born jobs after = [] := by
    apply born_nil
    intro job stored
    rw [← next]
    exact after.ids_below job stored
  rw [nothingBorn, List.append_nil, List.append_nil]
  refine ⟨?_, ?_, ?_, bounded.limited, bounded.unique, ?_⟩
  · intro row stored
    rcases rewrites.cases stored with ⟨job, present, _, rfl⟩ | ⟨old, _⟩
    · rw [(keeps job).1, (keeps job).2.1]
      exact bounded.counted job present
    · exact bounded.counted row old
  · intro row stored queued
    rcases rewrites.cases stored with ⟨job, present, matched, rfl⟩ | ⟨old, _⟩
    · rw [(keeps job).2.1, (keeps job).2.2]
      exact retries job present matched queued
    · exact bounded.waiting row old queued
  · intro row stored
    rcases rewrites.cases stored with ⟨job, present, _, rfl⟩ | ⟨old, _⟩
    · rw [(keeps job).1, (keeps job).2.2]
      exact bounded.known job present
    · exact bounded.known row old
  · intro jobId beyond
    exact bounded.unborn jobId (by rw [← next]; exact beyond)

theorem Bounded.subset (bounded : Bounded (jobs, notices)) (rows : ∀ job, job ∈ after.rows → job ∈ jobs.rows)
    (next : after.next = jobs.next) : Bounded (after, notices ++ born jobs after ++ []) := by
  have nothingBorn : born jobs after = [] := by
    apply born_nil
    intro job stored
    exact jobs.ids_below job (rows job stored)
  rw [nothingBorn, List.append_nil, List.append_nil]
  refine ⟨fun job stored => bounded.counted job (rows job stored), fun job stored => bounded.waiting job (rows job stored),
    fun job stored => bounded.known job (rows job stored), bounded.limited, bounded.unique, ?_⟩
  intro jobId beyond
  exact bounded.unborn jobId (by rw [← next]; exact beyond)

theorem Bounded.add (bounded : Bounded (jobs, notices)) {queue : DurableQueue} {job : QueueJob}
    (rows : after.rows = jobs.rows ++ [job]) (next : after.next = jobs.next + 1) (new : New queue jobs job)
    (positive : 0 < queue.maxAttempts) : Bounded (after, notices ++ born jobs after ++ []) := by
  have isBorn : born jobs after = [.enqueued job.id job.maxAttempts] := by
    have olds : jobs.rows.filter (fun row => decide (jobs.next ≤ row.id)) = [] := by
      rw [List.filter_eq_nil_iff]
      intro row stored
      have below : row.id < jobs.next := jobs.ids_below row stored
      simp [below]
    unfold born Table.select
    rw [rows, List.filter_append, olds]
    simp [new.id]
  rw [isBorn, List.append_nil]
  have sameCount : ∀ jobId, handings jobId (notices ++ [.enqueued job.id job.maxAttempts]) = handings jobId notices := by
    intro jobId
    unfold handings
    rw [List.count_append]
    simp
  obtain ⟨unhanded, unannounced⟩ := bounded.unborn jobs.next (Nat.le_refl _)
  refine ⟨?_, ?_, ?_, ?_, ?_, ?_⟩
  · intro row stored
    rw [sameCount]
    rw [rows] at stored
    rcases List.mem_append.mp stored with old | fresh
    · exact bounded.counted row old
    · rw [List.mem_singleton.mp fresh, new.attempts, new.id]
      exact unhanded.symm
  · intro row stored queued
    rw [rows] at stored
    rcases List.mem_append.mp stored with old | fresh
    · exact bounded.waiting row old queued
    · rw [List.mem_singleton.mp fresh, new.attempts, new.maxAttempts]
      exact positive
  · intro row stored
    rw [rows] at stored
    rcases List.mem_append.mp stored with old | fresh
    · exact List.mem_append_left _ (bounded.known row old)
    · rw [List.mem_singleton.mp fresh]
      simp
  · intro jobId maxAttempts announced
    rw [sameCount]
    rcases List.mem_append.mp announced with old | fresh
    · exact bounded.limited jobId maxAttempts old
    · simp only [List.mem_singleton, Notice.enqueued.injEq] at fresh
      rw [fresh.1, new.id, unhanded]
      exact Nat.zero_le _
  · intro jobId first second one two
    simp only [List.mem_append, List.mem_singleton, Notice.enqueued.injEq, new.id] at one two
    rcases one with one | ⟨isNext, isMax⟩ <;> rcases two with two | ⟨isNext', isMax'⟩
    · exact bounded.unique jobId first second one two
    · rw [isNext'] at one
      exact absurd one (unannounced first)
    · rw [isNext] at two
      exact absurd two (unannounced second)
    · rw [isMax, isMax']
  · intro jobId beyond
    change after.next ≤ jobId at beyond
    obtain ⟨none, absent⟩ := bounded.unborn jobId (by change jobs.next ≤ jobId; omega)
    refine ⟨by rw [sameCount]; exact none, ?_⟩
    intro maxAttempts announced
    rcases List.mem_append.mp announced with old | fresh
    · exact absent maxAttempts old
    · simp only [List.mem_singleton, Notice.enqueued.injEq, new.id] at fresh
      omega

theorem Bounded.lease (bounded : Bounded (jobs, notices)) {queue : DurableQueue} {now : Time} {owner : String}
    {job : QueueJob} (stored : job ∈ jobs.rows) (queued : job.status = .queued)
    (rewrites : Rewrites (fun row => row.id == job.id && row.status == .queued) (queue.leased now owner) jobs after)
    (next : after.next = jobs.next) : Bounded (after, notices ++ born jobs after ++ [.handed job.id]) := by
  have nothingBorn : born jobs after = [] := by
    apply born_nil
    intro row present
    rw [← next]
    exact after.ids_below row present
  rw [nothingBorn, List.append_nil]
  have counts : ∀ jobId, handings jobId (notices ++ [.handed job.id]) =
      handings jobId notices + if job.id = jobId then 1 else 0 := by
    intro jobId
    unfold handings
    rw [List.count_append]
    simp [List.count_singleton]
  have rowCases : ∀ row ∈ after.rows, row = queue.leased now owner job ∨ (row ∈ jobs.rows ∧ row.id ≠ job.id) := by
    intro row present
    rcases rewrites.cases present with ⟨old, oldStored, matched, rfl⟩ | ⟨old, unmatched⟩
    · simp only [Bool.and_eq_true, beq_iff_eq] at matched
      rw [Table.eq_of_id oldStored stored matched.1]
      exact .inl rfl
    · refine .inr ⟨old, ?_⟩
      intro same
      rw [Table.eq_of_id old stored same] at unmatched
      simp [queued] at unmatched
  refine ⟨?_, ?_, ?_, ?_, ?_, ?_⟩
  · intro row present
    rw [counts]
    rcases rowCases row present with rfl | ⟨old, other⟩
    · change job.attempts + 1 = handings job.id notices + if job.id = job.id then 1 else 0
      rw [if_pos rfl, bounded.counted job stored]
    · rw [if_neg (Ne.symm other)]
      exact bounded.counted row old
  · intro row present waiting
    rcases rowCases row present with rfl | ⟨old, _⟩
    · cases waiting
    · exact bounded.waiting row old waiting
  · intro row present
    apply List.mem_append_left
    rcases rowCases row present with rfl | ⟨old, _⟩
    · exact bounded.known job stored
    · exact bounded.known row old
  · intro jobId maxAttempts announced
    have earlier : .enqueued jobId maxAttempts ∈ notices := by simpa using announced
    rw [counts]
    split
    · rename_i isJob
      rw [← isJob] at earlier ⊢
      have limit := bounded.unique _ _ _ earlier (bounded.known job stored)
      have below := bounded.waiting job stored queued
      have count := bounded.counted job stored
      simp only at count
      omega
    · exact bounded.limited jobId maxAttempts earlier
  · intro jobId first second one two
    exact bounded.unique jobId first second (by simpa using one) (by simpa using two)
  · intro jobId beyond
    obtain ⟨none, absent⟩ := bounded.unborn jobId (by rw [← next]; exact beyond)
    have below : job.id < jobs.next := jobs.ids_below job stored
    change after.next ≤ jobId at beyond
    refine ⟨?_, fun maxAttempts announced => absent maxAttempts (by simpa using announced)⟩
    rw [counts, none, if_neg (by omega)]

theorem claim_bounded (bounded : Bounded (jobs, notices)) (queue : DurableQueue) (now : Time) (owner jobType : String) :
    Bounded (take (jobs, notices) (.commits ⟨queue, now, .claim owner jobType⟩)) := by
  unfold take handed Turn.jobs serve
  dsimp only
  rcases claim_cases queue now jobs jobType owner with ⟨_, claimed⟩ | ⟨job, after, stored, ready, claimed, rewrites, next⟩
  · rw [claimed]
    exact bounded.subset (fun _ present => present) rfl
  · rw [claimed]
    exact bounded.lease stored ready.queued rewrites next

theorem Effect.bounded {call : Call} (effect : Effect jobs call after) (bounded : Bounded (jobs, notices))
    (counted : attemptsCounted (jobs, notices) (.commits call))
    (unclaimed : ∀ owner jobType, call.action ≠ .claim owner jobType) :
    Bounded (after, notices ++ born jobs after ++ []) := by
  cases effect with
  | same unchanged =>
    rw [unchanged]
    exact bounded.subset (fun _ present => present) rfl
  | added job rows next new _ enqueues =>
    obtain ⟨queue, now, action⟩ := call
    cases action with
    | enqueue => exact bounded.add rows next new counted
    | claim | complete | fail | reapStaleLeases | reapOldJobs => cases enqueues
  | leased owner jobId claims =>
    obtain ⟨jobType, isClaim⟩ := claims
    exact absurd isClaim (unclaimed owner jobType)
  | finished owner jobId _ _ update finishing rewrites next retries =>
    apply bounded.rewrite rewrites next
    · intro job
      exact ⟨finishing.id job, finishing.attempts job, finishing.maxAttempts job⟩
    · intro job stored matched
      exact retries job stored (beq_iff_eq.mp matched)
  | reaped rewrites next _ reaps =>
    obtain ⟨queue, now, action⟩ := call
    cases reaps
    apply bounded.rewrite rewrites next (fun _ => ⟨rfl, rfl, rfl⟩)
    intro job stored isStale _
    exact counted job stored isStale
  | pruned rows next => exact bounded.subset rows next

theorem take_bounded {turn : Turn} {history : Jobs × List Notice} (bounded : Bounded history)
    (counted : attemptsCounted history turn) : Bounded (take history turn) := by
  obtain ⟨jobs, notices⟩ := history
  cases turn with
  | crashes queue now owner jobType =>
    unfold take handed Turn.jobs
    dsimp only
    rcases claim_cases queue now jobs jobType owner with ⟨_, claimed⟩ | ⟨job, _, _, _, claimed, _, _⟩
    · rw [claimed]
      exact bounded.subset (fun _ present => present) rfl
    · unfold DurableQueue.claim at claimed
      rw [show candidate now jobs jobType = none from counted] at claimed
      cases claimed
  | commits call =>
    obtain ⟨queue, now, action⟩ := call
    have effect := serve_effect jobs ⟨queue, now, action⟩
    cases action with
    | claim owner jobType => exact claim_bounded bounded queue now owner jobType
    | enqueue | complete | fail | reapStaleLeases | reapOldJobs =>
      exact effect.bounded bounded counted fun _ _ isClaim => nomatch isClaim

end Turns

/-- In every run whose attempts are counted, no job is handed out more often than its limit allows, and one
    that has used its attempts without success is dead. -/
theorem attempts_are_bounded (turns : List Turn) (counted : Runs.AllMeet take attemptsCounted (.empty, []) turns) :
    (∀ jobId maxAttempts, .enqueued jobId maxAttempts ∈ (turns.foldl take (.empty, [])).2 →
        handings jobId (turns.foldl take (.empty, [])).2 ≤ maxAttempts) ∧
      ∀ job ∈ (turns.foldl take (.empty, [])).1.rows,
        handings job.id (turns.foldl take (.empty, [])).2 = job.maxAttempts → job.status ≠ .running →
          job.status ≠ .succeeded → job.status = .dead := by
  have bounded : Bounded (turns.foldl take (.empty, [])) := by
    apply (Runs.reaches_guarded counted).invariant Bounded
    · refine ⟨?_, ?_, ?_, ?_, ?_, ?_⟩ <;> simp [Table.empty, handings]
    · intro before turn after _ bounded taken
      rw [taken.2]
      exact take_bounded bounded taken.1
  refine ⟨bounded.limited, ?_⟩
  intro job stored used notRunning notSucceeded
  cases status : job.status with
  | dead => rfl
  | running => exact absurd status notRunning
  | succeeded => exact absurd status notSucceeded
  | queued =>
    have below := bounded.waiting job stored status
    have count := bounded.counted job stored
    omega

def twoFailures : List Turn :=
  [.commits ⟨⟨seconds 60, 2, 0⟩, 0, .enqueue "scan.run" .null "scan:1" 1 none⟩,
    .commits ⟨{}, 0, .claim "a" "scan.run"⟩, .commits ⟨{}, 1, .fail "a" 1 "boom"⟩,
    .commits ⟨{}, seconds 10, .claim "b" "scan.run"⟩, .commits ⟨{}, seconds 11, .fail "b" 1 "boom"⟩,
    .commits ⟨{}, seconds 90, .reapStaleLeases⟩]

instance (history : Jobs × List Notice) (turn : Turn) : Decidable (attemptsCounted history turn) := by
  unfold attemptsCounted
  split <;> infer_instance

theorem attempts_are_bounded_two_failures :
    (twoFailures.foldl take (.empty, [])).2 = [.enqueued 1 2, .handed 1, .handed 1] ∧
      ∀ job ∈ (twoFailures.foldl take (.empty, [])).1.rows, job.status = .dead := by
  have counted : Runs.AllMeet take attemptsCounted (.empty, []) twoFailures :=
    ⟨by decide, trivial, trivial, trivial, trivial, by decide +kernel, trivial⟩
  refine ⟨by decide +kernel, ?_⟩
  intro job stored
  have facts : ∀ job ∈ (twoFailures.foldl take (.empty, [])).1.rows,
      handings job.id (twoFailures.foldl take (.empty, [])).2 = job.maxAttempts ∧ job.status ≠ .running ∧
        job.status ≠ .succeeded := by decide +kernel
  obtain ⟨used, notRunning, notSucceeded⟩ := facts job stored
  exact (attempts_are_bounded twoFailures counted).2 job stored used notRunning notSucceeded

def expired : List Turn :=
  [.commits ⟨⟨seconds 60, 1, 0⟩, 0, .enqueue "scan.run" .null "scan:1" 1 none⟩,
    .commits ⟨{}, 0, .claim "a" "scan.run"⟩, .commits ⟨{}, seconds 61, .reapStaleLeases⟩,
    .commits ⟨{}, seconds 62, .claim "b" "scan.run"⟩]

def uncounted : List Turn :=
  [.commits ⟨⟨seconds 60, 1, 0⟩, 0, .enqueue "scan.run" .null "scan:1" 1 none⟩,
    .crashes {} 0 "a" "scan.run", .crashes {} 1 "a" "scan.run"]

theorem crashed_workers_exceed_max_attempts :
    (expired.foldl take (.empty, [])).2 = [.enqueued 1 1, .handed 1, .handed 1] ∧
      (uncounted.foldl take (.empty, [])).2 = [.enqueued 1 1, .handed 1, .handed 1] ∧
      ¬ ∀ (turns : List Turn) (jobId maxAttempts : Nat), .enqueued jobId maxAttempts ∈ (turns.foldl take (.empty, [])).2 →
        handings jobId (turns.foldl take (.empty, [])).2 ≤ maxAttempts := by
  have handedTwice : (expired.foldl take (.empty, [])).2 = [.enqueued 1 1, .handed 1, .handed 1] := by decide +kernel
  refine ⟨handedTwice, by decide +kernel, ?_⟩
  intro limited
  have limit := limited expired 1 1 (by rw [handedTwice]; simp)
  rw [handedTwice] at limit
  exact absurd limit (by decide)

end Registry.Outbox
