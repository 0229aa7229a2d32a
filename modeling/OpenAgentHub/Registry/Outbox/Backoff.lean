import OpenAgentHub.Lib.Runs
import OpenAgentHub.Registry.Outbox.Claims

namespace Registry.Outbox

open Relational DurableQueue

def Pool.after (queue : DurableQueue) (pool : Pool) (statement : Statement) : Pool := (pool.execute queue statement).1

def Pool.Claiming (pool : Pool) (worker : Nat) (now : Time) (jobId : Nat) : Prop :=
  ∃ owner seen, pool.sessions worker = .selected now owner seen ∧ seen.id = jobId

def ReturnsDue (pool : Pool) (statement : Statement) (_ : Pool) : Prop :=
  ∀ worker now jobId, statement = .update worker → pool.Claiming worker now jobId →
    ∀ job ∈ pool.jobs.rows, job.id = jobId → job.status = .queued → job.nextAttemptAt ≤ now

/-- `fail` requeues no job, for a time later than that of the call, that a claim call has found and not yet
    updated. -/
def Undisturbed (queue : DurableQueue) (pool : Pool) (statement : Statement) : Prop :=
  ∀ failing failed seen error, statement = .settle failing → pool.sessions failing = .fetched failed seen error →
    seen.attempts < seen.maxAttempts → ∀ worker now, pool.Claiming worker now seen.id →
      (∃ job ∈ pool.jobs.rows, job.id = seen.id) → failed + queue.backoff seen.attempts ≤ now

structure Pool.StillDue (pool : Pool) : Prop where
  known : ∀ worker now jobId, pool.Claiming worker now jobId → jobId < pool.jobs.next
  due : ∀ worker now jobId, pool.Claiming worker now jobId →
    ∀ job ∈ pool.jobs.rows, job.id = jobId → job.nextAttemptAt ≤ now

def start : Pool := ⟨.empty, fun _ => .idle⟩

section Sessions

variable {pool : Pool} {worker other : Nat} {now : Time} {jobId : Nat}

theorem claiming_idle {session : Session} (spare : ∀ now owner seen, session ≠ .selected now owner seen)
    (claiming : (pool.setSession worker session).Claiming other now jobId) : pool.Claiming other now jobId := by
  obtain ⟨owner, seen, held, found⟩ := claiming
  unfold Pool.setSession at held
  dsimp only at held
  by_cases same : other = worker
  · rw [same, Function.update_self] at held
    exact absurd held (spare now owner seen)
  · rw [Function.update_of_ne same] at held
    exact ⟨owner, seen, held, found⟩

end Sessions

section Steps

variable {queue : DurableQueue} {pool after : Pool}

def KeepsTimes (before after : Jobs) : Prop :=
  after.next = before.next ∧
    ∀ job ∈ after.rows, ∃ old ∈ before.rows, old.id = job.id ∧ old.nextAttemptAt = job.nextAttemptAt

theorem KeepsTimes.refl (jobs : Jobs) : KeepsTimes jobs jobs := ⟨rfl, fun job stored => ⟨job, stored, rfl, rfl⟩⟩

theorem keepsTimes_rows {before after : Jobs} (condition : QueueJob → Bool) (update : QueueJob → QueueJob)
    (next : after.next = before.next)
    (rows : after.rows = before.rows.map fun job => if condition job then update job else job)
    (spares : ∀ job, (update job).id = job.id ∧ (update job).nextAttemptAt = job.nextAttemptAt) : KeepsTimes before after := by
  refine ⟨next, fun job stored => ?_⟩
  rw [rows] at stored
  obtain ⟨old, present, rfl⟩ := List.mem_map.mp stored
  refine ⟨old, present, ?_⟩
  split
  · exact ⟨(spares old).1.symm, (spares old).2.symm⟩
  · exact ⟨rfl, rfl⟩

theorem Pool.StillDue.keep (still : pool.StillDue) (times : KeepsTimes pool.jobs after.jobs)
    (claims : ∀ worker now jobId, after.Claiming worker now jobId → pool.Claiming worker now jobId) : after.StillDue := by
  constructor
  · intro worker now jobId claiming
    rw [times.1]
    exact still.known worker now jobId (claims worker now jobId claiming)
  · intro worker now jobId claiming job stored found
    obtain ⟨old, present, sameId, sameTime⟩ := times.2 job stored
    rw [← sameTime]
    exact still.due worker now jobId (claims worker now jobId claiming) old present (sameId.trans found)

theorem Pool.StillDue.select (still : pool.StillDue) {worker : Nat} {now : Time} {jobType owner : String} {found : QueueJob}
    (first : candidate now pool.jobs jobType = some found) :
    (pool.setSession worker (.selected now owner found)).StillDue := by
  have listed := Table.mem_select.mp (List.argmin_mem first)
  have stored : found ∈ pool.jobs.rows := listed.1
  have due : found.nextAttemptAt ≤ now := by
    have claimed := listed.2
    simp only [claimable, Bool.and_eq_true, decide_eq_true_eq] at claimed
    exact claimed.1.2
  have claims : ∀ other time jobId, (pool.setSession worker (.selected now owner found)).Claiming other time jobId →
      pool.Claiming other time jobId ∨ (time = now ∧ jobId = found.id) := by
    rintro other time jobId ⟨owner', seen, held, same⟩
    unfold Pool.setSession at held
    dsimp only at held
    by_cases own : other = worker
    · rw [own, Function.update_self] at held
      cases held
      exact .inr ⟨rfl, same.symm⟩
    · rw [Function.update_of_ne own] at held
      exact .inl ⟨owner', seen, held, same⟩
  constructor
  · intro other time jobId claiming
    rcases claims other time jobId claiming with before | ⟨_, rfl⟩
    · exact still.known other time jobId before
    · exact pool.jobs.ids_below found stored
  · intro other time jobId claiming job present same
    rcases claims other time jobId claiming with before | ⟨rfl, rfl⟩
    · exact still.due other time jobId before job present same
    · rw [Table.eq_of_id present stored same]
      exact due

theorem Pool.StillDue.enqueue (still : pool.StillDue) {now : Time} {jobType dedupeKey : String} {payload : Json}
    {schemaVersion : Nat} {runAt : Option Time}
    (jobs : after.jobs = (queue.enqueue now pool.jobs jobType payload dedupeKey schemaVersion runAt).1)
    (sessions : after.sessions = pool.sessions) : after.StillDue := by
  have claims : ∀ worker now jobId, after.Claiming worker now jobId → pool.Claiming worker now jobId := by
    intro worker now jobId claiming
    unfold Pool.Claiming at claiming
    rw [sessions] at claiming
    exact claiming
  unfold DurableQueue.enqueue at jobs
  split at jobs
  · apply still.keep _ claims
    rw [jobs]
    exact .refl _
  · constructor
    · intro worker time jobId claiming
      have below := still.known worker time jobId (claims worker time jobId claiming)
      have next : after.jobs.next = pool.jobs.next + 1 := by rw [jobs]; rfl
      omega
    · intro worker time jobId claiming job stored found
      have before := claims worker time jobId claiming
      rw [jobs] at stored
      rcases List.mem_append.mp stored with old | new
      · exact still.due worker time jobId before job old found
      · have below := still.known worker time jobId before
        have isNext : job.id = pool.jobs.next := by rw [List.mem_singleton.mp new]
        omega

theorem Pool.StillDue.settle (still : pool.StillDue) {failing : Nat} {failed : Time} {seen : QueueJob} {error : String}
    (undisturbed : Undisturbed queue pool (.settle failing)) (held : pool.sessions failing = .fetched failed seen error) :
    ({ pool with jobs := queue.settle failed pool.jobs seen error }.setSession failing .idle).StillDue := by
  have claims : ∀ worker now jobId,
      ({ pool with jobs := queue.settle failed pool.jobs seen error }.setSession failing .idle).Claiming worker now jobId →
      pool.Claiming worker now jobId :=
    fun worker now jobId claiming => claiming_idle (fun _ _ _ => by rintro ⟨⟩) claiming
  by_cases spent : seen.maxAttempts ≤ seen.attempts
  · apply still.keep _ claims
    change KeepsTimes pool.jobs (queue.settle failed pool.jobs seen error)
    unfold DurableQueue.settle
    rw [if_pos spent]
    exact keepsTimes_rows (·.id == seen.id) (buried failed error) rfl rfl fun _ => ⟨rfl, rfl⟩
  · have jobs : queue.settle failed pool.jobs seen error =
        pool.jobs.modify (·.id == seen.id) (retried failed error (failed + queue.backoff seen.attempts)) := if_neg spent
    constructor
    · intro worker now jobId claiming
      have next : (queue.settle failed pool.jobs seen error).next = pool.jobs.next := by rw [jobs]; rfl
      have below := still.known worker now jobId (claims worker now jobId claiming)
      exact Nat.lt_of_lt_of_eq below next.symm
    · intro worker now jobId claiming job stored found
      have before := claims worker now jobId claiming
      change job ∈ (queue.settle failed pool.jobs seen error).rows at stored
      rw [jobs] at stored
      obtain ⟨old, present, rfl⟩ := (Table.mem_modify _).mp stored
      by_cases same : old.id = seen.id
      · rw [if_pos (beq_iff_eq.mpr same)] at found ⊢
        have sameId : old.id = jobId := found
        rw [← sameId, same] at before
        exact undisturbed failing failed seen error rfl held (Nat.lt_of_not_le spent) worker now before ⟨old, present, same⟩
      · rw [if_neg (by simpa using same)] at found ⊢
        exact still.due worker now jobId before old present found

theorem after_stillDue {statement : Statement} (still : pool.StillDue) (undisturbed : Undisturbed queue pool statement) :
    (pool.after queue statement).StillDue := by
  have same : ∀ {pool after : Pool}, after = pool → ∀ worker now jobId, after.Claiming worker now jobId →
      pool.Claiming worker now jobId := by
    rintro pool after rfl worker now jobId claiming
    exact claiming
  cases statement with
  | enqueue now jobType payload dedupeKey schemaVersion runAt => exact still.enqueue rfl rfl
  | select worker now jobType owner =>
    unfold Pool.after Pool.execute
    dsimp only
    split
    · exact still.keep (.refl _) fun _ _ _ => claiming_idle fun _ _ _ => by rintro ⟨⟩
    · rename_i found first
      exact still.select first
  | update worker =>
    unfold Pool.after Pool.execute
    dsimp only
    split
    · rename_i now owner seen held
      have times : KeepsTimes pool.jobs (queue.lease now pool.jobs owner seen.id).1 :=
        keepsTimes_rows (fun job => job.id == seen.id && job.status == .queued) (queue.leased now owner) rfl rfl
          fun _ => ⟨rfl, rfl⟩
      split
      · rename_i jobs matched
        rw [matched] at times
        exact still.keep times fun _ _ _ => claiming_idle fun _ _ _ => by rintro ⟨⟩
      · rename_i jobs matched
        rw [matched] at times
        exact still.keep times fun _ _ _ => claiming_idle fun _ _ _ => by rintro ⟨⟩
    · exact still
  | complete now jobId =>
    exact still.keep (keepsTimes_rows (·.id == jobId) (completed now) rfl rfl fun _ => ⟨rfl, rfl⟩) fun _ _ _ => id
  | fetch worker now jobId error =>
    unfold Pool.after Pool.execute
    dsimp only
    split
    · exact still.keep (.refl _) fun _ _ _ => claiming_idle fun _ _ _ => by rintro ⟨⟩
    · exact still.keep (.refl _) fun _ _ _ => claiming_idle fun _ _ _ => by rintro ⟨⟩
  | settle worker =>
    unfold Pool.after Pool.execute
    dsimp only
    split
    · rename_i failed seen error held
      exact still.settle undisturbed held
    · exact still
  | reapStaleLeases now =>
    exact still.keep (keepsTimes_rows (stale now) (released now) rfl rfl fun _ => ⟨rfl, rfl⟩) fun _ _ _ => id

/-- A job requeued for later between the two statements of a claim call is one that the call may return. -/
theorem undue_of_disturbed {statement : Statement} (disturbed : ¬ Undisturbed queue pool statement) :
    ∃ worker, ¬ ReturnsDue (pool.after queue statement) (.update worker)
      ((pool.after queue statement).after queue (.update worker)) := by
  unfold Undisturbed at disturbed
  push Not at disturbed
  obtain ⟨failing, failed, seen, error, rfl, held, attempts, worker, now, claiming, stored, late⟩ := disturbed
  obtain ⟨old, present, same⟩ := stored
  obtain ⟨owner, found, selected, isSeen⟩ := claiming
  have other : worker ≠ failing := by
    rintro rfl
    rw [held] at selected
    cases selected
  have after : pool.after queue (.settle failing) =
      { pool with jobs := queue.settle failed pool.jobs seen error }.setSession failing .idle := by
    unfold Pool.after Pool.execute
    dsimp only
    rw [held]
  have jobs : queue.settle failed pool.jobs seen error =
      pool.jobs.modify (·.id == seen.id) (retried failed error (failed + queue.backoff seen.attempts)) :=
    if_neg (Nat.not_le_of_lt attempts)
  rw [after]
  refine ⟨worker, fun due => ?_⟩
  have pending : ({ pool with jobs := queue.settle failed pool.jobs seen error }.setSession failing .idle).Claiming worker now
      seen.id := by
    refine ⟨owner, found, ?_, isSeen⟩
    unfold Pool.setSession
    dsimp only
    rw [Function.update_of_ne other, selected]
  have requeued : retried failed error (failed + queue.backoff seen.attempts) old ∈
      (queue.settle failed pool.jobs seen error).rows := by
    rw [jobs]
    exact (Table.mem_modify _).mpr ⟨old, present, if_pos (beq_iff_eq.mpr same)⟩
  exact Nat.not_le_of_lt late (due worker now seen.id rfl pending _ requeued same rfl)

theorem StillDue.returnsDue {statement : Statement} {after : Pool} (still : pool.StillDue) :
    ReturnsDue pool statement after :=
  fun worker now jobId _ claiming job stored found _ => still.due worker now jobId claiming job stored found

end Steps

/-- In every run in which `fail` requeues no job for later that a claim call has found and not yet updated, every
    job that is returned is due; and in any state in which it does, that call's update returns one that is not. -/
theorem claims_respect_backoff (queue : DurableQueue) (statements : List Statement)
    (met : Runs.AllMeet (Pool.after queue) (Undisturbed queue) start statements) :
    Runs.EachStep (Pool.after queue) ReturnsDue start statements ∧
    ∀ pool statement, ¬ Undisturbed queue pool statement →
      ∃ worker, ¬ ReturnsDue (pool.after queue statement) (.update worker)
        ((pool.after queue statement).after queue (.update worker)) := by
  refine ⟨?_, fun pool statement => undue_of_disturbed⟩
  apply met.eachStep_of_kept Pool.StillDue
  · intro pool statement still undisturbed
    exact after_stillDue still undisturbed
  · intro pool statement still _
    exact StillDue.returnsDue still
  · constructor
    · rintro worker now jobId ⟨owner, seen, held, _⟩
      cases held
    · intro worker now jobId claiming job stored
      cases stored

theorem undisturbed_of_quiet {queue : DurableQueue} {pool : Pool} {statement : Statement}
    (quiet : ∀ worker now owner seen, pool.sessions worker ≠ .selected now owner seen) : Undisturbed queue pool statement := by
  rintro _ _ _ _ _ _ _ worker now ⟨owner, found, held, _⟩
  exact absurd held (quiet worker now owner found)

theorem undisturbed_of_other {queue : DurableQueue} {pool : Pool} {statement : Statement}
    (other : ∀ worker, statement ≠ .settle worker) : Undisturbed queue pool statement :=
  fun failing _ _ _ same => absurd same (other failing)

def Statement.worker : Statement → Option Nat
  | .select worker _ _ _ | .update worker | .fetch worker _ _ _ | .settle worker => some worker
  | _ => none

/-- A statement of one worker leaves the sessions of the others. -/
theorem sessions_other {queue : DurableQueue} {pool : Pool} {statement : Statement} {worker : Nat}
    (other : statement.worker ≠ some worker) : (pool.after queue statement).sessions worker = pool.sessions worker := by
  have spared : ∀ (pool : Pool) (own : Nat) (session : Session), own ≠ worker →
      (pool.setSession own session).sessions worker = pool.sessions worker :=
    fun pool own session apart => Function.update_of_ne (Ne.symm apart) _ _
  cases statement with
  | enqueue now jobType payload dedupeKey schemaVersion runAt => rfl
  | complete now jobId => rfl
  | reapStaleLeases now => rfl
  | select own now jobType owner =>
    have apart : own ≠ worker := fun same => other (congrArg some same)
    unfold Pool.after Pool.execute
    dsimp only
    split
    · exact spared _ own _ apart
    · exact spared _ own _ apart
  | update own =>
    have apart : own ≠ worker := fun same => other (congrArg some same)
    unfold Pool.after Pool.execute
    dsimp only
    split
    · split
      · exact spared _ own _ apart
      · exact spared _ own _ apart
    · rfl
  | fetch own now jobId error =>
    have apart : own ≠ worker := fun same => other (congrArg some same)
    unfold Pool.after Pool.execute
    dsimp only
    split
    · exact spared _ own _ apart
    · exact spared _ own _ apart
  | settle own =>
    have apart : own ≠ worker := fun same => other (congrArg some same)
    unfold Pool.after Pool.execute
    dsimp only
    split
    · exact spared _ own _ apart
    · rfl

def retrial : List Statement :=
  [.enqueue 0 "scan.run" .null "scan:1" 1 none, .select 1 0 "scan.run" "a", .update 1, .fetch 1 (seconds 1) 1 "boom",
    .settle 1, .select 2 (seconds 3) "scan.run" "b", .update 2]

theorem retrial_respects_backoff : Runs.EachStep (Pool.after {}) ReturnsDue start retrial := by
  refine (claims_respect_backoff {} retrial ?_).1
  refine ⟨undisturbed_of_other (by rintro _ ⟨⟩), undisturbed_of_other (by rintro _ ⟨⟩), undisturbed_of_other (by rintro _ ⟨⟩),
    undisturbed_of_other (by rintro _ ⟨⟩), undisturbed_of_quiet ?_, undisturbed_of_other (by rintro _ ⟨⟩),
    undisturbed_of_other (by rintro _ ⟨⟩), trivial⟩
  intro worker now owner seen held
  by_cases first : worker = 1
  · subst first
    cases held
  · have others : ∀ statement ∈ retrial.take 4, statement.worker ≠ some worker := by
      intro statement listed same
      simp only [retrial, List.take, List.mem_cons, List.not_mem_nil, or_false] at listed
      rcases listed with rfl | rfl | rfl | rfl <;> cases same
      all_goals exact first rfl
    rw [sessions_other (others _ (by simp [retrial])), sessions_other (others _ (by simp [retrial])),
      sessions_other (others _ (by simp [retrial])), sessions_other (others _ (by simp [retrial]))] at held
    cases held

def overtaken : List Statement :=
  [.enqueue 0 "scan.run" .null "scan:1" 1 none, .select 1 0 "scan.run" "a", .select 2 0 "scan.run" "b", .update 2,
    .fetch 2 0 1 "boom", .settle 2]

theorem claim_before_due : ¬ Runs.EachStep (Pool.after {}) ReturnsDue start (overtaken ++ [.update 1]) ∧
    ((overtaken.foldl (Pool.after {}) start).execute {} (.update 1)).2 = [.returned 1 1] := by
  refine ⟨?_, by decide +kernel⟩
  rintro ⟨_, _, _, _, _, _, due, _⟩
  have waiting : ∃ job ∈ (overtaken.foldl (Pool.after {}) start).jobs.rows,
      job.id = 1 ∧ job.status = .queued ∧ ¬ job.nextAttemptAt ≤ 0 := by decide +kernel
  obtain ⟨job, stored, one, queued, late⟩ := waiting
  exact late (due 1 0 1 rfl ⟨"a", _, rfl, rfl⟩ job stored one queued)

end Registry.Outbox
