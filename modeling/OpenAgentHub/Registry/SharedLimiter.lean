import Mathlib.Algebra.Order.Group.Int
import Mathlib.Logic.Function.Basic
import OpenAgentHub.Lib.Runs
import OpenAgentHub.Lib.Sliding
import OpenAgentHub.Registry.ClientKeys

namespace Registry.RateLimit

structure Entry where
  member : Int
  score : Int
  deriving DecidableEq, Repr

/-- What Redis has under one key, and when it drops it. Times are whole nanoseconds. -/
structure SortedSet where
  entries : List Entry := []
  deadline : Option Int := none
  deriving DecidableEq, Repr

namespace SortedSet

def scores (set : SortedSet) : List Int := set.entries.map Entry.score

def zremrangebyscore (set : SortedSet) (cutoff : Int) : SortedSet :=
  let kept := set.entries.filter fun entry => decide (cutoff < entry.score)
  -- an empty set is no key, and has no deadline
  if kept = [] then {} else { set with entries := kept }

def zcard (set : SortedSet) : Nat := set.entries.length

def zadd (set : SortedSet) (member score : Int) : SortedSet :=
  { set with entries := ⟨member, score⟩ :: set.entries.filter fun entry => decide (entry.member ≠ member) }

def expire (set : SortedSet) (deadline : Int) : SortedSet :=
  if set.entries = [] then set else { set with deadline := some deadline }

/-- The score that `zrange key 0 0` gives. -/
def oldest (set : SortedSet) : Option Int := set.scores.min?

def due (set : SortedSet) (clock : Int) : Bool := set.deadline.any fun deadline => decide (deadline ≤ clock)

def lapse (set : SortedSet) (clock : Int) : SortedSet := if set.due clock then {} else set

end SortedSet

/-- Where a call of `check` is: what it does next is one reading of the clock or one command. -/
inductive Stage where
  | entered
  | pruning (cutoff : Int)
  | counting
  | naming
  | scoring (member : Int)
  | adding (member score : Int)
  | expiring
  | refusing
  | clearing (cutoff : Int)
  | ranging
  | waiting (oldest : Int)
  | returned (retry : Option Int)
  deriving DecidableEq, Repr

/-- `counted` is what `zcard` has answered, `seen` how many calls were recorded by then. -/
structure CheckCall where
  stage : Stage := .entered
  counted : Nat := 0
  seen : Nat := 0
  deriving DecidableEq, Repr

def nanoseconds (seconds : Nat) : Int := seconds * 1000000000

def RateLimitRule.width (rule : RateLimitRule) : Int := nanoseconds rule.windowSeconds

/-- One key, and all calls of `check` on it. A call counts as allowed from its `zadd` on, at the time
    that it gives there as its score. -/
structure Limiter where
  clock : Int
  set : SortedSet := {}
  allowed : List Int := []
  calls : Nat → CheckCall := fun _ => {}

namespace Limiter

def put (state : Limiter) (id : Nat) (call : CheckCall) : Limiter :=
  { state with calls := Function.update state.calls id call }

def goesTo (state : Limiter) (id : Nat) (stage : Stage) : Limiter := state.put id { state.calls id with stage }

end Limiter

def proceed (rule : RateLimitRule) (state : Limiter) (id : Nat) : Limiter :=
  match (state.calls id).stage with
  | .entered => state.goesTo id (.pruning (state.clock - rule.width))
  | .pruning cutoff => { state with set := state.set.zremrangebyscore cutoff }.goesTo id .counting
  | .counting =>
    let count := state.set.zcard
    state.put id
      { stage := if rule.limit ≤ count then .refusing else .naming, counted := count, seen := state.allowed.length }
  | .naming => state.goesTo id (.scoring state.clock)
  | .scoring member => state.goesTo id (.adding member state.clock)
  | .adding member score =>
    { state with set := state.set.zadd member score, allowed := state.allowed ++ [score] }.goesTo id .expiring
  | .expiring =>
    let deadline := state.clock + nanoseconds (rule.windowSeconds * 2)
    { state with set := (state.set.expire deadline).lapse state.clock }.goesTo id (.returned none)
  | .refusing => state.goesTo id (.clearing (state.clock - rule.width))
  | .clearing cutoff => { state with set := state.set.zremrangebyscore cutoff }.goesTo id .ranging
  | .ranging =>
    match state.set.oldest with
    | none => state.goesTo id (.returned (some (max 1 0)))
    | some oldest => state.goesTo id (.waiting oldest)
  | .waiting oldest =>
    let left := (rule.width - (state.clock - oldest)).tdiv (nanoseconds 1)
    state.goesTo id (.returned (some (max 1 (max 1 (left + 1)))))
  | .returned _ => state

inductive LimiterStep where
  | pass (time : Nat)
  | proceed (call : Nat)
  deriving DecidableEq, Repr

def execute (rule : RateLimitRule) (state : Limiter) : LimiterStep → Limiter
  | .pass time =>
    let clock := state.clock + time
    { state with clock, set := state.set.lapse clock }
  | .proceed call => proceed rule state call

/-- A call that is recorded counted so few calls that it fits beside those recorded since, and its
    nanosecond names no member yet. A key that lapses holds nothing that is still in the window. -/
def Alone (rule : RateLimitRule) (state : Limiter) : LimiterStep → Prop
  | .pass time =>
    state.set.due (state.clock + time) = true →
      ∀ entry ∈ state.set.entries, entry.score ≤ state.clock + time - rule.width
  | .proceed id =>
    match (state.calls id).stage with
    | .adding member _ =>
      (state.calls id).counted + (state.allowed.length - (state.calls id).seen) < rule.limit ∧
        ∀ entry ∈ state.set.entries, entry.member ≠ member
    | _ => True

instance (rule : RateLimitRule) (state : Limiter) (step : LimiterStep) : Decidable (Alone rule state step) := by
  unfold Alone
  split
  · infer_instance
  · split <;> infer_instance

def Limited (rule : RateLimitRule) (state : Limiter) : Prop := Sliding.Bounded rule.limit rule.width state.allowed

namespace SortedSet

variable {set : SortedSet} {moment cutoff score member clock : Int}

theorem entries_zremrangebyscore :
    (set.zremrangebyscore cutoff).entries = set.entries.filter fun entry => decide (cutoff < entry.score) := by
  by_cases none : (set.entries.filter fun entry => decide (cutoff < entry.score)) = []
  · simp only [zremrangebyscore, none, if_true]
  · simp only [zremrangebyscore, none, if_false]

theorem after_zremrangebyscore (past : cutoff ≤ moment) :
    Sliding.after moment (set.zremrangebyscore cutoff).scores = Sliding.after moment set.scores := by
  have pruned : (set.zremrangebyscore cutoff).scores = set.scores.filter fun score => decide (cutoff < score) := by
    rw [scores, scores, entries_zremrangebyscore, List.filter_map]
    rfl
  rw [pruned, Sliding.after_filter past]

theorem zadd_fresh (fresh : ∀ entry ∈ set.entries, entry.member ≠ member) :
    (set.zadd member score).entries = ⟨member, score⟩ :: set.entries := by
  have all : set.entries.filter (fun entry => decide (entry.member ≠ member)) = set.entries := by
    apply List.filter_eq_self.mpr
    intro entry present
    exact decide_eq_true (fresh entry present)
  rw [zadd, all]

theorem entries_expire {deadline : Int} : (set.expire deadline).entries = set.entries := by
  unfold expire
  split <;> rfl

theorem mem_lapse {entry : Entry} (member : entry ∈ (set.lapse clock).entries) : entry ∈ set.entries := by
  unfold lapse at member
  split at member
  · cases member
  · exact member

theorem after_lapse (stale : set.due clock = true → ∀ entry ∈ set.entries, entry.score ≤ moment) :
    Sliding.after moment (set.lapse clock).scores = Sliding.after moment set.scores := by
  unfold lapse
  split
  · next due =>
    have none : Sliding.after moment set.scores = 0 := by
      apply Sliding.after_eq_zero
      intro score present
      obtain ⟨entry, member, rfl⟩ := List.mem_map.mp present
      exact stale due entry member
    rw [none]
    rfl
  · rfl

end SortedSet

def Fits (width clock : Int) (allowed : List Int) (call : CheckCall) : Prop :=
  match call.stage with
  | .pruning cutoff | .clearing cutoff => cutoff ≤ clock - width
  | .naming | .scoring _ =>
    call.seen ≤ allowed.length ∧
      ∀ moment, clock - width ≤ moment → Sliding.after moment (allowed.take call.seen) ≤ call.counted
  | .adding _ score =>
    call.seen ≤ allowed.length ∧ score ≤ clock ∧
      Sliding.after (score - width) (allowed.take call.seen) ≤ call.counted
  | _ => True

theorem Fits.later {width clock next : Int} {allowed : List Int} {call : CheckCall} (fits : Fits width clock allowed call)
    (passed : clock ≤ next) : Fits width next allowed call := by
  unfold Fits at fits ⊢
  split
  all_goals simp only [*] at fits ⊢
  · omega
  · omega
  · exact ⟨fits.1, fun moment recent => fits.2 moment (by omega)⟩
  · exact ⟨fits.1, fun moment recent => fits.2 moment (by omega)⟩
  · exact ⟨fits.1, by omega, fits.2.2⟩

theorem Fits.recorded {width clock : Int} {allowed more : List Int} {call : CheckCall} (fits : Fits width clock allowed call) :
    Fits width clock (allowed ++ more) call := by
  have longer : allowed.length ≤ (allowed ++ more).length := by simp
  unfold Fits at fits ⊢
  split
  all_goals simp only [*] at fits ⊢
  · exact fits
  · exact fits
  · rw [List.take_append_of_le_length fits.1]
    exact ⟨fits.1.trans longer, fits.2⟩
  · rw [List.take_append_of_le_length fits.1]
    exact ⟨fits.1.trans longer, fits.2⟩
  · rw [List.take_append_of_le_length fits.1]
    exact ⟨fits.1.trans longer, fits.2⟩

structure Tracked (rule : RateLimitRule) (state : Limiter) : Prop where
  past : ∀ entry ∈ state.set.entries, entry.score ≤ state.clock
  /-- The set still has every allowed call of the last window. -/
  held : ∀ moment, state.clock - rule.width ≤ moment →
    Sliding.after moment state.allowed ≤ Sliding.after moment state.set.scores
  calls : ∀ id, Fits rule.width state.clock state.allowed (state.calls id)
  limited : Limited rule state

namespace Tracked

variable {rule : RateLimitRule} {state : Limiter}

theorem put (tracked : Tracked rule state) (id : Nat) {call : CheckCall}
    (fits : Fits rule.width state.clock state.allowed call) : Tracked rule (state.put id call) := by
  refine ⟨tracked.past, tracked.held, ?_, tracked.limited⟩
  intro other
  by_cases same : other = id
  · subst same
    simpa only [Limiter.put, Function.update_self] using fits
  · simpa only [Limiter.put, Function.update_of_ne same] using tracked.calls other

theorem shrink (tracked : Tracked rule state) {set : SortedSet} (fewer : ∀ entry ∈ set.entries, entry ∈ state.set.entries)
    (same : ∀ moment, state.clock - rule.width ≤ moment →
      Sliding.after moment set.scores = Sliding.after moment state.set.scores) :
    Tracked rule { state with set := set } := by
  refine ⟨?_, ?_, tracked.calls, tracked.limited⟩
  · intro entry present
    exact tracked.past entry (fewer entry present)
  · intro moment recent
    show Sliding.after moment state.allowed ≤ Sliding.after moment set.scores
    rw [same moment recent]
    exact tracked.held moment recent

theorem prune (tracked : Tracked rule state) {cutoff : Int} (past : cutoff ≤ state.clock - rule.width) :
    Tracked rule { state with set := state.set.zremrangebyscore cutoff } := by
  apply tracked.shrink
  · intro entry present
    rw [SortedSet.entries_zremrangebyscore] at present
    exact List.mem_of_mem_filter present
  · intro moment recent
    exact SortedSet.after_zremrangebyscore (past.trans recent)

theorem count (tracked : Tracked rule state) (moment : Int) (recent : state.clock - rule.width ≤ moment) :
    Sliding.after moment (state.allowed.take state.allowed.length) ≤ state.set.zcard := by
  rw [List.take_length]
  have counted : Sliding.after moment state.set.scores ≤ state.set.scores.length := Sliding.after_le_length
  have lengths : state.set.scores.length = state.set.zcard := List.length_map _
  have held := tracked.held moment recent
  omega

theorem pass (tracked : Tracked rule state) {time : Nat} (alone : Alone rule state (.pass time)) :
    Tracked rule (execute rule state (.pass time)) := by
  have passed : state.clock ≤ state.clock + time := by omega
  refine ⟨?_, ?_, ?_, tracked.limited⟩
  · intro entry present
    exact (tracked.past entry (SortedSet.mem_lapse present)).trans passed
  · intro moment recent
    have stale : state.set.due (state.clock + time) = true → ∀ entry ∈ state.set.entries, entry.score ≤ moment := by
      intro due entry present
      exact (alone due entry present).trans recent
    show Sliding.after moment state.allowed ≤ Sliding.after moment (state.set.lapse (state.clock + time)).scores
    rw [SortedSet.after_lapse stale]
    apply tracked.held moment
    have recent : state.clock + time - rule.width ≤ moment := recent
    omega
  · intro id
    exact (tracked.calls id).later passed

theorem add (tracked : Tracked rule state) {id : Nat} {member score : Int}
    (stage : (state.calls id).stage = .adding member score) (alone : Alone rule state (.proceed id)) :
    Tracked rule { state with set := state.set.zadd member score, allowed := state.allowed ++ [score] } := by
  simp only [Alone, stage] at alone
  obtain ⟨room, fresh⟩ := alone
  have fits := tracked.calls id
  simp only [Fits, stage] at fits
  obtain ⟨seen, past, counted⟩ := fits
  have entries : (state.set.zadd member score).entries = ⟨member, score⟩ :: state.set.entries := SortedSet.zadd_fresh fresh
  refine ⟨?_, ?_, ?_, ?_⟩
  · intro entry present
    rw [entries] at present
    rcases List.mem_cons.mp present with rfl | earlier
    · exact past
    · exact tracked.past entry earlier
  · intro moment recent
    have scores : (state.set.zadd member score).scores = score :: state.set.scores := by
      rw [SortedSet.scores, entries]
      rfl
    have held := tracked.held moment recent
    show Sliding.after moment (state.allowed ++ [score]) ≤ Sliding.after moment (state.set.zadd member score).scores
    rw [scores, Sliding.after_append, Sliding.after_cons, Sliding.after_cons]
    have none : Sliding.after moment ([] : List Int) = 0 := rfl
    omega
  · intro other
    exact (tracked.calls other).recorded
  · apply Sliding.Bounded.snoc tracked.limited
    have recent : Sliding.after (score - rule.width) state.allowed ≤
        Sliding.after (score - rule.width) (state.allowed.take (state.calls id).seen) +
          (state.allowed.length - (state.calls id).seen) := Sliding.after_le_take (state.calls id).seen
    omega

theorem expire (tracked : Tracked rule state) :
    Tracked rule { state with
      set := (state.set.expire (state.clock + nanoseconds (rule.windowSeconds * 2))).lapse state.clock } := by
  apply tracked.shrink
  · intro entry present
    rw [← SortedSet.entries_expire]
    exact SortedSet.mem_lapse present
  · intro moment recent
    have same : (state.set.expire (state.clock + nanoseconds (rule.windowSeconds * 2))).scores = state.set.scores :=
      congrArg (List.map Entry.score) SortedSet.entries_expire
    rw [← same]
    apply SortedSet.after_lapse
    intro due entry present
    rw [SortedSet.entries_expire] at present
    have past := tracked.past entry present
    have some : state.set.entries ≠ [] := List.ne_nil_of_mem present
    have empty : rule.windowSeconds = 0 := by
      simp only [SortedSet.due, SortedSet.expire, some, if_false, Option.any_some, decide_eq_true_eq, nanoseconds] at due
      omega
    have closed : rule.width = 0 := by simp [RateLimitRule.width, nanoseconds, empty]
    omega

theorem step (tracked : Tracked rule state) (next : LimiterStep) (alone : Alone rule state next) :
    Tracked rule (execute rule state next) := by
  cases next with
  | pass time => exact tracked.pass alone
  | proceed id =>
    have fits := tracked.calls id
    show Tracked rule (proceed rule state id)
    unfold proceed
    cases stage : (state.calls id).stage with
    | entered => exact tracked.put id (le_refl _)
    | pruning cutoff =>
      simp only [Fits, stage] at fits
      exact (tracked.prune fits).put id trivial
    | counting =>
      apply tracked.put id
      by_cases full : rule.limit ≤ state.set.zcard
      · rw [if_pos full]
        trivial
      · rw [if_neg full]
        exact ⟨le_refl _, tracked.count⟩
    | naming =>
      simp only [Fits, stage] at fits
      exact tracked.put id fits
    | scoring member =>
      simp only [Fits, stage] at fits
      exact tracked.put id ⟨fits.1, le_refl _, fits.2 _ (le_refl _)⟩
    | adding member score => exact (tracked.add stage alone).put id trivial
    | expiring => exact tracked.expire.put id trivial
    | refusing => exact tracked.put id (le_refl _)
    | clearing cutoff =>
      simp only [Fits, stage] at fits
      exact (tracked.prune fits).put id trivial
    | ranging =>
      cases state.set.oldest with
      | none => exact tracked.put id trivial
      | some oldest => exact tracked.put id trivial
    | waiting oldest => exact tracked.put id trivial
    | returned retry => exact tracked

theorem initial (clock : Int) : Tracked rule { clock := clock } where
  past := fun _ absent => absurd absent List.not_mem_nil
  held := fun _ _ => Nat.le_refl _
  calls := fun _ => trivial
  limited := Sliding.bounded_nil

end Tracked

/-- In any order of the commands of any number of calls, the shared limiter keeps its limit as long as
    every call that is recorded is alone. -/
theorem shared_limit_kept (rule : RateLimitRule) (clock : Int) (steps : List LimiterStep)
    (alone : Runs.AllMeet (execute rule) (Alone rule) { clock := clock } steps) :
    Runs.Along (execute rule) (Limited rule) { clock := clock } steps := by
  have tracked : Runs.Along (execute rule) (Tracked rule) { clock := clock } steps :=
    alone.along (Tracked.initial clock) fun _ next tracked met => tracked.step next met
  exact tracked.imp fun _ tracked => tracked.limited

def crossing : List LimiterStep :=
  let counting := fun id => [LimiterStep.proceed id, .proceed id, .proceed id]
  let recording := fun id => [LimiterStep.proceed id, .proceed id, .proceed id, .proceed id]
  counting 0 ++ counting 1 ++ recording 0 ++ [.pass 1] ++ recording 1

def oneByOne : List LimiterStep :=
  List.replicate 7 (.proceed 0) ++ [.pass 30000000000] ++ List.replicate 7 (.proceed 1)

theorem crossing_calls_allowed :
    ¬ (∀ (rule : RateLimitRule) (clock : Int) (steps : List LimiterStep),
      Runs.Along (execute rule) (Limited rule) { clock := clock } steps) ∧
    (crossing.foldl (execute ⟨1, 60⟩) { clock := 0 }).allowed = [0, 1] ∧
    ((crossing.foldl (execute ⟨1, 60⟩) { clock := 0 }).calls 0).stage = .returned none ∧
    ((crossing.foldl (execute ⟨1, 60⟩) { clock := 0 }).calls 1).stage = .returned none := by
  have both : (crossing.foldl (execute ⟨1, 60⟩) { clock := 0 }).allowed = [0, 1] := by decide
  refine ⟨?_, both, by decide, by decide⟩
  intro kept
  have window := (kept ⟨1, 60⟩ 0 crossing).final 0
  rw [both] at window
  exact absurd window (by decide)

theorem second_call_waits : Runs.Along (execute ⟨1, 60⟩) (Limited ⟨1, 60⟩) { clock := 0 } oneByOne ∧
    ((oneByOne.foldl (execute ⟨1, 60⟩) { clock := 0 }).calls 1).stage = .returned (some 31) :=
  ⟨shared_limit_kept ⟨1, 60⟩ 0 oneByOne (by decide), by decide⟩

end Registry.RateLimit
