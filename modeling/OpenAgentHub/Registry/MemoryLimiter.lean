import Mathlib.Algebra.Order.Ring.Rat
import Mathlib.Data.List.DropRight
import Mathlib.Data.Rat.Floor
import Mathlib.Logic.Function.Basic
import OpenAgentHub.Lib.Sliding

namespace Registry.RateLimit

/-- The times of the allowed calls, by key, in seconds. -/
structure MemoryRateLimitBackend where
  events : String → List Rat := fun _ => []

def truncate (value : Rat) : Int := value.num.tdiv value.den

namespace MemoryRateLimitBackend

variable (backend : MemoryRateLimitBackend) (key : String) (windowSeconds : Int) (now : Rat)

def prune : MemoryRateLimitBackend where
  events := Function.update backend.events key
    ((backend.events key).dropWhile fun event => decide (event ≤ now - windowSeconds))

def eventsInWindow : MemoryRateLimitBackend × Nat :=
  let backend := backend.prune key windowSeconds now
  (backend, (backend.events key).length)

def record : MemoryRateLimitBackend where
  events := Function.update backend.events key (backend.events key ++ [now])

def retryAfter : MemoryRateLimitBackend × Int :=
  let backend := backend.prune key windowSeconds now
  match backend.events key with
  | [] => (backend, 0)
  | oldest :: _ => (backend, max 1 (truncate (windowSeconds - (now - oldest)) + 1))

end MemoryRateLimitBackend

def backendKey (key : String) (windowSeconds : Int) : String := key ++ ":" ++ toString windowSeconds

/-- The seconds until a call is allowed again, or nothing where this one is. -/
def check (key : String) (limit : Nat) (windowSeconds : Int) (backend : MemoryRateLimitBackend) (now : Rat) :
    MemoryRateLimitBackend × Option Int :=
  let bkey := backendKey key windowSeconds
  let (backend, count) := backend.eventsInWindow bkey windowSeconds now
  if limit ≤ count then
    let (backend, retry) := backend.retryAfter bkey windowSeconds now
    (backend, some (max 1 retry))
  else (backend.record bkey now, none)

structure Served where
  backend : MemoryRateLimitBackend := {}
  calls : List (Rat × Option Int) := []

section Serve

variable (key : String) (limit : Nat) (windowSeconds : Int)

def Served.answer (served : Served) (now : Rat) : Option Int := (check key limit windowSeconds served.backend now).2

def Served.serve (served : Served) (now : Rat) : Served where
  backend := (check key limit windowSeconds served.backend now).1
  calls := served.calls ++ [(now, served.answer key limit windowSeconds now)]

end Serve

def Served.allowed (served : Served) : List Rat := (served.calls.filter (·.2.isNone)).map Prod.fst

structure Queued (key : String) (limit : Nat) (windowSeconds : Int) (clock : Rat) (served : Served) : Prop where
  sorted : (served.backend.events (backendKey key windowSeconds)).Pairwise (· ≤ ·)
  past : ∀ time ∈ served.backend.events (backendKey key windowSeconds) ++ served.allowed, time ≤ clock
  queue : ∀ now, clock ≤ now →
    ((served.backend.events (backendKey key windowSeconds)).filter fun time => decide (now - windowSeconds < time)) =
      served.allowed.filter fun time => decide (now - windowSeconds < time)
  bounded : ∀ moment, Sliding.within (windowSeconds : Rat) moment served.allowed ≤ limit

theorem lt_truncate {value : Rat} (positive : 0 ≤ value) : value < truncate value + 1 := by
  have floored : truncate value = ⌊value⌋ := by
    rw [truncate, Int.tdiv_eq_ediv_of_nonneg (Rat.num_nonneg.mpr positive), Rat.floor_def']
  rw [floored]
  exact Int.lt_floor_add_one value

section Steps

variable {key : String} {limit : Nat} {windowSeconds : Int} {clock now : Rat} {served : Served}

theorem Queued.initial : Queued key limit windowSeconds clock {} where
  sorted := .nil
  past _ absent := nomatch absent
  queue _ _ := rfl
  bounded _ := Nat.zero_le limit

theorem Queued.allowed_past (queued : Queued key limit windowSeconds clock served) (later : clock ≤ now) :
    ∀ time ∈ served.allowed, time ≤ now :=
  fun time member => (queued.past time (List.mem_append_right _ member)).trans later

theorem Queued.pruned (queued : Queued key limit windowSeconds clock served) (later : clock ≤ now) :
    (served.backend.prune (backendKey key windowSeconds) windowSeconds now).events (backendKey key windowSeconds) =
      served.allowed.filter fun time => decide (now - windowSeconds < time) := by
  unfold MemoryRateLimitBackend.prune
  dsimp only
  rw [Function.update_self, Sliding.dropWhile_eq_filter queued.sorted]
  exact queued.queue now later

theorem Queued.count (queued : Queued key limit windowSeconds clock served) (later : clock ≤ now) :
    (served.backend.eventsInWindow (backendKey key windowSeconds) windowSeconds now).2 =
      Sliding.within (windowSeconds : Rat) now served.allowed := by
  unfold MemoryRateLimitBackend.eventsInWindow
  dsimp only
  rw [queued.pruned later, Sliding.within_of_past (queued.allowed_past later)]
  exact List.countP_eq_length_filter.symm

theorem Queued.answer_none_iff (queued : Queued key limit windowSeconds clock served) (later : clock ≤ now) :
    served.answer key limit windowSeconds now = none ↔
      Sliding.within (windowSeconds : Rat) now served.allowed < limit := by
  rw [← queued.count later]
  unfold Served.answer check
  dsimp only
  split
  · rename_i full
    exact iff_of_false nofun (Nat.not_lt.mpr full)
  · rename_i room
    exact iff_of_true rfl (Nat.not_le.mp room)

theorem allowed_serve : (served.serve key limit windowSeconds now).allowed =
    if served.answer key limit windowSeconds now = none then served.allowed ++ [now] else served.allowed := by
  unfold Served.serve Served.allowed
  dsimp only
  rw [List.filter_append, List.map_append]
  cases served.answer key limit windowSeconds now with
  | none => rfl
  | some retry => exact List.append_nil _

theorem prune_prune {backend : MemoryRateLimitBackend} {bkey : String} :
    (backend.prune bkey windowSeconds now).prune bkey windowSeconds now = backend.prune bkey windowSeconds now := by
  unfold MemoryRateLimitBackend.prune
  dsimp only
  rw [Function.update_self, Function.update_idem, List.dropWhile_idempotent]

theorem check_allowed {backend : MemoryRateLimitBackend}
    (room : (check key limit windowSeconds backend now).2 = none) :
    (check key limit windowSeconds backend now).1 =
      (backend.prune (backendKey key windowSeconds) windowSeconds now).record (backendKey key windowSeconds) now := by
  unfold check at room ⊢
  dsimp only at room ⊢
  split
  · rename_i full
    rw [if_pos full] at room
    cases room
  · rfl

theorem check_refused {backend : MemoryRateLimitBackend} {retry : Int}
    (full : (check key limit windowSeconds backend now).2 = some retry) :
    (check key limit windowSeconds backend now).1 = backend.prune (backendKey key windowSeconds) windowSeconds now ∧
      retry = max 1 ((backend.prune (backendKey key windowSeconds) windowSeconds now).retryAfter
        (backendKey key windowSeconds) windowSeconds now).2 := by
  unfold check MemoryRateLimitBackend.eventsInWindow at full ⊢
  dsimp only at full ⊢
  split at full
  · rename_i most
    rw [if_pos most]
    refine ⟨?_, (Option.some.inj full).symm⟩
    unfold MemoryRateLimitBackend.retryAfter
    dsimp only
    rw [prune_prune]
    split <;> rfl
  · cases full

theorem Queued.prune (queued : Queued key limit windowSeconds clock served) (later : clock ≤ now) :
    let queue := (served.backend.prune (backendKey key windowSeconds) windowSeconds now).events (backendKey key windowSeconds)
    queue.Pairwise (· ≤ ·) ∧ (∀ time ∈ queue, time ≤ now) ∧
      ∀ next, now ≤ next → (queue.filter fun time => decide (next - windowSeconds < time)) =
        served.allowed.filter fun time => decide (next - windowSeconds < time) := by
  intro queue
  have shorter : queue.Sublist (served.backend.events (backendKey key windowSeconds)) := by
    have dropped : queue = (served.backend.events (backendKey key windowSeconds)).dropWhile fun event =>
        decide (event ≤ now - windowSeconds) := Function.update_self _ _ _
    rw [dropped]
    exact List.dropWhile_sublist _
  refine ⟨queued.sorted.sublist shorter, ?_, ?_⟩
  · intro time member
    exact (queued.past time (List.mem_append_left _ (shorter.subset member))).trans later
  · intro next further
    have pruned : queue = _ := queued.pruned later
    rw [pruned]
    exact Sliding.filter_later (sub_le_sub_right further _)

theorem Queued.serve (queued : Queued key limit windowSeconds clock served) (later : clock ≤ now) :
    Queued key limit windowSeconds now (served.serve key limit windowSeconds now) := by
  obtain ⟨sorted, past, queue⟩ := queued.prune later
  have allowed := queued.allowed_past later
  cases answered : served.answer key limit windowSeconds now with
  | some retry =>
    have same : (served.serve key limit windowSeconds now).allowed = served.allowed := by
      rw [allowed_serve, answered]
      rfl
    have after : (served.serve key limit windowSeconds now).backend =
        served.backend.prune (backendKey key windowSeconds) windowSeconds now := (check_refused answered).1
    refine ⟨?_, ?_, ?_, ?_⟩
    · rw [after]
      exact sorted
    · rw [after, same]
      intro time member
      exact (List.mem_append.mp member).elim (past time) (allowed time)
    · rw [after, same]
      exact queue
    · rw [same]
      exact queued.bounded
  | none =>
    have longer : (served.serve key limit windowSeconds now).allowed = served.allowed ++ [now] := by
      rw [allowed_serve, answered]
      rfl
    have room := (queued.answer_none_iff later).mp answered
    have after : (served.serve key limit windowSeconds now).backend.events (backendKey key windowSeconds) =
        (served.backend.prune (backendKey key windowSeconds) windowSeconds now).events (backendKey key windowSeconds) ++
          [now] := by
      have recorded : (served.serve key limit windowSeconds now).backend =
          (served.backend.prune (backendKey key windowSeconds) windowSeconds now).record
            (backendKey key windowSeconds) now := check_allowed answered
      rw [recorded]
      exact Function.update_self _ _ _
    refine ⟨?_, ?_, ?_, ?_⟩
    · rw [after]
      refine List.pairwise_append.mpr ⟨sorted, List.pairwise_singleton _ _, ?_⟩
      intro time member last isLast
      rw [List.mem_singleton.mp isLast]
      exact past time member
    · rw [after, longer]
      intro time member
      simp only [List.mem_append, List.mem_singleton] at member
      rcases member with (queued | rfl) | (earlier | rfl)
      · exact past time queued
      · exact le_refl _
      · exact allowed time earlier
      · exact le_refl _
    · rw [after, longer]
      intro next further
      rw [List.filter_append, List.filter_append, queue next further]
    · rw [longer]
      exact Sliding.within_snoc allowed queued.bounded room

/-- Who waits as long as a refusal says finds the oldest of the full window gone. -/
theorem Queued.waited (queued : Queued key limit windowSeconds clock served) (later : clock ≤ now) (positive : 1 ≤ limit)
    {retry : Int} (refused : served.answer key limit windowSeconds now = some retry) :
    1 ≤ retry ∧ Sliding.within (windowSeconds : Rat) (now + retry) served.allowed < limit := by
  have allowed := queued.allowed_past later
  have isRetry := (check_refused refused).2
  have least : 1 ≤ retry := by
    rw [isRetry]
    exact le_max_left _ _
  refine ⟨least, ?_⟩
  have full : limit ≤ Sliding.within (windowSeconds : Rat) now served.allowed := by
    apply Nat.not_lt.mp
    rw [← queued.answer_none_iff later, refused]
    exact nofun
  have waits : now ≤ now + (retry : Rat) := le_add_of_nonneg_right (by exact_mod_cast (by omega : 0 ≤ retry))
  have most := queued.bounded now
  rw [Sliding.within_of_past allowed] at full most
  rw [Sliding.within_of_past (queued.allowed_past (later.trans waits))]
  unfold Sliding.after at full most ⊢
  rw [List.countP_eq_length_filter] at full most ⊢
  have twice : ((served.allowed.filter fun time => decide (now - windowSeconds < time)).filter fun time =>
      decide (now + retry - windowSeconds < time)) =
      served.allowed.filter fun time => decide (now + retry - windowSeconds < time) :=
    Sliding.filter_later (sub_le_sub_right waits _)
  have pruned := queued.pruned later
  rw [← twice]
  unfold MemoryRateLimitBackend.retryAfter at isRetry
  dsimp only at isRetry
  rw [prune_prune, pruned] at isRetry
  cases window : served.allowed.filter fun time => decide (now - windowSeconds < time) with
  | nil =>
    rw [window] at full
    exact absurd full (by simpa using Nat.pos_iff_ne_zero.mp positive)
  | cons oldest rest =>
    rw [window] at most isRetry
    have member : oldest ∈ served.allowed.filter fun time => decide (now - windowSeconds < time) := by
      rw [window]
      exact List.mem_cons_self
    have recent : now - windowSeconds < oldest := of_decide_eq_true (List.mem_filter.mp member).2
    have left : (0 : Rat) ≤ windowSeconds - (now - oldest) := by linarith
    have enough : truncate (windowSeconds - (now - oldest)) + 1 ≤ retry := by
      rw [isRetry]
      exact (le_max_right _ _).trans (le_max_right _ _)
    have bound : (truncate (windowSeconds - (now - oldest)) : Rat) + 1 ≤ retry := by exact_mod_cast enough
    have gone : ¬ now + retry - windowSeconds < oldest := by
      have exceeds := lt_truncate left
      intro stays
      linarith
    have short : (rest.filter fun time => decide (now + retry - windowSeconds < time)).length ≤ rest.length :=
      List.length_filter_le _ _
    rw [List.filter_cons_of_neg (by simpa using gone)]
    rw [List.length_cons] at most
    omega

end Steps

section Runs

variable {key : String} {limit : Nat} {windowSeconds : Int}

theorem queued_foldl {times : List Rat} : ∀ {clock now : Rat} {served : Served},
    Queued key limit windowSeconds clock served → (clock :: (times ++ [now])).Pairwise (· ≤ ·) →
    ∃ last, last ≤ now ∧ Queued key limit windowSeconds last (times.foldl (Served.serve key limit windowSeconds) served) := by
  induction times with
  | nil =>
    intro clock now served queued ordered
    exact ⟨clock, (List.pairwise_cons.mp ordered).1 now List.mem_cons_self, queued⟩
  | cons time rest step =>
    intro clock now served queued ordered
    obtain ⟨ahead, later⟩ := List.pairwise_cons.mp ordered
    exact step (queued.serve (ahead time List.mem_cons_self)) later

/-- The limiter in memory allows a call exactly when the window before it has room, and who waits as long
    as it says is allowed. -/
theorem memory_limiter_exact (key : String) {limit : Nat} (windowSeconds : Int) (positive : 1 ≤ limit) {times : List Rat}
    {now : Rat} (ordered : (times ++ [now]).Pairwise (· ≤ ·)) :
    let served := times.foldl (Served.serve key limit windowSeconds) {}
    (served.answer key limit windowSeconds now = none ↔
      Sliding.within (windowSeconds : Rat) now served.allowed < limit) ∧
    (∀ start : Rat, (served.allowed.countP fun time => decide (start < time ∧ time ≤ start + windowSeconds)) ≤ limit) ∧
    ∀ retry, served.answer key limit windowSeconds now = some retry → 1 ≤ retry ∧
      ∀ between, (now :: (between ++ [now + retry])).Pairwise (· ≤ ·) →
        let later := (now :: between).foldl (Served.serve key limit windowSeconds) served
        later.allowed = served.allowed → later.answer key limit windowSeconds (now + retry) = none := by
  intro served
  have start : ∃ clock, (clock :: (times ++ [now])).Pairwise (· ≤ ·) := by
    cases times with
    | nil => exact ⟨now, by simp⟩
    | cons first rest =>
      refine ⟨first, List.pairwise_cons.mpr ⟨?_, ordered⟩⟩
      intro time member
      rcases List.mem_cons.mp member with rfl | behind
      · exact le_refl _
      · exact (List.pairwise_cons.mp ordered).1 time behind
  obtain ⟨clock, begins⟩ := start
  obtain ⟨last, before, queued⟩ := queued_foldl Queued.initial begins
  refine ⟨queued.answer_none_iff before, ?_, ?_⟩
  · intro start
    have bounded := queued.bounded (start + windowSeconds)
    unfold Sliding.within at bounded
    rwa [add_sub_cancel_right] at bounded
  · intro retry refused
    obtain ⟨least, room⟩ := queued.waited before positive refused
    refine ⟨least, ?_⟩
    intro between further later same
    obtain ⟨clock, reached, held⟩ := queued_foldl (queued.serve before) further
    apply (held.answer_none_iff reached).mpr
    show Sliding.within (windowSeconds : Rat) (now + retry) later.allowed < limit
    rw [same]
    exact room

/-- Two calls a minute: the third waits until the first is a minute ago. -/
theorem third_call_waits :
    let served := [0, 10].foldl (Served.serve "acct:7" 2 60) {}
    served.answer "acct:7" 2 60 20 = some 41 ∧ (served.serve "acct:7" 2 60 20).answer "acct:7" 2 60 61 = none := by
  have ordered : ([0, 10] ++ [20] : List Rat).Pairwise (· ≤ ·) := by decide +kernel
  have refused : ([0, 10].foldl (Served.serve "acct:7" 2 60) {}).answer "acct:7" 2 60 20 = some 41 := by decide +kernel
  have exact := memory_limiter_exact "acct:7" 60 (by decide : 1 ≤ 2) ordered
  refine ⟨refused, ?_⟩
  have waits := (exact.2.2 41 refused).2 [] (by decide +kernel) (by decide +kernel)
  have time : (20 : Rat) + (41 : Int) = 61 := by norm_num
  rwa [time] at waits

end Runs

end Registry.RateLimit
