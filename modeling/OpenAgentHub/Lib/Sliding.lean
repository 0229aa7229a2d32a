import Mathlib.Algebra.Order.Group.Defs
import Mathlib.Data.List.Basic

/-! Events at moments, and how many of them a sliding window of a fixed width can hold. -/

namespace Sliding

variable {α : Type} [LinearOrder α]

def after (moment : α) (events : List α) : Nat := events.countP fun event => decide (moment < event)

theorem after_append {moment : α} {events more : List α} : after moment (events ++ more) = after moment events + after moment more :=
  List.countP_append

theorem after_le_length {moment : α} {events : List α} : after moment events ≤ events.length :=
  List.countP_le_length

theorem after_cons {moment event : α} {events : List α} :
    after moment (event :: events) = after moment events + if moment < event then 1 else 0 := by
  rw [after, List.countP_cons]
  simp [after]

theorem after_eq_zero {moment : α} {events : List α} (early : ∀ event ∈ events, event ≤ moment) : after moment events = 0 := by
  apply List.countP_eq_zero.mpr
  intro event member late
  exact absurd (early event member) (not_le.mpr (of_decide_eq_true late))

theorem after_filter {moment cutoff : α} {events : List α} (past : cutoff ≤ moment) :
    after moment (events.filter fun event => decide (cutoff < event)) = after moment events := by
  unfold after
  rw [List.countP_filter]
  apply List.countP_congr
  intro event _
  rw [Bool.and_eq_true, decide_eq_true_eq, decide_eq_true_eq]
  constructor
  · intro both
    exact both.1
  · intro late
    exact ⟨late, lt_of_le_of_lt past late⟩

theorem after_le_take {moment : α} {events : List α} (seen : Nat) :
    after moment events ≤ after moment (events.take seen) + (events.length - seen) := by
  have parts : after moment events = after moment (events.take seen) + after moment (events.drop seen) := by
    rw [← after_append, List.take_append_drop]
  have rest : after moment (events.drop seen) ≤ events.length - seen := by
    rw [← List.length_drop]
    exact after_le_length
  omega

theorem dropWhile_eq_filter {cutoff : α} {events : List α} (ordered : events.Pairwise (· ≤ ·)) :
    events.dropWhile (fun event => decide (event ≤ cutoff)) = events.filter fun event => decide (cutoff < event) := by
  induction events with
  | nil => rfl
  | cons first rest step =>
    obtain ⟨ahead, later⟩ := List.pairwise_cons.mp ordered
    by_cases early : first ≤ cutoff
    · have dropped : (fun event => decide (event ≤ cutoff)) first = true := decide_eq_true early
      have left : ¬ (fun event => decide (cutoff < event)) first = true :=
        fun late => absurd early (not_le.mpr (of_decide_eq_true late))
      rw [List.dropWhile_cons_of_pos (p := fun event => decide (event ≤ cutoff)) dropped, step later]
      exact (List.filter_cons_of_neg (p := fun event => decide (cutoff < event)) left).symm
    · have kept : ¬ (fun event => decide (event ≤ cutoff)) first = true :=
        fun dropped => early (of_decide_eq_true dropped)
      rw [List.dropWhile_cons_of_neg (p := fun event => decide (event ≤ cutoff)) kept]
      symm
      apply List.filter_eq_self.mpr
      intro event member
      apply decide_eq_true
      rcases List.mem_cons.mp member with rfl | behind
      · exact not_le.mp early
      · exact lt_of_lt_of_le (not_le.mp early) (ahead event behind)

theorem filter_later {cutoff next : α} {events : List α} (past : cutoff ≤ next) :
    (events.filter fun event => decide (cutoff < event)).filter (fun event => decide (next < event)) =
      events.filter fun event => decide (next < event) := by
  rw [List.filter_filter]
  apply List.filter_congr
  intro event _
  by_cases late : next < event
  · simp [late, lt_of_le_of_lt past late]
  · simp [late]

variable [AddCommGroup α] [IsOrderedAddMonoid α]

def within (width moment : α) (events : List α) : Nat :=
  events.countP fun event => decide (moment - width < event ∧ event ≤ moment)

omit [IsOrderedAddMonoid α] in
theorem within_of_past {width moment : α} {events : List α} (past : ∀ event ∈ events, event ≤ moment) :
    within width moment events = after (moment - width) events := by
  apply List.countP_congr
  intro event member
  rw [decide_eq_true_eq, decide_eq_true_eq]
  exact and_iff_left (past event member)

/-- One more event at the end, where fewer than `limit` lie in the last `width` before it. -/
theorem within_snoc {limit : Nat} {width event : α} {events : List α} (past : ∀ earlier ∈ events, earlier ≤ event)
    (bounded : ∀ moment, within width moment events ≤ limit) (room : within width event events < limit) (moment : α) :
    within width moment (events ++ [event]) ≤ limit := by
  have split : within width moment (events ++ [event]) = within width moment events + within width moment [event] :=
    List.countP_append
  rw [split]
  by_cases inside : moment - width < event ∧ event ≤ moment
  · have recent : within width moment events ≤ within width event events := by
      apply List.countP_mono_left
      intro earlier member held
      rw [decide_eq_true_eq] at held ⊢
      exact ⟨lt_of_le_of_lt (sub_le_sub_right inside.2 width) held.1, past earlier member⟩
    have one : within width moment [event] ≤ 1 := List.countP_le_length
    omega
  · have none : within width moment [event] = 0 := by
      simp [within, inside]
    rw [none]
    exact bounded moment

def inWindow (width start : α) (events : List α) : Nat :=
  events.countP fun event => decide (start ≤ event ∧ event < start + width)

def Bounded (limit : Nat) (width : α) (events : List α) : Prop := ∀ start, inWindow width start events ≤ limit

omit [IsOrderedAddMonoid α] in
theorem bounded_nil {limit : Nat} {width : α} : Bounded limit width [] := fun _ => Nat.zero_le limit

/-- One more event fits when fewer than `limit` events come later than one width before it. -/
theorem Bounded.snoc {limit : Nat} {width event : α} {events : List α} (bounded : Bounded limit width events)
    (room : after (event - width) events < limit) : Bounded limit width (events ++ [event]) := by
  intro start
  have split : inWindow width start (events ++ [event]) = inWindow width start events + inWindow width start [event] :=
    List.countP_append
  rw [split]
  by_cases inside : start ≤ event ∧ event < start + width
  · have recent : inWindow width start events ≤ after (event - width) events := by
      apply List.countP_mono_left
      intro earlier _ within
      rw [decide_eq_true_eq] at within ⊢
      exact lt_of_lt_of_le (sub_lt_iff_lt_add.mpr inside.2) within.1
    have one : inWindow width start [event] ≤ 1 := List.countP_le_length
    omega
  · have none : inWindow width start [event] = 0 := by
      simp [inWindow, inside]
    rw [none]
    exact bounded start

end Sliding
