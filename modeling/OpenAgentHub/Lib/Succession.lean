import Mathlib.Data.List.Pairwise
import OpenAgentHub.Lib.Selection

/-! What comes before an item in a strict order, and differences taken along it. -/

namespace Selection

variable {α δ σ : Type} {order : α → α → Ordering} {items trail front back : List α} {item previous : α}

def predecessor (order : α → α → Ordering) (items : List α) (item : α) : Option α :=
  maxBy order (items.filter fun other => order other item == .lt)

structure Trail (order : α → α → Ordering) (items trail : List α) : Prop where
  perm : trail.Perm items
  strict : trail.Pairwise fun first second => order first second = .lt

section Predecessors

variable [Std.TransCmp order]

theorem Trail.below (trails : Trail order items (front ++ item :: back)) {other : α} :
    other ∈ items.filter (fun other => order other item == .lt) ↔ other ∈ front := by
  obtain ⟨_, behind, across⟩ := List.pairwise_append.mp trails.strict
  rw [List.mem_filter, ← trails.perm.mem_iff, beq_iff_eq]
  constructor
  · rintro ⟨stored, below⟩
    rcases List.mem_append.mp stored with before | rest
    · exact before
    · rcases List.mem_cons.mp rest with rfl | after
      · have same : order other other = .eq := Std.ReflCmp.compare_self
        rw [same] at below
        cases below
      · have above := (List.pairwise_cons.mp behind).1 other after
        rw [Std.OrientedCmp.gt_of_lt above] at below
        cases below
  · intro before
    exact ⟨List.mem_append_left _ before, across other before item List.mem_cons_self⟩

theorem Trail.distinct (trails : Trail order items trail) {first second : α} (left : first ∈ items) (right : second ∈ items)
    (same : order first second = .eq) : first = second := by
  have apart : trail.Pairwise fun first second => order first second ≠ .eq :=
    trails.strict.imp fun below equal => by
      rw [equal] at below
      cases below
  have symmetric : Std.Symm fun first second : α => order first second ≠ .eq :=
    ⟨fun first second different equal => different (Std.OrientedCmp.eq_symm equal)⟩
  by_contra different
  exact apart.forall (trails.perm.mem_iff.mpr left) (trails.perm.mem_iff.mpr right) different same

theorem Trail.predecessor_first (trails : Trail order items (item :: back)) : predecessor order items item = none := by
  have nothing : items.filter (fun other => order other item == .lt) = [] := by
    apply List.eq_nil_iff_forall_not_mem.mpr
    intro other below
    have before := @Trail.below _ order items [] back item _ trails other
    cases before.mp below
  unfold predecessor
  rw [nothing]
  rfl

theorem Trail.predecessor_next (trails : Trail order items (front ++ previous :: item :: back)) :
    predecessor order items item = some previous := by
  have split : front ++ previous :: item :: back = (front ++ [previous]) ++ item :: back := by simp
  rw [split] at trails
  have before := (List.pairwise_append.mp (List.pairwise_append.mp trails.strict).1).2.2
  refine (maxBy_eq_some_of_distinct ?_).mpr ⟨trails.below.mpr (by simp), ?_⟩
  · intro first left second right same
    exact trails.distinct (List.mem_of_mem_filter left) (List.mem_of_mem_filter right) same
  · intro other below
    rcases List.mem_append.mp (trails.below.mp below) with earlier | last
    · rw [Std.OrientedCmp.gt_of_lt (before other earlier previous (List.mem_singleton_self _))]
      decide
    · have same : order previous previous = .eq := Std.ReflCmp.compare_self
      rw [List.mem_singleton.mp last, same]
      decide

end Predecessors

def differences (diff : Option α → α → δ) : Option α → List α → List δ
  | _, [] => []
  | previous, item :: rest => diff previous item :: differences diff (some item) rest

theorem differences_eq_map [Std.TransCmp order] {diff : Option α → α → δ} {done rest : List α}
    (trails : Trail order items (done ++ rest ++ back)) :
    rest.map (fun item => diff (predecessor order items item) item) = differences diff done.getLast? rest := by
  induction rest generalizing done with
  | nil => rfl
  | cons item rest ih =>
    have next : done ++ item :: rest ++ back = (done ++ [item]) ++ rest ++ back := by simp
    have here : predecessor order items item = done.getLast? := by
      rcases List.eq_nil_or_concat done with rfl | ⟨front, last, rfl⟩
      · exact trails.predecessor_first
      · rw [List.concat_eq_append, List.getLast?_concat]
        have passed : Trail order items (front ++ last :: item :: (rest ++ back)) := by simpa using trails
        exact passed.predecessor_next
    rw [next] at trails
    rw [List.map_cons, differences, here, ih trails, List.getLast?_concat]

theorem differences_foldl {diff : Option α → α → δ} (apply : σ → δ → σ) (holds : σ → Option α → Prop)
    (step : ∀ state previous item, holds state previous → holds (apply state (diff previous item)) (some item)) :
    ∀ {items : List α} {previous : Option α} {state : σ}, holds state previous →
      holds ((differences diff previous items).foldl apply state) (items.getLast?.or previous)
  | [], _, _, start => start
  | item :: rest, previous, state, start => by
    have next : holds ((differences diff (some item) rest).foldl apply (apply state (diff previous item)))
        (rest.getLast?.or (some item)) := differences_foldl apply holds step (step state previous item start)
    have last : (item :: rest).getLast?.or previous = rest.getLast?.or (some item) := by
      rw [List.getLast?_cons]
      cases rest.getLast? <;> rfl
    rw [last]
    exact next

end Selection
