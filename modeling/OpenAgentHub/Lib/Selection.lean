import Mathlib.Data.List.Sort

/-! `max` and `sorted` of Python, and the top row of an SQL ordering. -/

namespace Selection

variable {α : Type}

def maxBy (order : α → α → Ordering) : List α → Option α
  | [] => none
  | first :: rest => some (rest.foldl (fun best next => if order best next = .lt then next else best) first)

def AtLeast (order : α → α → Ordering) (first second : α) : Prop := order first second ≠ .lt

instance (order : α → α → Ordering) : DecidableRel (AtLeast order) := fun _ _ => instDecidableNot

instance (order : α → α → Ordering) [Std.OrientedCmp order] : Std.Total (AtLeast order) where
  total first second := by
    unfold AtLeast
    have swapped : order second first = (order first second).swap := Std.OrientedCmp.eq_swap
    rw [swapped]
    cases order first second <;> simp

instance (order : α → α → Ordering) [Std.TransCmp order] : IsTrans α (AtLeast order) where
  trans first second third left right := by
    have above := Std.TransCmp.isGE_trans (Ordering.isGE_iff_ne_lt.mpr left) (Ordering.isGE_iff_ne_lt.mpr right)
    exact Ordering.isGE_iff_ne_lt.mp above

/-- `sorted(..., reverse=True)`: descending, equal elements in their given order. -/
def descending (order : α → α → Ordering) (items : List α) : List α := items.insertionSort (AtLeast order)

theorem descending_perm (order : α → α → Ordering) (items : List α) : (descending order items).Perm items :=
  List.perm_insertionSort _ items

section Sorted

variable {order : α → α → Ordering} {items front back : List α} {item : α}

theorem descending_sorted [Std.TransCmp order] (items : List α) :
    (descending order items).Pairwise fun first second => order first second ≠ .lt :=
  List.pairwise_insertionSort (AtLeast order) items

theorem below_eq_after [Std.OrientedCmp order]
    (strict : (front ++ item :: back).Pairwise fun first second => order first second = .gt) :
    (front ++ item :: back).filter (fun other => order other item == .lt) = back := by
  obtain ⟨_, behind, across⟩ := List.pairwise_append.mp strict
  have before : front.filter (fun other => order other item == .lt) = [] := by
    apply List.filter_eq_nil_iff.mpr
    intro other member
    rw [across other member item List.mem_cons_self]
    decide
  have itself : (order item item == .lt) = false := by
    have same : order item item = .eq := Std.ReflCmp.compare_self
    rw [same]
    rfl
  have after : back.filter (fun other => order other item == .lt) = back := by
    apply List.filter_eq_self.mpr
    intro other member
    have above := (List.pairwise_cons.mp behind).1 other member
    rw [Std.OrientedCmp.lt_of_gt above]
    rfl
  rw [List.filter_append, List.filter_cons, before, itself, after]
  rfl

theorem eq_of_strict [Std.OrientedCmp order] {one two : List α}
    (left : one.Pairwise fun first second => order first second = .gt)
    (right : two.Pairwise fun first second => order first second = .gt) (same : ∀ item, item ∈ one ↔ item ∈ two) :
    one = two := by
  have distinct : ∀ {a b}, order a b = .gt → a ≠ b := by
    intro a b above equal
    have self : order b b = .eq := Std.ReflCmp.compare_self
    rw [equal, self] at above
    cases above
  have perm : one.Perm two := (List.perm_ext_iff_of_nodup (left.imp distinct) (right.imp distinct)).mpr same
  have antisymm : ∀ a b, a ∈ one → b ∈ two → order a b = .gt → order b a = .gt → a = b := by
    intro a b _ _ above below
    rw [Std.OrientedCmp.lt_of_gt above] at below
    cases below
  exact perm.eq_of_pairwise antisymm left right

end Sorted

section Greatest

variable {order : α → α → Ordering} {items : List α} {best : α}

def Greatest (order : α → α → Ordering) (items : List α) (best : α) : Prop :=
  ∃ front back, items = front ++ best :: back ∧ (∀ item ∈ front, order item best = .lt) ∧
    ∀ item ∈ back, order best item ≠ .lt

theorem Greatest.mem (greatest : Greatest order items best) : best ∈ items := by
  obtain ⟨front, back, rfl, _, _⟩ := greatest
  simp

theorem Greatest.unique [Std.OrientedCmp order] {other : α} (one : Greatest order items best)
    (two : Greatest order items other) : best = other := by
  obtain ⟨front, back, rfl, below, notAbove⟩ := one
  obtain ⟨front', back', split, below', notAbove'⟩ := two
  rcases List.append_eq_append_iff.mp split with ⟨more, frontIs, rest⟩ | ⟨more, frontIs, rest⟩
  · cases more with
    | nil => exact (List.cons.inj rest).1
    | cons first more =>
      have same : best = first := (List.cons.inj rest).1
      have later : other ∈ back := by simp [(List.cons.inj rest).2]
      have lower := below' best (by simp [frontIs, same])
      exact absurd lower (notAbove other later)
  · cases more with
    | nil => exact (List.cons.inj rest).1.symm
    | cons first more =>
      have same : other = first := (List.cons.inj rest).1
      have later : best ∈ back' := by simp [(List.cons.inj rest).2]
      have lower := below other (by simp [frontIs, same])
      exact absurd lower (notAbove' best later)

theorem Greatest.cons_above [Std.TransCmp order] {first next : α} {rest : List α} (above : order first next = .lt)
    (greatest : Greatest order (next :: rest) best) : Greatest order (first :: next :: rest) best := by
  obtain ⟨front, back, split, below, notAbove⟩ := greatest
  refine ⟨first :: front, back, by rw [split]; rfl, ?_, notAbove⟩
  have lower : order first best = .lt := by
    cases front with
    | nil => rwa [← (List.cons.inj split).1]
    | cons head front =>
      have isNext : next = head := (List.cons.inj split).1
      exact Std.TransCmp.lt_trans above (below next (by simp [isNext]))
  intro item member
  rcases List.mem_cons.mp member with same | inside
  · rw [same]
    exact lower
  · exact below item inside

theorem Greatest.cons_below [Std.TransCmp order] {first next : α} {rest : List α} (notAbove : order first next ≠ .lt)
    (greatest : Greatest order (first :: rest) best) : Greatest order (first :: next :: rest) best := by
  obtain ⟨front, back, split, below, others⟩ := greatest
  cases front with
  | nil =>
    obtain ⟨rfl, rfl⟩ := List.cons.inj split
    refine ⟨[], next :: rest, rfl, by simp, ?_⟩
    intro item member
    rcases List.mem_cons.mp member with same | inside
    · rw [same]
      exact notAbove
    · exact others item inside
  | cons head front =>
    obtain ⟨rfl, rfl⟩ := List.cons.inj split
    refine ⟨first :: next :: front, back, rfl, ?_, others⟩
    have atMost : (order next first).isLE = true :=
      Std.OrientedCmp.isLE_of_isGE (Ordering.isGE_iff_ne_lt.mpr notAbove)
    have lower : order next best = .lt := Std.TransCmp.lt_of_isLE_of_lt atMost (below first (by simp))
    intro item member
    simp only [List.mem_cons] at member
    rcases member with same | same | inside
    · exact below item (by simp [same])
    · rw [same]
      exact lower
    · exact below item (by simp [inside])

theorem foldl_greatest [Std.TransCmp order] (first : α) (rest : List α) :
    Greatest order (first :: rest)
      (rest.foldl (fun best next => if order best next = .lt then next else best) first) := by
  induction rest generalizing first with
  | nil => exact ⟨[], [], rfl, by simp, by simp⟩
  | cons next rest ih =>
    rw [List.foldl_cons]
    by_cases above : order first next = .lt
    · rw [if_pos above]
      exact (ih next).cons_above above
    · rw [if_neg above]
      exact (ih first).cons_below above

theorem maxBy_eq_some [Std.TransCmp order] : maxBy order items = some best ↔ Greatest order items best := by
  cases items with
  | nil =>
    constructor
    · intro found
      cases found
    · intro greatest
      cases greatest.mem
  | cons first rest =>
    have greatest := @foldl_greatest _ order _ first rest
    constructor
    · intro found
      rw [← Option.some.inj found]
      exact greatest
    · intro theirs
      exact congrArg some (greatest.unique theirs)

theorem Greatest.notBelow [Std.OrientedCmp order] (greatest : Greatest order items best) {item : α}
    (member : item ∈ items) : order best item ≠ .lt := by
  obtain ⟨front, back, rfl, below, others⟩ := greatest
  rcases List.mem_append.mp member with before | rest
  · rw [Std.OrientedCmp.gt_of_lt (below item before)]
    decide
  · rcases List.mem_cons.mp rest with same | after
    · have equal : order best best = .eq := Std.ReflCmp.compare_self
      rw [same, equal]
      decide
    · exact others item after

theorem maxBy_eq_some_of_distinct [Std.TransCmp order]
    (distinct : ∀ first ∈ items, ∀ second ∈ items, order first second = .eq → first = second) :
    maxBy order items = some best ↔ best ∈ items ∧ ∀ item ∈ items, order best item ≠ .lt := by
  constructor
  · intro found
    have greatest := maxBy_eq_some.mp found
    exact ⟨greatest.mem, fun item member => greatest.notBelow member⟩
  · intro ⟨member, notBelow⟩
    cases found : maxBy order items with
    | none =>
      cases items with
      | nil => cases member
      | cons first rest => cases found
    | some other =>
      have greatest := maxBy_eq_some.mp found
      have above := greatest.notBelow member
      have below := notBelow other greatest.mem
      have equal : order other best = .eq := by
        cases compared : order other best with
        | lt => exact absurd compared above
        | eq => rfl
        | gt => exact absurd (Std.OrientedCmp.lt_of_gt compared) below
      rw [distinct other greatest.mem best member equal]

theorem maxBy_mem [Std.TransCmp order] (found : maxBy order items = some best) : best ∈ items :=
  (maxBy_eq_some.mp found).mem

end Greatest

end Selection
