import Mathlib.Data.List.Pairwise

/-! The items of a sorted list, by how many are above them. -/

namespace Rank

variable {α : Type} (above : α → α → Bool) {items : List α} {item : α} {count : Nat}

/-- What comes after the first `count` items of a falling list has that many above it. -/
theorem mem_drop_iff (falling : items.Pairwise fun one other => above other one = true ∧ above one other = false)
    (irreflexive : ∀ item, above item item = false) :
    item ∈ items.drop count ↔ item ∈ items ∧ count ≤ items.countP (above item) := by
  induction items generalizing count with
  | nil => simp
  | cons first rest ih =>
    have head := List.pairwise_cons.mp falling
    cases count with
    | zero => simp
    | succ count =>
      rw [List.drop_succ_cons, ih head.2, List.countP_cons]
      constructor
      · rintro ⟨later, many⟩
        refine ⟨List.mem_cons_of_mem _ later, ?_⟩
        rw [if_pos (head.1 item later).1]
        omega
      · rintro ⟨present, many⟩
        rcases List.mem_cons.mp present with rfl | later
        · have none : rest.countP (above item) = 0 := by
            rw [List.countP_eq_zero]
            intro other isOther
            rw [(head.1 other isOther).2]
            decide
          rw [none, if_neg (by rw [irreflexive]; decide)] at many
          omega
        · rw [if_pos (head.1 item later).1] at many
          exact ⟨later, by omega⟩

end Rank
