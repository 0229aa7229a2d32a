import Mathlib.Data.List.Basic
import Mathlib.Algebra.GroupWithZero.Nat

/-! Weighing the elements of a list that satisfy a condition. -/

namespace Weights

variable {α β : Type} {weight : α → Nat} {before after : α → Bool} {items : List α}

def weigh (weight : α → Nat) (condition : α → Bool) (items : List α) : Nat := ((items.filter condition).map weight).sum

theorem weigh_const (each : Nat) (condition : α → Bool) (items : List α) :
    weigh (fun _ => each) condition items = (items.filter condition).length * each := by
  simp [weigh]

theorem weigh_cons (item : α) : weigh weight before (item :: items) =
    (if before item then weight item else 0) + weigh weight before items := by
  cases holds : before item <;> simp [weigh, holds]

theorem weigh_append (more : List α) :
    weigh weight before (items ++ more) = weigh weight before items + weigh weight before more := by
  simp [weigh]

theorem weigh_map (change : β → α) (source : List β) :
    weigh weight before (source.map change) = weigh (weight ∘ change) (before ∘ change) source := by
  simp [weigh, List.filter_map]

theorem weigh_congr {weight' : α → Nat} (same : ∀ item ∈ items, after item = before item)
    (weights : ∀ item ∈ items, weight' item = weight item) : weigh weight' after items = weigh weight before items := by
  induction items with
  | nil => rfl
  | cons item rest ih =>
    rw [weigh_cons, weigh_cons, same item List.mem_cons_self, weights item List.mem_cons_self]
    rw [ih (fun other member => same other (List.mem_cons_of_mem _ member))
      fun other member => weights other (List.mem_cons_of_mem _ member)]

theorem weigh_moved (weight : α → Nat) (moved : α → Bool) {was is : Bool}
    (others : ∀ item ∈ items, moved item = false → after item = before item)
    (wasThere : ∀ item ∈ items, moved item = true → before item = was)
    (isThere : ∀ item ∈ items, moved item = true → after item = is) :
    weigh weight after items + (if was then weigh weight moved items else 0) =
      weigh weight before items + if is then weigh weight moved items else 0 := by
  induction items with
  | nil => cases was <;> cases is <;> rfl
  | cons item rest ih =>
    have rest := ih (fun other member => others other (List.mem_cons_of_mem _ member))
      (fun other member => wasThere other (List.mem_cons_of_mem _ member))
      fun other member => isThere other (List.mem_cons_of_mem _ member)
    simp only [weigh_cons]
    cases moves : moved item with
    | false =>
      rw [others item List.mem_cons_self moves]
      simp only [Bool.false_eq_true, if_false, Nat.zero_add]
      omega
    | true =>
      rw [wasThere item List.mem_cons_self moves, isThere item List.mem_cons_self moves]
      simp only [if_true]
      cases was <;> cases is <;> simp only [Bool.false_eq_true, if_false, if_true] at rest ⊢ <;> omega

end Weights
