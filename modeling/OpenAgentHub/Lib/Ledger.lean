import Mathlib.Algebra.Group.Basic

/-! An amount that is collected in a buffer and moved to a store in two steps:
    the store takes a copy of the buffered amount, and the buffer gives it up later. -/

namespace Ledger

variable {M : Type} [AddCommMonoid M]

structure Account (M : Type) where
  stored : M
  buffered : M
  moving : Option (M × Bool)

inductive Action (M : Type) where
  | none
  | collect (amount : M)
  | copy
  | store
  | abandon
  | release (rest : M)

namespace Account

def act (account : Account M) : Action M → Account M
  | .none => account
  | .collect amount => { account with buffered := account.buffered + amount }
  | .copy => { account with moving := some (account.buffered, false) }
  | .store =>
    match account.moving with
    | some (amount, _) => { account with stored := account.stored + amount, moving := some (amount, true) }
    | none => account
  | .abandon => { account with moving := none }
  | .release rest => { account with buffered := rest, moving := none }

def doubled (account : Account M) : M :=
  match account.moving with
  | some (amount, true) => amount
  | _ => 0

def Balanced (total : M) (account : Account M) : Prop :=
  account.stored + account.buffered = total + account.doubled

end Account

def Action.fits (account : Account M) : Action M → Prop
  | .none | .collect _ => True
  | .copy => account.moving = .none
  | .store | .abandon => ∀ amount, account.moving ≠ some (amount, true)
  | .release _ => ∃ amount, account.moving = some (amount, true)

def Action.exact (account : Account M) : Action M → Prop
  | .release rest => rest + account.doubled = account.buffered
  | _ => True

def Action.collected : Action M → M
  | .collect amount => amount
  | _ => 0

variable {total : M} {account : Account M} {action : Action M}

theorem Account.doubled_eq_zero (notStored : ∀ amount, account.moving ≠ some (amount, true)) : account.doubled = 0 := by
  unfold doubled
  split
  · rename_i amount isStored
    exact absurd isStored (notStored amount)
  · rfl

/-- An action keeps the balance exactly when what it releases is what was copied. -/
theorem balanced_act_iff [IsCancelAdd M] (balanced : account.Balanced total) (fits : action.fits account) :
    (account.act action).Balanced (total + action.collected) ↔ action.exact account := by
  unfold Account.Balanced at balanced ⊢
  cases action with
  | none => simpa [Account.act, Action.collected, Action.exact] using balanced
  | collect amount =>
    apply iff_of_true _ trivial
    show account.stored + (account.buffered + amount) = total + amount + account.doubled
    rw [← add_assoc, balanced, add_right_comm]
  | copy =>
    apply iff_of_true _ trivial
    have none : account.doubled = 0 := by
      apply Account.doubled_eq_zero
      simp [show account.moving = .none from fits]
    show account.stored + account.buffered = total + 0 + 0
    rw [balanced, none, add_zero, add_zero]
  | store =>
    apply iff_of_true _ trivial
    have none : account.doubled = 0 := Account.doubled_eq_zero fits
    rw [none, add_zero] at balanced
    unfold Account.act
    dsimp only
    split
    · rename_i amount taken _
      show account.stored + amount + account.buffered = total + 0 + amount
      rw [add_right_comm, balanced, add_zero]
    · show account.stored + account.buffered = total + 0 + account.doubled
      rw [balanced, none, add_zero, add_zero]
  | abandon =>
    apply iff_of_true _ trivial
    have none : account.doubled = 0 := Account.doubled_eq_zero fits
    show account.stored + account.buffered = total + 0 + 0
    rw [balanced, none, add_zero, add_zero]
  | release rest =>
    show account.stored + rest = total + 0 + 0 ↔ rest + account.doubled = account.buffered
    rw [add_zero, add_zero]
    constructor
    · rintro rfl
      rw [add_assoc] at balanced
      exact (add_left_cancel balanced).symm
    · intro exact
      rw [← exact, ← add_assoc] at balanced
      exact add_right_cancel balanced

end Ledger
