import Mathlib.Order.Defs.LinearOrder

/-! What the steps of a run cost, paid out of a potential. -/

namespace Runs

variable {σ ρ : Type}

def total (handle : σ → ρ → σ) (amount : σ → ρ → Nat) : σ → List ρ → Nat
  | _, [] => 0
  | state, request :: rest => amount state request + total handle amount (handle state request) rest

/-- When each step pays its cost out of what it earns and out of the potential, so does a run. -/
theorem total_add_le {handle : σ → ρ → σ} {cost earned : σ → ρ → Nat} (potential : σ → Nat) (invariant : σ → Prop)
    (kept : ∀ state request, invariant state → invariant (handle state request))
    (pays : ∀ state request, invariant state →
      cost state request + potential (handle state request) ≤ earned state request + potential state)
    {start : σ} (initial : invariant start) (requests : List ρ) :
    total handle cost start requests + potential (requests.foldl handle start) ≤
      total handle earned start requests + potential start := by
  induction requests generalizing start with
  | nil => exact Nat.le_refl _
  | cons request rest ih =>
    have first := pays start request initial
    have others := ih (kept start request initial)
    simp only [total, List.foldl_cons]
    omega

end Runs
