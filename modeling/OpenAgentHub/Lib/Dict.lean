import Mathlib.Data.List.AList

abbrev Dict (κ α : Type) := AList fun _ : κ => α

namespace Dict

variable {κ α σ β : Type} [DecidableEq κ]

/-- A pass over a dictionary whose turns touch their own key alone does, at any
    key, the one turn of that key. -/
theorem foldl_at (turn : σ → κ → α → σ) (view : σ → κ → β) (effect : β → α → β)
    (own : ∀ state key value, view (turn state key value) key = effect (view state key) value)
    (others : ∀ state key value other, other ≠ key → view (turn state key value) other = view state other)
    (dict : Dict κ α) (state : σ) (key : κ) :
    view (dict.foldl turn state) key = ((dict.lookup key).map (effect (view state key))).getD (view state key) := by
  obtain ⟨entries, distinct⟩ := dict
  show view (entries.foldl (fun state entry => turn state entry.1 entry.2) state) key =
    ((entries.dlookup key).map _).getD _
  induction entries generalizing state with
  | nil => rfl
  | cons entry rest ih =>
    obtain ⟨first, value⟩ := entry
    rw [List.nodupKeys_cons] at distinct
    rw [List.foldl_cons, ih (turn state first value) distinct.2]
    by_cases same : key = first
    · subst same
      rw [List.dlookup_eq_none.mpr distinct.1, List.dlookup_cons_eq]
      exact own state key value
    · rw [List.dlookup_cons_ne _ _ same, others state first value key same]

omit [DecidableEq κ] in
theorem foldl_keeps (turn : σ → κ → α → σ) (view : σ → β)
    (kept : ∀ state key value, view (turn state key value) = view state) (dict : Dict κ α) (state : σ) :
    view (dict.foldl turn state) = view state := by
  show view (dict.entries.foldl (fun state entry => turn state entry.1 entry.2) state) = view state
  induction dict.entries generalizing state with
  | nil => rfl
  | cons entry rest ih =>
    rw [List.foldl_cons, ih, kept]

end Dict
