import Mathlib.Algebra.BigOperators.Group.List.Basic
import OpenAgentHub.Lib.Record
import Mathlib.Algebra.GroupWithZero.Nat

/-! Rows added up in groups, each group under the key of its rows. -/

namespace Record

variable {α ρ M : Type}

def tallyRow (key : ρ → String) (start : ρ → α) (add : α → ρ → α) (groups : Record α) (row : ρ) : Record α :=
  groups.set (key row) (add ((groups.get (key row)).getD (start row)) row)

def tally (key : ρ → String) (start : ρ → α) (add : α → ρ → α) (rows : List ρ) : Record α :=
  rows.foldl (tallyRow key start add) ⟨[], List.nodup_nil⟩

theorem mem_put {name : String} {value : α} {entries : List (String × α)} {entry : String × α}
    (present : entry ∈ put entries name value) : entry = (name, value) ∨ entry ∈ entries := by
  induction entries with
  | nil => exact Or.inl (List.mem_singleton.mp present)
  | cons first rest ih =>
    rw [put] at present
    split at present
    · exact (List.mem_cons.mp present).imp_right (List.mem_cons_of_mem _)
    · rcases List.mem_cons.mp present with rfl | later
      · exact Or.inr (List.mem_cons_self ..)
      · exact (ih later).imp_right (List.mem_cons_of_mem _)

section Sums

variable [AddCancelCommMonoid M] (measure : α → M)

/-- Setting a key replaces its share of a total. -/
theorem sum_put {key : String} {value : α} : ∀ {entries : List (String × α)},
    ((put entries key value).map fun entry => measure entry.2).sum + ((entries.lookup key).map measure).getD 0 =
      (entries.map fun entry => measure entry.2).sum + measure value
  | [] => by simp [put]
  | (first, old) :: rest => by
    by_cases replaced : first = key
    · subst replaced
      simp only [put, if_true, List.map_cons, List.sum_cons, List.lookup_cons_self, Option.map_some, Option.getD_some]
      rw [add_right_comm, add_comm (measure value), add_right_comm]
    · rw [put, if_neg replaced, List.lookup_cons, beq_false_of_ne (Ne.symm replaced)]
      simp only [List.map_cons, List.sum_cons, add_assoc]
      rw [sum_put]

variable {key : ρ → String} {start : ρ → α} {add : α → ρ → α} (weight : ρ → M)

/-- What the groups measure together is what the rows weigh together, if `add` adds the weight as long as the sizes
    stay within a limit. `Within size value` says that a value has come from rows of that size. -/
theorem sum_tally_within (zero : ∀ row, measure (start row) = 0) (size : ρ → Nat) (limit : Nat) (Within : Nat → α → Prop)
    (fresh : ∀ row, Within 0 (start row)) (more : ∀ {small large value}, small ≤ large → Within small value → Within large value)
    (grows : ∀ total value row, Within total value → total + size row ≤ limit →
      measure (add value row) = measure value + weight row ∧ Within (total + size row) (add value row))
    {rows : List ρ} (fits : (rows.map size).sum ≤ limit) :
    ((tally key start add rows).entries.map fun entry => measure entry.2).sum = (rows.map weight).sum := by
  have run : ∀ (rows : List ρ) (groups : Record α) (total : Nat), (∀ entry ∈ groups.entries, Within total entry.2) →
      total + (rows.map size).sum ≤ limit →
      ((rows.foldl (tallyRow key start add) groups).entries.map fun entry => measure entry.2).sum =
        (groups.entries.map fun entry => measure entry.2).sum + (rows.map weight).sum := by
    intro rows
    induction rows with
    | nil => simp
    | cons row rest ih =>
      intro groups total within fits
      rw [List.map_cons, List.sum_cons, ← Nat.add_assoc] at fits
      have share : ((groups.entries.lookup (key row)).map measure).getD 0 =
          measure ((groups.get (key row)).getD (start row)) := by
        unfold get
        cases groups.entries.lookup (key row) with
        | none => exact (zero row).symm
        | some old => rfl
      have old : Within total ((groups.get (key row)).getD (start row)) := by
        cases found : groups.get (key row) with
        | none => exact more (Nat.zero_le total) (fresh row)
        | some value => exact within _ (mem_of_get found)
      obtain ⟨weighs, kept⟩ := grows total _ row old (by omega)
      have turn := @sum_put α M _ measure (key row) (add ((groups.get (key row)).getD (start row)) row) groups.entries
      rw [share, weighs, add_comm (measure _) (weight row), ← add_assoc] at turn
      have next : ∀ entry ∈ (tallyRow key start add groups row).entries, Within (total + size row) entry.2 := by
        intro entry present
        rcases mem_put present with rfl | older
        · exact kept
        · exact more (Nat.le_add_right total _) (within entry older)
      rw [List.foldl_cons, ih _ _ next fits, tallyRow, List.map_cons, List.sum_cons, ← add_assoc]
      exact congrArg (· + _) (add_right_cancel turn)
  rw [tally, run rows _ 0 (by simp) (by omega)]
  exact zero_add _

theorem sum_tally (zero : ∀ row, measure (start row) = 0) (grows : ∀ value row, measure (add value row) = measure value + weight row)
    (rows : List ρ) : ((tally key start add rows).entries.map fun entry => measure entry.2).sum = (rows.map weight).sum := by
  refine sum_tally_within measure weight zero (fun _ => 0) 0 (fun _ _ => True) (fun _ => trivial) (fun _ _ => trivial) ?_ (by simp)
  intro total value row _ _
  exact ⟨grows value row, trivial⟩

end Sums

section Groups

variable {key : ρ → String} {start : ρ → α} {add : α → ρ → α} {rows : List ρ}

theorem mem_keys_tally {name : String} : name ∈ (tally key start add rows).keys ↔ ∃ row ∈ rows, key row = name := by
  have run : ∀ (rows : List ρ) (groups : Record α),
      name ∈ (rows.foldl (tallyRow key start add) groups).keys ↔ name ∈ groups.keys ∨ ∃ row ∈ rows, key row = name := by
    intro rows
    induction rows with
    | nil => simp
    | cons row rest ih =>
      intro groups
      have turned : ∀ value, name ∈ (groups.set (key row) value).keys ↔ name ∈ groups.keys ∨ key row = name := by
        intro value
        unfold keys set
        rw [keys_put]
        split
        · rename_i present
          constructor
          · exact Or.inl
          · rintro (here | rfl)
            · exact here
            · exact present
        · rw [List.mem_append, List.mem_singleton, eq_comm (a := name)]
      rw [List.foldl_cons, ih, tallyRow, turned, or_assoc, List.exists_mem_cons_iff]
  rw [tally, run]
  exact or_iff_right List.not_mem_nil

theorem forall_tally (Holds : String → α → Prop) (enters : ∀ row ∈ rows, Holds (key row) (add (start row) row))
    (stays : ∀ row ∈ rows, ∀ value, Holds (key row) value → Holds (key row) (add value row)) :
    ∀ entry ∈ (tally key start add rows).entries, Holds entry.1 entry.2 := by
  have run : ∀ (later : List ρ) (groups : Record α), later ⊆ rows → (∀ entry ∈ groups.entries, Holds entry.1 entry.2) →
      ∀ entry ∈ (later.foldl (tallyRow key start add) groups).entries, Holds entry.1 entry.2 := by
    intro later
    induction later with
    | nil => exact fun _ _ hold => hold
    | cons row rest ih =>
      intro groups known hold
      have isRow := known (List.mem_cons_self ..)
      refine ih _ (List.subset_of_cons_subset known) fun entry present => ?_
      rcases mem_put present with rfl | older
      · cases found : groups.get (key row) with
        | none => exact enters row isRow
        | some old => exact stays row isRow old (hold _ (mem_of_get found))
      · exact hold entry older
  exact run rows ⟨[], List.nodup_nil⟩ (List.Subset.refl rows) (by simp)

end Groups

end Record
