import Mathlib.Data.List.Basic
import Mathlib.Data.List.Pairwise

/-! Pages of rows in falling order of their keys, each asked for with the last key of the one before it. -/

namespace Keyset

variable {α ε : Type}

structure Page (α : Type) where
  items : List α
  nextCursor : Option Nat

inductive Collects (page : Option Nat → Except ε (Page α)) : Option Nat → List α → Prop
  | last {cursor : Option Nat} {items : List α} (answered : page cursor = .ok ⟨items, none⟩) : Collects page cursor items
  | more {cursor : Option Nat} {next : Nat} {items rest : List α} (answered : page cursor = .ok ⟨items, some next⟩)
      (onward : Collects page (some next) rest) : Collects page cursor (items ++ rest)

theorem Collects.answered {page : Option Nat → Except ε (Page α)} {cursor : Option Nat} {items : List α}
    (collects : Collects page cursor items) : ∃ first, page cursor = .ok first := by
  cases collects with
  | last answered => exact ⟨_, answered⟩
  | more answered _ => exact ⟨_, answered⟩

variable (key : α → Nat)

def below (rows : List α) (cursor : Option Nat) : List α := rows.filter fun row => cursor.all (key row < ·)

def firstPage (limit : Nat) (rows : List α) : Page α :=
  ⟨rows.take limit, if (rows.take limit).length = limit then (rows.take limit).getLast?.map key else none⟩

def Falling (rows : List α) : Prop := rows.Pairwise fun first second => key second < key first

variable {key} {rows : List α} {limit : Nat}

theorem Falling.below (falling : Falling key rows) (cursor : Option Nat) : Falling key (below key rows cursor) :=
  falling.sublist List.filter_sublist

theorem below_none : below key rows none = rows := by simp [below]

theorem below_append {front back : List α} {row : α} (falling : Falling key (front ++ row :: back)) :
    below key (front ++ row :: back) (some (key row)) = back := by
  obtain ⟨_, later, earlier⟩ := List.pairwise_append.mp falling
  rw [List.pairwise_cons] at later
  have front : front.filter (fun other => decide (key other < key row)) = [] := by
    rw [List.filter_eq_nil_iff]
    intro other present
    have above := earlier other present row List.mem_cons_self
    simp [Nat.le_of_lt above]
  have back : back.filter (fun other => decide (key other < key row)) = back := by
    rw [List.filter_eq_self]
    intro other present
    exact decide_eq_true (later.1 other present)
  simp [Keyset.below, front, back]

/-- The rows from one of the rows that are left on are among them. -/
theorem below_below {row : α} {cursor : Option Nat} (present : row ∈ below key rows cursor) :
    below key (below key rows cursor) (some (key row)) = below key rows (some (key row)) := by
  have under := (List.mem_filter.mp present).2
  unfold below
  rw [List.filter_filter]
  apply List.filter_congr
  intro other _
  cases cursor with
  | none => simp
  | some bound =>
    simp only [Option.all_some, decide_eq_true_eq] at under
    simp only [Option.all_some, ← Bool.decide_and, decide_eq_decide]
    omega

theorem firstPage_short (short : rows.length < limit) : firstPage key limit rows = ⟨rows, none⟩ := by
  unfold firstPage
  rw [List.take_of_length_le (Nat.le_of_lt short), if_neg (Nat.ne_of_lt short)]

/-- A full page ends with a row, and the next page begins after it. -/
theorem firstPage_full (positive : 0 < limit) (full : limit ≤ rows.length) :
    ∃ front row, rows = front ++ row :: rows.drop limit ∧
      firstPage key limit rows = ⟨front ++ [row], some (key row)⟩ := by
  have length : (rows.take limit).length = limit := List.length_take_of_le full
  have nonEmpty : rows.take limit ≠ [] := by
    intro empty
    rw [empty, List.length_nil] at length
    omega
  obtain ⟨front, row, taken⟩ := (List.eq_nil_or_concat _).resolve_left nonEmpty
  refine ⟨front, row, ?_, ?_⟩
  · have parts := List.take_append_drop limit rows
    rw [taken] at parts
    simpa using parts.symm
  · unfold firstPage
    rw [if_pos length, taken]
    simp

/-- Whoever follows the cursors collects every row, in its order. -/
theorem collects_below (positive : 0 < limit) (falling : Falling key rows) {page : Option Nat → Except ε (Page α)}
    (pages : ∀ cursor, page cursor = .ok (firstPage key limit (below key rows cursor))) (cursor : Option Nat) :
    Collects page cursor (below key rows cursor) := by
  induction isSize : (below key rows cursor).length using Nat.strongRecOn generalizing cursor with
  | ind size ih =>
    have answered := pages cursor
    by_cases short : (below key rows cursor).length < limit
    · rw [firstPage_short short] at answered
      exact .last answered
    · obtain ⟨front, row, split, full⟩ := @firstPage_full _ key _ _ positive (Nat.le_of_not_lt short)
      have onward : below key rows (some (key row)) = (below key rows cursor).drop limit := by
        have present : row ∈ below key rows cursor := by
          rw [split]
          simp
        have sorted := falling.below cursor
        rw [split] at sorted
        rw [← below_below present]
        conv_lhs => rw [split]
        exact below_append sorted
      have less : (below key rows (some (key row))).length < size := by
        rw [onward, List.length_drop]
        omega
      rw [full] at answered
      have collected := Collects.more answered (ih _ less (some (key row)) rfl)
      rw [onward, List.append_assoc, List.singleton_append, ← split] at collected
      exact collected

inductive Cut (key : α → Nat) : List α → Page α → Prop
  | whole {rows : List α} : Cut key rows ⟨rows, none⟩
  | full {front back : List α} {row : α} : Cut key (front ++ row :: back) ⟨front ++ [row], some (key row)⟩

theorem firstPage_cut (positive : 0 < limit) : Cut key rows (firstPage key limit rows) := by
  by_cases short : rows.length < limit
  · rw [firstPage_short short]
    exact .whole
  · obtain ⟨front, row, split, full⟩ := @firstPage_full _ key _ _ positive (Nat.le_of_not_lt short)
    rw [full, split]
    exact .full

theorem Cut.items_eq {items : List α} (cut : Cut key rows ⟨items, none⟩) : items = rows := by
  cases cut
  rfl

/-- What a page with a cursor shows of its rows, and what it leaves to the next one. -/
theorem Cut.split {items : List α} {next : Nat} (falling : Falling key rows) (cut : Cut key rows ⟨items, some next⟩) :
    items.Sublist rows ∧ (∀ row ∈ items, next ≤ key row) ∧ (∀ row ∈ rows, row ∈ items ∨ key row < next) ∧
      ∃ last ∈ rows, key last = next := by
  cases cut with
  | @full front back row =>
    obtain ⟨_, later, earlier⟩ := List.pairwise_append.mp falling
    refine ⟨?_, ?_, ?_, row, by simp, rfl⟩
    · exact List.Sublist.append_left (List.singleton_sublist.mpr List.mem_cons_self) front
    · intro other present
      rcases List.mem_append.mp present with before | same
      · exact Nat.le_of_lt (earlier other before row List.mem_cons_self)
      · exact Nat.le_of_eq (congrArg key (List.mem_singleton.mp same).symm)
    · intro other present
      rcases List.mem_append.mp present with before | same
      · exact .inl (List.mem_append_left _ before)
      · rcases List.mem_cons.mp same with rfl | after
        · exact .inl (by simp)
        · exact .inr ((List.pairwise_cons.mp later).1 other after)

/-- A caller that follows the cursors of a source which changes between its pages. -/
inductive Walk {σ : Type} (answers : σ → Option Nat → Page α → Prop) (step : σ → σ → Prop) :
    σ → Option Nat → List α → σ → Prop
  | last {state : σ} {cursor : Option Nat} {items : List α} (answered : answers state cursor ⟨items, none⟩) :
    Walk answers step state cursor items state
  | more {state final : σ} {cursor : Option Nat} {next : Nat} {items rest : List α}
      (answered : answers state cursor ⟨items, some next⟩) (onward : Walk answers step state (some next) rest final) :
    Walk answers step state cursor (items ++ rest) final
  | wait {state after final : σ} {cursor : Option Nat} {items : List α} (changes : step state after)
      (onward : Walk answers step after cursor items final) : Walk answers step state cursor items final

section Growing

variable {σ : Type} {source : σ → List α} {answers : σ → Option Nat → Page α → Prop} {step : σ → σ → Prop}
variable {start final : σ} {cursor : Option Nat} {items : List α}

theorem mem_below {row : α} : row ∈ below key rows cursor ↔ row ∈ rows ∧ cursor.all (key row < ·) = true := List.mem_filter

structure Walked (key : α → Nat) (before after : List α) (cursor : Option Nat) (items : List α) : Prop where
  falling : Falling key items
  under : ∀ row ∈ items, cursor.all (key row < ·) = true
  complete : ∀ row ∈ below key before cursor, row ∈ items
  sound : ∀ row ∈ items, row ∈ after

theorem Walked.whole (falling : Falling key rows) : Walked key rows rows cursor (below key rows cursor) where
  falling := falling.below cursor
  under := fun _ present => (mem_below.mp present).2
  complete := fun _ present => present
  sound := fun _ present => (mem_below.mp present).1

theorem Walked.later {before middle after : List α} (walked : Walked key middle after cursor items) (gained : before ⊆ middle) :
    Walked key before after cursor items where
  falling := walked.falling
  under := walked.under
  complete := fun _ present => walked.complete _ (mem_below.mpr ((mem_below.mp present).imp_left fun stored => gained stored))
  sound := walked.sound

/-- A page with a cursor goes before what is walked from that cursor on. -/
theorem Walked.page {after rest : List α} {next : Nat} (walked : Walked key rows after (some next) rest)
    (falling : Falling key rows) (cut : Cut key (below key rows cursor) ⟨items, some next⟩) (gained : rows ⊆ after) :
    Walked key rows after cursor (items ++ rest) := by
  obtain ⟨shown, above, left, last, stored, isLast⟩ := cut.split (falling.below cursor)
  have passed : ∀ row ∈ rest, key row < next := fun row later => of_decide_eq_true (walked.under row later)
  have bounded := (mem_below.mp stored).2
  constructor
  · refine List.pairwise_append.mpr ⟨(falling.below cursor).sublist shown, walked.falling, ?_⟩
    intro first earlier second later
    exact Nat.lt_of_lt_of_le (passed second later) (above first earlier)
  · intro row present
    rcases List.mem_append.mp present with earlier | later
    · exact (mem_below.mp (shown.subset earlier)).2
    · have less := passed row later
      cases cursor with
      | none => rfl
      | some bound =>
        have under := of_decide_eq_true bounded
        exact decide_eq_true (by omega)
  · intro row present
    rcases left row present with now | later
    · exact List.mem_append_left _ now
    · exact List.mem_append_right _ (walked.complete row (mem_below.mpr ⟨(mem_below.mp present).1, decide_eq_true later⟩))
  · intro row present
    rcases List.mem_append.mp present with earlier | later
    · exact gained (mem_below.mp (shown.subset earlier)).1
    · exact walked.sound row later

/-- A source that only gains rows loses none of them for a walk, and a walk has none of them twice. -/
theorem Walk.walked (falling : ∀ state, Falling key (source state))
    (cut : ∀ state cursor page, answers state cursor page → Cut key (Keyset.below key (source state) cursor) page)
    (gains : ∀ state after, step state after → source state ⊆ source after)
    (walk : Walk answers step start cursor items final) :
    Walked key (source start) (source final) cursor items ∧ source start ⊆ source final := by
  induction walk with
  | @last state cursor items answered =>
    rw [(cut _ _ _ answered).items_eq]
    exact ⟨.whole (falling state), List.Subset.refl _⟩
  | more answered _ ih =>
    obtain ⟨walked, grown⟩ := ih
    exact ⟨walked.page (falling _) (cut _ _ _ answered) grown, grown⟩
  | wait changes _ ih =>
    obtain ⟨walked, grown⟩ := ih
    have gained := gains _ _ changes
    exact ⟨walked.later gained, List.Subset.trans gained grown⟩

end Growing

end Keyset
