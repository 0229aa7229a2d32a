import Mathlib.Data.List.Basic

/-! Pages over a sorted list, filtered inside a window of bounded size. -/

namespace Paging

variable {α : Type} (keep : α → Bool)

def collect : Nat → List α → List α × Nat
  | _, [] => ([], 0)
  | 0, _ :: _ => ([], 0)
  | limit + 1, row :: rest =>
    if keep row then
      let (items, read) := collect limit rest
      (row :: items, read + 1)
    else
      let (items, read) := collect (limit + 1) rest
      (items, if items = [] then 0 else read + 1)

def page (limit window : Nat) (rest : List α) : List α × Option (List α) :=
  let rows := rest.take window
  let (items, read) := collect keep limit rows
  (items, if items = [] then none
    else if window ≤ rows.length ∨ (limit ≤ items.length ∧ read < rows.length) then some (rest.drop read)
    else none)

def follow (limit window : Nat) : Nat → List α → Option (List α)
  | 0, _ => none
  | fuel + 1, rest =>
    match page keep limit window rest with
    | (items, none) => some items
    | (items, some next) => (follow limit window fuel next).map (items ++ ·)

/-- Every kept row has fewer than `window` dropped rows directly before it. -/
def Dense (window : Nat) (rows : List α) : Prop :=
  ∀ front gap row back, rows = front ++ gap ++ row :: back → (∀ other ∈ gap, keep other = false) →
    keep row = true → gap.length < window

variable {keep}

theorem collect_zero (rows : List α) : collect keep 0 rows = ([], 0) := by
  cases rows <;> rfl

theorem collect_kept {limit : Nat} {row : α} {rest : List α} (kept : keep row = true) :
    collect keep (limit + 1) (row :: rest) =
      (row :: (collect keep limit rest).1, (collect keep limit rest).2 + 1) := by
  simp [collect, kept]

theorem collect_dropped {limit : Nat} {row : α} {rest : List α} (dropped : keep row = false) :
    collect keep (limit + 1) (row :: rest) = ((collect keep (limit + 1) rest).1,
      if (collect keep (limit + 1) rest).1 = [] then 0 else (collect keep (limit + 1) rest).2 + 1) := by
  simp [collect, dropped]

structure LastItem (keep : α → Bool) (limit : Nat) (rows front : List α) (row : α) (back : List α) : Prop where
  split : rows = front ++ row :: back
  kept : keep row = true
  collected : collect keep limit rows = (front.filter keep ++ [row], front.length + 1)
  rest : (front.filter keep ++ [row]).length < limit → back.filter keep = []

theorem collect_cases (limit : Nat) (rows : List α) :
    (collect keep (limit + 1) rows = ([], 0) ∧ rows.filter keep = []) ∨
      ∃ front row back, LastItem keep (limit + 1) rows front row back := by
  induction rows generalizing limit with
  | nil => exact .inl ⟨rfl, rfl⟩
  | cons row rest ih =>
    cases known : keep row with
    | true =>
      right
      cases limit with
      | zero =>
        have alone : collect keep 1 (row :: rest) = ([row], 1) := by rw [collect_kept known, collect_zero]
        exact ⟨[], row, rest, rfl, known, alone, fun few => absurd few (by simp)⟩
      | succ limit =>
        rcases ih limit with ⟨nothing, dropped⟩ | ⟨front, last, back, split, kept, collected, more⟩
        · have alone : collect keep (limit + 2) (row :: rest) = ([row], 1) := by rw [collect_kept known, nothing]
          exact ⟨[], row, rest, rfl, known, alone, fun _ => dropped⟩
        · refine ⟨row :: front, last, back, by rw [split]; rfl, kept, ?_, fun few => more ?_⟩
          · rw [collect_kept known, collected]
            simp [known]
          · simp [known] at few ⊢
            omega
    | false =>
      rcases ih limit with ⟨nothing, dropped⟩ | ⟨front, last, back, split, kept, collected, more⟩
      · exact .inl ⟨by rw [collect_dropped known, nothing]; rfl, by simp [known, dropped]⟩
      · refine .inr ⟨row :: front, last, back, by rw [split]; rfl, kept, ?_, fun few => more ?_⟩
        · rw [collect_dropped known, collected]
          simp [known]
        · simpa [known] using few

section Pages

variable {limit window : Nat}

theorem page_of_last {rest front unread : List α} {row : α}
    (last : LastItem keep limit (rest.take window) front row unread) :
    page keep limit window rest = (front.filter keep ++ [row],
      if window ≤ (rest.take window).length ∨
          (limit ≤ (front.filter keep ++ [row]).length ∧ front.length + 1 < (rest.take window).length) then
        some (rest.drop (front.length + 1)) else none) := by
  unfold page
  dsimp only
  rw [last.collected]
  simp only [List.append_eq_nil_iff, List.cons_ne_nil, and_false, if_false]

theorem page_cases (keep : α → Bool) (window : Nat) (positive : 0 < limit) (rest : List α) :
    (page keep limit window rest = ([], none) ∧ (rest.take window).filter keep = []) ∨
      ∃ front row back, rest = front ++ row :: back ∧ keep row = true ∧ front.length < window ∧
        (page keep limit window rest = (front.filter keep ++ [row], some back) ∨
          (page keep limit window rest = (front.filter keep ++ [row], none) ∧ rest.length < window ∧
            back.filter keep = [])) := by
  obtain ⟨limit, rfl⟩ := Nat.exists_eq_succ_of_ne_zero (Nat.ne_of_gt positive)
  rcases collect_cases limit (rest.take window) with ⟨nothing, dropped⟩ | ⟨front, row, unread, last⟩
  · exact .inl ⟨by simp [page, nothing], dropped⟩
  · right
    have whole : rest = front ++ row :: (unread ++ rest.drop window) := by
      have parts := List.take_append_drop window rest
      rw [last.split] at parts
      simpa using parts.symm
    have lengths := congrArg List.length last.split
    simp only [List.length_take, List.length_append, List.length_cons] at lengths
    have next : rest.drop (front.length + 1) = unread ++ rest.drop window := by
      conv_lhs => rw [whole]
      simp
    refine ⟨front, row, unread ++ rest.drop window, whole, last.kept, by omega, ?_⟩
    rw [page_of_last last, next]
    split
    · exact .inl rfl
    · rename_i stops
      obtain ⟨short, ended⟩ := not_or.mp stops
      rw [List.length_take] at short ended
      have complete : rest.length < window := by omega
      refine .inr ⟨rfl, complete, ?_⟩
      have nothingBeyond : rest.drop window = [] := List.drop_eq_nil_of_le (by omega)
      rw [nothingBeyond, List.append_nil]
      by_cases few : (front.filter keep ++ [row]).length < limit + 1
      · exact last.rest few
      · have full : ¬ front.length + 1 < min window rest.length := fun less => ended ⟨by omega, less⟩
        have atEnd : unread = [] := by
          apply List.eq_nil_of_length_eq_zero
          omega
        rw [atEnd]
        rfl

end Pages

section Density

variable {window : Nat} {front back : List α} {row : α}

theorem first_kept {rows : List α} (some : rows.filter keep ≠ []) :
    ∃ gap row back, rows = gap ++ row :: back ∧ (∀ other ∈ gap, keep other = false) ∧ keep row = true := by
  induction rows with
  | nil => exact absurd rfl some
  | cons row rest ih =>
    cases known : keep row with
    | true => exact ⟨[], row, rest, rfl, by simp, known⟩
    | false =>
      have later : rest.filter keep ≠ [] := by simpa [known] using some
      obtain ⟨gap, kept, back, split, dropped, holds⟩ := ih later
      refine ⟨row :: gap, kept, back, by rw [split]; rfl, ?_, holds⟩
      intro other member
      rcases List.mem_cons.mp member with same | inside
      · rw [same]
        exact known
      · exact dropped other inside

theorem dense_after (kept : keep row = true) (near : front.length < window) :
    Dense keep window (front ++ row :: back) ↔ Dense keep window back := by
  constructor
  · intro dense front' gap row' back' split dropped kept'
    refine dense (front ++ row :: front') gap row' back' ?_ dropped kept'
    rw [split]
    simp
  · intro dense front' gap row' back' split dropped kept'
    have outside : row ∉ gap := by
      intro member
      rw [dropped row member] at kept
      cases kept
    rw [List.append_assoc] at split
    rcases List.append_eq_append_iff.mp split with ⟨more, _, rest⟩ | ⟨more, before, rest⟩
    · cases more with
      | nil =>
        cases gap with
        | nil => exact Nat.lt_of_le_of_lt (Nat.zero_le _) near
        | cons other gap =>
          have same : row = other := (List.cons.inj rest).1
          exact absurd (by simp [same]) outside
      | cons other more =>
        refine dense more gap row' back' ?_ dropped kept'
        rw [List.append_assoc]
        exact (List.cons.inj rest).2
    · have shorter : more.length ≤ front.length := by
        rw [before]
        simp
      rcases List.append_eq_append_iff.mp rest with ⟨others, gapIs, rest'⟩ | ⟨others, gapIs, rest'⟩
      · have below : gap.length ≤ more.length := by
          rw [gapIs]
          simp
        omega
      · cases others with
        | nil =>
          rw [gapIs, List.append_nil]
          omega
        | cons other others =>
          have same : row = other := (List.cons.inj rest').1
          exact absurd (by simp [gapIs, same]) outside

theorem dense_of_short {rows : List α} (short : rows.length < window) : Dense keep window rows := by
  intro front gap row back split _ _
  have lengths := congrArg List.length split
  simp only [List.length_append, List.length_cons] at lengths
  omega

theorem dense_of_empty_window {rows : List α} (dropped : (rows.take window).filter keep = []) :
    [] = rows.filter keep ↔ Dense keep window rows := by
  constructor
  · intro none front gap row back split _ kept
    have member : row ∈ rows.filter keep := List.mem_filter.mpr ⟨by simp [split], kept⟩
    rw [← none] at member
    cases member
  · intro dense
    by_contra some
    obtain ⟨gap, row, back, split, unkept, kept⟩ := first_kept (Ne.symm some)
    have near := dense [] gap row back (by simpa using split) unkept kept
    have member : row ∈ (rows.take window).filter keep := by
      refine List.mem_filter.mpr ⟨?_, kept⟩
      rw [split, List.take_append]
      have inside : row ∈ (row :: back).take (window - gap.length) := by
        rw [show window - gap.length = window - gap.length - 1 + 1 by omega, List.take_succ_cons]
        exact List.mem_cons_self
      exact List.mem_append_right _ inside
    rw [dropped] at member
    cases member

end Density

section Following

variable {limit window : Nat}

/-- The pages come to an end, and together hold every kept row exactly when the rows are dense. -/
theorem follow_spec (positive : 0 < limit) (rest : List α) :
    ∃ fuel items, follow keep limit window fuel rest = some items ∧
      (items = rest.filter keep ↔ Dense keep window rest) := by
  generalize size : rest.length = bound
  induction bound using Nat.strongRecOn generalizing rest with
  | _ bound ih =>
    rcases page_cases keep window positive rest with
      ⟨empty, dropped⟩ | ⟨front, row, back, split, kept, near, ⟨goesOn⟩ | ⟨ends, short, nothing⟩⟩
    · exact ⟨1, [], by simp [follow, empty], dense_of_empty_window dropped⟩
    · have smaller : back.length < bound := by
        rw [← size, split]
        simp
        omega
      obtain ⟨fuel, items, rest', exact⟩ := ih back.length smaller back rfl
      refine ⟨fuel + 1, front.filter keep ++ [row] ++ items, by simp [follow, goesOn, rest'], ?_⟩
      rw [split, dense_after kept near, ← exact]
      simp [List.filter_append, kept]
    · refine ⟨1, _, by simp [follow, ends]; rfl, iff_of_true ?_ (dense_of_short short)⟩
      rw [split]
      simp [kept, nothing]

/-- The pages hold kept rows only, each once and in order. -/
theorem follow_sublist (positive : 0 < limit) {fuel : Nat} {rest items : List α}
    (done : follow keep limit window fuel rest = some items) : items.Sublist (rest.filter keep) := by
  induction fuel generalizing rest items with
  | zero => cases done
  | succ fuel ih =>
    unfold follow at done
    rcases page_cases keep window positive rest with
      ⟨empty, dropped⟩ | ⟨front, row, back, split, kept, near, ⟨goesOn⟩ | ⟨ends, short, nothing⟩⟩
    · rw [empty] at done
      rw [← Option.some.inj done]
      exact List.nil_sublist _
    · rw [goesOn] at done
      obtain ⟨later, rest', rfl⟩ := Option.map_eq_some_iff.mp done
      have whole : rest.filter keep = front.filter keep ++ [row] ++ back.filter keep := by
        rw [split]
        simp [kept]
      rw [whole]
      exact List.Sublist.append (List.Sublist.refl _) (ih rest')
    · rw [ends] at done
      rw [← Option.some.inj done, split]
      simp [kept, nothing]

theorem follow_mono {fuel more : Nat} {rest items : List α} (done : follow keep limit window fuel rest = some items)
    (enough : fuel ≤ more) : follow keep limit window more rest = some items := by
  induction fuel generalizing more rest items with
  | zero => cases done
  | succ fuel ih =>
    obtain ⟨more, rfl⟩ := Nat.exists_eq_succ_of_ne_zero (show more ≠ 0 by omega)
    unfold follow at done ⊢
    split at done
    · exact done
    · rename_i found
      obtain ⟨tail, rest', rfl⟩ := Option.map_eq_some_iff.mp done
      rw [ih rest' (Nat.le_of_succ_le_succ enough)]
      rfl

theorem follow_unique {fuel more : Nat} {rest first second : List α}
    (one : follow keep limit window fuel rest = some first)
    (two : follow keep limit window more rest = some second) : first = second := by
  have left := follow_mono one (Nat.le_max_left fuel more)
  have right := follow_mono two (Nat.le_max_right fuel more)
  rw [left] at right
  exact Option.some.inj right

end Following

end Paging
