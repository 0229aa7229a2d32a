import Mathlib.Data.List.Basic
import Mathlib.Data.List.Pairwise
import Mathlib.Algebra.GroupWithZero.Nat
import Mathlib.Algebra.Group.Int.Defs

namespace Relational

/-- A row type with its primary key and the pairs of rows that its unique
    constraints forbid together. -/
class Row (α : Type) where
  id : α → Nat
  clash : α → α → Bool
  clash_symm : ∀ first second, clash first second = clash second first

class Unconstrained (α : Type) [Row α] : Prop where
  clash_false : ∀ first second : α, Row.clash first second = false

def Apart {α : Type} [Row α] (first second : α) : Prop :=
  Row.id first ≠ Row.id second ∧ Row.clash first second = false

instance {α : Type} [Row α] : Std.Symm (Apart (α := α)) where
  symm _ _ apart := ⟨apart.1.symm, by rw [Row.clash_symm]; exact apart.2⟩

instance {α : Type} [Row α] : DecidableRel (Apart (α := α)) := fun _ _ => instDecidableAnd

/-- A table as the database keeps it: generated primary keys stay below the
    sequence, and no two rows share a key or violate a unique constraint. -/
structure Table (α : Type) [Row α] where
  rows : List α
  next : Nat
  ids_below : ∀ row ∈ rows, Row.id row < next
  distinct : rows.Pairwise Apart

namespace Table

variable {α : Type} [Row α]

def empty : Table α := ⟨[], 1, by simp, .nil⟩

instance : Inhabited (Table α) := ⟨empty⟩

def single (row : α) : Table α := ⟨[row], Row.id row + 1, by simp, List.pairwise_singleton _ _⟩

def select (table : Table α) (condition : α → Bool) : List α := table.rows.filter condition

/-- `scalar_one_or_none`. -/
def one (table : Table α) (condition : α → Bool) : Option α := table.rows.find? condition

def byId (table : Table α) (id : Nat) : Option α := table.one fun row => Row.id row == id

def extend (table : Table α) (make : Nat → α) (made : ∀ id, Row.id (make id) = id)
    (free : ∀ row ∈ table.rows, Row.clash row (make table.next) = false) : Table α where
  rows := table.rows ++ [make table.next]
  next := table.next + 1
  ids_below := by
    intro row member
    rcases List.mem_append.mp member with old | new
    · exact Nat.lt_succ_of_lt (table.ids_below row old)
    · rw [List.mem_singleton.mp new, made]
      exact Nat.lt_succ_self _
  distinct := by
    refine List.pairwise_append.mpr ⟨table.distinct, List.pairwise_singleton _ _, ?_⟩
    intro row old added new
    rw [List.mem_singleton.mp new]
    refine ⟨?_, free row old⟩
    rw [made]
    exact Nat.ne_of_lt (table.ids_below row old)

/-- `INSERT` followed by a flush: the new row, or nothing when a unique constraint fails. -/
def insert (table : Table α) (make : Nat → α)
    (made : ∀ id, Row.id (make id) = id := by intro; rfl) : Option (α × Table α) :=
  if free : ∀ row ∈ table.rows, Row.clash row (make table.next) = false then
    some (make table.next, table.extend make made free)
  else none

def push [unconstrained : Unconstrained α] (table : Table α) (make : Nat → α)
    (made : ∀ id, Row.id (make id) = id := by intro; rfl) : Table α :=
  table.extend make made fun row _ => unconstrained.clash_false row _

def draw (table : Table α) : Table α where
  rows := table.rows
  next := table.next + 1
  ids_below row stored := Nat.lt_succ_of_lt (table.ids_below row stored)
  distinct := table.distinct

def adopt (table : Table α) (row : α) : Option (Table α) :=
  if fits : Row.id row < table.next ∧ ∀ other ∈ table.rows, Apart other row then
    some {
      rows := table.rows ++ [row]
      next := table.next
      ids_below := by
        intro other member
        rcases List.mem_append.mp member with old | new
        · exact table.ids_below other old
        · rw [List.mem_singleton.mp new]
          exact fits.1
      distinct := by
        refine List.pairwise_append.mpr ⟨table.distinct, List.pairwise_singleton _ _, ?_⟩
        intro other old added new
        rw [List.mem_singleton.mp new]
        exact fits.2 other old }
  else none

def delete (table : Table α) (condition : α → Bool) : Table α where
  rows := table.rows.filter fun row => !condition row
  next := table.next
  ids_below := fun row member => table.ids_below row (List.mem_of_mem_filter member)
  distinct := table.distinct.filter _

def Preserves (update : α → α) : Prop :=
  ∀ row, Row.id (update row) = Row.id row ∧ ∀ other, Row.clash (update row) other = Row.clash row other

theorem Preserves.apart {update : α → α} (preserves : Preserves update) {first second : α}
    (apart : Apart first second) : Apart (update first) (update second) := by
  refine ⟨?_, ?_⟩
  · rw [(preserves first).1, (preserves second).1]
    exact apart.1
  · rw [(preserves first).2, Row.clash_symm, (preserves second).2, Row.clash_symm]
    exact apart.2

theorem Preserves.guarded {update : α → α} (preserves : Preserves update) (condition : α → Bool) :
    Preserves fun row => if condition row then update row else row := by
  intro row
  dsimp only
  split
  · exact preserves row
  · exact ⟨rfl, fun _ => rfl⟩

def modify (table : Table α) (condition : α → Bool) (update : α → α)
    (preserves : Preserves update := by exact fun _ => ⟨rfl, fun _ => rfl⟩) : Table α where
  rows := table.rows.map fun row => if condition row then update row else row
  next := table.next
  ids_below := by
    intro row member
    obtain ⟨old, stored, rfl⟩ := List.mem_map.mp member
    rw [(preserves.guarded condition old).1]
    exact table.ids_below old stored
  distinct := List.pairwise_map.mpr (table.distinct.imp (preserves.guarded condition).apart)

def replace (table : Table α) (row : α) : Option (Table α) :=
  if free : Row.id row < table.next ∧ ∀ other ∈ table.rows, Row.id other ≠ Row.id row → Row.clash other row = false then
    some {
      rows := table.rows.map fun other => if Row.id other == Row.id row then row else other
      next := table.next
      ids_below := by
        intro new member
        obtain ⟨old, stored, rfl⟩ := List.mem_map.mp member
        split
        · exact free.1
        · exact table.ids_below old stored
      distinct := by
        refine List.pairwise_map.mpr (table.distinct.imp_of_mem ?_)
        intro first second left right apart
        by_cases one : Row.id first = Row.id row <;> by_cases two : Row.id second = Row.id row
        · exact absurd (one.trans two.symm) apart.1
        · simp only [one, two, beq_self_eq_true, if_true, beq_iff_eq, if_false]
          exact ⟨fun same => two same.symm, by rw [Row.clash_symm]; exact free.2 second right two⟩
        · simp only [one, two, beq_self_eq_true, if_true, beq_iff_eq, if_false]
          exact ⟨one, free.2 first left one⟩
        · simp only [one, two, beq_iff_eq, if_false]
          exact apart }
  else none

section Lookup

variable {table : Table α} {row other : α} {condition : α → Bool}

theorem one_mem (found : table.one condition = some row) : row ∈ table.rows :=
  List.mem_of_find?_eq_some found

theorem one_holds (found : table.one condition = some row) : condition row = true :=
  List.find?_some found

theorem one_none : table.one condition = none ↔ ∀ row ∈ table.rows, condition row = false := by
  simp [one]

@[simp] theorem mem_select : row ∈ table.select condition ↔ row ∈ table.rows ∧ condition row = true :=
  List.mem_filter

theorem eq_of_id (left : row ∈ table.rows) (right : other ∈ table.rows)
    (same : Row.id row = Row.id other) : row = other := by
  by_contra different
  exact (table.distinct.forall left right different).1 same

theorem eq_of_clash (left : row ∈ table.rows) (right : other ∈ table.rows)
    (clash : Row.clash row other = true) : row = other := by
  by_contra different
  have apart := (table.distinct.forall left right different).2
  rw [clash] at apart
  cases apart

/-- With at most one candidate, `scalar_one_or_none` finds exactly the rows that qualify. -/
theorem one_eq_some (unique : ∀ first ∈ table.rows, ∀ second ∈ table.rows,
      condition first = true → condition second = true → first = second) :
    table.one condition = some row ↔ row ∈ table.rows ∧ condition row = true := by
  constructor
  · intro found
    exact ⟨one_mem found, one_holds found⟩
  · rintro ⟨stored, holds⟩
    cases found : table.one condition with
    | none =>
      rw [one_none.mp found row stored] at holds
      cases holds
    | some first =>
      rw [unique first (one_mem found) row stored (one_holds found) holds]

theorem byId_eq_some {id : Nat} : table.byId id = some row ↔ row ∈ table.rows ∧ Row.id row = id := by
  unfold byId
  rw [one_eq_some]
  · simp
  · intro first left second right one two
    exact eq_of_id left right ((beq_iff_eq.mp one).trans (beq_iff_eq.mp two).symm)

theorem select_id (stored : row ∈ table.rows) : table.select (fun found => Row.id found == Row.id row) = [row] := by
  have matched : row ∈ table.select fun found => Row.id found == Row.id row :=
    mem_select.mpr ⟨stored, beq_self_eq_true _⟩
  have alone : ∀ found ∈ table.select (fun found => Row.id found == Row.id row), found = row := by
    intro found member
    obtain ⟨present, same⟩ := mem_select.mp member
    exact eq_of_id present stored (beq_iff_eq.mp same)
  have distinct : (table.select fun found => Row.id found == Row.id row).Pairwise Apart := table.distinct.filter _
  cases chosen : table.select (fun found => Row.id found == Row.id row) with
  | nil =>
    rw [chosen] at matched
    cases matched
  | cons first rest =>
    rw [chosen] at alone distinct
    have head := alone first List.mem_cons_self
    cases rest with
    | nil => rw [head]
    | cons second others =>
      have next := alone second (List.mem_cons_of_mem _ List.mem_cons_self)
      have apart := (List.pairwise_cons.mp distinct).1 second List.mem_cons_self
      rw [head, next] at apart
      exact absurd rfl apart.1

end Lookup

section Writes

variable {table after : Table α} {row added : α} {condition : α → Bool}

theorem ext_rows {first second : Table α} (rows : first.rows = second.rows) (next : first.next = second.next) :
    first = second := by
  cases first
  cases second
  simp only at rows next
  subst rows next
  rfl

theorem insert_eq_some {make : Nat → α} {made : ∀ id, Row.id (make id) = id} :
    table.insert make made = some (added, after) ↔
      (∀ row ∈ table.rows, Row.clash row (make table.next) = false) ∧ added = make table.next ∧
        after.rows = table.rows ++ [make table.next] ∧ after.next = table.next + 1 := by
  unfold insert
  split
  · rename_i free
    simp only [Option.some.injEq, Prod.mk.injEq]
    constructor
    · rintro ⟨rfl, rfl⟩
      exact ⟨free, rfl, rfl, rfl⟩
    · rintro ⟨-, rfl, rows, next⟩
      exact ⟨rfl, (ext_rows rows next).symm⟩
  · rename_i taken
    simp [taken]

theorem insert_of_free (make : Nat → α) (made : ∀ id, Row.id (make id) = id)
    (free : ∀ row ∈ table.rows, Row.clash row (make table.next) = false) :
    ∃ after, table.insert make made = some (make table.next, after) := by
  unfold insert
  rw [dif_pos free]
  exact ⟨_, rfl⟩

theorem adopt_eq_some (adopted : table.adopt row = some after) :
    (∀ other ∈ table.rows, Apart other row) ∧ after.rows = table.rows ++ [row] ∧ after.next = table.next := by
  unfold adopt at adopted
  split at adopted
  · rename_i fits
    cases adopted
    exact ⟨fits.2, rfl, rfl⟩
  · cases adopted

@[simp] theorem delete_rows : (table.delete condition).rows = table.rows.filter fun row => !condition row := rfl

theorem mem_delete : row ∈ (table.delete condition).rows ↔ row ∈ table.rows ∧ condition row = false := by
  simp

theorem select_delete {dropped : α → Bool}
    (spared : ∀ row ∈ table.rows, condition row = true → dropped row = false) :
    (table.delete dropped).select condition = table.select condition := by
  unfold select delete
  rw [List.filter_filter]
  apply List.filter_congr
  intro row stored
  cases holds : condition row with
  | false => rfl
  | true => rw [spared row stored holds]; rfl

theorem one_delete {dropped : α → Bool}
    (spared : ∀ row ∈ table.rows, condition row = true → dropped row = false) :
    (table.delete dropped).one condition = table.one condition := by
  have same := congrArg List.head? (select_delete spared)
  unfold select at same
  rwa [List.head?_filter, List.head?_filter] at same

theorem mem_modify {update : α → α} (preserves : Preserves update) :
    row ∈ (table.modify condition update preserves).rows ↔
      ∃ old ∈ table.rows, (if condition old then update old else old) = row :=
  List.mem_map

theorem one_modify {update : α → α} (preserves : Preserves update) {sought : α → Bool}
    (same : ∀ row, sought (update row) = sought row) :
    (table.modify condition update preserves).one sought =
      (table.one sought).map fun row => if condition row then update row else row := by
  unfold one modify
  rw [List.find?_map]
  congr 2
  funext row
  show sought (if condition row then update row else row) = sought row
  split
  · exact same row
  · rfl

theorem byId_modify {update : α → α} (preserves : Preserves update) (id : Nat) :
    (table.modify condition update preserves).byId id =
      (table.byId id).map fun row => if condition row then update row else row :=
  one_modify preserves fun row => by rw [(preserves row).1]

theorem modify_fixed {update : α → α} (preserves : Preserves update)
    (same : (table.modify condition update preserves).rows = table.rows) (stored : row ∈ table.rows)
    (matched : condition row = true) : update row = row := by
  have member : update row ∈ table.rows := by
    rw [← same, mem_modify preserves]
    exact ⟨row, stored, if_pos matched⟩
  exact eq_of_id member stored (preserves row).1

theorem modify_rows {update : α → α} (preserves : Preserves update)
    (fixed : ∀ row ∈ table.rows, condition row = true → update row = row) :
    (table.modify condition update preserves).rows = table.rows := by
  refine (List.map_congr_left ?_).trans (List.map_id _)
  intro row stored
  show (if condition row then update row else row) = row
  split
  · rename_i matched
    exact fixed row stored matched
  · rfl

theorem one_append {new : α} (rows : after.rows = table.rows ++ [new]) :
    after.one condition = (table.one condition).or (if condition new then some new else none) := by
  unfold one
  rw [rows, List.find?_append]
  congr 1
  cases holds : condition new <;> simp [holds]

theorem select_append {new : α} (rows : after.rows = table.rows ++ [new]) (elsewhere : condition new = false) :
    after.select condition = table.select condition := by
  unfold select
  rw [rows, List.filter_append]
  simp [elsewhere]

theorem select_append_ne {new : α} (rows : after.rows = table.rows ++ [new]) (here : condition new = true) :
    after.select condition ≠ table.select condition := by
  unfold select
  rw [rows, List.filter_append]
  simp [here]

theorem select_delete_ne {dropped : α → Bool} (stored : row ∈ table.rows) (here : condition row = true)
    (gone : dropped row = true) : (table.delete dropped).select condition ≠ table.select condition := by
  intro same
  have listed : row ∈ table.select condition := mem_select.mpr ⟨stored, here⟩
  rw [← same, mem_select, mem_delete, gone] at listed
  cases listed.1.2

theorem select_modify {update : α → α} (preserves : Preserves update) {matched : α → Bool}
    (elsewhere : ∀ row ∈ table.rows, matched row = true → condition row = false ∧ condition (update row) = false) :
    (table.modify matched update preserves).select condition = table.select condition := by
  show List.filter condition (List.map _ table.rows) = List.filter condition table.rows
  rw [List.filter_map]
  have same : table.rows.filter (condition ∘ fun row => if matched row then update row else row) = table.rows.filter condition := by
    apply List.filter_congr
    intro row stored
    show condition (if matched row then update row else row) = condition row
    split
    · rename_i isMatched
      obtain ⟨before, now⟩ := elsewhere row stored isMatched
      rw [before, now]
    · rfl
  rw [same]
  refine (List.map_congr_left ?_).trans (List.map_id _)
  intro row listed
  obtain ⟨stored, here⟩ := List.mem_filter.mp listed
  show (if matched row then update row else row) = row
  split
  · rename_i isMatched
    rw [(elsewhere row stored isMatched).1] at here
    cases here
  · rfl

theorem select_modify_ne {update : α → α} (preserves : Preserves update) {matched : α → Bool} (stored : row ∈ table.rows)
    (here : condition row = true) (isMatched : matched row = true) (changes : update row ≠ row) :
    (table.modify matched update preserves).select condition ≠ table.select condition := by
  intro same
  have listed : row ∈ table.select condition := mem_select.mpr ⟨stored, here⟩
  rw [← same, mem_select, mem_modify preserves] at listed
  obtain ⟨⟨old, present, isRow⟩, _⟩ := listed
  have ids : Row.id old = Row.id row := by
    rw [← isRow]
    exact (preserves.guarded matched old).1.symm
  rw [eq_of_id present stored ids, if_pos isMatched] at isRow
  exact changes isRow

theorem replace_rows (replaced : table.replace row = some after) :
    after.rows = table.rows.map fun other => if Row.id other == Row.id row then row else other := by
  unfold replace at replaced
  split at replaced
  · cases replaced
    rfl
  · cases replaced

theorem byId_replace {id : Nat} (replaced : table.replace row = some after) (elsewhere : Row.id row ≠ id) :
    after.byId id = table.byId id := by
  ext found
  rw [byId_eq_some, byId_eq_some, replace_rows replaced, List.mem_map]
  constructor
  · rintro ⟨⟨old, stored, rfl⟩, named⟩
    split at named
    · exact absurd named elsewhere
    · rename_i other
      rw [if_neg other]
      exact ⟨stored, named⟩
  · rintro ⟨stored, rfl⟩
    refine ⟨⟨found, stored, if_neg ?_⟩, rfl⟩
    intro same
    exact elsewhere (beq_iff_eq.mp same).symm

theorem byId_replace_self (replaced : table.replace row = some after) (stored : (table.byId (Row.id row)).isSome = true) :
    after.byId (Row.id row) = some row := by
  obtain ⟨old, found⟩ := Option.isSome_iff_exists.mp stored
  obtain ⟨present, same⟩ := byId_eq_some.mp found
  rw [byId_eq_some, replace_rows replaced, List.mem_map]
  exact ⟨⟨old, present, if_pos (beq_iff_eq.mpr same)⟩, rfl⟩

theorem mem_replace {other : α} (replaced : table.replace row = some after) (present : other ∈ after.rows) :
    other = row ∨ other ∈ table.rows ∧ Row.id other ≠ Row.id row := by
  rw [replace_rows replaced, List.mem_map] at present
  obtain ⟨old, stored, isOther⟩ := present
  split at isOther
  · exact .inl isOther.symm
  · rename_i different
    subst isOther
    exact .inr ⟨stored, fun same => different (beq_iff_eq.mpr same)⟩

theorem replace_update {update : α → α} (preserves : Preserves update) (stored : row ∈ table.rows) :
    table.replace (update row) = some (table.modify (fun other => Row.id other == Row.id row) update preserves) := by
  have free : Row.id (update row) < table.next ∧
      ∀ other ∈ table.rows, Row.id other ≠ Row.id (update row) → Row.clash other (update row) = false := by
    rw [(preserves row).1]
    refine ⟨table.ids_below row stored, ?_⟩
    intro other present different
    rw [Row.clash_symm, (preserves row).2]
    exact (table.distinct.forall stored present fun same => different (congrArg Row.id same.symm)).2
  unfold replace
  rw [dif_pos free]
  refine congrArg some (ext_rows ?_ rfl)
  refine List.map_congr_left ?_
  intro other present
  simp only [(preserves row).1, beq_iff_eq]
  split
  · rename_i same
    rw [eq_of_id present stored same]
  · rfl

theorem modify_append {new : α} {update : α → α} (preserves : Preserves update) (rows : after.rows = table.rows ++ [new]) :
    (after.modify (fun row => Row.id row == Row.id new) update preserves).rows = table.rows ++ [update new] := by
  have apart := after.distinct
  rw [rows] at apart
  have others := (List.pairwise_append.mp apart).2.2
  change after.rows.map _ = _
  rw [rows, List.map_append, List.map_cons, List.map_nil, if_pos (beq_self_eq_true _)]
  congr 1
  refine (List.map_congr_left ?_).trans (List.map_id _)
  intro row stored
  exact if_neg fun same => (others row stored new (List.mem_singleton_self _)).1 (beq_iff_eq.mp same)

theorem modify_of_none {update : α → α} (preserves : Preserves update)
    (unmatched : ∀ row ∈ table.rows, condition row = false) : table.modify condition update preserves = table := by
  apply ext_rows
  · apply modify_rows
    intro row stored matched
    exact absurd matched (Bool.eq_false_iff.mp (unmatched row stored))
  · rfl

end Writes

section Upkeep

variable {γ : Type} {content : α → γ} {before middle after : Table α}

def Upkeep (content : α → γ) (before after : Table α) : Prop :=
  before.next ≤ after.next ∧
    ∃ update, (∀ row, content (update row) = content row) ∧ after.rows = before.rows.map update

theorem Upkeep.refl (table : Table α) : Upkeep content table table :=
  ⟨Nat.le_refl _, id, fun _ => rfl, (List.map_id _).symm⟩

theorem Upkeep.of_eq (same : after = before) : Upkeep content before after := by
  rw [same]
  exact .refl before

theorem Upkeep.trans (first : Upkeep content before middle) (second : Upkeep content middle after) :
    Upkeep content before after := by
  obtain ⟨next, update, keeps, rows⟩ := first
  obtain ⟨next', update', keeps', rows'⟩ := second
  refine ⟨Nat.le_trans next next', update' ∘ update, ?_, ?_⟩
  · intro row
    exact (keeps' (update row)).trans (keeps row)
  · rw [rows', rows, List.map_map]

theorem Upkeep.modify {condition : α → Bool} {update : α → α} (preserves : Preserves update)
    (keeps : ∀ row, content (update row) = content row) :
    Upkeep content before (before.modify condition update preserves) := by
  refine ⟨Nat.le_refl _, fun row => if condition row then update row else row, ?_, rfl⟩
  intro row
  dsimp only
  split
  · exact keeps row
  · rfl

theorem Upkeep.draw (table : Table α) : Upkeep content table table.draw :=
  ⟨Nat.le_succ _, id, fun _ => rfl, (List.map_id _).symm⟩

theorem Upkeep.forward {row : α} (kept : Upkeep content before after) (stored : row ∈ before.rows) :
    ∃ row' ∈ after.rows, content row' = content row := by
  obtain ⟨_, update, keeps, rows⟩ := kept
  rw [rows]
  exact ⟨update row, List.mem_map_of_mem stored, keeps row⟩

theorem Upkeep.backward {row : α} (kept : Upkeep content before after) (stored : row ∈ after.rows) :
    ∃ row' ∈ before.rows, content row' = content row := by
  obtain ⟨_, update, keeps, rows⟩ := kept
  rw [rows] at stored
  obtain ⟨old, present, rfl⟩ := List.mem_map.mp stored
  exact ⟨old, present, (keeps old).symm⟩

end Upkeep

end Table

end Relational
