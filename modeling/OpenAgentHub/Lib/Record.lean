import Mathlib.Data.List.Nodup

/-- Objects with strings for keys, in the order in which the keys were first set. -/
structure Record (α : Type) where
  entries : List (String × α) := []
  distinct : (entries.map Prod.fst).Nodup := by first | exact List.nodup_nil | decide

namespace Record

variable {α : Type}

def get (record : Record α) (key : String) : Option α := record.entries.lookup key

def keys (record : Record α) : List String := record.entries.map Prod.fst

def put (entries : List (String × α)) (key : String) (value : α) : List (String × α) :=
  match entries with
  | [] => [(key, value)]
  | (first, old) :: rest => if first = key then (key, value) :: rest else (first, old) :: put rest key value

theorem lookup_put {key other : String} {value : α} : ∀ {entries : List (String × α)},
    (put entries key value).lookup other = if other = key then some value else entries.lookup other
  | [] => by
    by_cases same : other = key
    · simp [put, same]
    · simp [put, List.lookup_cons, same, beq_false_of_ne same]
  | (first, old) :: rest => by
    by_cases replaced : first = key
    · subst replaced
      by_cases same : other = first
      · simp [put, same]
      · simp [put, List.lookup_cons, same, beq_false_of_ne same]
    · rw [put, if_neg replaced, List.lookup_cons, List.lookup_cons, lookup_put]
      by_cases found : other = first
      · subst found
        simp [replaced]
      · simp [beq_false_of_ne found]

theorem keys_put {key : String} {value : α} : ∀ {entries : List (String × α)},
    (put entries key value).map Prod.fst =
      if key ∈ entries.map Prod.fst then entries.map Prod.fst else entries.map Prod.fst ++ [key]
  | [] => rfl
  | (first, old) :: rest => by
    by_cases replaced : first = key
    · simp [put, replaced]
    · rw [put, if_neg replaced, List.map_cons, keys_put]
      by_cases present : key ∈ rest.map Prod.fst
      · simp [present]
      · simp [present, Ne.symm replaced]

def set (record : Record α) (key : String) (value : α) : Record α where
  entries := put record.entries key value
  distinct := by
    rw [keys_put]
    split
    · exact record.distinct
    · rename_i absent
      refine List.Nodup.append record.distinct (List.nodup_singleton key) ?_
      intro other present isKey
      exact absent (List.mem_singleton.mp isKey ▸ present)

@[simp] theorem get_set {record : Record α} {key other : String} {value : α} :
    (record.set key value).get other = if other = key then some value else record.get other := lookup_put

theorem get_of_mem {record : Record α} {key : String} {value : α} (present : (key, value) ∈ record.entries) :
    record.get key = some value := by
  obtain ⟨earlier, later, entries⟩ := List.append_of_mem present
  have distinct := record.distinct
  rw [entries, List.map_append, List.map_cons] at distinct
  have fresh : key ∉ earlier.map Prod.fst := by
    intro before
    exact List.disjoint_of_nodup_append distinct before List.mem_cons_self
  apply List.lookup_eq_some_iff.mpr
  refine ⟨earlier, later, entries, ?_⟩
  intro entry member
  apply bne_iff_ne.mpr
  rintro rfl
  exact fresh (List.mem_map_of_mem member)

def discard (record : Record α) (dropped : String → Bool) : Record α where
  entries := record.entries.filter fun entry => !dropped entry.1
  distinct := record.distinct.sublist (List.filter_sublist.map Prod.fst)

theorem lookup_filter {key : String} {dropped : String → Bool} : ∀ {entries : List (String × α)},
    (entries.filter fun entry => !dropped entry.1).lookup key = if dropped key then none else entries.lookup key
  | [] => by simp
  | (first, value) :: rest => by
    by_cases gone : dropped first = true
    · rw [List.filter_cons_of_neg (by simp [gone]), lookup_filter, List.lookup_cons]
      by_cases same : key = first
      · simp [same, gone]
      · simp [beq_false_of_ne same]
    · rw [List.filter_cons_of_pos (by simp [gone]), List.lookup_cons, List.lookup_cons, lookup_filter]
      by_cases same : key = first
      · simp [same, gone]
      · simp [beq_false_of_ne same]

theorem get_discard {record : Record α} {dropped : String → Bool} {key : String} :
    (record.discard dropped).get key = if dropped key then none else record.get key := lookup_filter

theorem put_absent {key : String} {value : α} : ∀ {entries : List (String × α)}, entries.lookup key = none →
    put entries key value = entries ++ [(key, value)]
  | [], _ => rfl
  | (first, old) :: rest, absent => by
    have apart : key ≠ first := by
      rintro rfl
      rw [List.lookup_cons_self] at absent
      cases absent
    rw [List.lookup_cons, beq_false_of_ne apart] at absent
    rw [put, if_neg (Ne.symm apart), put_absent absent, List.cons_append]

/-- What is set under a new key and dropped again was never there. -/
theorem discard_set {record : Record α} {key : String} {value : α} (absent : record.get key = none) :
    (record.set key value).discard (· == key) = record := by
  have others : ∀ entry ∈ record.entries, (!(entry.1 == key)) = true := by
    intro entry present
    rw [Bool.not_eq_true', beq_eq_false_iff_ne]
    exact fun same => bne_iff_ne.mp (List.lookup_eq_none_iff.mp absent entry present) same.symm
  have entries : ((put record.entries key value).filter fun entry => !(entry.1 == key)) = record.entries := by
    rw [put_absent absent, List.filter_append, List.filter_eq_self.mpr others]
    simp
  cases record
  simp only [discard, set, entries]

theorem discard_none {record : Record α} {dropped : String → Bool}
    (spared : ∀ entry ∈ record.entries, dropped entry.1 = false) : record.discard dropped = record := by
  have same : (record.entries.filter fun entry => !dropped entry.1) = record.entries := by
    apply List.filter_eq_self.mpr
    intro entry present
    rw [spared entry present]
    rfl
  cases record
  simp only [discard, same]

/-- An entry that is dropped is missing from a count exactly if it counts. -/
theorem countP_discard {record : Record α} {key : String} {value : α} (present : (key, value) ∈ record.entries)
    (counts : String × α → Bool) :
    record.entries.countP counts =
      (record.discard (· == key)).entries.countP counts + if counts (key, value) then 1 else 0 := by
  obtain ⟨earlier, later, entries⟩ := List.append_of_mem present
  have distinct := record.distinct
  rw [entries, List.map_append, List.map_cons, List.nodup_middle, List.nodup_cons, ← List.map_append] at distinct
  have others : ∀ entry ∈ earlier ++ later, (!(entry.1 == key)) = true := by
    intro entry member
    rw [Bool.not_eq_true', beq_eq_false_iff_ne]
    intro same
    exact distinct.1 (List.mem_map.mpr ⟨entry, member, same⟩)
  have left : (record.discard (· == key)).entries = earlier ++ later := by
    change record.entries.filter (fun entry => !(entry.1 == key)) = _
    rw [entries, List.filter_append, List.filter_cons_of_neg (by simp), ← List.filter_append]
    exact List.filter_eq_self.mpr others
  rw [left, entries, List.countP_append, List.countP_cons, List.countP_append, Nat.add_assoc]

theorem mem_of_get {record : Record α} {key : String} {value : α} (found : record.get key = some value) :
    (key, value) ∈ record.entries := by
  obtain ⟨earlier, later, entries, _⟩ := List.lookup_eq_some_iff.mp found
  rw [entries]
  exact List.mem_append_right earlier List.mem_cons_self

/-- `Object.fromEntries`, and assignments one after the other. -/
def setAll (record : Record α) (entries : List (String × α)) : Record α :=
  entries.foldl (fun record entry => record.set entry.1 entry.2) record

/-- `{ ...record, ...other }`. -/
def spread (record other : Record α) : Record α := record.setAll other.entries

theorem get_setAll {entries : List (String × α)} {key : String} (distinct : (entries.map Prod.fst).Nodup) :
    ∀ {record : Record α}, (record.setAll entries).get key = (entries.lookup key).or (record.get key) := by
  induction entries with
  | nil => simp [setAll]
  | cons entry rest ih =>
    intro record
    obtain ⟨first, value⟩ := entry
    rw [List.map_cons, List.nodup_cons] at distinct
    have later : (rest.lookup first) = none := by
      rw [List.lookup_eq_none_iff]
      intro entry present
      refine bne_iff_ne.mpr fun same => distinct.1 ?_
      exact List.mem_map.mpr ⟨entry, present, same.symm⟩
    rw [setAll, List.foldl_cons]
    refine (ih distinct.2).trans ?_
    rw [get_set, List.lookup_cons]
    by_cases same : key = first
    · subst same
      simp [later]
    · simp [same, beq_false_of_ne same]

theorem mem_of_get_setAll {entries : List (String × α)} {key : String} {value : α} :
    ∀ {record : Record α}, (record.setAll entries).get key = some value →
      (key, value) ∈ entries ∨ record.get key = some value := by
  induction entries with
  | nil => exact fun found => .inr found
  | cons entry rest ih =>
    intro record found
    rw [setAll, List.foldl_cons] at found
    rcases ih found with later | before
    · exact .inl (List.mem_cons_of_mem entry later)
    · rw [get_set] at before
      split at before
      · rename_i same
        cases before
        rw [same]
        exact .inl List.mem_cons_self
      · exact .inr before

@[simp] theorem get_spread {record other : Record α} {key : String} :
    (record.spread other).get key = (other.get key).or (record.get key) := get_setAll other.distinct

end Record
