import Mathlib.Data.List.Basic
import Mathlib.Data.Char
import Mathlib.Algebra.GroupWithZero.Nat

/-! Comparisons of texts and of lists, element by element. -/

namespace Lexical

section Lists

variable {α : Type} [Ord α]

theorem compare_append_of_length {xs ys us vs : List α} (same : xs.length = ys.length) :
    compare (xs ++ us) (ys ++ vs) = (compare xs ys).then (compare us vs) := by
  induction xs generalizing ys with
  | nil =>
    obtain rfl := List.length_eq_zero_iff.mp same.symm
    rfl
  | cons x xs ih =>
    cases ys with
    | nil => cases same
    | cons y ys =>
      rw [List.cons_append, List.cons_append, List.compare_cons_cons, List.compare_cons_cons,
        ih (Nat.succ.inj same), Ordering.then_assoc]

section Lawful

variable [Std.LawfulEqOrd α]

theorem compare_append_left (common us vs : List α) :
    compare (common ++ us) (common ++ vs) = compare us vs := by
  rw [compare_append_of_length rfl, Std.ReflOrd.compare_self, Ordering.eq_then]

theorem compare_cons_of_ne {x y : α} (different : x ≠ y) (us vs : List α) :
    compare (x :: us) (y :: vs) = compare x y := by
  rw [List.compare_cons_cons]
  cases order : compare x y with
  | eq => exact absurd (Std.LawfulEqOrd.eq_of_compare order) different
  | lt => rfl
  | gt => rfl

theorem compare_append_of_parted {xs ys common us vs : List α} {x y : α} (left : xs = common ++ x :: us)
    (right : ys = common ++ y :: vs) (different : x ≠ y) (more others : List α) :
    compare (xs ++ more) (ys ++ others) = compare xs ys := by
  subst left right
  rw [List.append_assoc, List.append_assoc, compare_append_left, compare_append_left, List.cons_append,
    List.cons_append, compare_cons_of_ne different, compare_cons_of_ne different]

end Lawful

end Lists

theorem diverge {α : Type} [DecidableEq α] (xs ys : List α) :
    xs = ys ∨ (∃ y rest, ys = xs ++ y :: rest) ∨ (∃ x rest, xs = ys ++ x :: rest) ∨
      ∃ common x us y vs, xs = common ++ x :: us ∧ ys = common ++ y :: vs ∧ x ≠ y := by
  induction xs generalizing ys with
  | nil =>
    cases ys with
    | nil => exact .inl rfl
    | cons y ys => exact .inr (.inl ⟨y, ys, rfl⟩)
  | cons x xs ih =>
    cases ys with
    | nil => exact .inr (.inr (.inl ⟨x, xs, rfl⟩))
    | cons y ys =>
      by_cases same : x = y
      · subst same
        rcases ih ys with rfl | ⟨y, rest, rfl⟩ | ⟨y, rest, rfl⟩ | ⟨common, a, us, b, vs, rfl, rfl, apart⟩
        · exact .inl rfl
        · exact .inr (.inl ⟨y, rest, rfl⟩)
        · exact .inr (.inr (.inl ⟨y, rest, rfl⟩))
        · exact .inr (.inr (.inr ⟨x :: common, a, us, b, vs, rfl, rfl, apart⟩))
      · exact .inr (.inr (.inr ⟨[], x, xs, y, ys, rfl, rfl, same⟩))

/-- The first hit of a search over indices, the first index apart. -/
theorem findSome_range {α : Type} (n : Nat) (f : Nat → Option α) :
    (List.range (n + 1)).findSome? f = (f 0).or ((List.range n).findSome? fun place => f (place + 1)) := by
  rw [List.range_succ_eq_map, List.findSome?_cons, List.findSome?_map]
  cases f 0 with
  | none => rfl
  | some value => rfl

section Mapped

variable {α β : Type} {write : α → β}

theorem map_inj {xs ys : List α} (apart : ∀ x ∈ xs, ∀ y ∈ ys, write x = write y → x = y)
    (same : xs.map write = ys.map write) : xs = ys := by
  induction xs generalizing ys with
  | nil => exact (List.map_eq_nil_iff.mp same.symm).symm
  | cons x xs ih =>
    cases ys with
    | nil => cases same
    | cons y ys =>
      obtain ⟨first, rest⟩ := List.cons.inj same
      have heads : x = y := apart x (by simp) y (by simp) first
      have tails : xs = ys :=
        ih (fun a left b right => apart a (by simp [left]) b (by simp [right])) rest
      rw [heads, tails]

/-- Lists are compared as their items are, where items that compare as equal are the same. -/
theorem compare_map_lt_iff [Ord β] [Std.LawfulEqOrd β] {below : α → α → Prop} {xs ys : List α}
    (orders : ∀ x ∈ xs, ∀ y ∈ ys, (compare (write x) (write y) = .lt ↔ below x y))
    (apart : ∀ x ∈ xs, ∀ y ∈ ys, write x = write y → x = y) :
    compare (xs.map write) (ys.map write) = .lt ↔ List.Lex below xs ys := by
  induction xs generalizing ys with
  | nil =>
    cases ys with
    | nil => exact iff_of_false (by simp [Std.ReflOrd.compare_self]) (by simp)
    | cons y ys => exact iff_of_true rfl .nil
  | cons x xs ih =>
    cases ys with
    | nil => exact iff_of_false (by rintro ⟨⟩) (by simp)
    | cons y ys =>
      have rest := @ih ys (fun a left b right => orders a (by simp [left]) b (by simp [right]))
        (fun a left b right => apart a (by simp [left]) b (by simp [right]))
      have level : compare (write x) (write y) = .eq ↔ x = y := by
        constructor
        · intro tie
          exact apart x (by simp) y (by simp) (Std.LawfulEqOrd.eq_of_compare tie)
        · rintro rfl
          exact Std.ReflOrd.compare_self
      rw [List.map_cons, List.map_cons, List.compare_cons_cons, Ordering.then_eq_lt, level, rest,
        orders x (by simp) y (by simp), List.cons_lex_cons_iff]

theorem compare_lt_iff [Ord α] [LT α] [Std.LawfulEqOrd α] (orders : ∀ x y : α, compare x y = .lt ↔ x < y)
    (xs ys : List α) : compare xs ys = .lt ↔ xs < ys := by
  have mapped : compare (xs.map id) (ys.map id) = .lt ↔ List.Lex (· < ·) xs ys :=
    compare_map_lt_iff (fun x _ y _ => orders x y) fun _ _ _ _ same => same
  rwa [List.map_id, List.map_id] at mapped

end Mapped

section Splitting

variable {α : Type} [DecidableEq α]

theorem splitOn_cons (separator x : α) (xs : List α) :
    (x :: xs).splitOn separator =
      if x = separator then [] :: xs.splitOn separator else (xs.splitOn separator).modifyHead (List.cons x) := by
  simp only [List.splitOn, List.splitOnP_cons_eq_if_modifyHead, beq_iff_eq]

theorem mem_splitOn (separator item : α) (xs : List α) :
    (∃ piece ∈ xs.splitOn separator, item ∈ piece) ↔ item ∈ xs ∧ item ≠ separator := by
  induction xs with
  | nil => simp
  | cons x xs ih =>
    rw [splitOn_cons]
    split
    · rename_i same
      subst same
      simp only [List.mem_cons, exists_eq_or_imp, List.not_mem_nil, false_or, ih]
      grind
    · rename_i different
      obtain ⟨first, rest, pieces⟩ : ∃ first rest, xs.splitOn separator = first :: rest :=
        List.exists_cons_of_ne_nil (List.splitOnP_ne_nil _ _)
      rw [pieces] at ih ⊢
      simp only [List.modifyHead_cons, List.mem_cons, exists_eq_or_imp] at ih ⊢
      grind

end Splitting

section Digits

def AllDigits (text : List Char) : Prop := ∀ char ∈ text, char.isDigit = true

def value (text : List Char) : Nat := Nat.ofDigitChars 10 text 0

theorem value_append (front back : List Char) :
    value (front ++ back) = value front * 10 ^ back.length + value back := by
  unfold value
  rw [Nat.ofDigitChars_append, Nat.ofDigitChars_eq_ofDigitChars_zero, Nat.mul_comm]

theorem digit_value {char : Char} (digit : char.isDigit = true) : value [char] = char.toNat - 48 ∧ char.toNat - 48 < 10 ∧
    48 ≤ char.toNat := by
  have bounds : 48 ≤ char.toNat ∧ char.toNat ≤ 57 := by
    simpa [Char.isDigit, UInt32.le_iff_toNat_le] using digit
  refine ⟨?_, by omega, bounds.1⟩
  simp [value, Nat.ofDigitChars_cons]

theorem value_lt {text : List Char} (digits : AllDigits text) : value text < 10 ^ text.length := by
  induction text with
  | nil => simp [value]
  | cons char rest ih =>
    obtain ⟨denotes, small, _⟩ := digit_value (digits char (by simp))
    have below := ih fun other member => digits other (by simp [member])
    have split : value (char :: rest) = value [char] * 10 ^ rest.length + value rest := value_append [char] rest
    rw [split, denotes, List.length_cons, Nat.pow_succ]
    calc
      (char.toNat - 48) * 10 ^ rest.length + value rest
        < (char.toNat - 48) * 10 ^ rest.length + 10 ^ rest.length := by omega
      _ = (char.toNat - 48 + 1) * 10 ^ rest.length := by rw [Nat.add_mul, Nat.one_mul]
      _ ≤ 10 * 10 ^ rest.length := Nat.mul_le_mul_right _ small
      _ = 10 ^ rest.length * 10 := Nat.mul_comm _ _

theorem compare_char {x y : Char} (less : x.toNat < y.toNat) : compare x y = .lt :=
  compare_lt_iff_lt.mpr (UInt32.lt_iff_toNat_lt.mpr less)

theorem compare_digits {xs ys : List Char} (left : AllDigits xs) (right : AllDigits ys)
    (same : xs.length = ys.length) : compare xs ys = compare (value xs) (value ys) := by
  induction xs generalizing ys with
  | nil =>
    obtain rfl := List.length_eq_zero_iff.mp same.symm
    rfl
  | cons x xs ih =>
    cases ys with
    | nil => cases same
    | cons y ys =>
      have below := value_lt fun other member => left other (List.mem_cons_of_mem x member)
      have above := value_lt fun other member => right other (List.mem_cons_of_mem y member)
      have lengths : xs.length = ys.length := Nat.succ.inj same
      rw [← lengths] at above
      obtain ⟨first, _, _⟩ := digit_value (left x (by simp))
      obtain ⟨second, _, _⟩ := digit_value (right y (by simp))
      have rest := ih (fun other member => left other (by simp [member]))
        (fun other member => right other (by simp [member])) lengths
      have one : value (x :: xs) = value [x] * 10 ^ xs.length + value xs := value_append [x] xs
      have two : value (y :: ys) = value [y] * 10 ^ xs.length + value ys := by
        rw [lengths]
        exact value_append [y] ys
      rw [List.compare_cons_cons, rest, one, two]
      rcases Nat.lt_trichotomy x.toNat y.toNat with less | equal | greater
      · have gap : value [x] + 1 ≤ value [y] := by omega
        have scaled := Nat.mul_le_mul_right (10 ^ xs.length) gap
        rw [Nat.add_mul, Nat.one_mul] at scaled
        rw [compare_char less, Ordering.lt_then]
        exact (Nat.compare_eq_lt.mpr (by omega)).symm
      · obtain rfl := Char.toNat_inj.mp equal
        rw [Std.ReflOrd.compare_self, Ordering.eq_then]
        simp only [Nat.compare_eq_ite_lt, Nat.add_lt_add_iff_left]
      · have gap : value [y] + 1 ≤ value [x] := by omega
        have scaled := Nat.mul_le_mul_right (10 ^ xs.length) gap
        rw [Nat.add_mul, Nat.one_mul] at scaled
        rw [Std.OrientedOrd.eq_swap, compare_char greater, Ordering.swap_lt, Ordering.gt_then]
        exact (Nat.compare_eq_gt.mpr (by omega)).symm

def Unpadded (text : List Char) : Prop := text = ['0'] ∨ ∃ first rest, text = first :: rest ∧ first ≠ '0'

theorem le_value {first : Char} {rest : List Char} (digits : AllDigits (first :: rest)) (leads : first ≠ '0') :
    10 ^ rest.length ≤ value (first :: rest) := by
  obtain ⟨denotes, _, large⟩ := digit_value (digits first (by simp))
  have split : value (first :: rest) = value [first] * 10 ^ rest.length + value rest := value_append [first] rest
  have positive : 1 ≤ value [first] := by
    have nonzero : first.toNat ≠ 48 := fun zero => leads (Char.toNat_inj.mp zero)
    omega
  have scaled := Nat.mul_le_mul_right (10 ^ rest.length) positive
  omega

theorem length_le_of_value_le {xs ys : List Char} (left : AllDigits xs) (right : AllDigits ys) (unpadded : Unpadded xs)
    (below : value xs ≤ value ys) (some : ys ≠ []) : xs.length ≤ ys.length := by
  rcases unpadded with rfl | ⟨first, rest, rfl, leads⟩
  · exact List.length_pos_iff.mpr some
  · by_contra longer
    have shorter : ys.length ≤ rest.length := by
      rw [List.length_cons] at longer
      omega
    have small := value_lt right
    have large := le_value left leads
    have powers : 10 ^ ys.length ≤ 10 ^ rest.length := Nat.pow_le_pow_right (by decide) shorter
    omega

theorem Unpadded.ne_nil {text : List Char} (unpadded : Unpadded text) : text ≠ [] := by
  rcases unpadded with rfl | ⟨first, rest, rfl, _⟩
  · simp
  · simp

theorem value_inj {xs ys : List Char} (left : AllDigits xs) (right : AllDigits ys) (one : Unpadded xs)
    (two : Unpadded ys) (same : value xs = value ys) : xs = ys := by
  have shorter := length_le_of_value_le left right one (Nat.le_of_eq same) two.ne_nil
  have longer := length_le_of_value_le right left two (Nat.le_of_eq same.symm) one.ne_nil
  have ordered := compare_digits left right (Nat.le_antisymm shorter longer)
  rw [same, Std.ReflOrd.compare_self] at ordered
  exact Std.LawfulEqOrd.eq_of_compare ordered

end Digits

end Lexical
