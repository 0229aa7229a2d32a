import Mathlib.Data.List.TakeWhile
import OpenAgentHub.Registry.Packages.Semver

namespace Registry.Semver

open Lexical

instance : Std.LawfulEqOrd Identifier where
  compare_self {x} := by
    cases x with
    | numeric value => exact (Std.ReflOrd.compare_self : compare value value = .eq)
    | text chars => exact (Std.ReflOrd.compare_self : compare chars chars = .eq)
  eq_of_compare {x y} same := by
    cases x <;> cases y
    · exact congrArg _ (Std.LawfulEqOrd.eq_of_compare (show compare _ _ = .eq from same))
    · cases same
    · cases same
    · exact congrArg _ (Std.LawfulEqOrd.eq_of_compare (show compare _ _ = .eq from same))

instance : Std.OrientedOrd Identifier where
  eq_swap {x y} := by
    rcases x with m | s <;> rcases y with n | t
    · exact (Std.OrientedOrd.eq_swap : compare m n = (compare n m).swap)
    · rfl
    · rfl
    · exact (Std.OrientedOrd.eq_swap : compare s t = (compare t s).swap)

instance : Std.TransOrd Identifier where
  isLE_trans {x y z} first second := by
    rcases x with l | s <;> rcases y with m | t <;> rcases z with n | u
    · exact (Std.TransOrd.isLE_trans : (compare l m).isLE → (compare m n).isLE → (compare l n).isLE) first second
    · rfl
    · cases second
    · rfl
    · cases first
    · cases first
    · cases second
    · exact (Std.TransOrd.isLE_trans : (compare s t).isLE → (compare t u).isLE → (compare s u).isLE) first second

def width (value : Nat) : Nat := max 12 (Nat.toDigits 10 value).length

def firstDifference : List Identifier → List Identifier →
    Option ((Identifier × List Identifier) × (Identifier × List Identifier))
  | x :: xs, y :: ys => if x = y then firstDifference xs ys else some ((x, xs), (y, ys))
  | _, _ => none

def CoreKeeps (x : Identifier) (xs : List Identifier) (tail : List Char) (y : Identifier)
    (ys : List Identifier) (tail' : List Char) : Prop :=
  match x, y with
  | .numeric m, .numeric n =>
    m < n / 10 ^ (width n - width m) ∨ (m = n / 10 ^ (width n - width m) ∧ xs = [])
  | .text s, .text t => ∀ char rest, t = s ++ char :: rest →
    (xs = [] ∧ char ≠ '\n') ∨ compare (joined xs ++ tail) (char :: rest ++ (joined ys ++ tail')) = .lt
  | _, _ => True

def PreKeeps (x : Identifier) (xs : List Identifier) (y : Identifier) : Prop :=
  match x, y with
  | .numeric m, .numeric n => m ≤ n / 10 ^ (width n - width m)
  | .text s, .text t => ∀ char rest, t = s ++ char :: rest → xs = [] ∨ (char ≠ '-' ∧ char ≠ '+' ∧ char ≠ '\n')
  | _, _ => True

def preIdentifiers (version : String) : List Identifier := (pre version).elim [] preParts

def PreOrderKept (ps qs : List Identifier) : Prop :=
  match firstDifference ps qs with
  | some ((x, xs), (y, ys)) =>
    (compare x y = .lt → PreKeeps x xs y) ∧ (compare y x = .lt → PreKeeps y ys x)
  | none => True

def OrderKept (a b : String) : Prop :=
  match firstDifference (parts a) (parts b) with
  | some ((x, xs), (y, ys)) =>
    (compare x y = .lt → CoreKeeps x xs ('#' :: preTag a) y ys ('#' :: preTag b)) ∧
      (compare y x = .lt → CoreKeeps y ys ('#' :: preTag b) x xs ('#' :: preTag a))
  | none => parts a = parts b → PreOrderKept (preIdentifiers a) (preIdentifiers b)

section Numbers

theorem padded_length (value : Nat) : (padded value).length = width value := by
  simp only [padded, width, List.leftpad, List.length_append, List.length_replicate]
  omega

theorem padded_digits (value : Nat) : AllDigits (padded value) := by
  intro char member
  rcases List.mem_append.mp member with zero | digit
  · rw [List.eq_of_mem_replicate zero]
    rfl
  · exact Nat.isDigit_of_mem_toDigits (by decide) (by decide) digit

theorem padded_value (value : Nat) : Lexical.value (padded value) = value := by
  simp [padded, Lexical.value, List.leftpad, Nat.ofDigitChars_append]

theorem width_mono {m n : Nat} (below : m ≤ n) : width m ≤ width n := by
  have positive : 0 < (Nat.toDigits 10 n).length := Nat.length_toDigits_pos
  have bound := (Nat.length_toDigits_le_iff (b := 10) (n := n) (by decide) positive).mp (Nat.le_refl _)
  have shorter := (Nat.length_toDigits_le_iff (b := 10) (n := m) (by decide) positive).mpr
    (Nat.lt_of_le_of_lt below bound)
  unfold width
  omega

theorem compare_padded {m n : Nat} (below : m ≤ n) (us vs : List Char) :
    ∃ digits, AllDigits digits ∧ digits.length = width n - width m ∧
      compare (padded m ++ us) (padded n ++ vs) =
        (compare m (n / 10 ^ (width n - width m))).then (compare us (digits ++ vs)) := by
  have shorter := width_mono below
  obtain ⟨front, digits, whole, long⟩ : ∃ front digits, padded n = front ++ digits ∧ front.length = width m :=
    ⟨_, _, (List.take_append_drop (width m) (padded n)).symm, by rw [List.length_take, padded_length]; omega⟩
  have allDigits := padded_digits n
  have lengths := padded_length n
  have total := padded_value n
  rw [whole] at allDigits lengths total
  rw [List.length_append] at lengths
  have frontDigits : AllDigits front := fun char member => allDigits char (by simp [member])
  have backDigits : AllDigits digits := fun char member => allDigits char (by simp [member])
  have remaining : digits.length = width n - width m := by omega
  refine ⟨digits, backDigits, remaining, ?_⟩
  have leading : Lexical.value front = n / 10 ^ (width n - width m) := by
    rw [value_append, Nat.mul_comm] at total
    rw [← remaining, ← total, Nat.mul_add_div (Nat.pow_pos (by decide)),
      Nat.div_eq_of_lt (value_lt backDigits), Nat.add_zero]
  rw [whole, List.append_assoc, compare_append_of_length (by rw [padded_length, long]),
    compare_digits (padded_digits m) frontDigits (by rw [padded_length, long]), padded_value, leading]

theorem padded_lt {m n : Nat} (below : m < n) {us vs : List Char} {last : Prop}
    (decides : ∀ digit digits, digit.isDigit = true → (compare us (digit :: digits ++ vs) = .lt ↔ last)) :
    compare (padded m ++ us) (padded n ++ vs) = .lt ↔
      m < n / 10 ^ (width n - width m) ∨ (m = n / 10 ^ (width n - width m) ∧ last) := by
  obtain ⟨digits, allDigits, long, equal⟩ := compare_padded (Nat.le_of_lt below) us vs
  rw [equal, Ordering.then_eq_lt, Nat.compare_eq_lt, Nat.compare_eq_eq]
  refine or_congr_right (and_congr_right fun same => ?_)
  cases digits with
  | nil =>
    have level : width n - width m = 0 := long.symm
    rw [level, Nat.pow_zero, Nat.div_one] at same
    omega
  | cons digit digits => exact decides digit digits (allDigits digit (by simp))

end Numbers

section Texts

def Plain (char : Char) : Prop := isWord char = true ∨ char = '+'

/-- Python's pattern takes the digits of any script too, and a newline at the end. -/
def Written (char : Char) : Prop := Plain char ∨ isDecimal char = true ∨ char = '\n'

theorem isWord_range {char : Char} (word : isWord char = true) :
    char = '-' ∨ (48 ≤ char.toNat ∧ char.toNat ≤ 122) := by
  unfold isWord Char.isAlphanum Char.isAlpha Char.isUpper Char.isLower Char.isDigit at word
  simp [UInt32.le_iff_toNat_le] at word
  rcases word with ((_ | _) | _) | rfl
  · exact .inr (by omega)
  · exact .inr (by omega)
  · exact .inr (by omega)
  · exact .inl rfl

theorem isDecimal_range {char : Char} (digit : isDecimal char = true) : 48 ≤ char.toNat := by
  unfold isDecimal decimal at digit
  rw [Option.isSome_map] at digit
  obtain ⟨first, found⟩ := Option.isSome_iff_exists.mp digit
  have starts : ∀ first ∈ decimalZeros, 48 ≤ first := by decide
  have least := starts first (List.mem_of_find?_eq_some found)
  have reached := List.find?_some found
  simp only [Bool.and_eq_true, decide_eq_true_eq] at reached
  omega

theorem written_cases {char : Char} (written : Written char) :
    char = '-' ∨ char = '+' ∨ char = '\n' ∨ 48 ≤ char.toNat := by
  rcases written with (word | rfl) | digit | rfl
  · rcases isWord_range word with rfl | range
    · exact .inl rfl
    · exact .inr (.inr (.inr range.1))
  · exact .inr (.inl rfl)
  · exact .inr (.inr (.inr (isDecimal_range digit)))
  · exact .inr (.inr (.inl rfl))

theorem text_lt {s t : List Char} (below : compare s t = .lt) (us vs : List Char) :
    compare (s ++ us) (t ++ vs) = .lt ↔
      ∀ char rest, t = s ++ char :: rest → compare us (char :: rest ++ vs) = .lt := by
  rcases diverge s t with rfl | ⟨char, rest, rfl⟩ | ⟨char, rest, rfl⟩ | ⟨common, x, left, y, right, one, two, apart⟩
  · rw [Std.ReflOrd.compare_self] at below
    cases below
  · rw [List.append_assoc, compare_append_left]
    constructor
    · intro less other rest' same
      obtain ⟨rfl, rfl⟩ := List.cons.inj (List.append_cancel_left same)
      exact less
    · intro decides
      exact decides char rest rfl
  · have extended := compare_append_left t (char :: rest) []
    rw [List.append_nil, below] at extended
    cases extended
  · rw [compare_append_of_parted one two apart, below]
    refine iff_of_true rfl fun char rest same => ?_
    rw [two, one, List.append_assoc] at same
    exact absurd (List.cons.inj (List.append_cancel_left same)).1.symm apart

theorem joined_head {xs : List Identifier} (some : xs ≠ []) :
    ∃ char rest, joined xs = char :: rest ∧ (char = 'n' ∨ char = 's') := by
  cases xs with
  | nil => exact absurd rfl some
  | cons x xs =>
    cases x with
    | numeric value => exact ⟨'n', _, rfl, .inl rfl⟩
    | text chars => exact ⟨'s', _, rfl, .inr rfl⟩

theorem digit_bounds {char : Char} (digit : char.isDigit = true) : 48 ≤ char.toNat ∧ char.toNat ≤ 57 := by
  obtain ⟨_, small, large⟩ := digit_value digit
  omega

theorem compare_cons_lt {x y : Char} (less : x.toNat < y.toNat) (us vs : List Char) :
    compare (x :: us) (y :: vs) = .lt := by
  rw [List.compare_cons_cons, compare_char less, Ordering.lt_then]

theorem compare_cons_gt {x y : Char} (greater : y.toNat < x.toNat) (us vs : List Char) :
    compare (x :: us) (y :: vs) = .gt := by
  rw [Std.OrientedOrd.eq_swap, compare_cons_lt greater, Ordering.swap_lt]

/-- In the core a number is closed by the hash sign, or run into the next identifier. -/
theorem core_render_lt {x y : Identifier} (below : compare x y = .lt) (written : ∀ t, y = .text t → ∀ char ∈ t, Written char)
    (xs ys : List Identifier) (tail tail' : List Char) :
    compare (x.render ++ (joined xs ++ '#' :: tail)) (y.render ++ (joined ys ++ '#' :: tail')) = .lt ↔
      CoreKeeps x xs ('#' :: tail) y ys ('#' :: tail') := by
  rcases x with m | s <;> rcases y with n | t
  · change compare ('n' :: (padded m ++ _)) ('n' :: (padded n ++ _)) = .lt ↔ _
    rw [List.compare_cons_cons, Std.ReflOrd.compare_self, Ordering.eq_then]
    refine padded_lt (Nat.compare_eq_lt.mp below) fun digit digits isDigit => ?_
    obtain ⟨low, high⟩ := digit_bounds isDigit
    by_cases last : xs = []
    · subst last
      exact iff_of_true (compare_cons_lt (Nat.lt_of_lt_of_le (by decide) low) _ _) rfl
    · obtain ⟨char, rest, head, letter⟩ := joined_head last
      refine iff_of_false (fun less => ?_) last
      have large : digit.toNat < char.toNat := by
        rcases letter with rfl | rfl
        · exact Nat.lt_of_le_of_lt high (by decide)
        · exact Nat.lt_of_le_of_lt high (by decide)
      rw [head, List.cons_append, List.cons_append, compare_cons_gt large] at less
      cases less
  · exact iff_of_true (compare_cons_lt (by decide) _ _) trivial
  · cases below
  · change compare ('s' :: (s ++ _)) ('s' :: (t ++ _)) = .lt ↔ _
    rw [List.compare_cons_cons, Std.ReflOrd.compare_self, Ordering.eq_then, text_lt (show compare s t = .lt from below)]
    refine forall_congr' fun char => forall_congr' fun rest => imp_congr_right fun longer => ?_
    by_cases last : xs = []
    · subst last
      rcases written_cases (written t rfl char (by simp [longer])) with rfl | rfl | rfl | large
      · exact iff_of_true (compare_cons_lt (by decide) _ _) (.inl ⟨rfl, by decide⟩)
      · exact iff_of_true (compare_cons_lt (by decide) _ _) (.inl ⟨rfl, by decide⟩)
      · have greater : compare (joined [] ++ '#' :: tail) ('\n' :: rest ++ (joined ys ++ '#' :: tail')) = .gt :=
          compare_cons_gt (by decide) _ _
        rw [greater]
        simp
      · refine iff_of_true (compare_cons_lt (Nat.lt_of_lt_of_le (by decide) large) _ _) (.inl ⟨rfl, ?_⟩)
        rintro rfl
        exact absurd large (by decide)
    · simp [last]

def tailed (identifiers : List Identifier) : List Char := identifiers.flatMap fun next => '.' :: next.render

/-- In the prerelease it is closed by the end of the key or by a dot, which sorts below digits. -/
theorem pre_render_lt {x y : Identifier} (below : compare x y = .lt)
    (written : ∀ t, y = .text t → ∀ char ∈ t, Written char) (xs ys : List Identifier) :
    compare (x.render ++ tailed xs) (y.render ++ tailed ys) = .lt ↔ PreKeeps x xs y := by
  rcases x with m | s <;> rcases y with n | t
  · change compare ('n' :: (padded m ++ _)) ('n' :: (padded n ++ _)) = .lt ↔ _
    rw [List.compare_cons_cons, Std.ReflOrd.compare_self, Ordering.eq_then]
    have closed : ∀ digit digits, digit.isDigit = true →
        (compare (tailed xs) (digit :: digits ++ tailed ys) = .lt ↔ True) := by
      intro digit digits isDigit
      refine iff_of_true ?_ trivial
      cases xs with
      | nil => rfl
      | cons next rest => exact compare_cons_lt (Nat.lt_of_lt_of_le (by decide) (digit_bounds isDigit).1) _ _
    rw [padded_lt (Nat.compare_eq_lt.mp below) closed, and_true]
    exact Nat.le_iff_lt_or_eq.symm
  · exact iff_of_true (compare_cons_lt (by decide) _ _) trivial
  · cases below
  · change compare ('s' :: (s ++ _)) ('s' :: (t ++ _)) = .lt ↔ _
    rw [List.compare_cons_cons, Std.ReflOrd.compare_self, Ordering.eq_then, text_lt (show compare s t = .lt from below)]
    refine forall_congr' fun char => forall_congr' fun rest => imp_congr_right fun longer => ?_
    cases xs with
    | nil => exact iff_of_true rfl (.inl rfl)
    | cons next rest' =>
      have below : ∀ char : Char, char.toNat < 46 →
          compare (tailed (next :: rest')) (char :: rest ++ tailed ys) ≠ .lt := by
        intro char small less
        exact absurd ((compare_cons_gt small _ _).symm.trans less) (by decide)
      rcases written_cases (written t rfl char (by simp [longer])) with rfl | rfl | rfl | large
      · exact iff_of_false (below _ (by decide)) (by simp)
      · exact iff_of_false (below _ (by decide)) (by simp)
      · exact iff_of_false (below _ (by decide)) (by simp)
      · refine iff_of_true (compare_cons_lt (Nat.lt_of_lt_of_le (by decide) large) _ _) (.inr ⟨?_, ?_, ?_⟩)
        · rintro rfl
          exact absurd large (by decide)
        · rintro rfl
          exact absurd large (by decide)
        · rintro rfl
          exact absurd large (by decide)

end Texts

section Lists

variable {xs ys : List Identifier}

theorem firstDifference_some {x y : Identifier} {xs' ys' : List Identifier}
    (found : firstDifference xs ys = some ((x, xs'), (y, ys'))) :
    ∃ common, xs = common ++ x :: xs' ∧ ys = common ++ y :: ys' ∧ x ≠ y := by
  fun_induction firstDifference xs ys with
  | case1 first rest others ih =>
    obtain ⟨common, rfl, rfl, apart⟩ := ih found
    exact ⟨_ :: common, rfl, rfl, apart⟩
  | case2 first rest second others apart =>
    cases found
    exact ⟨[], rfl, rfl, apart⟩
  | case3 => cases found

theorem firstDifference_none (absent : firstDifference xs ys = none) :
    xs = ys ∨ (∃ y rest, ys = xs ++ y :: rest) ∨ ∃ x rest, xs = ys ++ x :: rest := by
  rcases diverge xs ys with same | longer | longer | ⟨common, x, us, y, vs, rfl, rfl, apart⟩
  · exact .inl same
  · exact .inr (.inl longer)
  · exact .inr (.inr longer)
  · exfalso
    induction common with
    | nil => simp [firstDifference, apart] at absent
    | cons first rest ih => exact ih (by simpa [firstDifference] using absent)

theorem compare_extended {α : Type} [Ord α] [Std.LawfulEqOrd α] (xs : List α) (y : α) (rest : List α) :
    compare xs (xs ++ y :: rest) = .lt := by
  have extended := compare_append_left xs [] (y :: rest)
  rwa [List.append_nil] at extended

theorem compare_flatMap_some (write : Identifier → List Char) {x y : Identifier} {xs' ys' : List Identifier}
    (found : firstDifference xs ys = some ((x, xs'), (y, ys'))) (tail tail' : List Char) :
    compare xs ys = compare x y ∧
      compare (xs.flatMap write ++ tail) (ys.flatMap write ++ tail') =
        compare (write x ++ (xs'.flatMap write ++ tail)) (write y ++ (ys'.flatMap write ++ tail')) := by
  obtain ⟨common, rfl, rfl, apart⟩ := firstDifference_some found
  refine ⟨by rw [compare_append_left, compare_cons_of_ne apart], ?_⟩
  simp only [List.flatMap_append, List.flatMap_cons, List.append_assoc]
  rw [compare_append_left]

end Lists

section Accepted

variable {digit : Char → Bool}

theorem isWord_of_isDigit {char : Char} (isDigit : char.isDigit = true) : isWord char = true := by
  simp [isWord, Char.isAlphanum, isDigit]

theorem isNumeric_chars {part : List Char} (numeric : isNumeric digit part = true) :
    ∀ char ∈ part, isWord char = true ∨ digit char = true := by
  intro char member
  simp only [isNumeric, Bool.or_eq_true, Bool.and_eq_true, beq_iff_eq, Option.any_eq_true, List.all_eq_true] at numeric
  rcases numeric with rfl | ⟨⟨first, leads, isDigit, _⟩, others⟩
  · rw [List.mem_singleton.mp member]
    exact .inl (by decide)
  · obtain ⟨rest, rfl⟩ := List.head?_eq_some_iff.mp leads
    rcases List.mem_cons.mp member with rfl | inRest
    · exact .inl (isWord_of_isDigit isDigit)
    · exact .inr (others char inRest)

theorem isPrerelease_chars {part : List Char} (prerelease : isPrerelease digit part = true) :
    ∀ char ∈ part, isWord char = true ∨ digit char = true := by
  simp only [isPrerelease, Bool.or_eq_true, Bool.and_eq_true, List.all_eq_true] at prerelease
  rcases prerelease with numeric | ⟨_, words⟩
  · exact isNumeric_chars numeric
  · intro char member
    rw [← List.takeWhile_append_dropWhile (p := digit) (l := part)] at member
    rcases List.mem_append.mp member with leading | later
    · exact .inr (List.mem_takeWhile_imp leading)
    · exact .inl (words char later)

theorem chars_of_pieces {text : List Char}
    (words : ∀ piece ∈ text.splitOn '.', ∀ char ∈ piece, isWord char = true ∨ digit char = true) :
    ∀ char ∈ text, char = '.' ∨ Plain char ∨ digit char = true := by
  intro char member
  by_cases dot : char = '.'
  · exact .inl dot
  · obtain ⟨piece, listed, inside⟩ := (mem_splitOn '.' char text).mpr ⟨member, dot⟩
    exact .inr ((words piece listed char inside).imp_left .inl)

theorem cut_of_not_mem {separator : Char} {text : List Char} (absent : separator ∉ text) :
    cut separator text = (text, none) := by
  have all : ∀ char ∈ text, (char != separator) = true := by
    rintro char listed
    apply bne_iff_ne.mpr
    rintro rfl
    exact absent listed
  rw [cut, List.takeWhile_eq_self_iff.mpr all, List.dropWhile_eq_nil_iff.mpr all]
  rfl

theorem cut_append {separator : Char} {front back : List Char} (absent : separator ∉ front) :
    cut separator (front ++ separator :: back) = (front, some back) := by
  have before : ∀ char ∈ front, (char != separator) = true := by
    rintro char listed
    apply bne_iff_ne.mpr
    rintro rfl
    exact absent listed
  rw [cut, List.takeWhile_append_of_pos before, List.dropWhile_append_of_pos before, List.takeWhile_cons_of_neg (by simp),
    List.dropWhile_cons_of_neg (by simp), List.append_nil]
  rfl

theorem mem_cut (separator : Char) {char : Char} {text : List Char} (member : char ∈ text) :
    char ∈ (cut separator text).1 ∨ char = separator ∨ ∃ after, (cut separator text).2 = some after ∧ char ∈ after := by
  rw [← List.takeWhile_append_dropWhile (p := (· != separator)) (l := text)] at member
  rcases List.mem_append.mp member with before | after
  · exact .inl before
  · right
    unfold cut
    dsimp only
    cases rest : text.dropWhile (· != separator) with
    | nil =>
      rw [rest] at after
      cases after
    | cons first others =>
      have stops : first = separator := by
        have head := List.head?_dropWhile_not (· != separator) text
        rw [rest] at head
        simpa using head
      rw [rest, stops] at after
      rcases List.mem_cons.mp after with rfl | inside
      · exact .inl rfl
      · exact .inr ⟨others, rfl, inside⟩

theorem matchesVersion_chars {text : List Char} (known : matchesVersion digit text = true) :
    ∀ char ∈ text, char = '.' ∨ Plain char ∨ digit char = true := by
  simp only [matchesVersion, Bool.and_eq_true, List.all_eq_true, Option.all_eq_true] at known
  obtain ⟨⟨⟨_, numeric⟩, prerelease⟩, build⟩ := known
  intro char member
  rcases mem_cut '+' member with inMain | rfl | ⟨after, found, inBuild⟩
  · rcases mem_cut '-' inMain with inCore | rfl | ⟨after, found, inPre⟩
    · exact chars_of_pieces (fun piece listed => isNumeric_chars (numeric piece listed)) char inCore
    · exact .inr (.inl (.inl rfl))
    · exact chars_of_pieces (fun piece listed => isPrerelease_chars (prerelease after found piece listed)) char inPre
  · exact .inr (.inl (.inr rfl))
  · refine chars_of_pieces (fun piece listed char inside => .inl ?_) char inBuild
    have built := build after found piece listed
    simp only [isBuild, Bool.and_eq_true, List.all_eq_true] at built
    exact built.2 char inside

theorem accepted_plain {version : String} (known : accepted version = true) :
    ∀ char ∈ version.toList, char = '.' ∨ Plain char := by
  intro char member
  rcases matchesVersion_chars known char member with dot | plain | isDigit
  · exact .inl dot
  · exact .inr plain
  · exact .inr (.inl (isWord_of_isDigit isDigit))

theorem bare_chars {text : String} : (bare text).toList = chomp text.toList := String.toList_ofList

theorem mem_chomp {text : List Char} {char : Char} (member : char ∈ text) : char ∈ chomp text ∨ char = '\n' := by
  unfold chomp
  split
  · rename_i ends
    rw [← List.dropLast_append_getLast? _ ends, List.mem_append, List.mem_singleton] at member
    exact member
  · exact .inl member

theorem registryAccepts_written {version : String} (known : registryAccepts version = true) :
    ∀ char ∈ version.toList, char = '.' ∨ Written char := by
  intro char member
  rcases mem_chomp member with inside | last
  · rcases matchesVersion_chars known char inside with dot | plain | digit
    · exact .inl dot
    · exact .inr (.inl plain)
    · exact .inr (.inr (.inl digit))
  · exact .inr (.inr (.inr last))

theorem identifiers_written {text : List Char} (written : ∀ char ∈ text, char = '.' ∨ Written char) {chars : List Char}
    (listed : Identifier.text chars ∈ (text.splitOn '.').map identifier) : ∀ char ∈ chars, Written char := by
  obtain ⟨piece, known, same⟩ := List.mem_map.mp listed
  unfold identifier at same
  split at same
  · cases same
  · cases same
    intro char member
    obtain ⟨inText, notDot⟩ := (mem_splitOn '.' char text).mp ⟨_, known, member⟩
    exact (written char inText).resolve_left notDot

theorem parts_written {version : String} (known : registryAccepts version = true) {chars : List Char}
    (listed : Identifier.text chars ∈ parts version) : ∀ char ∈ chars, Written char := by
  refine identifiers_written (fun char member => registryAccepts_written known char ?_) listed
  exact (List.takeWhile_sublist _).subset member

theorem preIdentifiers_written {version : String} (known : registryAccepts version = true) {chars : List Char}
    (listed : Identifier.text chars ∈ preIdentifiers version) : ∀ char ∈ chars, Written char := by
  unfold preIdentifiers pre at listed
  cases rest : version.toList.dropWhile (· != '-') with
  | nil =>
    rw [rest] at listed
    cases listed
  | cons first others =>
    rw [rest] at listed
    refine identifiers_written (fun char member => registryAccepts_written known char ?_) listed
    refine (List.dropWhile_sublist (· != '-')).subset ?_
    rw [rest]
    exact List.mem_cons_of_mem _ member

end Accepted

section Agreement

theorem agree_iff {o p : Ordering} {less greater : Prop} (strict : o ≠ .eq) (below : o = .lt → (p = .lt ↔ less))
    (above : o.swap = .lt → (p.swap = .lt ↔ greater)) : o = p ↔ (o = .lt → less) ∧ (o.swap = .lt → greater) := by
  cases o with
  | eq => exact absurd rfl strict
  | lt =>
    rw [← below rfl]
    simp [eq_comm]
  | gt =>
    rw [← above rfl]
    cases p <;> simp

theorem semverKey_parts (version : String) : (semverKey version).1 = parts version := by
  unfold semverKey
  split <;> rfl

theorem sortKey_chars (version : String) :
    (sortKey version).toList = joined (parts version) ++ '#' :: preTag version := by
  rw [sortKey, String.toList_ofList]

theorem compareKeys_of_parted {a b : String} {x y : Identifier} {xs ys : List Identifier}
    (found : firstDifference (parts a) (parts b) = some ((x, xs), (y, ys))) :
    compareKeys (semverKey a) (semverKey b) = compare x y := by
  obtain ⟨common, one, two, apart⟩ := firstDifference_some found
  have strict : compare x y ≠ .eq := fun tie => apart (Std.LawfulEqOrd.eq_of_compare tie)
  unfold compareKeys
  rw [semverKey_parts, semverKey_parts, one, two, compare_append_left, compare_cons_of_ne apart]
  cases order : compare x y with
  | eq => exact absurd order strict
  | lt => rfl
  | gt => rfl

theorem core_agrees_iff {a b : String} (left : registryAccepts a = true) (right : registryAccepts b = true) {x y : Identifier}
    {xs ys : List Identifier} (found : firstDifference (parts a) (parts b) = some ((x, xs), (y, ys))) :
    compareKeys (semverKey a) (semverKey b) = compareText (sortKey a) (sortKey b) ↔
      (compare x y = .lt → CoreKeeps x xs ('#' :: preTag a) y ys ('#' :: preTag b)) ∧
        (compare y x = .lt → CoreKeeps y ys ('#' :: preTag b) x xs ('#' :: preTag a)) := by
  obtain ⟨_, texts⟩ := compare_flatMap_some Identifier.render found ('#' :: preTag a) ('#' :: preTag b)
  obtain ⟨common, one, two, apart⟩ := firstDifference_some found
  have strict : compare x y ≠ .eq := fun tie => apart (Std.LawfulEqOrd.eq_of_compare tie)
  have xWritten : ∀ t, x = .text t → ∀ char ∈ t, Written char := by
    rintro t rfl
    exact parts_written left (by simp [one])
  have yWritten : ∀ t, y = .text t → ∀ char ∈ t, Written char := by
    rintro t rfl
    exact parts_written right (by simp [two])
  rw [compareKeys_of_parted found, compareText, sortKey_chars, sortKey_chars, joined, joined, texts,
    Std.OrientedOrd.eq_swap (a := y) (b := x)]
  refine agree_iff strict (fun below => core_render_lt below yWritten xs ys _ _) fun above => ?_
  rw [← Std.OrientedOrd.eq_swap] at above ⊢
  exact core_render_lt above xWritten ys xs _ _

theorem core_extended {a b : String} {y : Identifier} {rest : List Identifier}
    (longer : parts b = parts a ++ y :: rest) :
    compareKeys (semverKey a) (semverKey b) = .lt ∧ compareText (sortKey a) (sortKey b) = .lt := by
  constructor
  · unfold compareKeys
    rw [semverKey_parts, semverKey_parts, longer, compare_extended, Ordering.lt_then]
  · rw [compareText, sortKey_chars, sortKey_chars, longer, joined, joined, List.flatMap_append, List.append_assoc,
      compare_append_left]
    cases y with
    | numeric value => exact compare_cons_lt (by decide) _ _
    | text chars => exact compare_cons_lt (by decide) _ _

theorem compareKeys_swap (first second : Key) : compareKeys first second = (compareKeys second first).swap := by
  unfold compareKeys
  rw [Ordering.swap_then, Ordering.swap_then, ← Std.OrientedOrd.eq_swap, ← Std.OrientedOrd.eq_swap,
    ← Std.OrientedOrd.eq_swap]

theorem compareText_swap (first second : String) : compareText first second = (compareText second first).swap :=
  Std.OrientedOrd.eq_swap

theorem preParts_cons (text : List Char) : ∃ first rest, preParts text = first :: rest := by
  obtain ⟨piece, others, pieces⟩ := List.exists_cons_of_ne_nil (List.splitOnP_ne_nil (· == '.') text)
  exact ⟨identifier piece, others.map identifier, by unfold preParts List.splitOn; rw [pieces]; rfl⟩

theorem compare_dotted (x y : Identifier) (xs ys : List Identifier) :
    compare (dotted (x :: xs)) (dotted (y :: ys)) = compare (tailed (x :: xs)) (tailed (y :: ys)) := by
  change _ = compare ('.' :: (x.render ++ tailed xs)) ('.' :: (y.render ++ tailed ys))
  rw [List.compare_cons_cons, Std.ReflOrd.compare_self, Ordering.eq_then]
  rfl

theorem tailed_extended (xs : List Identifier) (y : Identifier) (rest : List Identifier) :
    compare (tailed xs) (tailed (xs ++ y :: rest)) = .lt := by
  unfold tailed
  rw [List.flatMap_append]
  exact compare_extended _ '.' _

theorem dotted_agrees_iff {ps qs : List Identifier} (some : ps ≠ []) (others : qs ≠ [])
    (pWritten : ∀ t, .text t ∈ ps → ∀ char ∈ t, Written char) (qWritten : ∀ t, .text t ∈ qs → ∀ char ∈ t, Written char) :
    compare ps qs = compare (dotted ps) (dotted qs) ↔ PreOrderKept ps qs := by
  have texts : compare (dotted ps) (dotted qs) = compare (tailed ps) (tailed qs) := by
    obtain ⟨p, ps, rfl⟩ := List.exists_cons_of_ne_nil some
    obtain ⟨q, qs, rfl⟩ := List.exists_cons_of_ne_nil others
    exact compare_dotted p q ps qs
  rw [texts]
  unfold PreOrderKept
  cases found : firstDifference ps qs with
  | none =>
    refine iff_of_true ?_ trivial
    rcases firstDifference_none found with rfl | ⟨y, rest, rfl⟩ | ⟨x, rest, rfl⟩
    · rw [Std.ReflOrd.compare_self, Std.ReflOrd.compare_self]
    · rw [compare_extended, tailed_extended]
    · rw [Std.OrientedOrd.eq_swap, compare_extended, Std.OrientedOrd.eq_swap, tailed_extended]
  | some difference =>
    obtain ⟨⟨x, xs⟩, y, ys⟩ := difference
    obtain ⟨common, one, two, apart⟩ := firstDifference_some found
    obtain ⟨identifiers, written⟩ := compare_flatMap_some (fun next => '.' :: next.render) found [] []
    have parted : compare (tailed ps) (tailed qs) = compare (x.render ++ tailed xs) (y.render ++ tailed ys) := by
      simp only [List.append_nil, List.cons_append, List.compare_cons_cons, Std.ReflOrd.compare_self,
        Ordering.eq_then] at written
      exact written
    have strict : compare x y ≠ .eq := fun tie => apart (Std.LawfulEqOrd.eq_of_compare tie)
    dsimp only
    rw [identifiers, parted, Std.OrientedOrd.eq_swap (a := y) (b := x)]
    refine agree_iff strict (fun below => pre_render_lt below ?_ xs ys) fun above => ?_
    · rintro t rfl
      exact qWritten t (by simp [two])
    · rw [← Std.OrientedOrd.eq_swap] at above ⊢
      refine pre_render_lt above ?_ ys xs
      rintro t rfl
      exact pWritten t (by simp [one])

theorem pre_agrees_iff {a b : String} (left : registryAccepts a = true) (right : registryAccepts b = true)
    (same : parts a = parts b) :
    compareKeys (semverKey a) (semverKey b) = compareText (sortKey a) (sortKey b) ↔
      PreOrderKept (preIdentifiers a) (preIdentifiers b) := by
  have texts : compareText (sortKey a) (sortKey b) = compare (preTag a) (preTag b) := by
    rw [compareText, sortKey_chars, sortKey_chars, same, compare_append_left, List.compare_cons_cons,
      Std.ReflOrd.compare_self, Ordering.eq_then]
  have keys : compareKeys (semverKey a) (semverKey b) =
      (compare (semverKey a).2.1 (semverKey b).2.1).then (compare (semverKey a).2.2 (semverKey b).2.2) := by
    rw [compareKeys, semverKey_parts, semverKey_parts, same, Std.ReflOrd.compare_self, Ordering.eq_then]
  have aWritten : ∀ t, .text t ∈ preIdentifiers a → ∀ char ∈ t, Written char := fun t => preIdentifiers_written left
  have bWritten : ∀ t, .text t ∈ preIdentifiers b → ∀ char ∈ t, Written char := fun t => preIdentifiers_written right
  rw [texts, keys]
  unfold semverKey preTag
  unfold preIdentifiers at aWritten bWritten ⊢
  revert aWritten bWritten
  cases pre a with
  | none =>
    intro _ _
    cases pre b with
    | none => exact iff_of_true rfl trivial
    | some q => exact iff_of_true rfl trivial
  | some p =>
    intro aWritten
    obtain ⟨x, xs, first⟩ := preParts_cons p
    cases pre b with
    | none =>
      intro _
      dsimp only [Option.elim]
      rw [first]
      exact iff_of_true rfl trivial
    | some q =>
      intro bWritten
      obtain ⟨y, ys, second⟩ := preParts_cons q
      dsimp only [Option.elim, preSortKey] at aWritten bWritten ⊢
      rw [List.compare_cons_cons, Std.ReflOrd.compare_self, Std.ReflOrd.compare_self, Ordering.eq_then,
        Ordering.eq_then]
      exact dotted_agrees_iff (by rw [first]; simp) (by rw [second]; simp) aWritten bWritten

theorem agrees_iff {a b : String} (left : registryAccepts a = true) (right : registryAccepts b = true) :
    compareKeys (semverKey a) (semverKey b) = compareText (sortKey a) (sortKey b) ↔ OrderKept a b := by
  unfold OrderKept
  cases found : firstDifference (parts a) (parts b) with
  | some difference => exact core_agrees_iff left right found
  | none =>
    rcases firstDifference_none found with same | ⟨y, rest, longer⟩ | ⟨x, rest, longer⟩
    · rw [pre_agrees_iff left right same]
      simp [same]
    · obtain ⟨keys, texts⟩ := core_extended longer
      rw [keys, texts]
      exact iff_of_true rfl fun same => absurd (same.trans longer) (by simp)
    · obtain ⟨keys, texts⟩ := core_extended longer
      rw [compareKeys_swap, compareText_swap, keys, texts]
      exact iff_of_true rfl fun same => absurd (same.symm.trans longer) (by simp)

end Agreement

def IsLatest (order : String → String → Ordering) (versions : List String) (version : String) : Prop :=
  ∀ other ∈ versions, order other version ≠ .gt

/-- The SQL order agrees with the Python order on two versions exactly when the sort keys keep the order
    of the first identifiers at which they differ, and on versions of which it does, the latest ones by
    either order are the same. -/
theorem sort_key_orders_as_semver_key_iff (a b : String) (left : registryAccepts a = true) (right : registryAccepts b = true) :
    (compareText (sortKey a) (sortKey b) = compareKeys (semverKey a) (semverKey b) ↔ OrderKept a b) ∧
    ∀ versions : List String, (∀ version ∈ versions, registryAccepts version = true) →
      (∀ a ∈ versions, ∀ b ∈ versions, OrderKept a b) → ∀ version ∈ versions,
        (IsLatest (fun a b => compareText (sortKey a) (sortKey b)) versions version ↔
          IsLatest (fun a b => compareKeys (semverKey a) (semverKey b)) versions version) := by
  refine ⟨by rw [eq_comm]; exact agrees_iff left right, ?_⟩
  intro versions known kept version listed
  refine forall_congr' fun other => imp_congr_right fun present => ?_
  dsimp only
  rw [(agrees_iff (known other present) (known version listed)).mpr (kept other present version listed)]

theorem sort_key_orders_releases : compareText (sortKey "1.2.0-rc.1") (sortKey "1.10.0") =
    compareKeys (semverKey "1.2.0-rc.1") (semverKey "1.10.0") := by
  refine (sort_key_orders_as_semver_key_iff "1.2.0-rc.1" "1.10.0" (by decide +kernel) (by decide +kernel)).1.mpr ?_
  have found : firstDifference (parts "1.2.0-rc.1") (parts "1.10.0") =
      some ((.numeric 2, [.numeric 0]), (.numeric 10, [.numeric 0])) := by decide +kernel
  rw [OrderKept, found]
  exact ⟨fun _ => .inl (by decide), fun above => by cases above⟩

/-- A numeric identifier of thirteen digits, and a prerelease identifier that goes on with a hyphen,
    sort the wrong way round; dotted build metadata ties with undotted. -/
theorem sort_key_reorders :
    compareText (sortKey "1000000000000.0.0") (sortKey "999999999999.0.0") = .lt ∧
      compareKeys (semverKey "1000000000000.0.0") (semverKey "999999999999.0.0") = .gt ∧
    compareText (sortKey "1.0.0-rc.1") (sortKey "1.0.0-rc-1") = .gt ∧
      compareKeys (semverKey "1.0.0-rc.1") (semverKey "1.0.0-rc-1") = .lt ∧
    compareText (sortKey "1.0.0+a.b") (sortKey "1.0.0+asb") = .eq ∧
      compareKeys (semverKey "1.0.0+a.b") (semverKey "1.0.0+asb") = .lt ∧
    (∀ version ∈ ["1000000000000.0.0", "999999999999.0.0", "1.0.0-rc.1", "1.0.0-rc-1", "1.0.0+a.b", "1.0.0+asb"],
      registryAccepts version = true) := by
  decide +kernel

end Registry.Semver
