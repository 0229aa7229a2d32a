import Mathlib.Data.List.Forall2
import Mathlib.Data.List.TakeWhile
import OpenAgentHub.Lib.Double
import OpenAgentHub.Lib.Lexical
import OpenAgentHub.Lib.Text

namespace Sdk

section Comparison

/-- Whether a minus leads, and the text without its sign. -/
def withoutSign : List Char → Bool × List Char
  | '-' :: rest => (true, rest)
  | '+' :: rest => (false, rest)
  | text => (false, text)

/-- `parseInt(part, 10)`; `none` is NaN. -/
def parseInt (part : List Char) : Option Int :=
  let (negative, unsigned) := withoutSign (part.dropWhile Text.isBlank)
  let digits := unsigned.takeWhile Char.isDigit
  if digits = [] then none
  else
    let size : Int := Double.ofNat (Lexical.value digits)
    some (if negative then -size else size)

/-- No comparison with NaN holds. -/
def compareNumeric : Option Int → Option Int → Int
  | some a, some b => if a = b then 0 else if a > b then 1 else -1
  | _, _ => -1

/-- `replace(/^[vV]/, "")`. -/
def withoutV : List Char → List Char
  | 'v' :: rest => rest
  | 'V' :: rest => rest
  | text => text

/-- The parts of `replace(/^[vV]/, "").split(/[-+]/)[0].split(".")`. -/
def numericParts (text : List Char) : List (List Char) :=
  ((withoutV text).takeWhile fun char => char ≠ '-' ∧ char ≠ '+').splitOn '.'

def compareParts (pa pb : List (List Char)) : Int :=
  ((List.range (max pa.length pb.length)).findSome? fun i =>
    let c := compareNumeric (parseInt (pa[i]?.getD ['0'])) (parseInt (pb[i]?.getD ['0']))
    if c ≠ 0 then some c else none).getD 0

def compareVersions (a b : List Char) : Int := compareParts (numericParts a) (numericParts b)

end Comparison

section Specifiers

inductive Operator where
  | atLeast | atMost | above | below | equal | different | compatible
  deriving DecidableEq, Repr

def Operator.text : Operator → List Char
  | .atLeast => ['>', '=']
  | .atMost => ['<', '=']
  | .above => ['>']
  | .below => ['<']
  | .equal => ['=', '=']
  | .different => ['!', '=']
  | .compatible => ['~', '=']

/-- In the order of the alternation in the pattern of a clause. -/
def operators : List Operator := [.atLeast, .atMost, .above, .below, .equal, .different, .compatible]

/-- `\s*([0-9][0-9.]*)`. -/
def wantedVersion (text : List Char) : Option (List Char) :=
  match text.dropWhile Text.isBlank with
  | digit :: rest =>
    if digit.isDigit then some (digit :: rest.takeWhile fun char => char.isDigit || char == '.') else none
  | [] => none

/-- `/^(>=|<=|>|<|==|!=|~=)?\s*([0-9][0-9.]*)/`, with `==` where there is no operator. -/
def matchClause (spec : List Char) : Option (Operator × List Char) :=
  (operators.findSome? fun op =>
    if op.text <+: spec then (wantedVersion (spec.drop op.text.length)).map fun want => (op, want) else none).or
  ((wantedVersion spec).map fun want => (.equal, want))

/-- `replace(/^python\s*/, "")`. -/
def withoutPython (text : List Char) : List Char :=
  if "python".toList <+: text then (text.drop 6).dropWhile Text.isBlank else text

def clauseSatisfied (clean spec : List Char) : Bool :=
  match matchClause spec with
  | none => true
  | some (op, want) =>
    let c := compareVersions clean want
    match op with
    | .atLeast => decide (c ≥ 0)
    | .atMost => decide (c ≤ 0)
    | .above => decide (c > 0)
    | .below => decide (c < 0)
    | .compatible => decide (c ≥ 0) && (clean.splitOn '.').head? == (want.splitOn '.').head?
    | .different => decide (c ≠ 0)
    | .equal => decide (c = 0)

/-- An undefined or empty text demands nothing. -/
def versionSatisfies (version specifier : List Char) : Bool :=
  if version = [] ∨ specifier = [] then true
  else
    let clean := withoutPython (withoutV version)
    let specs := ((specifier.splitOn ',').map Text.trim).filter (· ≠ [])
    specs.all (clauseSatisfied clean)

example : versionSatisfies "3.11.2".toList ">=3.11, <3.13".toList = true ∧
    versionSatisfies "3.12".toList "~=3.11.2".toList = true := by decide +kernel

end Specifiers

section Releases

structure Release where
  components : List (List Char)
  some : components ≠ []
  digits : ∀ component ∈ components, component ≠ [] ∧ Lexical.AllDigits component

def Release.text (release : Release) : List Char := ['.'].intercalate release.components

def Release.numbers (release : Release) : List Nat := release.components.map Lexical.value

def Release.doubles (release : Release) : List Nat := release.numbers.map Double.ofNat

def releaseOrder : List Nat → List Nat → Ordering
  | [], [] => .eq
  | [], n :: ns => (compare 0 n).then (releaseOrder [] ns)
  | m :: ms, [] => (compare m 0).then (releaseOrder ms [])
  | m :: ms, n :: ns => (compare m n).then (releaseOrder ms ns)

/-- `== a.b.….y.*` for the release `a.b.….y.z`. -/
def Matches (version wanted : List Nat) : Prop :=
  ∀ place < wanted.length - 1, version.getD place 0 = wanted.getD place 0

instance (version wanted : List Nat) : Decidable (Matches version wanted) :=
  inferInstanceAs (Decidable (∀ place < wanted.length - 1, version.getD place 0 = wanted.getD place 0))

structure Clause where
  op : Operator
  wanted : Release
  before : List Char := []
  gap : List Char := []
  after : List Char := []
  blank : ∀ char ∈ before ++ gap ++ after, Text.isBlank char = true

def Clause.core (clause : Clause) : List Char := clause.op.text ++ (clause.gap ++ clause.wanted.text)

def Clause.text (clause : Clause) : List Char := clause.before ++ clause.core ++ clause.after

def specifierText (clauses : List Clause) : List Char := [','].intercalate (clauses.map Clause.text)

def Operator.holds : Operator → Ordering → Prop
  | .atLeast, order | .compatible, order => order ≠ .lt
  | .atMost, order => order ≠ .gt
  | .above, order => order = .gt
  | .below, order => order = .lt
  | .equal, order => order = .eq
  | .different, order => order ≠ .eq

instance (op : Operator) (order : Ordering) : Decidable (op.holds order) := by
  cases op <;> unfold Operator.holds <;> infer_instance

/-- PEP 440 on release segments. -/
def Clause.Satisfied (clause : Clause) (version : Release) : Prop :=
  clause.op.holds (releaseOrder version.numbers clause.wanted.numbers) ∧
    (clause.op = .compatible → Matches version.numbers clause.wanted.numbers)

def Clause.Coarsely (clause : Clause) (version : Release) : Prop :=
  clause.op.holds (releaseOrder version.doubles clause.wanted.doubles) ∧
    (clause.op = .compatible → version.components.head? = clause.wanted.components.head?)

end Releases

section Texts

theorem Release.component_plain {release : Release} {component : List Char} (present : component ∈ release.components)
    {char : Char} (member : char ∈ component) : char.isDigit = true :=
  (release.digits component present).2 char member

theorem digit_range {char : Char} (digit : char.isDigit = true) : 48 ≤ char.toNat ∧ char.toNat ≤ 57 := by
  simpa [Char.isDigit, UInt32.le_iff_toNat_le] using digit

theorem digit_not_blank {char : Char} (digit : char.isDigit = true) : Text.isBlank char = false := by
  have range := digit_range digit
  simp only [Text.isBlank, Bool.or_eq_false_iff, Bool.and_eq_false_iff, decide_eq_false_iff_not, beq_eq_false_iff_ne]
  omega

theorem digit_ne {char other : Char} (digit : char.isDigit = true) (plain : other.isDigit = false) : char ≠ other := by
  rintro rfl
  rw [digit] at plain
  cases plain

theorem Release.text_split (release : Release) : release.text.splitOn '.' = release.components := by
  apply List.splitOn_intercalate _ _ release.some
  intro component present dot
  exact absurd (release.component_plain present dot) (by decide)

theorem Release.text_mem {release : Release} {char : Char} (member : char ∈ release.text) :
    char.isDigit = true ∨ char = '.' := by
  by_cases dot : char = '.'
  · exact .inr dot
  · left
    obtain ⟨component, present, here⟩ := (Lexical.mem_splitOn '.' char release.text).mpr ⟨member, dot⟩
    rw [release.text_split] at present
    exact release.component_plain present here

theorem Release.text_cons (release : Release) : ∃ digit rest, release.text = digit :: rest ∧ digit.isDigit = true := by
  obtain ⟨first, others, components⟩ := List.exists_cons_of_ne_nil release.some
  have known : first ∈ release.components := by rw [components]; exact List.mem_cons_self
  obtain ⟨digit, rest, same⟩ := List.exists_cons_of_ne_nil (release.digits first known).1
  have isDigit : digit.isDigit = true := release.component_plain known (by rw [same]; exact List.mem_cons_self)
  unfold Release.text
  rw [components, same]
  cases others with
  | nil => exact ⟨digit, rest, List.intercalate_singleton, isDigit⟩
  | cons next others => exact ⟨digit, _, List.intercalate_cons_cons, isDigit⟩

theorem Release.text_ne {release : Release} {char other : Char} (member : char ∈ release.text)
    (plain : other.isDigit = false) (undotted : other ≠ '.') : char ≠ other := by
  rcases release.text_mem member with digit | rfl
  · exact digit_ne digit plain
  · exact Ne.symm undotted

end Texts

section Reading

variable {release : Release} {clause : Clause}

theorem withoutV_text : withoutV release.text = release.text := by
  obtain ⟨digit, rest, same, isDigit⟩ := release.text_cons
  rw [same]
  unfold withoutV
  split
  · rename_i heads
    cases heads
    exact absurd isDigit (by decide)
  · rename_i heads
    cases heads
    exact absurd isDigit (by decide)
  · rfl

theorem numericParts_text : numericParts release.text = release.components := by
  have whole : (release.text.takeWhile fun char => char ≠ '-' ∧ char ≠ '+') = release.text := by
    apply List.takeWhile_eq_self_iff.mpr
    intro char member
    have minus := @Release.text_ne _ _ '-' member (by decide) (by decide)
    have plus := @Release.text_ne _ _ '+' member (by decide) (by decide)
    simp [minus, plus]
  unfold numericParts
  rw [withoutV_text, whole, release.text_split]

theorem parseInt_component {component : List Char} (some_digits : component ≠ []) (digits : Lexical.AllDigits component) :
    parseInt component = some (Double.ofNat (Lexical.value component) : Int) := by
  obtain ⟨digit, rest, rfl⟩ := List.exists_cons_of_ne_nil some_digits
  have isDigit := digits digit List.mem_cons_self
  have front : (digit :: rest).dropWhile Text.isBlank = digit :: rest := by
    rw [List.dropWhile_cons_of_neg (by simp [digit_not_blank isDigit])]
  have whole : (digit :: rest).takeWhile Char.isDigit = digit :: rest := List.takeWhile_eq_self_iff.mpr digits
  have unsigned : withoutSign (digit :: rest) = (false, digit :: rest) := by
    unfold withoutSign
    split
    · rename_i heads
      cases heads
      exact absurd isDigit (by decide)
    · rename_i heads
      cases heads
      exact absurd isDigit (by decide)
    · rfl
  unfold parseInt
  rw [front, unsigned]
  dsimp only
  rw [whole, if_neg some_digits, if_neg (by decide)]

theorem wantedVersion_text (gap : List Char) (blank : ∀ char ∈ gap, Text.isBlank char = true) :
    wantedVersion (gap ++ release.text) = some release.text := by
  obtain ⟨digit, rest, same, isDigit⟩ := release.text_cons
  have start : (gap ++ release.text).dropWhile Text.isBlank = digit :: rest := by
    rw [List.dropWhile_append_of_pos blank, same, List.dropWhile_cons_of_neg (by simp [digit_not_blank isDigit])]
  have whole : (rest.takeWhile fun char => char.isDigit || char == '.') = rest := by
    apply List.takeWhile_eq_self_iff.mpr
    intro char member
    have known := @Release.text_mem release char (by rw [same]; exact List.mem_cons_of_mem _ member)
    simpa using known
  unfold wantedVersion
  rw [start]
  dsimp only
  rw [if_pos isDigit, whole, same]

theorem Clause.core_start (clause : Clause) :
    ∃ next rest, clause.gap ++ clause.wanted.text = next :: rest ∧ next ≠ '=' := by
  obtain ⟨digit, others, same, isDigit⟩ := clause.wanted.text_cons
  cases gap : clause.gap with
  | nil => exact ⟨digit, others, same, digit_ne isDigit (by decide)⟩
  | cons next rest =>
    refine ⟨next, rest ++ clause.wanted.text, rfl, ?_⟩
    rintro rfl
    have blank := clause.blank '=' (by simp [gap])
    exact absurd blank (by decide)

/-- The pattern finds the operator and the wanted version. -/
theorem matchClause_core (clause : Clause) : matchClause clause.core = some (clause.op, clause.wanted.text) := by
  obtain ⟨next, rest, same, other⟩ := clause.core_start
  have wanted : wantedVersion (next :: rest) = some clause.wanted.text := by
    rw [← same]
    exact wantedVersion_text clause.gap fun char member => clause.blank char (by simp [member])
  unfold matchClause Clause.core
  rw [same]
  cases clause.op <;> simp [operators, Operator.text, wanted, Ne.symm other]

end Reading

section Trimming

theorem trim_padded {before core after : List Char} (left : ∀ char ∈ before, Text.isBlank char = true)
    (right : ∀ char ∈ after, Text.isBlank char = true) (first : ∀ char ∈ core.head?, Text.isBlank char = false)
    (last : ∀ char ∈ core.getLast?, Text.isBlank char = false) (some_text : core ≠ []) :
    Text.trim (before ++ core ++ after) = core := by
  have front : (before ++ core ++ after).dropWhile Text.isBlank = core ++ after := by
    rw [List.append_assoc, List.dropWhile_append_of_pos left]
    obtain ⟨char, rest, rfl⟩ := List.exists_cons_of_ne_nil some_text
    rw [List.cons_append, List.dropWhile_cons_of_neg (by simp [first char rfl])]
  have back : (core ++ after).reverse.dropWhile Text.isBlank = core.reverse := by
    rw [List.reverse_append, List.dropWhile_append_of_pos (by simpa using right)]
    obtain ⟨rest, char, rfl⟩ := (List.eq_nil_or_concat core).resolve_left some_text
    rw [List.concat_eq_append, List.reverse_concat, List.dropWhile_cons_of_neg (by simp [last char (by simp)])]
  unfold Text.trim
  rw [front, back, List.reverse_reverse]

theorem Operator.text_cons (op : Operator) : ∃ char rest, op.text = char :: rest ∧ Text.isBlank char = false := by
  cases op <;> exact ⟨_, _, rfl, by decide⟩

theorem Clause.core_ne_nil (clause : Clause) : clause.core ≠ [] := by
  obtain ⟨char, rest, same, _⟩ := clause.op.text_cons
  unfold Clause.core
  rw [same]
  exact List.cons_ne_nil _ _

theorem Clause.trim_text (clause : Clause) : Text.trim clause.text = clause.core := by
  unfold Clause.text
  apply trim_padded (fun char member => clause.blank char (by simp [member]))
    (fun char member => clause.blank char (by simp [member])) _ _ clause.core_ne_nil
  · intro char head
    obtain ⟨start, rest, same, dark⟩ := clause.op.text_cons
    unfold Clause.core at head
    rw [same] at head
    cases head
    exact dark
  · intro char last
    obtain ⟨digit, rest, same, _⟩ := clause.wanted.text_cons
    have some_text : clause.wanted.text ≠ [] := by rw [same]; exact List.cons_ne_nil _ _
    unfold Clause.core at last
    rw [← List.append_assoc, List.getLast?_append_of_ne_nil _ some_text] at last
    rcases Release.text_mem (List.mem_of_getLast? last) with digit | rfl
    · exact digit_not_blank digit
    · decide

theorem Clause.text_no_comma (clause : Clause) : ',' ∉ clause.text := by
  intro member
  unfold Clause.text Clause.core at member
  simp only [List.mem_append] at member
  have plain : ∀ char, Text.isBlank char = true → char ≠ ',' := by
    rintro char blank rfl
    exact absurd blank (by decide)
  rcases member with (before | op | gap | wanted) | after
  · exact plain _ (clause.blank _ (by simp [before])) rfl
  · revert op
    cases clause.op <;> decide
  · exact plain _ (clause.blank _ (by simp [gap])) rfl
  · exact Release.text_ne wanted (by decide) (by decide) rfl
  · exact plain _ (clause.blank _ (by simp [after])) rfl

/-- The clauses are what the specifier is cut into. -/
theorem specifier_split {clauses : List Clause} (some_clauses : clauses ≠ []) :
    (((specifierText clauses).splitOn ',').map Text.trim).filter (· ≠ []) = clauses.map Clause.core := by
  unfold specifierText
  rw [List.splitOn_intercalate _ (by simpa using fun clause _ => clause.text_no_comma) (by simpa using some_clauses),
    List.map_map]
  have cores : clauses.map (Text.trim ∘ Clause.text) = clauses.map Clause.core :=
    List.map_congr_left fun clause _ => clause.trim_text
  rw [cores, List.filter_eq_self]
  intro core member
  obtain ⟨clause, _, rfl⟩ := List.mem_map.mp member
  simpa using clause.core_ne_nil

end Trimming

section Orders

def sign : Ordering → Int
  | .lt => -1
  | .eq => 0
  | .gt => 1

theorem compareNumeric_nat (m n : Nat) : compareNumeric (some m) (some n) = sign (compare m n) := by
  unfold compareNumeric
  dsimp only
  rcases Nat.lt_trichotomy m n with less | rfl | greater
  · rw [Nat.compare_eq_lt.mpr less, if_neg (by omega), if_neg (by omega)]
    rfl
  · rw [Nat.compare_eq_eq.mpr rfl, if_pos rfl]
    rfl
  · rw [Nat.compare_eq_gt.mpr greater, if_neg (by omega), if_pos (by omega)]
    rfl

def Numeric (component : List Char) (number : Nat) : Prop := parseInt component = some (number : Int)

theorem numeric_zero : Numeric ['0'] 0 := by
  have zero : Double.ofNat (Lexical.value ['0']) = 0 := Double.ofNat_zero
  unfold Numeric
  rw [parseInt_component (by simp) (by simp [Lexical.AllDigits]), zero]

/-- The loop over the components decides at the first that differ. -/
theorem compareParts_step (pa pb : List (List Char)) {pa' pb' : List (List Char)} {m n : Nat}
    (longer : max pa.length pb.length = max pa'.length pb'.length + 1) (left : Numeric (pa[0]?.getD ['0']) m)
    (right : Numeric (pb[0]?.getD ['0']) n) (leftRest : ∀ i, pa[i + 1]? = pa'[i]?) (rightRest : ∀ i, pb[i + 1]? = pb'[i]?)
    {rest : Ordering} (decided : compareParts pa' pb' = sign rest) :
    compareParts pa pb = sign ((compare m n).then rest) := by
  unfold Numeric at left right
  unfold compareParts at decided ⊢
  rw [longer, Lexical.findSome_range]
  dsimp only
  rw [left, right, compareNumeric_nat]
  simp only [leftRest, rightRest]
  cases order : compare m n with
  | lt => rfl
  | gt => rfl
  | eq => exact decided

theorem compareParts_order {pa pb : List (List Char)} {ms ns : List Nat} (left : List.Forall₂ Numeric pa ms)
    (right : List.Forall₂ Numeric pb ns) : compareParts pa pb = sign (releaseOrder ms ns) := by
  fun_induction releaseOrder ms ns generalizing pa pb with
  | case1 =>
    cases left
    cases right
    rfl
  | case2 n ns ih =>
    cases left
    cases right with
    | cons first rest =>
      refine compareParts_step [] (_ :: _) ?_ numeric_zero first (fun _ => rfl) (fun _ => rfl) (ih .nil rest)
      simp
  | case3 m ms ih =>
    cases right
    cases left with
    | cons first rest =>
      refine compareParts_step (_ :: _) [] ?_ first numeric_zero (fun _ => rfl) (fun _ => rfl) (ih rest .nil)
      simp
  | case4 m ms n ns ih =>
    cases left with
    | cons first rest =>
      cases right with
      | cons first' rest' =>
        refine compareParts_step (_ :: _) (_ :: _) ?_ first first' (fun _ => rfl) (fun _ => rfl) (ih rest rest')
        exact Nat.succ_max_succ _ _

theorem Release.numeric (release : Release) : List.Forall₂ Numeric release.components release.doubles := by
  unfold Release.doubles Release.numbers
  rw [List.map_map, List.forall₂_map_right_iff]
  apply List.forall₂_same.mpr
  intro component present
  obtain ⟨some_digits, digits⟩ := release.digits component present
  exact parseInt_component some_digits digits

theorem compareVersions_text (version wanted : Release) :
    compareVersions version.text wanted.text = sign (releaseOrder version.doubles wanted.doubles) := by
  unfold compareVersions
  rw [numericParts_text, numericParts_text]
  exact compareParts_order version.numeric wanted.numeric

theorem sign_holds (op : Operator) (order : Ordering) : op.holds order ↔
    match op with
    | .atLeast | .compatible => sign order ≥ 0
    | .atMost => sign order ≤ 0
    | .above => sign order > 0
    | .below => sign order < 0
    | .different => sign order ≠ 0
    | .equal => sign order = 0 := by
  cases op <;> cases order <;> decide

end Orders

section Verdicts

/-- The code judges a clause by the rounded numbers and by the texts of the first components. -/
theorem clauseSatisfied_iff (clause : Clause) (version : Release) :
    clauseSatisfied version.text clause.core = true ↔ clause.Coarsely version := by
  have ordered := sign_holds clause.op (releaseOrder version.doubles clause.wanted.doubles)
  unfold clauseSatisfied Clause.Coarsely
  rw [matchClause_core, ordered]
  dsimp only
  rw [compareVersions_text, version.text_split, clause.wanted.text_split]
  cases clause.op <;> simp

theorem withoutPython_text (version : Release) : withoutPython (withoutV version.text) = version.text := by
  obtain ⟨digit, rest, same, isDigit⟩ := version.text_cons
  rw [withoutV_text]
  unfold withoutPython
  rw [if_neg]
  rw [same]
  intro prefixed
  have start : digit = 'p' := ((List.cons_prefix_cons (a := 'p')).mp prefixed).1.symm
  exact digit_ne isDigit (by decide) start

theorem specifierText_ne_nil {clauses : List Clause} (some_clauses : clauses ≠ []) : specifierText clauses ≠ [] := by
  intro empty
  have pieces := specifier_split some_clauses
  rw [empty] at pieces
  obtain ⟨clause, rest, rfl⟩ := List.exists_cons_of_ne_nil some_clauses
  exact absurd pieces (by simp [Text.trim])

theorem versionSatisfies_iff (version : Release) (clauses : List Clause) :
    versionSatisfies version.text (specifierText clauses) = true ↔ ∀ clause ∈ clauses, clause.Coarsely version := by
  obtain ⟨digit, rest, same, _⟩ := version.text_cons
  unfold versionSatisfies
  by_cases none : clauses = []
  · subst none
    simp [specifierText]
  · rw [if_neg (by simp [same, specifierText_ne_nil none])]
    dsimp only
    rw [specifier_split none, withoutPython_text, List.all_map, List.all_eq_true]
    apply forall₂_congr
    intro clause _
    exact clauseSatisfied_iff clause version

/-- The rounded numbers satisfy the clause, and the first components agree where it is a compatible
    release, but the exact numbers do not satisfy it, or the version is not of that release. -/
def Clause.Overlooked (clause : Clause) (version : Release) : Prop :=
  clause.op.holds (releaseOrder version.doubles clause.wanted.doubles) ∧
    (clause.op = .compatible → version.components.head? = clause.wanted.components.head?) ∧
    (¬ clause.op.holds (releaseOrder version.numbers clause.wanted.numbers) ∨
      (clause.op = .compatible ∧ ¬ Matches version.numbers clause.wanted.numbers))

/-- The version satisfies the clause, but its rounded numbers do not, or the first components of a
    compatible release are written differently. -/
def Clause.Refused (clause : Clause) (version : Release) : Prop :=
  clause.op.holds (releaseOrder version.numbers clause.wanted.numbers) ∧
    (clause.op = .compatible → Matches version.numbers clause.wanted.numbers) ∧
    (¬ clause.op.holds (releaseOrder version.doubles clause.wanted.doubles) ∨
      (clause.op = .compatible ∧ version.components.head? ≠ clause.wanted.components.head?))

theorem Clause.overlooked_iff {clause : Clause} {version : Release} :
    clause.Overlooked version ↔ clause.Coarsely version ∧ ¬ clause.Satisfied version := by
  unfold Clause.Overlooked Clause.Coarsely Clause.Satisfied
  tauto

theorem Clause.refused_iff {clause : Clause} {version : Release} :
    clause.Refused version ↔ clause.Satisfied version ∧ ¬ clause.Coarsely version := by
  unfold Clause.Refused Clause.Coarsely Clause.Satisfied
  tauto

/-- An overlooked clause comes with one that rejects the version all the same, and a refused one with
    one that the version does not satisfy. -/
def RightlyJudged (version : Release) (clauses : List Clause) : Prop :=
  ((∃ clause ∈ clauses, clause.Overlooked version) →
    ∃ clause ∈ clauses, clause.Refused version ∨ (¬ clause.Satisfied version ∧ ¬ clause.Overlooked version)) ∧
  ((∃ clause ∈ clauses, clause.Refused version) → ∃ clause ∈ clauses, ¬ clause.Satisfied version)

theorem Release.doubles_of_exact {release : Release} (exact_numbers : ∀ number ∈ release.numbers, Double.ofNat number = number) :
    release.doubles = release.numbers := by
  unfold Release.doubles
  rw [List.map_congr_left exact_numbers, List.map_id']

/-- Where a double holds every number, only a compatible release is judged wrongly. -/
theorem Clause.misjudged_of_exact {clause : Clause} {version : Release}
    (version_exact : ∀ number ∈ version.numbers, Double.ofNat number = number)
    (wanted_exact : ∀ number ∈ clause.wanted.numbers, Double.ofNat number = number) :
    (clause.Overlooked version ∨ clause.Refused version) ↔
      clause.op = .compatible ∧ releaseOrder version.numbers clause.wanted.numbers ≠ .lt ∧
        ¬ (version.components.head? = clause.wanted.components.head? ↔ Matches version.numbers clause.wanted.numbers) := by
  unfold Clause.Overlooked Clause.Refused
  rw [Release.doubles_of_exact version_exact, Release.doubles_of_exact wanted_exact]
  by_cases compatible : clause.op = .compatible
  · have ordered : clause.op.holds (releaseOrder version.numbers clause.wanted.numbers) ↔
        releaseOrder version.numbers clause.wanted.numbers ≠ .lt := by rw [compatible]; rfl
    rw [ordered]
    tauto
  · tauto

/-- The answer is that of PEP 440 exactly where no clause is overlooked or refused alone. -/
theorem version_satisfies_iff_rightly_judged (version : Release) (clauses : List Clause) :
    (versionSatisfies version.text (specifierText clauses) = true ↔ ∀ clause ∈ clauses, clause.Satisfied version) ↔
      RightlyJudged version clauses := by
  rw [versionSatisfies_iff]
  unfold RightlyJudged
  constructor
  · intro agrees
    constructor
    · rintro ⟨clause, listed, overlooked⟩
      by_contra accepted
      push Not at accepted
      obtain ⟨_, unsatisfied⟩ := Clause.overlooked_iff.mp overlooked
      apply unsatisfied
      apply agrees.mp _ clause listed
      intro other member
      by_contra rejected
      by_cases satisfied : other.Satisfied version
      · exact (accepted other member).1 (Clause.refused_iff.mpr ⟨satisfied, rejected⟩)
      · have overlooked := (accepted other member).2 satisfied
        exact rejected (Clause.overlooked_iff.mp overlooked).1
    · rintro ⟨clause, listed, refused⟩
      by_contra satisfied
      push Not at satisfied
      exact (Clause.refused_iff.mp refused).2 (agrees.mpr satisfied clause listed)
  · rintro ⟨outvoted, joined⟩
    constructor
    · intro coarse clause listed
      by_contra unsatisfied
      obtain ⟨other, member, refused | ⟨rejected, seen⟩⟩ :=
        outvoted ⟨clause, listed, Clause.overlooked_iff.mpr ⟨coarse clause listed, unsatisfied⟩⟩
      · exact (Clause.refused_iff.mp refused).2 (coarse other member)
      · exact seen (Clause.overlooked_iff.mpr ⟨coarse other member, rejected⟩)
    · intro satisfied clause listed
      by_contra rejected
      obtain ⟨other, member, unsatisfied⟩ :=
        joined ⟨clause, listed, Clause.refused_iff.mpr ⟨satisfied clause listed, rejected⟩⟩
      exact unsatisfied (satisfied other member)

def python312 : Release where
  components := [['3'], ['1', '2']]
  some := by simp
  digits := by simp [Lexical.AllDigits]

/-- `~=3.11.2`. -/
def compatible3112 : Clause where
  op := .compatible
  wanted := { components := [['3'], ['1', '1'], ['2']], some := by simp, digits := by simp [Lexical.AllDigits] }
  blank := by simp

theorem newer_minor_accepted :
    ¬ (versionSatisfies python312.text (specifierText [compatible3112]) = true ↔
      ∀ clause ∈ [compatible3112], clause.Satisfied python312) := by
  have accepted : versionSatisfies python312.text (specifierText [compatible3112]) = true := by decide +kernel
  have other : ¬ Matches python312.numbers compatible3112.wanted.numbers := by decide +kernel
  intro agrees
  exact other ((agrees.mp accepted compatible3112 (by simp)).2 rfl)

end Verdicts

end Sdk
