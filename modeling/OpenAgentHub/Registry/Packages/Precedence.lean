import Mathlib.Data.List.TakeWhile
import Mathlib.Order.Defs.Unbundled
import OpenAgentHub.Registry.Packages.VersionOrder

namespace Registry.Semver

open Lexical

section Rules

/-- Precedence of two prerelease identifiers: numbers by value, below all others, which go by their
    characters. -/
inductive IdentifierBelow (x y : List Char) : Prop where
  | numbers (left : AllDigits x) (right : AllDigits y) (less : value x < value y)
  | mixed (left : AllDigits x) (right : ¬ AllDigits y)
  | texts (left : ¬ AllDigits x) (right : ¬ AllDigits y) (less : x < y)

/-- A prerelease is below its release; of two prereleases the first different identifier decides, and
    a list is below those that extend it. -/
inductive PrereleaseBelow : Option (List (List Char)) → Option (List (List Char)) → Prop where
  | release {xs : List (List Char)} : PrereleaseBelow (some xs) none
  | identifiers {xs ys : List (List Char)} (less : List.Lex IdentifierBelow xs ys) :
      PrereleaseBelow (some xs) (some ys)

def inAscii (part : List Char) : List Char := if part.all isDecimal then part.map toAscii else part

def coreNumbers (version : String) : List Nat :=
  ((cut '-' (chomp version.toList)).1.splitOn '.').map fun part => value (inAscii part)

def prerelease (version : String) : Option (List (List Char)) :=
  (cut '-' (chomp version.toList)).2.map fun text => (text.splitOn '.').map inAscii

/-- The precedence of SemVer 2.0.0, over versions without build metadata. -/
def Precedes (a b : String) : Prop :=
  coreNumbers a < coreNumbers b ∨
    (coreNumbers a = coreNumbers b ∧ PrereleaseBelow (prerelease a) (prerelease b))

/-- A version that the schema's pattern accepts, without build metadata. -/
structure PlainVersion where
  text : String
  known : registryAccepts text = true
  plain : '+' ∉ text.toList

/-- The keys order two versions by their precedence, and tell distinct ones apart. -/
structure KeysTell (a b : String) : Prop where
  below : compareKeys (semverKey a) (semverKey b) = .lt ↔ Precedes a b
  above : compareKeys (semverKey a) (semverKey b) = .gt ↔ Precedes b a
  apart : a ≠ b → semverKey a ≠ semverKey b

/-- Without the newline, what ends a version may be a number after all. -/
def Identifier.bare : Identifier → Identifier
  | .numeric value => .numeric value
  | .text chars => identifier (chomp chars)

def released (version : String) : Nat := (pre version).elim 1 fun _ => 0

/-- The first identifiers that `semver_key` tells apart are in the order that they have without a newline, or, where
    they are the same without it, in that of a prerelease and its release; and versions of which it tells no
    identifiers apart are one text. -/
def Told (a b : String) : Prop :=
  match firstDifference (parts a) (parts b) with
  | some ((x, _), (y, _)) => compare x y = (compare x.bare y.bare).then (compare (released a) (released b))
  | none =>
    match firstDifference (preIdentifiers a) (preIdentifiers b) with
    | some ((x, _), (y, _)) => compare x y = compare x.bare y.bare
    | none => preIdentifiers a = preIdentifiers b → a = b

end Rules

section Fields

theorem decimal_of_isDigit {char : Char} (digit : char.isDigit = true) : decimal char = some (char.toNat - 48) := by
  obtain ⟨low, high⟩ := digit_bounds digit
  have found : decimalZeros.find? (fun first => first ≤ char.toNat && char.toNat < first + 10) = some 48 := by
    apply List.find?_cons_of_pos
    simp only [Bool.and_eq_true, decide_eq_true_eq]
    omega
  unfold decimal
  rw [found]
  rfl

theorem isDecimal_of_isDigit {char : Char} (digit : char.isDigit = true) : isDecimal char = true := by
  unfold isDecimal
  rw [decimal_of_isDigit digit]
  rfl

theorem toAscii_of_isDigit {char : Char} (digit : char.isDigit = true) : toAscii char = char := by
  obtain ⟨low, high⟩ := digit_bounds digit
  have digits : ∀ value : Fin 10, (Nat.digitChar value).toNat = value + 48 := by decide
  unfold toAscii
  rw [decimal_of_isDigit digit]
  apply Char.toNat_inj.mp
  have written := digits ⟨char.toNat - 48, by omega⟩
  exact written.trans (Nat.sub_add_cancel low)

theorem toAscii_isDigit {char : Char} (digit : isDecimal char = true) : (toAscii char).isDigit = true := by
  have digits : ∀ value : Fin 10, (Nat.digitChar value).isDigit = true := by decide
  unfold isDecimal at digit
  obtain ⟨value, isValue⟩ := Option.isSome_iff_exists.mp digit
  have small : value < 10 := by
    unfold decimal at isValue
    obtain ⟨first, found, rfl⟩ := Option.map_eq_some_iff.mp isValue
    have reached := List.find?_some found
    simp only [Bool.and_eq_true, decide_eq_true_eq] at reached
    omega
  unfold toAscii
  rw [isValue]
  exact digits ⟨value, small⟩

def asciiIdentifier (part : List Char) : Identifier :=
  if part.all Char.isDigit then .numeric (value part) else .text part

theorem all_isDigit {part : List Char} : part.all Char.isDigit = true ↔ AllDigits part := List.all_eq_true

theorem identifier_eq {part : List Char} (some : part ≠ []) : identifier part = asciiIdentifier (inAscii part) := by
  have isdigit_eq : isdigit part = part.all isDecimal := by simp [isdigit, some]
  unfold identifier inAscii asciiIdentifier
  rw [isdigit_eq]
  cases digits : part.all isDecimal with
  | true =>
    have ascii : AllDigits (part.map toAscii) := by
      intro char listed
      obtain ⟨digit, inPart, rfl⟩ := List.mem_map.mp listed
      exact toAscii_isDigit (List.all_eq_true.mp digits digit inPart)
    rw [if_pos rfl, if_pos rfl, if_pos (all_isDigit.mpr ascii)]
    rfl
  | false =>
    have letters : ¬ part.all Char.isDigit = true := by
      intro ascii
      have decimals : part.all isDecimal = true :=
        List.all_eq_true.mpr fun char listed => isDecimal_of_isDigit (all_isDigit.mp ascii char listed)
      rw [decimals] at digits
      cases digits
    rw [if_neg Bool.false_ne_true, if_neg Bool.false_ne_true, if_neg letters]

theorem isPrerelease_ne_nil {part : List Char} (known : isPrerelease isDecimal part = true) : part ≠ [] := by
  rintro rfl
  exact absurd known (by decide)

theorem isNumeric_isPrerelease {part : List Char} (numeric : isNumeric isDecimal part = true) :
    isPrerelease isDecimal part = true :=
  Bool.or_eq_true_iff.mpr (.inl numeric)

theorem isNumeric_inAscii {part : List Char} (numeric : isNumeric isDecimal part = true) :
    AllDigits (inAscii part) ∧ Unpadded (inAscii part) := by
  simp only [isNumeric, Bool.or_eq_true, Bool.and_eq_true, beq_iff_eq, Option.any_eq_true, List.all_eq_true] at numeric
  rcases numeric with rfl | ⟨⟨first, leads, digit, nonzero⟩, others⟩
  · exact ⟨all_isDigit.mp (by decide), .inl (by decide)⟩
  · obtain ⟨rest, rfl⟩ := List.head?_eq_some_iff.mp leads
    have decimals : (first :: rest).all isDecimal = true := by
      apply List.all_eq_true.mpr
      intro char listed
      rcases List.mem_cons.mp listed with rfl | inRest
      · exact isDecimal_of_isDigit digit
      · exact others char inRest
    unfold inAscii
    rw [if_pos decimals]
    constructor
    · intro char listed
      obtain ⟨other, inPart, rfl⟩ := List.mem_map.mp listed
      exact toAscii_isDigit (List.all_eq_true.mp decimals other inPart)
    · refine .inr ⟨_, _, List.map_cons, ?_⟩
      rw [toAscii_of_isDigit digit]
      exact bne_iff_ne.mp nonzero

theorem isPrerelease_unpadded {part : List Char} (known : isPrerelease isDecimal part = true)
    (digits : AllDigits (inAscii part)) : Unpadded (inAscii part) := by
  rcases Bool.or_eq_true_iff.mp known with numeric | words
  · exact (isNumeric_inAscii numeric).2
  · have decimals : part.all isDecimal = true := by
      unfold inAscii at digits
      split at digits
      · assumption
      · exact List.all_eq_true.mpr fun char listed => isDecimal_of_isDigit (digits char listed)
    have none : part.dropWhile isDecimal = [] := List.dropWhile_eq_nil_iff.mpr (List.all_eq_true.mp decimals)
    rw [none] at words
    cases words

theorem asciiIdentifier_inj {x y : List Char} (left : AllDigits x → Unpadded x) (right : AllDigits y → Unpadded y)
    (same : asciiIdentifier x = asciiIdentifier y) : x = y := by
  unfold asciiIdentifier at same
  split at same <;> split at same
  · rename_i xDigits yDigits
    have one := all_isDigit.mp xDigits
    have two := all_isDigit.mp yDigits
    exact value_inj one two (left one) (right two) (Identifier.numeric.inj same)
  · cases same
  · cases same
  · exact Identifier.text.inj same

theorem asciiIdentifier_lt_iff (x y : List Char) :
    compare (asciiIdentifier x) (asciiIdentifier y) = .lt ↔ IdentifierBelow x y := by
  unfold asciiIdentifier
  by_cases xDigits : AllDigits x <;> by_cases yDigits : AllDigits y
  · rw [if_pos (all_isDigit.mpr xDigits), if_pos (all_isDigit.mpr yDigits)]
    change compare (value x) (value y) = .lt ↔ _
    rw [Nat.compare_eq_lt]
    constructor
    · exact .numbers xDigits yDigits
    · rintro (⟨_, _, less⟩ | ⟨_, letters⟩ | ⟨letters⟩)
      · exact less
      · exact absurd yDigits letters
      · exact absurd xDigits letters
  · rw [if_pos (all_isDigit.mpr xDigits), if_neg fun digits => yDigits (all_isDigit.mp digits)]
    exact iff_of_true rfl (.mixed xDigits yDigits)
  · rw [if_neg (fun digits => xDigits (all_isDigit.mp digits)), if_pos (all_isDigit.mpr yDigits)]
    refine iff_of_false (by rintro ⟨⟩) ?_
    rintro (⟨digits⟩ | ⟨digits⟩ | ⟨_, letters⟩)
    · exact xDigits digits
    · exact xDigits digits
    · exact letters yDigits
  · rw [if_neg (fun digits => xDigits (all_isDigit.mp digits)), if_neg fun digits => yDigits (all_isDigit.mp digits)]
    change compare x y = .lt ↔ _
    constructor
    · intro less
      exact .texts xDigits yDigits ((compare_lt_iff (fun _ _ => compare_lt_iff_lt) x y).mp less)
    · rintro (⟨digits⟩ | ⟨digits⟩ | ⟨_, _, less⟩)
      · exact absurd digits xDigits
      · exact absurd digits xDigits
      · exact (compare_lt_iff (fun _ _ => compare_lt_iff_lt) x y).mpr less

end Fields

/-! ### Without the newline -/

section Bare

theorem pre_eq_cut (version : String) : pre version = (cut '-' version.toList).2 := by
  unfold pre cut
  dsimp only
  split
  · rename_i ends
    rw [ends]
    rfl
  · rename_i ends
    rw [ends]
    rfl

variable {text : List Char} {version : String}

theorem chomp_append (text : List Char) : chomp (text ++ ['\n']) = text := by
  unfold chomp
  rw [if_pos List.getLast?_concat, List.dropLast_concat]

theorem chomp_of_not_mem (absent : '\n' ∉ text) : chomp text = text := by
  refine if_neg fun ends => absent ?_
  exact List.mem_of_getLast? ends

theorem chomp_cases (text : List Char) : text = chomp text ∨ text = chomp text ++ ['\n'] := by
  unfold chomp
  by_cases ends : text.getLast? = some '\n'
  · rw [if_pos ends]
    exact .inr (List.dropLast_append_getLast? _ ends).symm
  · rw [if_neg ends]
    exact .inl rfl

theorem identifier_bare (part : List Char) : (identifier part).bare = identifier (chomp part) := by
  by_cases digits : isdigit part = true
  · have absent : '\n' ∉ part := by
      intro listed
      have digit := List.all_eq_true.mp (Bool.and_eq_true_iff.mp digits).2 '\n' listed
      exact absurd digit (by decide)
    rw [chomp_of_not_mem absent]
    unfold identifier
    rw [if_pos digits]
    rfl
  · have textual : identifier part = .text part := if_neg digits
    rw [textual]
    rfl

theorem splitOn_concat {α : Type} [DecidableEq α] {separator last : α} (other : last ≠ separator) (items : List α) :
    ∃ front piece, items.splitOn separator = front ++ [piece] ∧
      (items ++ [last]).splitOn separator = front ++ [piece ++ [last]] := by
  induction items with
  | nil =>
    refine ⟨[], [], rfl, ?_⟩
    rw [List.nil_append, splitOn_cons, if_neg other]
    rfl
  | cons first rest ih =>
    obtain ⟨front, piece, before, after⟩ := ih
    rw [List.cons_append, splitOn_cons, splitOn_cons, before, after]
    by_cases separates : first = separator
    · rw [if_pos separates, if_pos separates]
      exact ⟨[] :: front, piece, rfl, rfl⟩
    · rw [if_neg separates, if_neg separates]
      cases front with
      | nil => exact ⟨[], first :: piece, rfl, rfl⟩
      | cons head front => exact ⟨(first :: head) :: front, piece, rfl, rfl⟩

theorem pieces_not_mem (absent : '\n' ∉ text) : ∀ piece ∈ text.splitOn '.', '\n' ∉ piece := by
  intro piece listed inside
  exact absent ((mem_splitOn '.' '\n' text).mp ⟨piece, listed, inside⟩).1

theorem splitOn_chomp (absent : '\n' ∉ chomp text) : (chomp text).splitOn '.' = (text.splitOn '.').map chomp := by
  have kept : ∀ pieces : List (List Char), (∀ piece ∈ pieces, '\n' ∉ piece) → pieces.map chomp = pieces := by
    intro pieces clean
    rw [List.map_congr_left fun piece listed => chomp_of_not_mem (clean piece listed), List.map_id']
  rcases chomp_cases text with whole | ended
  · rw [← whole] at absent ⊢
    exact (kept _ (pieces_not_mem absent)).symm
  · have clean := pieces_not_mem absent
    obtain ⟨front, piece, before, after⟩ := splitOn_concat (show '\n' ≠ '.' by decide) (chomp text)
    rw [before] at clean
    rw [ended, chomp_append, after, before, List.map_append, List.map_singleton, chomp_append,
      kept front fun other listed => clean other (List.mem_append_left _ listed)]

theorem identifiers_bare (absent : '\n' ∉ chomp text) :
    ((chomp text).splitOn '.').map identifier = ((text.splitOn '.').map identifier).map Identifier.bare := by
  rw [splitOn_chomp absent, List.map_map, List.map_map]
  exact List.map_congr_left fun part _ => (identifier_bare part).symm

/-- Only the last identifier can be another one without the newline, and then the text ends with it. -/
theorem bare_ne_last (absent : '\n' ∉ chomp text) {common rest : List Identifier} {x : Identifier}
    (pieces : (text.splitOn '.').map identifier = common ++ x :: rest) (changed : x.bare ≠ x) :
    rest = [] ∧ text = chomp text ++ ['\n'] := by
  have still : ∀ listed : List (List Char), (∀ piece ∈ listed, '\n' ∉ piece) → x ∉ listed.map identifier := by
    intro listed clean member
    obtain ⟨part, inListed, rfl⟩ := List.mem_map.mp member
    rw [identifier_bare, chomp_of_not_mem (clean part inListed)] at changed
    exact changed rfl
  have clean := pieces_not_mem absent
  rcases chomp_cases text with whole | ended
  · rw [← whole] at clean
    exact absurd (pieces ▸ List.mem_append_right _ List.mem_cons_self) (still _ clean)
  · refine ⟨?_, ended⟩
    obtain ⟨front, piece, before, after⟩ := splitOn_concat (show '\n' ≠ '.' by decide) (chomp text)
    rw [← ended] at after
    rw [before] at clean
    rw [after, List.map_append, List.map_singleton] at pieces
    rcases List.eq_nil_or_concat' rest with empty | ⟨others, last, rfl⟩
    · exact empty
    · rw [← List.cons_append, ← List.append_assoc] at pieces
      have fronts := (List.append_inj' pieces rfl).1
      refine absurd ?_ (still front fun other listed => clean other (List.mem_append_left _ listed))
      rw [fronts]
      exact List.mem_append_right _ List.mem_cons_self

theorem bare_lt {part : List Char} (changed : (identifier part).bare ≠ identifier part) :
    compare (identifier part).bare (identifier part) = .lt := by
  rw [identifier_bare] at changed ⊢
  rcases chomp_cases part with whole | ended
  · exact absurd (congrArg identifier whole).symm changed
  · have letters : ¬ isdigit part = true := by
      intro digits
      rw [ended] at digits
      have digit := List.all_eq_true.mp (Bool.and_eq_true_iff.mp digits).2 '\n' (by simp)
      exact absurd digit (by decide)
    have textual : identifier part = .text part := if_neg letters
    rw [textual]
    unfold identifier
    split
    · rfl
    · show compare (chomp part) part = .lt
      have longer := compare_extended (chomp part) '\n' []
      rwa [← ended] at longer

/-- What one separator parts has the newline in its last part. -/
theorem cut_chomp (absent : '\n' ∉ chomp text) :
    cut '-' (chomp text) = (chomp (cut '-' text).1, (cut '-' text).2.map chomp) ∧
      '\n' ∉ chomp (cut '-' text).1 ∧ ∀ after, (cut '-' text).2 = some after → '\n' ∉ (cut '-' text).1 ∧ '\n' ∉ chomp after := by
  by_cases hyphened : '-' ∈ chomp text
  · obtain ⟨front, back, parted, first⟩ := List.eq_append_cons_of_mem hyphened
    rw [parted] at absent
    have inFront : '\n' ∉ front := fun listed => absent (List.mem_append_left _ listed)
    have inBack : '\n' ∉ back := fun listed => absent (List.mem_append_right _ (List.mem_cons_of_mem _ listed))
    have halves : ∃ after, cut '-' text = (front, some after) ∧ chomp after = back := by
      rcases chomp_cases text with whole | ended
      · rw [whole, parted]
        exact ⟨back, cut_append first, chomp_of_not_mem inBack⟩
      · rw [ended, parted, List.append_assoc]
        exact ⟨back ++ ['\n'], cut_append first, chomp_append back⟩
    obtain ⟨after, halved, chomped⟩ := halves
    rw [parted, cut_append first, halved]
    refine ⟨?_, ?_, ?_⟩
    · rw [chomp_of_not_mem inFront, Option.map_some, chomped]
    · rw [chomp_of_not_mem inFront]
      exact inFront
    · intro _ found
      obtain rfl := Option.some.inj found
      rw [chomped]
      exact ⟨inFront, inBack⟩
  · have plain : '-' ∉ text := by
      rcases chomp_cases text with whole | ended
      · rw [whole]
        exact hyphened
      · rw [ended, List.mem_append, List.mem_singleton]
        exact fun listed => hyphened (listed.resolve_right (by decide))
    rw [cut_of_not_mem hyphened, cut_of_not_mem plain]
    exact ⟨rfl, absent, fun _ found => by cases found⟩

theorem semverKey_eq (version : String) : semverKey version = (parts version, released version, preIdentifiers version) := by
  unfold semverKey released preIdentifiers
  cases pre version with
  | none => rfl
  | some text => rfl

theorem parts_bare (absent : '\n' ∉ chomp version.toList) : parts (bare version) = (parts version).map Identifier.bare := by
  obtain ⟨halves, inCore, _⟩ := cut_chomp absent
  have cores : core (bare version) = chomp (core version) := by
    unfold core
    rw [bare_chars]
    exact congrArg Prod.fst halves
  unfold parts
  rw [cores]
  exact identifiers_bare inCore

theorem pre_bare (absent : '\n' ∉ chomp version.toList) : pre (bare version) = (pre version).map chomp := by
  rw [pre_eq_cut, pre_eq_cut, bare_chars]
  exact congrArg Prod.snd (cut_chomp absent).1

theorem released_bare (absent : '\n' ∉ chomp version.toList) : released (bare version) = released version := by
  unfold released
  rw [pre_bare absent]
  cases pre version with
  | none => rfl
  | some text => rfl

theorem preIdentifiers_bare (absent : '\n' ∉ chomp version.toList) :
    preIdentifiers (bare version) = (preIdentifiers version).map Identifier.bare := by
  have inPre := (cut_chomp absent).2.2
  rw [← pre_eq_cut] at inPre
  unfold preIdentifiers
  rw [pre_bare absent]
  cases found : pre version with
  | none => rfl
  | some text => exact identifiers_bare (inPre text found).2

end Bare

section Versions

variable (a b : PlainVersion)

theorem PlainVersion.absent : '\n' ∉ chomp a.text.toList := by
  intro listed
  rcases matchesVersion_chars a.known _ listed with dot | plain | digit
  · exact absurd dot (by decide)
  · exact absurd plain (by unfold Plain; decide)
  · exact absurd digit (by decide)

/-- Without build metadata the pattern reads the core and the prerelease only. -/
theorem PlainVersion.fields :
    ((core (bare a.text)).splitOn '.').length = 3 ∧
      (∀ part ∈ (core (bare a.text)).splitOn '.', isNumeric isDecimal part = true) ∧
      ∀ text, pre (bare a.text) = some text → ∀ part ∈ text.splitOn '.', isPrerelease isDecimal part = true := by
  have known := a.known
  have plain : '+' ∉ chomp a.text.toList := by
    rcases chomp_cases a.text.toList with whole | ended
    · rw [← whole]
      exact a.plain
    · exact fun listed => a.plain (ended ▸ List.mem_append_left _ listed)
  simp only [registryAccepts, matchesVersion, cut_of_not_mem plain, Bool.and_eq_true, List.all_eq_true, beq_iff_eq,
    Option.all_eq_true] at known
  obtain ⟨⟨⟨three, numeric⟩, prerelease⟩, _⟩ := known
  unfold core
  rw [pre_eq_cut, bare_chars]
  exact ⟨three, numeric, prerelease⟩

theorem PlainVersion.parts_eq : parts (bare a.text) = (coreNumbers a.text).map Identifier.numeric := by
  unfold parts coreNumbers core
  rw [bare_chars, List.map_map]
  apply List.map_congr_left
  intro part listed
  have numeric : isNumeric isDecimal part = true := by
    refine a.fields.2.1 part ?_
    unfold core
    rw [bare_chars]
    exact listed
  rw [identifier_eq (isPrerelease_ne_nil (isNumeric_isPrerelease numeric))]
  exact if_pos (all_isDigit.mpr (isNumeric_inAscii numeric).1)

theorem parts_lt_iff : compare (parts (bare a.text)) (parts (bare b.text)) = .lt ↔ coreNumbers a.text < coreNumbers b.text := by
  rw [a.parts_eq, b.parts_eq]
  apply compare_map_lt_iff
  · intro x _ y _
    exact Nat.compare_eq_lt
  · intro x _ y _ same
    exact Identifier.numeric.inj same

theorem parts_eq_iff : parts (bare a.text) = parts (bare b.text) ↔ coreNumbers a.text = coreNumbers b.text := by
  rw [a.parts_eq, b.parts_eq]
  constructor
  · exact map_inj fun x _ y _ same => Identifier.numeric.inj same
  · exact congrArg _

theorem PlainVersion.preParts_eq {text : List Char} (found : pre (bare a.text) = some text) :
    preParts text = ((text.splitOn '.').map inAscii).map asciiIdentifier := by
  unfold preParts
  rw [List.map_map]
  apply List.map_congr_left
  intro part listed
  exact identifier_eq (isPrerelease_ne_nil (a.fields.2.2 text found part listed))

theorem PlainVersion.unpadded {text : List Char} (found : pre (bare a.text) = some text) :
    ∀ part ∈ (text.splitOn '.').map inAscii, AllDigits part → Unpadded part := by
  intro _ listed
  obtain ⟨part, inText, rfl⟩ := List.mem_map.mp listed
  exact isPrerelease_unpadded (a.fields.2.2 text found part inText)

theorem preParts_lt_iff {p q : List Char} (left : pre (bare a.text) = some p) (right : pre (bare b.text) = some q) :
    compare (preParts p) (preParts q) = .lt ↔
      List.Lex IdentifierBelow ((p.splitOn '.').map inAscii) ((q.splitOn '.').map inAscii) := by
  rw [a.preParts_eq left, b.preParts_eq right]
  apply compare_map_lt_iff
  · intro x _ y _
    exact asciiIdentifier_lt_iff x y
  · intro x listed y present
    exact asciiIdentifier_inj (a.unpadded left x listed) (b.unpadded right y present)

theorem bare_lt_iff : compareKeys (semverKey (bare a.text)) (semverKey (bare b.text)) = .lt ↔ Precedes a.text b.text := by
  have level : compare (parts (bare a.text)) (parts (bare b.text)) = .eq ↔ coreNumbers a.text = coreNumbers b.text := by
    rw [Std.LawfulEqOrd.compare_eq_iff_eq]
    exact parts_eq_iff a b
  unfold compareKeys Precedes prerelease
  rw [semverKey_parts, semverKey_parts, Ordering.then_eq_lt, parts_lt_iff, level, ← bare_chars, ← bare_chars,
    ← pre_eq_cut, ← pre_eq_cut]
  apply or_congr_right
  apply and_congr_right
  intro _
  unfold semverKey
  cases left : pre (bare a.text) with
  | none =>
    refine iff_of_false ?_ (by rintro ⟨⟩)
    cases pre (bare b.text) with
    | none => rintro ⟨⟩
    | some q => rintro ⟨⟩
  | some p =>
    cases right : pre (bare b.text) with
    | none => exact iff_of_true rfl .release
    | some q =>
      change compare (preParts p) (preParts q) = .lt ↔ _
      rw [preParts_lt_iff a b left right]
      constructor
      · exact .identifiers
      · intro below
        cases below with
        | identifiers less => exact less

end Versions

section Order

def keyOrder : Key → Key → Ordering :=
  compareLex (compareOn fun key : Key => key.1)
    (compareLex (compareOn fun key : Key => key.2.1) (compareOn fun key : Key => key.2.2))

instance : Std.TransCmp keyOrder := inferInstanceAs (Std.TransCmp (compareLex _ _))

theorem compareKeys_trans {x y z : Key} (first : compareKeys x y = .lt) (second : compareKeys y z = .lt) :
    compareKeys x z = .lt :=
  @Std.TransCmp.lt_trans Key keyOrder _ x y z first second

theorem compareKeys_eq {x y : Key} (tie : compareKeys x y = .eq) : x = y := by
  unfold compareKeys at tie
  rw [Ordering.then_eq_eq, Ordering.then_eq_eq] at tie
  obtain ⟨one, two, three⟩ := tie
  apply Prod.ext
  · exact Std.LawfulEqOrd.eq_of_compare one
  · apply Prod.ext
    · exact Std.LawfulEqOrd.eq_of_compare two
    · exact Std.LawfulEqOrd.eq_of_compare three

theorem compareKeys_self (key : Key) : compareKeys key key = .eq := by
  unfold compareKeys
  rw [Std.ReflOrd.compare_self, Std.ReflOrd.compare_self, Std.ReflOrd.compare_self]
  rfl

theorem compareKeys_parts (a b : String) : compareKeys (semverKey a) (semverKey b) =
    (compare (parts a) (parts b)).then ((compare (released a) (released b)).then
      (compare (preIdentifiers a) (preIdentifiers b))) := by
  rw [semverKey_eq, semverKey_eq]
  rfl

variable (a b : PlainVersion)

theorem compareKeys_bare : compareKeys (semverKey (bare a.text)) (semverKey (bare b.text)) =
    (compare ((parts a.text).map Identifier.bare) ((parts b.text).map Identifier.bare)).then
      ((compare (released a.text) (released b.text)).then
        (compare ((preIdentifiers a.text).map Identifier.bare) ((preIdentifiers b.text).map Identifier.bare))) := by
  rw [compareKeys_parts, parts_bare a.absent, parts_bare b.absent, released_bare a.absent, released_bare b.absent,
    preIdentifiers_bare a.absent, preIdentifiers_bare b.absent]

theorem PlainVersion.three : (parts a.text).length = 3 := by
  have three := a.fields.1
  have whole := congrArg List.length (parts_bare a.absent)
  unfold parts at whole ⊢
  rw [List.length_map, List.length_map] at whole
  rw [← whole, three]

/-- A part of the core that the newline changes is the last of a release. -/
theorem core_changed {common rest : List Identifier} {x : Identifier} (pieces : parts a.text = common ++ x :: rest)
    (changed : x.bare ≠ x) : rest = [] ∧ pre a.text = none := by
  obtain ⟨_, inCore, inPre⟩ := cut_chomp a.absent
  obtain ⟨last, ended⟩ := @bare_ne_last (core a.text) inCore _ _ _ pieces changed
  refine ⟨last, ?_⟩
  cases found : pre a.text with
  | none => rfl
  | some text =>
    rw [pre_eq_cut] at found
    refine absurd ?_ (inPre text found).1
    show '\n' ∈ core a.text
    rw [ended]
    exact List.mem_append_right _ (List.mem_singleton_self _)

/-- So is an identifier of the prerelease that the newline changes, which is greater with it. -/
theorem pre_changed {common rest : List Identifier} {x : Identifier} (pieces : preIdentifiers a.text = common ++ x :: rest)
    (changed : x.bare ≠ x) : rest = [] ∧ compare x.bare x = .lt := by
  have inPre := (cut_chomp a.absent).2.2
  rw [← pre_eq_cut] at inPre
  unfold preIdentifiers at pieces
  cases found : pre a.text with
  | none =>
    rw [found] at pieces
    exact absurd (congrArg List.length pieces) (by simp)
  | some text =>
    rw [found] at pieces
    refine ⟨(bare_ne_last (inPre text found).2 pieces changed).1, ?_⟩
    have listed : x ∈ (text.splitOn '.').map identifier := by
      rw [show (text.splitOn '.').map identifier = common ++ x :: rest from pieces]
      exact List.mem_append_right _ List.mem_cons_self
    obtain ⟨part, _, rfl⟩ := List.mem_map.mp listed
    exact bare_lt changed

theorem released_of_none {version : String} (release : pre version = none) :
    released version = 1 ∧ preIdentifiers version = [] := by
  unfold released preIdentifiers
  rw [release]
  exact ⟨rfl, rfl⟩

theorem released_of_ne_nil {version : String} (some : preIdentifiers version ≠ []) : released version = 0 := by
  unfold preIdentifiers at some
  unfold released
  cases found : pre version with
  | none =>
    rw [found] at some
    exact absurd rfl some
  | some text => rfl

theorem released_cases (version : String) :
    (released version = 1 ∧ preIdentifiers version = []) ∨ (released version = 0 ∧ preIdentifiers version ≠ []) := by
  unfold released preIdentifiers
  cases pre version with
  | none => exact .inl ⟨rfl, rfl⟩
  | some text =>
    obtain ⟨first, rest, pieces⟩ := preParts_cons text
    refine .inr ⟨rfl, ?_⟩
    show preParts text ≠ []
    rw [pieces]
    exact List.cons_ne_nil _ _

theorem bare_core {x y : Identifier} {xs ys : List Identifier}
    (found : firstDifference (parts a.text) (parts b.text) = some ((x, xs), (y, ys))) :
    compareKeys (semverKey (bare a.text)) (semverKey (bare b.text)) =
      (compare x.bare y.bare).then (compare (released a.text) (released b.text)) := by
  obtain ⟨common, one, two, apart⟩ := firstDifference_some found
  rw [compareKeys_bare, one, two, List.map_append, List.map_append, compare_append_left, List.map_cons, List.map_cons]
  by_cases same : x.bare = y.bare
  · have level : xs = [] ∧ ys = [] ∧ (pre a.text = none ∨ pre b.text = none) := by
      have lengths : xs.length = ys.length := by
        have left := a.three
        have right := b.three
        rw [one, List.length_append, List.length_cons] at left
        rw [two, List.length_append, List.length_cons] at right
        omega
      by_cases changed : x.bare = x
      · have other : y.bare ≠ y := fun kept => apart (by rw [← changed, same, kept])
        obtain ⟨empty, release⟩ := core_changed b two other
        rw [empty] at lengths
        exact ⟨List.length_eq_zero_iff.mp lengths, empty, .inr release⟩
      · obtain ⟨empty, release⟩ := core_changed a one changed
        rw [empty] at lengths
        exact ⟨empty, List.length_eq_zero_iff.mp lengths.symm, .inl release⟩
    obtain ⟨rfl, rfl, release⟩ := level
    rw [same, List.map_nil, Std.ReflOrd.compare_self, Std.ReflOrd.compare_self, Ordering.eq_then, Ordering.eq_then]
    rcases released_cases a.text with ⟨one, empty⟩ | ⟨zero, _⟩ <;> rcases released_cases b.text with ⟨one', empty'⟩ | ⟨zero', _⟩
    · rw [one, one', empty, empty']
      rfl
    · rw [one, zero']
      rfl
    · rw [zero, one']
      rfl
    · rcases release with none | none
      · rw [(released_of_none none).1] at zero
        cases zero
      · rw [(released_of_none none).1] at zero'
        cases zero'
  · rw [compare_cons_of_ne same]
    cases order : compare x.bare y.bare with
    | eq => exact absurd (Std.LawfulEqOrd.eq_of_compare order) same
    | lt => rfl
    | gt => rfl

theorem bare_pre {x y : Identifier} {xs ys : List Identifier} (cores : parts a.text = parts b.text)
    (found : firstDifference (preIdentifiers a.text) (preIdentifiers b.text) = some ((x, xs), (y, ys))) :
    compareKeys (semverKey a.text) (semverKey b.text) = compare x y ∧
      (compare x y = compareKeys (semverKey (bare a.text)) (semverKey (bare b.text)) ↔ compare x y = compare x.bare y.bare) := by
  obtain ⟨common, one, two, apart⟩ := firstDifference_some found
  have left : released a.text = 0 := released_of_ne_nil (by simp [one])
  have right : released b.text = 0 := released_of_ne_nil (by simp [two])
  rw [compareKeys_parts, compareKeys_bare, cores, left, right, one, two, List.map_append, List.map_append,
    compare_append_left, compare_append_left, List.map_cons, List.map_cons, compare_cons_of_ne apart,
    Std.ReflOrd.compare_self, Std.ReflOrd.compare_self, Std.ReflOrd.compare_self, Ordering.eq_then, Ordering.eq_then,
    Ordering.eq_then, Ordering.eq_then]
  refine ⟨rfl, ?_⟩
  have strict : compare x y ≠ .eq := fun tie => apart (Std.LawfulEqOrd.eq_of_compare tie)
  by_cases same : x.bare = y.bare
  · rw [same, Std.ReflOrd.compare_self, List.compare_cons_cons, Std.ReflOrd.compare_self, Ordering.eq_then]
    refine iff_of_false ?_ strict
    by_cases xKept : x.bare = x <;> by_cases yKept : y.bare = y
    · exact absurd (xKept.symm.trans (same.trans yKept)) apart
    · obtain ⟨rfl, below⟩ := pre_changed b two yKept
      rw [← same, xKept] at below
      rw [below]
      cases xs with
      | nil => rintro ⟨⟩
      | cons next rest => rintro ⟨⟩
    · obtain ⟨rfl, below⟩ := pre_changed a one xKept
      rw [same, yKept] at below
      rw [Std.OrientedOrd.eq_swap, below]
      cases ys with
      | nil => rintro ⟨⟩
      | cons next rest => rintro ⟨⟩
    · obtain ⟨rfl, _⟩ := pre_changed a one xKept
      obtain ⟨rfl, _⟩ := pre_changed b two yKept
      exact strict
  · rw [compare_cons_of_ne same]

theorem keysTell_iff : KeysTell a.text b.text ↔
    compareKeys (semverKey a.text) (semverKey b.text) = compareKeys (semverKey (bare a.text)) (semverKey (bare b.text)) ∧
      (a.text ≠ b.text → semverKey a.text ≠ semverKey b.text) := by
  have below := bare_lt_iff a b
  have above := bare_lt_iff b a
  rw [compareKeys_swap] at above
  constructor
  · intro tell
    refine ⟨?_, tell.apart⟩
    have one := tell.below.trans below.symm
    have two := tell.above.trans above.symm
    revert one two
    cases compareKeys (semverKey a.text) (semverKey b.text) <;>
      cases compareKeys (semverKey (bare a.text)) (semverKey (bare b.text)) <;> simp
  · rintro ⟨same, apart⟩
    rw [← same] at below above
    refine ⟨below, Iff.trans ?_ above, apart⟩
    cases compareKeys (semverKey a.text) (semverKey b.text) <;> simp

/-- Where no identifiers differ, the numbers of identifiers decide, and the newline changes none of them. -/
theorem compare_bare {xs ys : List Identifier} (same : firstDifference xs ys = none) :
    compare (xs.map Identifier.bare) (ys.map Identifier.bare) = compare xs ys := by
  rcases firstDifference_none same with rfl | ⟨y, rest, rfl⟩ | ⟨x, rest, rfl⟩
  · rw [Std.ReflOrd.compare_self, Std.ReflOrd.compare_self]
  · rw [List.map_append, List.map_cons, compare_extended, compare_extended]
  · rw [List.map_append, List.map_cons, Std.OrientedOrd.eq_swap, compare_extended, Std.OrientedOrd.eq_swap, compare_extended]

theorem semverKey_eq_iff {a b : String} (cores : parts a = parts b) :
    semverKey a = semverKey b ↔ preIdentifiers a = preIdentifiers b := by
  rw [semverKey_eq, semverKey_eq, cores]
  constructor
  · intro same
    exact (Prod.mk.inj (Prod.mk.inj same).2).2
  · intro same
    rw [same]
    rcases released_cases a with ⟨one, empty⟩ | ⟨zero, some⟩ <;> rcases released_cases b with ⟨one', empty'⟩ | ⟨zero', some'⟩
    · rw [one, one']
    · exact absurd (same.symm.trans empty) some'
    · exact absurd (same.trans empty') some
    · rw [zero, zero']

theorem told_iff : KeysTell a.text b.text ↔ Told a.text b.text := by
  rw [keysTell_iff]
  unfold Told
  cases found : firstDifference (parts a.text) (parts b.text) with
  | some difference =>
    obtain ⟨⟨x, xs⟩, y, ys⟩ := difference
    obtain ⟨common, one, two, apart⟩ := firstDifference_some found
    have differ : semverKey a.text ≠ semverKey b.text := by
      intro same
      have order := compareKeys_of_parted found
      rw [same, compareKeys_self] at order
      exact apart (Std.LawfulEqOrd.eq_of_compare order.symm)
    dsimp only
    rw [compareKeys_of_parted found, bare_core a b found]
    exact and_iff_left fun _ => differ
  | none =>
    have cores : parts a.text = parts b.text := by
      have left := a.three
      have right := b.three
      rcases firstDifference_none found with same | ⟨y, rest, longer⟩ | ⟨x, rest, longer⟩
      · exact same
      · rw [longer, List.length_append, List.length_cons] at right
        omega
      · rw [longer, List.length_append, List.length_cons] at left
        omega
    dsimp only
    cases more : firstDifference (preIdentifiers a.text) (preIdentifiers b.text) with
    | some difference =>
      obtain ⟨⟨x, xs⟩, y, ys⟩ := difference
      obtain ⟨_, _, _, apart⟩ := firstDifference_some more
      obtain ⟨keys, placed⟩ := bare_pre a b cores more
      dsimp only
      rw [keys, placed]
      refine and_iff_left fun _ same => apart ?_
      rw [same, compareKeys_self] at keys
      exact Std.LawfulEqOrd.eq_of_compare keys.symm
    | none =>
      have agree : compareKeys (semverKey a.text) (semverKey b.text) =
          compareKeys (semverKey (bare a.text)) (semverKey (bare b.text)) := by
        rw [compareKeys_parts, compareKeys_bare, compare_bare more, compare_bare found]
      rw [and_iff_right agree, Ne, Ne, semverKey_eq_iff cores, not_imp_not]

def KeyBelow (versions : List PlainVersion) (a b : { version // version ∈ versions }) : Prop :=
  compareKeys (semverKey a.1.text) (semverKey b.1.text) = .lt

theorem keyBelow_total {versions : List PlainVersion} (told : ∀ a ∈ versions, ∀ b ∈ versions, Told a.text b.text) :
    IsStrictTotalOrder { version // version ∈ versions } (KeyBelow versions) where
  irrefl a below := by
    unfold KeyBelow at below
    rw [compareKeys_self] at below
    cases below
  trans a b c first second := compareKeys_trans first second
  trichotomous a b one two := by
    unfold KeyBelow at one two
    rw [compareKeys_swap] at two
    have tie : compareKeys (semverKey a.1.text) (semverKey b.1.text) = .eq := by
      cases order : compareKeys (semverKey a.1.text) (semverKey b.1.text) with
      | eq => rfl
      | lt => exact absurd order one
      | gt => exact absurd (by rw [order]; rfl) two
    have apart := ((told_iff a.1 b.1).mpr (told a.1 a.2 b.1 b.2)).apart
    have same : a.1.text = b.1.text := by
      by_contra different
      exact apart different (compareKeys_eq tie)
    obtain ⟨⟨_, _, _⟩, _⟩ := a
    obtain ⟨⟨_, _, _⟩, _⟩ := b
    cases same
    rfl

end Order

example : compareKeys (semverKey "1.0.0-rc-1.x") (semverKey "1.0.0-rc-1.10") = .gt := by decide +kernel

end Registry.Semver
