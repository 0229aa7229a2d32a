import OpenAgentHub.Cli.Runs
import OpenAgentHub.Registry.Packages.Precedence

namespace Cli

open Runtime (InstalledAgent OpenAgentHubConfig)
open Registry.Semver

def fields (version : String) : List (List Char) := (core version).splitOn '.'

def heard (part : List Char) : CorePart := corePart (String.ofList part)

/-- A number for the command line, which knows ASCII digits only. -/
def isNumber (part : List Char) : Bool := !part.isEmpty && part.all Char.isDigit

def parted : List (List Char) → List (List Char) → Option (List Char × List Char)
  | [], [] => none
  | [], y :: ys => if heard y = .number 0 then parted [] ys else some (['0'], y)
  | x :: xs, [] => if heard x = .number 0 then parted xs [] else some (x, ['0'])
  | x :: xs, y :: ys => if heard x = heard y then parted xs ys else some (x, y)

def toldApart : List (List Char) → List (List Char) →
    Option ((List Char × List (List Char)) × (List Char × List (List Char)))
  | x :: xs, y :: ys =>
    if identifier x = identifier y ∧ heard x = heard y then toldApart xs ys else some ((x, xs), (y, ys))
  | _, _ => none

def orderFrom (xs ys : List (List Char)) (a b : String) : Ordering :=
  compareKeys (xs.map identifier, (semverKey a).2) (ys.map identifier, (semverKey b).2)

section Placing

variable (localeCompare : String → String → Int)

def Collates (order : Ordering) (first second : String) : Prop := compare (localeCompare first second) 0 = order

def FieldsPlaced (order : Ordering) (x y : List Char) : Prop :=
  if isNumber x ∧ isNumber y then compare (identifier x) (identifier y) = order
  else Collates localeCompare order (heard x).toText (heard y).toText

def PrereleasesPlaced (order : Ordering) : Option (List Char) → Option (List Char) → Prop
  | none, none => order = .eq
  | none, some _ => order = .gt
  | some _, none => order = .lt
  | some p, some q => if p = q then order = .eq else Collates localeCompare order (String.ofList p) (String.ofList q)

def Placed (order : Ordering) (xs ys : List (List Char)) (p q : Option (List Char)) : Prop :=
  match parted xs ys with
  | some (x, y) => FieldsPlaced localeCompare order x y
  | none => PrereleasesPlaced localeCompare order p q

/-- What keeps the command line in the registry's order. Two numbers that a double tells apart are kept; where a
    double does not, or one version only has further fields, what follows has to be in the same order. Other fields
    are up to the collation of their texts, and so are two different prereleases where the cores are the same. -/
def SameOrder (a b : String) : Prop :=
  match toldApart (fields a) (fields b) with
  | some ((x, xs), (y, ys)) =>
    if isNumber x ∧ isNumber y then
      heard x = heard y → Placed localeCompare (compare (identifier x) (identifier y)) xs ys (pre a) (pre b)
    else Collates localeCompare (orderFrom (x :: xs) (y :: ys) a b) (heard x).toText (heard y).toText
  | none =>
    match compare (parts a) (parts b) with
    | .eq => ∀ p q, pre a = some p → pre b = some q → p ≠ q →
      Collates localeCompare (compare (preParts p) (preParts q)) (String.ofList p) (String.ofList q)
    | order => Placed localeCompare order (fields a) (fields b) (pre a) (pre b)

end Placing

section Reading

variable (localeCompare : String → String → Int)

theorem heard_eq (part : List Char) :
    heard part = if isNumber part then .number (Double.ofNat (Lexical.value part)) else .text (String.ofList part) := by
  unfold heard corePart isNumber
  rw [String.toList_ofList]
  by_cases empty : part = []
  · subst empty
    rfl
  · have some : String.ofList part ≠ "" := by
      intro none
      apply empty
      rw [← String.toList_ofList (l := part), none]
      rfl
    cases digits : part.all Char.isDigit with
    | true => simp [some, empty]
    | false => simp

theorem heard_zero : heard ['0'] = .number 0 := congrArg CorePart.number Double.ofNat_zero

theorem identifier_number {part : List Char} (number : isNumber part = true) :
    identifier part = .numeric (Lexical.value part) := by
  obtain ⟨some, digits⟩ := Bool.and_eq_true_iff.mp number
  have ascii : inAscii part = part := by
    unfold inAscii
    split
    · have kept := List.map_congr_left fun char listed => toAscii_of_isDigit (List.all_eq_true.mp digits char listed)
      rw [kept, List.map_id']
    · rfl
  rw [identifier_eq (by simpa using some), ascii]
  exact if_pos digits

theorem splitCore_eq (version : String) : splitCore version = ((fields version).map heard, (pre version).map String.ofList) := by
  unfold splitCore fields core pre Text.split
  dsimp only
  rw [String.toList_ofList, List.map_map]
  cases version.toList.dropWhile (· != '-') with
  | nil => rfl
  | cons hyphen rest => rfl

def decideField (x y : CorePart) : Option Int :=
  match x, y with
  | .number x, .number y => if x = y then none else some (x - y)
  | x, y => if x = y then none else some (localeCompare x.toText y.toText)

theorem decideField_self (x : CorePart) : decideField localeCompare x x = none := by
  cases x with
  | number value => exact if_pos rfl
  | text value => exact if_pos rfl

theorem decideField_of_ne {x y : CorePart} (different : x ≠ y) : ∃ value, decideField localeCompare x y = some value := by
  unfold decideField
  split
  · rename_i m n
    have apart : m ≠ n := fun same => different (congrArg _ same)
    exact ⟨_, if_neg apart⟩
  · exact ⟨_, if_neg different⟩

theorem compareCores_cons (x y : CorePart) (xs ys : List CorePart) :
    compareCores localeCompare (x :: xs) (y :: ys) =
      (decideField localeCompare x y).or (compareCores localeCompare xs ys) := by
  unfold compareCores
  rw [List.length_cons, List.length_cons, Nat.succ_max_succ, Lexical.findSome_range]
  rfl

theorem compareCores_left (x : CorePart) (xs : List CorePart) :
    compareCores localeCompare (x :: xs) [] =
      (decideField localeCompare x (.number 0)).or (compareCores localeCompare xs []) := by
  unfold compareCores
  rw [List.length_cons, List.length_nil, Nat.max_zero, Nat.max_zero, Lexical.findSome_range]
  rfl

theorem compareCores_right (y : CorePart) (ys : List CorePart) :
    compareCores localeCompare [] (y :: ys) =
      (decideField localeCompare (.number 0) y).or (compareCores localeCompare [] ys) := by
  unfold compareCores
  rw [List.length_cons, List.length_nil, Nat.zero_max, Nat.zero_max, Lexical.findSome_range]
  rfl

theorem compareCores_heard (xs ys : List (List Char)) :
    compareCores localeCompare (xs.map heard) (ys.map heard) =
      (parted xs ys).bind fun fields => decideField localeCompare (heard fields.1) (heard fields.2) := by
  fun_induction parted xs ys with
  | case1 => rfl
  | case2 y ys same ih =>
    rw [List.map_cons, List.map_nil, compareCores_right, same, decideField_self, Option.none_or]
    exact ih
  | case3 y ys different =>
    obtain ⟨value, decided⟩ := decideField_of_ne localeCompare (Ne.symm different)
    rw [List.map_cons, List.map_nil, compareCores_right, Option.bind_some, heard_zero, decided, Option.some_or]
  | case4 x xs same ih =>
    rw [List.map_cons, List.map_nil, compareCores_left, same, decideField_self, Option.none_or]
    exact ih
  | case5 x xs different =>
    obtain ⟨value, decided⟩ := decideField_of_ne localeCompare different
    rw [List.map_cons, List.map_nil, compareCores_left, Option.bind_some, heard_zero, decided, Option.some_or]
  | case6 x xs y ys same ih =>
    rw [List.map_cons, List.map_cons, compareCores_cons, same, decideField_self, Option.none_or]
    exact ih
  | case7 x xs y ys different =>
    obtain ⟨value, decided⟩ := decideField_of_ne localeCompare different
    rw [List.map_cons, List.map_cons, compareCores_cons, Option.bind_some, decided, Option.some_or]

theorem parted_differ {xs ys : List (List Char)} {x y : List Char} (found : parted xs ys = some (x, y)) :
    heard x ≠ heard y := by
  fun_induction parted xs ys with
  | case1 => cases found
  | case2 y ys same ih => exact ih found
  | case3 z ys different =>
    cases found
    rw [heard_zero]
    exact Ne.symm different
  | case4 x xs same ih => exact ih found
  | case5 z xs different =>
    cases found
    rw [heard_zero]
    exact different
  | case6 x xs y ys same ih => exact ih found
  | case7 x xs y ys different =>
    cases found
    exact different

theorem parted_append {us vs : List (List Char)} (same : us.map heard = vs.map heard) (xs ys : List (List Char)) :
    parted (us ++ xs) (vs ++ ys) = parted xs ys := by
  induction us generalizing vs with
  | nil =>
    obtain rfl := List.map_eq_nil_iff.mp same.symm
    rfl
  | cons u us ih =>
    cases vs with
    | nil => cases same
    | cons v vs =>
      obtain ⟨first, rest⟩ := List.cons.inj same
      rw [List.cons_append, List.cons_append, parted, if_pos first]
      exact ih rest

theorem decideField_placed {x y : List Char} (different : heard x ≠ heard y) (order : Ordering) :
    ∃ value, decideField localeCompare (heard x) (heard y) = some value ∧
      (compare value 0 = order ↔ FieldsPlaced localeCompare order x y) := by
  unfold FieldsPlaced
  rw [heard_eq, heard_eq] at different ⊢
  cases left : isNumber x <;> cases right : isNumber y
  · rw [left, right] at different
    exact ⟨_, if_neg different, by simp [Collates]⟩
  · exact ⟨_, rfl, by simp [Collates]⟩
  · exact ⟨_, rfl, by simp [Collates]⟩
  · rw [left, right] at different
    have apart : Double.ofNat (Lexical.value x) ≠ Double.ofNat (Lexical.value y) :=
      fun same => different (congrArg CorePart.number same)
    refine ⟨_, if_neg apart, ?_⟩
    have less := Double.ofNat_lt_iff apart
    have greater := Double.ofNat_lt_iff (Ne.symm apart)
    have sign : compare ((Double.ofNat (Lexical.value x) : Int) - Double.ofNat (Lexical.value y)) 0 =
        compare (Lexical.value x) (Lexical.value y) := by
      rcases Nat.lt_trichotomy (Double.ofNat (Lexical.value x)) (Double.ofNat (Lexical.value y)) with below | same | above
      · rw [Nat.compare_eq_lt.mpr (less.mp below), compare_lt_iff_lt]
        omega
      · exact absurd same apart
      · rw [Nat.compare_eq_gt.mpr (greater.mp above), compare_gt_iff_gt]
        omega
    rw [if_pos ⟨rfl, rfl⟩, identifier_number left, identifier_number right, sign]
    exact Iff.rfl

theorem compareVersions_placed (a b : String) (order : Ordering) :
    compare (compareVersions localeCompare a b) 0 = order ↔
      Placed localeCompare order (fields a) (fields b) (pre a) (pre b) := by
  unfold compareVersions Placed
  rw [splitCore_eq, splitCore_eq]
  dsimp only
  rw [compareCores_heard]
  cases found : parted (fields a) (fields b) with
  | some pair =>
    obtain ⟨x, y⟩ := pair
    obtain ⟨value, decided, sign⟩ := decideField_placed localeCompare (parted_differ found) order
    rw [Option.bind_some, decided]
    exact sign
  | none =>
    cases pre a with
    | none =>
      cases pre b with
      | none => exact eq_comm
      | some q => exact eq_comm
    | some p =>
      cases pre b with
      | none => exact eq_comm
      | some q =>
        unfold PrereleasesPlaced
        dsimp only [Option.bind, Option.map]
        by_cases same : p = q
        · rw [if_pos same, if_pos (congrArg String.ofList same)]
          exact eq_comm
        · rw [if_neg same, if_neg fun texts => same (String.ofList_inj.mp texts)]
          exact Iff.rfl

end Reading

section Agreement

variable (localeCompare : String → String → Int)

theorem toldApart_some {as bs xs ys : List (List Char)} {x y : List Char}
    (found : toldApart as bs = some ((x, xs), (y, ys))) :
    ∃ us vs, as = us ++ x :: xs ∧ bs = vs ++ y :: ys ∧ us.map identifier = vs.map identifier ∧
      us.map heard = vs.map heard ∧ ¬ (identifier x = identifier y ∧ heard x = heard y) := by
  fun_induction toldApart as bs with
  | case1 a as b bs same ih =>
    obtain ⟨us, vs, rfl, rfl, keys, fields, apart⟩ := ih found
    refine ⟨a :: us, b :: vs, rfl, rfl, ?_, ?_, apart⟩
    · rw [List.map_cons, List.map_cons, same.1, keys]
    · rw [List.map_cons, List.map_cons, same.2, fields]
  | case2 a as b bs apart =>
    cases found
    exact ⟨[], [], rfl, rfl, rfl, rfl, apart⟩
  | case3 => cases found

theorem toldApart_none {as bs : List (List Char)} (absent : toldApart as bs = none) :
    ∃ us vs xs ys, as = us ++ xs ∧ bs = vs ++ ys ∧ us.map identifier = vs.map identifier ∧
      us.map heard = vs.map heard ∧ (xs = [] ∨ ys = []) := by
  fun_induction toldApart as bs with
  | case1 a as b bs same ih =>
    obtain ⟨us, vs, xs, ys, rfl, rfl, keys, fields, ends⟩ := ih absent
    refine ⟨a :: us, b :: vs, xs, ys, rfl, rfl, ?_, ?_, ends⟩
    · rw [List.map_cons, List.map_cons, same.1, keys]
    · rw [List.map_cons, List.map_cons, same.2, fields]
  | case2 => cases absent
  | case3 as bs other =>
    refine ⟨[], [], as, bs, rfl, rfl, rfl, rfl, ?_⟩
    cases as with
    | nil => exact .inl rfl
    | cons a as =>
      cases bs with
      | nil => exact .inr rfl
      | cons b bs => exact absurd rfl (other a as b bs rfl)

theorem orderFrom_fields (a b : String) : compareKeys (semverKey a) (semverKey b) = orderFrom (fields a) (fields b) a b := by
  unfold orderFrom
  rw [show (fields a).map identifier = (semverKey a).1 from (semverKey_parts a).symm,
    show (fields b).map identifier = (semverKey b).1 from (semverKey_parts b).symm]

theorem orderFrom_append {us vs : List (List Char)} (same : us.map identifier = vs.map identifier)
    (xs ys : List (List Char)) (a b : String) : orderFrom (us ++ xs) (vs ++ ys) a b = orderFrom xs ys a b := by
  unfold orderFrom compareKeys
  dsimp only
  rw [List.map_append, List.map_append, same, Lexical.compare_append_left]

theorem orderFrom_of_ne {x y : List Char} (apart : identifier x ≠ identifier y) (xs ys : List (List Char)) (a b : String) :
    orderFrom (x :: xs) (y :: ys) a b = compare (identifier x) (identifier y) := by
  unfold orderFrom compareKeys
  dsimp only
  rw [List.map_cons, List.map_cons, Lexical.compare_cons_of_ne apart]
  cases order : compare (identifier x) (identifier y) with
  | eq => exact absurd (Std.LawfulEqOrd.eq_of_compare order) apart
  | lt => rfl
  | gt => rfl

theorem heard_number_eq {x y : List Char} (left : isNumber x = true) (right : isNumber y = true)
    (same : identifier x = identifier y) : heard x = heard y := by
  rw [identifier_number left, identifier_number right] at same
  rw [heard_eq, heard_eq, if_pos left, if_pos right, Identifier.numeric.inj same]

/-- Fields that are the same to the command line and are not both numbers are the same text. -/
theorem identifier_of_heard {x y : List Char} (notNumbers : ¬ (isNumber x ∧ isNumber y)) (same : heard x = heard y) :
    identifier x = identifier y := by
  rw [heard_eq, heard_eq] at same
  cases left : isNumber x <;> cases right : isNumber y
  · rw [left, right] at same
    rw [String.ofList_inj.mp (CorePart.text.inj same)]
  · rw [left, right] at same
    cases same
  · rw [left, right] at same
    cases same
  · exact absurd ⟨left, right⟩ notNumbers

theorem placed_cons (x y : List Char) (xs ys : List (List Char)) (order : Ordering) (p q : Option (List Char)) :
    Placed localeCompare order (x :: xs) (y :: ys) p q ↔
      if heard x = heard y then Placed localeCompare order xs ys p q else FieldsPlaced localeCompare order x y := by
  unfold Placed
  rw [parted]
  by_cases same : heard x = heard y
  · rw [if_pos same, if_pos same]
  · rw [if_neg same, if_neg same]

/-- The registry looks at the prereleases where the parts are the same. -/
theorem prereleases_placed_iff {a b : String} (same : parts a = parts b) :
    PrereleasesPlaced localeCompare (compareKeys (semverKey a) (semverKey b)) (pre a) (pre b) ↔
      ∀ p q, pre a = some p → pre b = some q → p ≠ q →
        Collates localeCompare (compare (preParts p) (preParts q)) (String.ofList p) (String.ofList q) := by
  unfold compareKeys
  rw [semverKey_parts, semverKey_parts, same, Std.ReflOrd.compare_self, Ordering.eq_then]
  unfold semverKey
  cases pre a with
  | none =>
    cases pre b with
    | none => exact iff_of_true rfl (by simp)
    | some q => exact iff_of_true rfl (by simp)
  | some p =>
    cases pre b with
    | none => exact iff_of_true rfl (by simp)
    | some q =>
      change (if p = q then compare (preParts p) (preParts q) = .eq else Collates localeCompare _ _ _) ↔ _
      by_cases equal : p = q
      · rw [if_pos equal, equal, Std.ReflOrd.compare_self]
        exact iff_of_true rfl (by simp)
      · rw [if_neg equal]
        constructor
        · rintro placed _ _ ⟨⟩ ⟨⟩ _
          exact placed
        · intro placed
          exact placed p q rfl rfl equal

theorem placed_iff (a b : String) :
    Placed localeCompare (compareKeys (semverKey a) (semverKey b)) (fields a) (fields b) (pre a) (pre b) ↔
      SameOrder localeCompare a b := by
  unfold SameOrder
  cases found : toldApart (fields a) (fields b) with
  | some difference =>
    obtain ⟨⟨x, xs⟩, y, ys⟩ := difference
    obtain ⟨us, vs, one, two, keys, fronts, apart⟩ := toldApart_some found
    have order : compareKeys (semverKey a) (semverKey b) = orderFrom (x :: xs) (y :: ys) a b := by
      rw [orderFrom_fields, one, two, orderFrom_append keys]
    have here : Placed localeCompare (orderFrom (x :: xs) (y :: ys) a b) (fields a) (fields b) (pre a) (pre b) ↔
        Placed localeCompare (orderFrom (x :: xs) (y :: ys) a b) (x :: xs) (y :: ys) (pre a) (pre b) := by
      unfold Placed
      rw [one, two, parted_append fronts]
    dsimp only
    rw [order, here, placed_cons]
    by_cases numbers : isNumber x ∧ isNumber y
    · have differ : identifier x ≠ identifier y :=
        fun same => apart ⟨same, heard_number_eq numbers.1 numbers.2 same⟩
      rw [if_pos numbers, orderFrom_of_ne differ]
      by_cases same : heard x = heard y
      · rw [if_pos same]
        exact ⟨fun placed _ => placed, fun placed => placed same⟩
      · rw [if_neg same]
        have placed : FieldsPlaced localeCompare (compare (identifier x) (identifier y)) x y := by
          unfold FieldsPlaced
          rw [if_pos numbers]
        exact iff_of_true placed fun equal => absurd equal same
    · have differ : heard x ≠ heard y := fun same => apart ⟨identifier_of_heard numbers same, same⟩
      rw [if_neg numbers, if_neg differ, FieldsPlaced, if_neg numbers]
  | none =>
    obtain ⟨us, vs, xs, ys, one, two, keys, fronts, ends⟩ := toldApart_none found
    dsimp only
    cases order : compare (parts a) (parts b) with
    | eq =>
      have same : parts a = parts b := Std.LawfulEqOrd.eq_of_compare order
      have level : xs = [] ∧ ys = [] := by
        have lengths := congrArg List.length same
        have front := congrArg List.length keys
        rw [show parts a = (us ++ xs).map identifier from congrArg _ one,
          show parts b = (vs ++ ys).map identifier from congrArg _ two] at lengths
        simp only [List.length_map, List.length_append] at lengths front
        rcases ends with rfl | rfl
        · exact ⟨rfl, List.length_eq_zero_iff.mp (by simp only [List.length_nil] at lengths; omega)⟩
        · exact ⟨List.length_eq_zero_iff.mp (by simp only [List.length_nil] at lengths; omega), rfl⟩
      obtain ⟨rfl, rfl⟩ := level
      dsimp only
      rw [← prereleases_placed_iff localeCompare same]
      unfold Placed
      rw [one, two, parted_append fronts, parted]
    | lt =>
      have below : compareKeys (semverKey a) (semverKey b) = .lt := by
        rw [compareKeys, semverKey_parts, semverKey_parts, order, Ordering.lt_then]
      rw [below]
    | gt =>
      have above : compareKeys (semverKey a) (semverKey b) = .gt := by
        rw [compareKeys, semverKey_parts, semverKey_parts, order, Ordering.gt_then]
      rw [above]

theorem same_order_iff (a b : String) :
    compare (compareVersions localeCompare a b) 0 = compareKeys (semverKey a) (semverKey b) ↔ SameOrder localeCompare a b := by
  rw [compareVersions_placed]
  exact placed_iff localeCompare a b

end Agreement

section Installed

def keyLE (a b : String) : Bool := (compareKeys (semverKey a) (semverKey b)).isLE

theorem keyLE_trans (a b c : String) (first : keyLE a b = true) (second : keyLE b c = true) : keyLE a c = true :=
  @Std.TransCmp.isLE_trans Key keyOrder _ _ _ _ first second

theorem keyLE_total (a b : String) : (keyLE a b || keyLE b a) = true := by
  unfold keyLE
  rw [compareKeys_swap (semverKey b)]
  cases compareKeys (semverKey a) (semverKey b) <;> rfl

def OrdersTotally (localeCompare : String → String → Int) (versions : List String) : Prop :=
  (∀ a ∈ versions, ∀ b ∈ versions,
    compare (compareVersions localeCompare b a) 0 = (compare (compareVersions localeCompare a b) 0).swap) ∧
  ∀ a ∈ versions, ∀ b ∈ versions, ∀ c ∈ versions, compareVersions localeCompare a b ≤ 0 →
    compareVersions localeCompare b c ≤ 0 → compareVersions localeCompare a c ≤ 0

theorem same_order_le {localeCompare : String → String → Int} {a b : String} (same : SameOrder localeCompare a b) :
    decide (compareVersions localeCompare a b ≤ 0) = keyLE a b := by
  have sign := (same_order_iff localeCompare a b).mpr same
  unfold keyLE
  rw [← sign, Bool.eq_iff_iff, decide_eq_true_iff, ← Ordering.ne_gt_iff_isLE]
  exact compare_le_iff_le.symm

theorem orders_totally {localeCompare : String → String → Int} {versions : List String}
    (same : ∀ a ∈ versions, ∀ b ∈ versions, SameOrder localeCompare a b) : OrdersTotally localeCompare versions := by
  constructor
  · intro a left b right
    rw [(same_order_iff localeCompare a b).mpr (same a left b right),
      (same_order_iff localeCompare b a).mpr (same b right a left)]
    exact compareKeys_swap _ _
  · intro a left b middle c right first second
    have one : keyLE a b = true := by
      rw [← same_order_le (same a left b middle)]
      exact decide_eq_true first
    have two : keyLE b c = true := by
      rw [← same_order_le (same b middle c right)]
      exact decide_eq_true second
    have both := keyLE_trans a b c one two
    rw [← same_order_le (same a left c right)] at both
    exact of_decide_eq_true both

theorem le_last {α : Type} {below : α → α → Prop} {items : List α} {last : α} (sorted : items.Pairwise below)
    (ends : items.getLast? = some last) : ∀ item ∈ items, item = last ∨ below item last := by
  obtain ⟨front, rfl⟩ := List.getLast?_eq_some_iff.mp ends
  intro item listed
  rcases List.mem_append.mp listed with before | final
  · exact .inr ((List.pairwise_append.mp sorted).2.2 item before last (by simp))
  · exact .inl (List.mem_singleton.mp final)

variable {around : RunSurroundings} {config : OpenAgentHubConfig} {namespaceName name : String}
  {entry : String × InstalledAgent}

theorem mergeSort_congr {α : Type} {below other : α → α → Bool} {items : List α}
    (same : ∀ a ∈ items, ∀ b ∈ items, below a b = other a b) : items.mergeSort below = items.mergeSort other := by
  have mapped := List.map_mergeSort (f := id) same
  rwa [List.map_id, List.map_id] at mapped

theorem installedMatches_sorted
    (same : ∀ one ∈ installedMatches around config namespaceName name,
      ∀ other ∈ installedMatches around config namespaceName name,
        SameOrder around.localeCompare one.2.version other.2.version) :
    (installedMatches around config namespaceName name).Pairwise fun one other =>
      keyLE one.2.version other.2.version = true := by
  have listed : ∀ found, found ∈ installedMatches around config namespaceName name ↔
      found ∈ config.installed.entries.filter fun found => Text.startsWith found.1 (namespaceName ++ "/" ++ name ++ "@") :=
    fun found => List.mem_mergeSort
  have sorted := mergeSort_congr fun one left other right =>
    same_order_le (same one ((listed one).mpr left) other ((listed other).mpr right))
  rw [installedMatches, sorted]
  apply List.pairwise_mergeSort
  · intro a b c
    exact keyLE_trans _ _ _
  · intro a b
    exact keyLE_total _ _

theorem resolved_latest
    (same : ∀ one ∈ installedMatches around config namespaceName name,
      ∀ other ∈ installedMatches around config namespaceName name,
        SameOrder around.localeCompare one.2.version other.2.version)
    (resolved : resolveInstalledOrThrow around config namespaceName name none = .ok entry) :
    IsLatest (fun a b => compareKeys (semverKey a) (semverKey b))
      ((installedMatches around config namespaceName name).map fun found => found.2.version) entry.2.version := by
  rw [resolveInstalledOrThrow, Outcome.demand_eq_ok] at resolved
  intro version listed
  dsimp only
  obtain ⟨found, present, rfl⟩ := List.mem_map.mp listed
  rcases le_last (installedMatches_sorted same) resolved found present with rfl | below
  · rw [compareKeys_self]
    simp
  · intro above
    rw [keyLE, above] at below
    cases below

end Installed

/-- Whatever the collation is, the command line orders two versions as the registry does exactly under
    `SameOrder`; versions of which that holds it orders totally, and of installed ones it resolves the
    registry's latest. -/
theorem versions_ordered_alike_iff (localeCompare : String → String → Int) (a b : String) :
    (compare (compareVersions localeCompare a b) 0 = compareKeys (semverKey a) (semverKey b) ↔
      SameOrder localeCompare a b) ∧
    (∀ versions : List String, (∀ a ∈ versions, ∀ b ∈ versions, SameOrder localeCompare a b) →
      OrdersTotally localeCompare versions) ∧
    ∀ (around : RunSurroundings) (config : OpenAgentHubConfig) (namespaceName name : String)
      (entry : String × InstalledAgent), around.localeCompare = localeCompare →
      (∀ one ∈ installedMatches around config namespaceName name,
        ∀ other ∈ installedMatches around config namespaceName name,
          SameOrder localeCompare one.2.version other.2.version) →
      resolveInstalledOrThrow around config namespaceName name none = .ok entry →
      IsLatest (fun a b => compareKeys (semverKey a) (semverKey b))
        ((installedMatches around config namespaceName name).map fun found => found.2.version) entry.2.version := by
  refine ⟨same_order_iff localeCompare a b, fun versions => orders_totally, ?_⟩
  rintro around config namespaceName name entry rfl same resolved
  exact resolved_latest same resolved

def byCodePoint (first second : String) : Int :=
  match compare first.toList second.toList with
  | .lt => -1
  | .eq => 0
  | .gt => 1

/-- The tenth release candidate comes before the second, and three builds come round in a circle. -/
theorem versions_ordered_otherwise :
    compareVersions byCodePoint "1.0.0-rc.2" "1.0.0-rc.10" = 1 ∧
      compareKeys (semverKey "1.0.0-rc.2") (semverKey "1.0.0-rc.10") = .lt ∧
    compareVersions byCodePoint "0.0.9" "0.0.10" < 0 ∧ compareVersions byCodePoint "0.0.10" "0.0.5+a" < 0 ∧
      compareVersions byCodePoint "0.0.5+a" "0.0.9" < 0 ∧
    ∀ version ∈ ["1.0.0-rc.2", "1.0.0-rc.10", "0.0.9", "0.0.10", "0.0.5+a"], accepted version = true := by
  decide +kernel

example : SameOrder byCodePoint "1.2.0-rc.1" "1.10.0" :=
  (same_order_iff byCodePoint "1.2.0-rc.1" "1.10.0").mp (by decide +kernel)

/-- A collation that takes the digits of all scripts for the same, as those of Unicode do. -/
example : SameOrder (fun first second => byCodePoint (String.ofList (first.toList.map toAscii))
    (String.ofList (second.toList.map toAscii))) "13.0.0" "1\u0662.0.0" :=
  (same_order_iff _ "13.0.0" "1\u0662.0.0").mp (by decide +kernel)

end Cli
