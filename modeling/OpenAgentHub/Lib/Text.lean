import Mathlib.Algebra.GroupWithZero.Nat

namespace Text

/-- The characters that `str.strip` removes. -/
def isSpace (char : Char) : Bool :=
  let code := char.toNat
  (9 ≤ code && code ≤ 13) || (28 ≤ code && code ≤ 32) || code == 0x85 || code == 0xa0 ||
    code == 0x1680 || (0x2000 ≤ code && code ≤ 0x200a) || code == 0x2028 || code == 0x2029 ||
    code == 0x202f || code == 0x205f || code == 0x3000

def trimLeft (chars : List Char) : List Char := chars.dropWhile isSpace

def strip (text : String) : String :=
  String.ofList (trimLeft (trimLeft text.toList.reverse).reverse)

theorem trimLeft_eq_self {chars : List Char} (first : chars.head?.all (fun char => !isSpace char) = true) :
    trimLeft chars = chars := by
  cases chars with
  | nil => rfl
  | cons char rest =>
    have plain : isSpace char = false := by simpa using first
    simp [trimLeft, plain]

theorem strip_append {left right : String} (first : left.toList.head?.any (fun char => !isSpace char) = true)
    (last : right.toList.getLast?.any (fun char => !isSpace char) = true) : strip (left ++ right) = left ++ right := by
  have front : trimLeft (left ++ right).toList = (left ++ right).toList := by
    apply trimLeft_eq_self
    rw [String.toList_append, List.head?_append]
    cases start : left.toList.head? <;> simp_all
  have back : trimLeft (left ++ right).toList.reverse = (left ++ right).toList.reverse := by
    apply trimLeft_eq_self
    rw [List.head?_reverse, String.toList_append, List.getLast?_append]
    cases stop : right.toList.getLast? <;> simp_all
  rw [strip, back, List.reverse_reverse, front, String.ofList_toList]

/-- The characters that `String.prototype.trim` removes. -/
def isBlank (char : Char) : Bool :=
  let code := char.toNat
  (9 ≤ code && code ≤ 13) || code == 32 || code == 0xa0 || code == 0x1680 || (0x2000 ≤ code && code ≤ 0x200a) ||
    code == 0x2028 || code == 0x2029 || code == 0x202f || code == 0x205f || code == 0x3000 || code == 0xfeff

def trim (chars : List Char) : List Char :=
  ((chars.dropWhile isBlank).reverse.dropWhile isBlank).reverse

def isLowerOrDigit (char : Char) : Bool :=
  ('a' ≤ char && char ≤ 'z') || ('0' ≤ char && char ≤ '9')

def replace (text : String) (old new : Char) : String :=
  String.ofList (text.toList.map fun char => if char == old then new else char)

def join (separator : String) : List String → String
  | [] => ""
  | [last] => last
  | head :: next :: rest => head ++ separator ++ join separator (next :: rest)

/-- `sorted(set(...))` over strings, by code point. -/
def sortedSet (items : List String) : List String :=
  (items.mergeSort fun first second => decide (first ≤ second)).eraseReps

theorem mem_eraseRepsBy_loop {item : String} (first : String) (rest kept : List String) :
    item ∈ List.eraseRepsBy.loop (· == ·) first rest kept ↔ item = first ∨ item ∈ rest ∨ item ∈ kept := by
  induction rest generalizing first kept with
  | nil => simp [List.eraseRepsBy.loop, or_comm]
  | cons next rest ih =>
    rw [List.eraseRepsBy.loop]
    cases same : first == next with
    | true =>
      rw [ih, ← beq_iff_eq.mp same]
      grind
    | false =>
      rw [ih]
      grind

theorem mem_sortedSet {item : String} {items : List String} : item ∈ sortedSet items ↔ item ∈ items := by
  have sorted : item ∈ (items.mergeSort fun first second => decide (first ≤ second)) ↔ item ∈ items :=
    List.mem_mergeSort
  rw [← sorted]
  unfold sortedSet List.eraseReps
  cases items.mergeSort fun first second => decide (first ≤ second) with
  | nil => rfl
  | cons first rest =>
    rw [List.eraseRepsBy, mem_eraseRepsBy_loop]
    simp

def split (separator : Char) (text : String) : List String :=
  (text.toList.splitOn separator).map String.ofList

theorem mem_split {separator : Char} {text piece : String} :
    piece ∈ split separator text ↔ piece.toList ∈ text.toList.splitOn separator := by
  unfold split
  rw [List.mem_map]
  constructor
  · rintro ⟨chars, present, rfl⟩
    rwa [String.toList_ofList]
  · intro present
    exact ⟨piece.toList, present, String.ofList_toList⟩

theorem mem_splitOn_of_trailing {separator : Char} {count : Nat} {chars piece : List Char} (nonempty : piece ≠ [])
    (present : piece ∈ (chars ++ List.replicate count separator).splitOn separator) : piece ∈ chars.splitOn separator := by
  induction count generalizing chars with
  | zero => simpa using present
  | succ count ih =>
    rw [List.replicate_succ, List.splitOn_append_cons_self, List.mem_append] at present
    rcases present with here | beyond
    · exact here
    · have none : piece ∈ ([] : List Char).splitOn separator := ih (by simpa using beyond)
      rw [List.splitOn_nil, List.mem_singleton] at none
      exact absurd none nonempty

theorem head_splitOn (separator : Char) (chars : List Char) :
    ∃ others, chars.splitOn separator = chars.takeWhile (· ≠ separator) :: others := by
  induction chars with
  | nil => exact ⟨[], rfl⟩
  | cons char rest step =>
    obtain ⟨others, pieces⟩ := step
    rw [List.splitOn_cons_eq_if_modifyHead, pieces]
    by_cases here : char = separator
    · rw [if_pos (by simpa using here), List.takeWhile_cons_of_neg (by simpa using here)]
      exact ⟨_, rfl⟩
    · rw [if_neg (by simpa using here), List.takeWhile_cons_of_pos (by simpa using here)]
      exact ⟨others, rfl⟩

theorem takeWhile_before {separator : Char} {chars rest : List Char} :
    (chars ++ separator :: rest).takeWhile (· ≠ separator) = chars.takeWhile (· ≠ separator) := by
  induction chars with
  | nil => simp
  | cons char others step =>
    by_cases here : char = separator
    · rw [List.cons_append, List.takeWhile_cons_of_neg (by simpa using here), List.takeWhile_cons_of_neg (by simpa using here)]
    · rw [List.cons_append, List.takeWhile_cons_of_pos (by simpa using here), List.takeWhile_cons_of_pos (by simpa using here),
        step]

theorem cut_eq {separator : Char} {head other rest otherRest : List Char} (plain : separator ∉ head)
    (otherPlain : separator ∉ other) (same : head ++ separator :: rest = other ++ separator :: otherRest) :
    head = other ∧ rest = otherRest := by
  have first : ∀ {chars after : List Char}, separator ∉ chars → (chars ++ separator :: after).takeWhile (· ≠ separator) = chars := by
    intro chars after missing
    have kept : ∀ char ∈ chars, decide (char ≠ separator) = true := by
      intro char present
      apply decide_eq_true
      rintro rfl
      exact missing present
    rw [List.takeWhile_append_of_pos kept]
    simp
  have heads := congrArg (List.takeWhile (· ≠ separator)) same
  rw [first plain, first otherPlain] at heads
  subst heads
  exact ⟨rfl, List.tail_eq_of_cons_eq (List.append_cancel_left same)⟩

theorem replace_eq_self {text : String} {old new : Char} (missing : old ∉ text.toList) : replace text old new = text := by
  unfold replace
  have same : text.toList.map (fun char => if char == old then new else char) = text.toList := by
    rw [List.map_congr_left (g := id), List.map_id]
    intro char present
    have differs : char ≠ old := fun isOld => missing (isOld ▸ present)
    simp [differs]
  rw [same, String.ofList_toList]

theorem join_cons_cons {separator head next : String} {rest : List String} :
    (join separator (head :: next :: rest)).toList =
      head.toList ++ (separator.toList ++ (join separator (next :: rest)).toList) := by
  simp [join, String.toList_append]

theorem split_join {items : List String} {separator : Char} (plain : ∀ item ∈ items, separator ∉ item.toList)
    (present : items ≠ []) : split separator (join (String.ofList [separator]) items) = items := by
  induction items with
  | nil => exact absurd rfl present
  | cons head rest ih =>
    have here := plain head List.mem_cons_self
    cases rest with
    | nil => simp [join, split, List.splitOn_eq_singleton here]
    | cons next others =>
      have tail := ih (fun item member => plain item (List.mem_cons_of_mem _ member)) (List.cons_ne_nil _ _)
      unfold split at tail ⊢
      rw [join_cons_cons, String.toList_ofList, List.singleton_append,
        List.splitOn_append_cons_self_of_not_mem here, List.map_cons, tail, String.ofList_toList]

def startsWith (text lead : String) : Bool := lead.toList.isPrefixOf text.toList

def rstrip (text : String) (char : Char) : String :=
  String.ofList (text.toList.reverse.dropWhile (· == char)).reverse

end Text
