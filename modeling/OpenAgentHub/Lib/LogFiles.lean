import OpenAgentHub.Lib.Record
import OpenAgentHub.Lib.Runs
import OpenAgentHub.Lib.Text
import OpenAgentHub.Lib.Utf8
import Mathlib.Data.List.DropRight
import Mathlib.Data.List.Sort
import Mathlib.Data.String.Basic

/-! Directories of text files, log files that are rotated by renaming, and their last lines. -/

namespace LogFiles

abbrev Directory := Record (List Char)

namespace Directory

def text (dir : Directory) (name : String) : List Char := (dir.get name).getD []

def remove (dir : Directory) (name : String) : Directory := dir.discard (· == name)

def rename (dir : Directory) (source target : String) : Directory :=
  match dir.get source with
  | none => dir
  | some text => (dir.remove source).set target text

def append (dir : Directory) (name : String) (text : List Char) : Directory := dir.set name (dir.text name ++ text)

theorem get_set {dir : Directory} {name other : String} {text : List Char} :
    (Record.set dir name text).get other = if other = name then some text else dir.get other := Record.lookup_put

theorem get_remove {dir : Directory} {name other : String} :
    (dir.remove name).get other = if other = name then none else dir.get other := by
  rw [remove, Record.get_discard]
  by_cases same : other = name
  · simp [same]
  · simp [same]

theorem get_append {dir : Directory} {name other : String} {text : List Char} :
    (dir.append name text).get other = if other = name then some (dir.text name ++ text) else dir.get other := get_set

theorem get_rename {dir : Directory} {source target other : String} (apart : source ≠ target) :
    (dir.rename source target).get other =
      if other = target then (dir.get source).or (dir.get target)
      else if other = source then none else dir.get other := by
  cases found : dir.get source with
  | none =>
    rw [rename, found]
    by_cases isTarget : other = target
    · simp [isTarget]
    · by_cases isSource : other = source
      · simp [isSource, apart, found]
      · simp [isTarget, isSource]
  | some text =>
    rw [rename, found]
    dsimp only
    rw [get_set, get_remove]
    rfl

theorem mem_keys {dir : Directory} {name : String} : name ∈ dir.keys ↔ (dir.get name).isSome := by
  rw [Record.keys, Record.get, List.mem_map, Option.isSome_iff_exists]
  constructor
  · rintro ⟨⟨_, text⟩, present, rfl⟩
    exact ⟨text, Record.get_of_mem present⟩
  · rintro ⟨text, found⟩
    exact ⟨(name, text), Record.mem_of_get found, rfl⟩

end Directory

def size (text : List Char) : Nat := (Utf8.encode text).length

theorem size_nil : size [] = 0 := rfl

theorem size_ascii {text : List Char} (ascii : ∀ char ∈ text, char.toNat < 128) : size text = text.length := by
  unfold size Utf8.encode
  induction text with
  | nil => rfl
  | cons char rest ih =>
    rw [List.flatMap_cons, List.length_append, Utf8.encode_ascii (ascii char List.mem_cons_self), List.length_singleton,
      ih fun other member => ascii other (List.mem_cons_of_mem char member), List.length_cons, Nat.add_comm]

def generation (base : String) (index : Nat) : String :=
  if index = 0 then base else base ++ "." ++ toString index

def shift (base : String) : Nat → Directory → Directory
  | 0, dir => dir
  | index + 1, dir => shift base index (dir.rename (generation base index) (generation base (index + 1)))

/-- A log that has reached its size is renamed, every older file before it, and the oldest one is removed. -/
def rotate (base : String) (maxBytes maxFiles : Nat) (dir : Directory) : Directory :=
  match dir.get base with
  | none => dir
  | some text =>
    if size text < maxBytes then dir
    else shift base (maxFiles - 1) (dir.remove (generation base (maxFiles - 1)))

theorem generation_inj {base : String} {index other : Nat} : generation base index = generation base other ↔ index = other := by
  refine ⟨fun same => ?_, congrArg (generation base)⟩
  unfold generation at same
  split at same <;> split at same <;> rename_i first second
  · rw [first, second]
  · have lengths := congrArg String.length same
    simp only [String.length_append, show ".".length = 1 from rfl] at lengths
    omega
  · have lengths := congrArg String.length same
    simp only [String.length_append, show ".".length = 1 from rfl] at lengths
    omega
  · have lists := congrArg String.toList same
    simp only [String.toList_append, List.append_assoc, List.append_cancel_left_eq] at lists
    have digits : Nat.toDigits 10 index = Nat.toDigits 10 other := by
      rw [← Nat.toList_repr, ← Nat.toList_repr]
      exact lists
    rw [← @Nat.ofDigitChars_ten_toDigits index, digits, Nat.ofDigitChars_ten_toDigits]

theorem generation_ne {base : String} {index other : Nat} (apart : index ≠ other) :
    generation base index ≠ generation base other :=
  fun same => apart (generation_inj.mp same)

theorem get_shift_base {base : String} {count : Nat} {dir : Directory}
    (free : dir.get (generation base count) = none) : (shift base count dir).get (generation base 0) = none := by
  induction count generalizing dir with
  | zero => exact free
  | succ count ih =>
    apply ih
    rw [Directory.get_rename (generation_ne (by omega)), if_neg (generation_ne (by omega)), if_pos rfl]

theorem get_shift_other {base name : String} {count : Nat} {dir : Directory}
    (apart : ∀ index ≤ count, name ≠ generation base index) : (shift base count dir).get name = dir.get name := by
  induction count generalizing dir with
  | zero => rfl
  | succ count ih =>
    rw [shift, ih (fun index below => apart index (by omega)), Directory.get_rename (generation_ne (by omega)),
      if_neg (apart _ (by omega)), if_neg (apart _ (by omega))]

theorem get_shift_succ {base : String} {count index : Nat} {dir : Directory}
    (free : dir.get (generation base count) = none) (below : index < count) :
    (shift base count dir).get (generation base (index + 1)) = dir.get (generation base index) := by
  induction count generalizing dir with
  | zero => omega
  | succ count ih =>
    have moved (name : String) := @Directory.get_rename dir (generation base count) (generation base (count + 1)) name
      (generation_ne (by omega))
    by_cases last : index = count
    · subst last
      rw [shift, get_shift_other (fun other small => generation_ne (by omega)), moved, if_pos rfl, free, Option.or_none]
    · rw [shift, ih (by rw [moved, if_neg (generation_ne (by omega)), if_pos rfl]) (by omega), moved,
        if_neg (generation_ne (by omega)), if_neg (generation_ne last)]

theorem rotate_reached {base : String} {maxBytes maxFiles : Nat} {dir : Directory} {text : List Char}
    (found : dir.get base = some text) (reached : maxBytes ≤ size text) (several : 1 < maxFiles) :
    (rotate base maxBytes maxFiles dir).get (generation base 0) = none ∧
      (∀ index, index + 1 < maxFiles →
        (rotate base maxBytes maxFiles dir).get (generation base (index + 1)) = dir.get (generation base index)) ∧
      ∀ name, (∀ index < maxFiles, name ≠ generation base index) →
        (rotate base maxBytes maxFiles dir).get name = dir.get name := by
  have removed (name : String) := @Directory.get_remove dir (generation base (maxFiles - 1)) name
  have free := (removed (generation base (maxFiles - 1))).trans (if_pos rfl)
  rw [rotate, found]
  dsimp only
  rw [if_neg (not_lt.mpr reached)]
  refine ⟨get_shift_base free, fun index below => ?_, fun name apart => ?_⟩
  · rw [get_shift_succ free (by omega), removed, if_neg (generation_ne (by omega))]
  · rw [get_shift_other fun index below => apart index (by omega), removed, if_neg (apart _ (by omega))]

def retained (base : String) (maxFiles : Nat) (dir : Directory) : List Char :=
  (List.range maxFiles).reverse.flatMap fun index => dir.text (generation base index)

def listing (lead : String) (dir : Directory) : List String :=
  (dir.keys.filter (Text.startsWith · lead)).mergeSort fun one other => !decide (one < other)

theorem startsWith_generation {base : String} {index : Nat} : Text.startsWith (generation base index) base = true := by
  unfold Text.startsWith generation
  rw [List.isPrefixOf_iff_prefix]
  split
  · exact List.prefix_rfl
  · rw [String.toList_append, String.toList_append, List.append_assoc]
    exact List.prefix_append _ _

theorem listing_eq {lead : String} {dir : Directory} {names : List String}
    (descending : names.Pairwise fun one other => other < one) (led : ∀ name ∈ names, Text.startsWith name lead)
    (known : ∀ name, (dir.get name).isSome → Text.startsWith name lead → name ∈ names) :
    listing lead dir = names.filter fun name => (dir.get name).isSome := by
  have ordered : (listing lead dir).Pairwise fun one other => other ≤ one := by
    have sorted := @List.pairwise_mergeSort _ (fun one other : String => !decide (one < other))
      (fun one two three first second => by
        simp only [Bool.not_eq_true', decide_eq_false_iff_not, not_lt] at first second ⊢
        exact second.trans first)
      (fun one other => by
        simp only [Bool.or_eq_true, Bool.not_eq_true', decide_eq_false_iff_not, not_lt]
        exact le_total other one) (dir.keys.filter (Text.startsWith · lead))
    refine sorted.imp fun {one other} above => ?_
    rw [Bool.not_eq_true', decide_eq_false_iff_not] at above
    exact not_lt.mp above
  have perm : (listing lead dir).Perm (names.filter fun name => (dir.get name).isSome) := by
    refine (List.mergeSort_perm _ _).trans ((List.perm_ext_iff_of_nodup (dir.distinct.filter _) ?_).mpr ?_)
    · exact (descending.imp fun above => ne_of_gt above).filter _
    · intro name
      rw [List.mem_filter, List.mem_filter, ← Directory.mem_keys]
      exact ⟨fun ⟨present, leads⟩ => ⟨known name (Directory.mem_keys.mp present) leads, present⟩,
        fun ⟨isKnown, present⟩ => ⟨present, led name isKnown⟩⟩
  refine perm.eq_of_pairwise (fun one other _ _ above below => le_antisymm below above) ordered ?_
  exact (descending.filter _).imp le_of_lt

theorem append_lt_append {base first second : String} (less : first < second) : base ++ first < base ++ second := by
  rw [String.lt_iff_toList_lt, String.toList_append, String.toList_append]
  exact List.append_left_lt (String.lt_iff_toList_lt.mp less)

/-- The lines of a text, of which the last one need not be terminated. -/
def linesOf (text : List Char) : List (List Char) :=
  let parts := text.splitOn '\n'
  if parts.getLast? = some [] then parts.dropLast else parts

def joinLines (lines : List (List Char)) : List Char := ['\n'].intercalate lines

def Terminated (text : List Char) : Prop := text = [] ∨ text.getLast? = some '\n'

theorem Terminated.append {text more : List Char} (first : Terminated text) (second : Terminated more) :
    Terminated (text ++ more) := by
  rcases second with rfl | ends
  · rwa [List.append_nil]
  · right
    rw [List.getLast?_append, ends, Option.some_or]

theorem linesOf_nil : linesOf [] = [] := rfl

theorem linesOf_line (first rest : List Char) : linesOf (first ++ '\n' :: rest) = first.splitOn '\n' ++ linesOf rest := by
  unfold linesOf
  rw [List.splitOn_append_cons_self]
  dsimp only
  rw [List.getLast?_append_of_ne_nil _ (List.splitOn_ne_nil _ _), List.dropLast_append_of_ne_nil (List.splitOn_ne_nil _ _)]
  split
  · rfl
  · rfl

theorem linesOf_append {text : List Char} (terminated : Terminated text) (more : List Char) :
    linesOf (text ++ more) = linesOf text ++ linesOf more := by
  rcases terminated with rfl | ends
  · rfl
  · obtain ⟨lines, rfl⟩ := List.getLast?_eq_some_iff.mp ends
    rw [List.append_assoc, List.singleton_append, linesOf_line, linesOf_line, linesOf_nil, List.append_nil]

theorem not_mem_splitOn {text piece : List Char} {separator : Char} (present : piece ∈ text.splitOn separator) :
    separator ∉ piece := by
  induction text generalizing piece with
  | nil =>
    rw [List.splitOn_nil, List.mem_singleton] at present
    simp [present]
  | cons char rest ih =>
    rw [List.splitOn_cons_eq_if_modifyHead] at present
    split at present
    · rcases List.mem_cons.mp present with rfl | later
      · exact List.not_mem_nil
      · exact ih later
    · rename_i other
      obtain ⟨head, tail, pieces⟩ := List.exists_cons_of_ne_nil (List.splitOn_ne_nil separator rest)
      rw [pieces, List.modifyHead_cons, List.mem_cons] at present
      rcases present with rfl | later
      · rw [List.mem_cons, not_or]
        exact ⟨fun same => other (by simp [same]), ih (by simp [pieces])⟩
      · exact ih (by simp [pieces, later])

theorem not_mem_linesOf {text line : List Char} (present : line ∈ linesOf text) : '\n' ∉ line := by
  unfold linesOf at present
  dsimp only at present
  split at present
  · exact not_mem_splitOn ((List.dropLast_sublist _).subset present)
  · exact not_mem_splitOn present

theorem linesOf_eq_nil {text : List Char} : linesOf text = [] ↔ text = [] := by
  refine ⟨fun none => ?_, fun empty => empty ▸ rfl⟩
  unfold linesOf at none
  dsimp only at none
  split at none
  · rename_i last
    obtain ⟨earlier, pieces⟩ := List.getLast?_eq_some_iff.mp last
    rw [pieces, List.dropLast_concat] at none
    have whole : ['\n'].intercalate (text.splitOn '\n') = text := List.intercalate_splitOn '\n'
    rw [← whole, pieces, none]
    rfl
  · exact absurd none (List.splitOn_ne_nil _ _)

/-- Lines are told apart by their text, but for the text of no lines. -/
theorem joinLines_inj {lines others : List (List Char)} (plain : ∀ line ∈ lines, '\n' ∉ line)
    (otherPlain : ∀ line ∈ others, '\n' ∉ line) (nonempty : lines ≠ []) (otherNonempty : others ≠ []) :
    joinLines lines = joinLines others ↔ lines = others := by
  refine ⟨fun same => ?_, congrArg joinLines⟩
  rw [← List.splitOn_intercalate '\n' plain nonempty, ← List.splitOn_intercalate '\n' otherPlain otherNonempty]
  exact congrArg (List.splitOn '\n') same

theorem linesOf_plain {text : List Char} (plain : '\n' ∉ text) : linesOf text = if text = [] then [] else [text] := by
  unfold linesOf
  rw [List.splitOn_eq_singleton plain]
  by_cases empty : text = []
  · simp [empty]
  · simp [empty]

theorem linesOf_plain_line {first rest : List Char} (plain : '\n' ∉ first) :
    linesOf (first ++ '\n' :: rest) = first :: linesOf rest := by
  rw [linesOf_line, List.splitOn_eq_singleton plain, List.singleton_append]

theorem exists_terminated_append (text : List Char) :
    ∃ whole part, text = whole ++ part ∧ Terminated whole ∧ '\n' ∉ part := by
  induction text using List.reverseRecOn with
  | nil => exact ⟨[], [], rfl, .inl rfl, List.not_mem_nil⟩
  | append_singleton earlier char ih =>
    by_cases ends : char = '\n'
    · exact ⟨earlier ++ [char], [], (List.append_nil _).symm, .inr (by rw [List.getLast?_concat, ends]), List.not_mem_nil⟩
    · obtain ⟨whole, part, rfl, terminated, plain⟩ := ih
      refine ⟨whole, part ++ [char], List.append_assoc _ _ _, terminated, ?_⟩
      rw [List.mem_append, List.mem_singleton]
      exact fun present => present.elim plain fun same => ends same.symm

theorem Terminated.exists_first {text : List Char} (terminated : Terminated text) (nonempty : text ≠ []) :
    ∃ line rest, text = line ++ '\n' :: rest ∧ '\n' ∉ line ∧ linesOf text = line :: linesOf rest := by
  have present : '\n' ∈ text := List.mem_of_getLast? (terminated.resolve_left nonempty)
  obtain ⟨line, rest, rfl, plain⟩ := List.eq_append_cons_of_mem present
  exact ⟨line, rest, rfl, plain, linesOf_plain_line plain⟩

theorem Terminated.exists_last {text : List Char} (terminated : Terminated text) (nonempty : text ≠ []) :
    ∃ earlier line, text = earlier ++ line ++ ['\n'] ∧ Terminated earlier ∧ '\n' ∉ line ∧
      linesOf text = linesOf earlier ++ [line] := by
  obtain ⟨lines, rfl⟩ := List.getLast?_eq_some_iff.mp (terminated.resolve_left nonempty)
  obtain ⟨earlier, line, rfl, whole, plain⟩ := exists_terminated_append lines
  refine ⟨earlier, line, rfl, whole, plain, ?_⟩
  rw [List.append_assoc, linesOf_append whole, linesOf_plain_line plain, linesOf_nil]

theorem joinLines_cons {line : List Char} {rest : List (List Char)} (nonempty : rest ≠ []) :
    joinLines (line :: rest) = line ++ '\n' :: joinLines rest := by
  obtain ⟨next, later, rfl⟩ := List.exists_cons_of_ne_nil nonempty
  rw [joinLines, List.intercalate_cons_cons, List.append_assoc, List.singleton_append]
  rfl

theorem joinLines_singleton {line : List Char} : joinLines [line] = line := by
  rw [joinLines, List.intercalate_singleton]

theorem joinLines_append {lines others : List (List Char)} (nonempty : lines ≠ []) (otherNonempty : others ≠ []) :
    joinLines (lines ++ others) = joinLines lines ++ '\n' :: joinLines others := by
  induction lines with
  | nil => exact absurd rfl nonempty
  | cons line rest ih =>
    rw [List.cons_append, joinLines_cons (List.append_ne_nil_of_right_ne_nil rest otherNonempty)]
    by_cases last : rest = []
    · rw [last, List.nil_append, joinLines_singleton]
    · rw [ih last, joinLines_cons last, List.append_assoc, List.cons_append]

theorem length_joinLines {lines : List (List Char)} :
    (joinLines lines).length = (lines.map List.length).sum + (lines.length - 1) := by
  induction lines with
  | nil => rfl
  | cons line rest ih =>
    by_cases last : rest = []
    · simp [last, joinLines_singleton]
    · have positive := List.length_pos_iff.mpr last
      rw [joinLines_cons last, List.length_append, List.length_cons, ih, List.map_cons, List.sum_cons, List.length_cons]
      omega

theorem joinLines_eq_nil {lines : List (List Char)} : joinLines lines = [] ↔ lines = [] ∨ lines = [[]] := by
  cases lines with
  | nil => simp [joinLines]
  | cons line rest =>
    by_cases last : rest = []
    · simp [last, joinLines_singleton]
    · simp [joinLines_cons last, last]

/-- A text of lines begins with a line break exactly if a first line of many is empty. -/
theorem dropWhile_joinLines {lines : List (List Char)} (plain : ∀ line ∈ lines, '\n' ∉ line) :
    (joinLines lines).dropWhile (· == '\n') = joinLines lines ↔ lines.length ≤ 1 ∨ lines.head? ≠ some [] := by
  cases lines with
  | nil => simp [joinLines]
  | cons line rest =>
    have unbroken := plain line List.mem_cons_self
    cases line with
    | nil =>
      by_cases last : rest = []
      · simp [last, joinLines_singleton]
      · have several : ¬ rest.length + 1 ≤ 1 := by
          have positive := List.length_pos_iff.mpr last
          omega
        have shorter := ((joinLines rest).dropWhile_sublist (· == '\n')).length_le
        rw [joinLines_cons last, List.nil_append, List.dropWhile_cons_of_pos (by simp)]
        simp only [List.length_cons, several, List.head?_cons, ne_eq, not_true_eq_false, or_false, iff_false]
        intro same
        have lengths := congrArg List.length same
        rw [List.length_cons] at lengths
        omega
    | cons char chars =>
      have first : (joinLines ((char :: chars) :: rest)).head? = some char := by
        by_cases last : rest = []
        · simp [last, joinLines_singleton]
        · simp [joinLines_cons last]
      obtain ⟨tail, text⟩ := List.head?_eq_some_iff.mp first
      have isPlain : char ≠ '\n' := fun same => unbroken (same ▸ List.mem_cons_self)
      rw [text, List.dropWhile_cons_of_neg (by simpa using isPlain)]
      simp

theorem rtake_append {α : Type} {items more : List α} {count : Nat} :
    (items ++ more).rtake count = items.rtake (count - more.length) ++ more.rtake count := by
  unfold List.rtake
  rw [List.drop_append, List.length_append, show items.length + more.length - count - items.length = more.length - count by omega]
  congr 1
  by_cases within : count ≤ more.length
  · rw [List.drop_eq_nil_of_le (by omega), List.drop_eq_nil_of_le (by omega)]
  · congr 1
    omega

theorem length_rtake {α : Type} {items : List α} {count : Nat} : (items.rtake count).length = min count items.length := by
  rw [List.rtake, List.length_drop]
  omega

theorem rtake_append_of_le {α : Type} {items more : List α} {count : Nat} (within : count ≤ more.length) :
    (items ++ more).rtake count = more.rtake count := by
  rw [rtake_append, Nat.sub_eq_zero_of_le within, List.rtake_zero, List.nil_append]

theorem rtake_of_length_le {α : Type} {items : List α} {count : Nat} (whole : items.length ≤ count) :
    items.rtake count = items := by
  rw [List.rtake, Nat.sub_eq_zero_of_le whole, List.drop_zero]

theorem rtake_singleton {line : List Char} {lines : Nat} (positive : 1 ≤ lines) : [line].rtake lines = [line] := by
  exact rtake_of_length_le positive

theorem rtake_ne_nil {all : List (List Char)} {lines : Nat} (positive : 1 ≤ lines) (nonempty : all ≠ []) :
    all.rtake lines ≠ [] := by
  have some := List.length_pos_iff.mpr nonempty
  rw [ne_eq, ← List.length_eq_zero_iff, length_rtake]
  omega

theorem rtake_eq_nil {all : List (List Char)} {lines : Nat} : all.rtake lines = [] ↔ lines = 0 ∨ all = [] := by
  rw [← List.length_eq_zero_iff, length_rtake, Nat.min_eq_zero_iff, List.length_eq_zero_iff]

theorem plain_rtake {text line : List Char} {lines : Nat} (present : line ∈ (linesOf text).rtake lines) : '\n' ∉ line :=
  not_mem_linesOf ((List.drop_sublist _ _).subset present)

theorem breaks_suffix {text : List Char} : ['\n', '\n'] <:+ text ++ ['\n'] ↔ text.getLast? = some '\n' := by
  rw [List.getLast?_eq_some_iff]
  constructor
  · rintro ⟨lead, same⟩
    rw [← List.singleton_append, ← List.append_assoc] at same
    exact ⟨lead, (List.append_inj_left' same rfl).symm⟩
  · rintro ⟨lead, rfl⟩
    exact ⟨lead, by rw [List.append_assoc, List.singleton_append]⟩

theorem Terminated.getLast?_append {text part : List Char} (terminated : Terminated text) (plain : '\n' ∉ part) :
    (text ++ part).getLast? = some '\n' ↔ text ≠ [] ∧ part = [] := by
  by_cases empty : part = []
  · rw [empty, List.append_nil]
    refine ⟨fun last => ⟨fun none => by simp [none] at last, rfl⟩, fun ⟨nonempty, _⟩ => terminated.resolve_left nonempty⟩
  · rw [List.getLast?_append_of_ne_nil _ empty]
    exact iff_of_false (fun last => plain (List.mem_of_getLast? last)) fun both => empty both.2

inductive Event (beside : String → Prop)
  | append (text : { text // Terminated text })
  | held (index : Nat) (text : { text // Terminated text })
  | rotate
  | place (name : { name // beside name }) (text : Option (List Char))

def handle (base : String) (maxBytes maxFiles : Nat) {beside : String → Prop} (dir : Directory) :
    Event beside → Directory
  | .append text => dir.append base text.1
  | .held index text =>
    if index < maxFiles ∧ (dir.get (generation base index)).isSome then dir.append (generation base index) text.1 else dir
  | .rotate => rotate base maxBytes maxFiles dir
  | .place name none => dir.remove name.1
  | .place name (some text) => Record.set dir name.1 text

structure Kept (base : String) (maxFiles : Nat) (beside : String → Prop) (dir : Directory) : Prop where
  terminated : ∀ index < maxFiles, Terminated (dir.text (generation base index))
  filled : ∀ index < maxFiles, index ≠ 0 → dir.get (generation base index) ≠ some []
  known : ∀ name, (dir.get name).isSome → (∃ index < maxFiles, name = generation base index) ∨ beside name

theorem Kept.append {base : String} {maxFiles index : Nat} {beside : String → Prop} {dir : Directory} {text : List Char}
    (kept : Kept base maxFiles beside dir) (within : index < maxFiles) (terminated : Terminated text)
    (held : index ≠ 0 → (dir.get (generation base index)).isSome) :
    Kept base maxFiles beside (dir.append (generation base index) text) where
  terminated other below := by
    rw [Directory.text, Directory.get_append]
    split
    · exact (kept.terminated index within).append terminated
    · exact kept.terminated other below
  filled other below rotated := by
    rw [Directory.get_append]
    split
    · rename_i same
      obtain rfl := generation_inj.mp same
      obtain ⟨present, found⟩ := Option.isSome_iff_exists.mp (held rotated)
      intro empty
      have both := Option.some.inj empty
      rw [Directory.text, found, Option.getD_some, List.append_eq_nil_iff] at both
      exact kept.filled other below rotated (found.trans (congrArg some both.1))
    · exact kept.filled other below rotated
  known name present := by
    rw [Directory.get_append] at present
    split at present
    · rename_i same
      exact .inl ⟨index, within, same⟩
    · exact kept.known name present

theorem Kept.place {base : String} {maxFiles : Nat} {beside : String → Prop} {dir : Directory} {name : String}
    (kept : Kept base maxFiles beside dir) (apart : ∀ index < maxFiles, ¬ beside (generation base index))
    (outside : beside name) {after : Directory}
    (frame : ∀ other, other ≠ name → after.get other = dir.get other) : Kept base maxFiles beside after := by
  have same : ∀ index < maxFiles, after.get (generation base index) = dir.get (generation base index) :=
    fun index below => frame _ fun isName => apart index below (isName ▸ outside)
  refine ⟨fun index below => ?_, fun index below => ?_, fun other present => ?_⟩
  · rw [Directory.text, same index below]
    exact kept.terminated index below
  · rw [same index below]
    exact kept.filled index below
  · by_cases isName : other = name
    · exact .inr (isName ▸ outside)
    · exact kept.known other (frame other isName ▸ present)

theorem Kept.rotate {base : String} {maxBytes maxFiles : Nat} {beside : String → Prop} {dir : Directory}
    (kept : Kept base maxFiles beside dir) (positive : 0 < maxBytes) (several : 1 < maxFiles) :
    Kept base maxFiles beside (rotate base maxBytes maxFiles dir) := by
  cases found : dir.get base with
  | none => rwa [LogFiles.rotate, found]
  | some text =>
    by_cases small : size text < maxBytes
    · rw [LogFiles.rotate, found]
      dsimp only
      rwa [if_pos small]
    · obtain ⟨first, later, frame⟩ := rotate_reached found (not_lt.mp small) several
      refine ⟨fun index below => ?_, fun index below rotated => ?_, fun name present => ?_⟩
      · cases index with
        | zero =>
          rw [Directory.text, first]
          exact .inl rfl
        | succ index =>
          rw [Directory.text, later index below]
          exact kept.terminated index (by omega)
      · obtain ⟨index, rfl⟩ := Nat.exists_eq_succ_of_ne_zero rotated
        rw [later index below]
        by_cases isBase : index = 0
        · subst isBase
          rw [show generation base 0 = base from rfl, found]
          intro empty
          rw [Option.some.inj empty, size_nil] at small
          exact small positive
        · exact kept.filled index (by omega) isBase
      · by_cases isGeneration : ∃ index < maxFiles, name = generation base index
        · exact .inl isGeneration
        · right
          push Not at isGeneration
          rcases kept.known name (frame name isGeneration ▸ present) with ⟨index, below, isIndex⟩ | outside
          · exact absurd isIndex (isGeneration index below)
          · exact outside

theorem kept_handle {base : String} {maxBytes maxFiles : Nat} {beside : String → Prop} {dir : Directory}
    (kept : Kept base maxFiles beside dir) (apart : ∀ index < maxFiles, ¬ beside (generation base index))
    (positive : 0 < maxBytes) (several : 1 < maxFiles) (event : Event beside) :
    Kept base maxFiles beside (handle base maxBytes maxFiles dir event) := by
  cases event with
  | append text => exact @Kept.append base maxFiles 0 _ _ _ kept (by omega) text.2 (absurd rfl)
  | held index text =>
    rw [handle]
    split
    · rename_i held
      exact kept.append held.1 text.2 fun _ => held.2
    · exact kept
  | rotate => exact kept.rotate positive several
  | place name text =>
    cases text with
    | none => exact kept.place apart name.2 fun other different => by rw [handle, Directory.get_remove, if_neg different]
    | some text => exact kept.place apart name.2 fun other different => by rw [handle, Directory.get_set, if_neg different]

theorem kept_history {base : String} {maxBytes maxFiles : Nat} {beside : String → Prop}
    (apart : ∀ index < maxFiles, ¬ beside (generation base index)) (positive : 0 < maxBytes) (several : 1 < maxFiles)
    (history : List (Event beside)) :
    Kept base maxFiles beside (history.foldl (handle base maxBytes maxFiles) {}) := by
  have start : Kept base maxFiles beside ({} : Directory) :=
    ⟨fun _ _ => .inl rfl, fun _ _ _ empty => (by cases empty), fun _ present => (by cases present)⟩
  exact (Runs.reaches_foldl _ history _).invariant _ start fun before event after _ kept taken => by
    rw [taken.2]
    exact kept_handle kept apart positive several event

end LogFiles
