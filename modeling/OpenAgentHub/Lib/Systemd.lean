import Mathlib.Algebra.BigOperators.Group.List.Basic
import Mathlib.Data.List.TakeWhile
import OpenAgentHub.Lib.Text

/-! How systemd reads a unit file: lines, words with their quotes and escapes, specifiers, assignments. -/

namespace Systemd

section Words

structure Reading where
  quote : Option Char := none
  escaped : Bool := false
  failed : Bool := false
  word : Option (List Char) := none
  words : List (List Char) := []
  deriving DecidableEq, Repr

namespace Reading

def add (reading : Reading) (char : Char) : Reading := { reading with word := some (reading.word.getD [] ++ [char]) }

def delimit (reading : Reading) : Reading := { reading with word := none, words := reading.words ++ reading.word.toList }

end Reading

def isSeparator (char : Char) : Bool := char == ' ' || char == '\t' || char == '\n' || char == '\r'

/-- The escapes of one character; those by number are not read here. -/
def unescape (char : Char) : Option Char :=
  [('a', '\x07'), ('b', '\x08'), ('f', '\x0c'), ('n', '\n'), ('r', '\r'), ('t', '\t'), ('v', '\x0b'), ('\\', '\\'), ('"', '"'),
    ('\'', '\''), ('s', ' ')].lookup char

/-- `extract_first_word` with `EXTRACT_UNQUOTE` and `EXTRACT_CUNESCAPE`, a character at a time. -/
def step (reading : Reading) (char : Char) : Reading :=
  if reading.failed then reading
  else if reading.escaped then
    match unescape char with
    | some own => { reading with escaped := false }.add own
    | none => { reading with failed := true }
  else
    match reading.quote with
    | some quote =>
      if char = quote then { reading with quote := none }
      else if char = '\\' then { reading with escaped := true }
      else reading.add char
    | none =>
      if char = '\'' ∨ char = '"' then { reading with quote := some char, word := some (reading.word.getD []) }
      else if char = '\\' then { reading with escaped := true, word := some (reading.word.getD []) }
      else if isSeparator char then reading.delimit
      else reading.add char

def extractWords (text : List Char) : List (List Char) × Bool :=
  let reading := text.foldl step {}
  if reading.failed || reading.escaped || reading.quote.isSome then (reading.words, false) else (reading.delimit.words, true)

/-- The specifiers of a text; one that is not known stays as it is. -/
def resolve (specifier : Char → Option String) : List Char → List Char
  | [] => []
  | [char] => [char]
  | char :: next :: rest =>
    if char = '%' then
      (if next = '%' then ['%'] else ((specifier next).map String.toList).getD [char, next]) ++ resolve specifier rest
    else char :: resolve specifier (next :: rest)

end Words

section Lines

def continues (line : List Char) : Bool := line.foldl (fun escaped char => !escaped && char == '\\') false

def isComment (line : List Char) : Prop :=
  (line.dropWhile isSeparator).head? = some '#' ∨ (line.dropWhile isSeparator).head? = some ';'

instance (line : List Char) : Decidable (isComment line) := by unfold isComment; infer_instance

def joinLines : List (List Char) → List Char → List (List Char)
  | [], [] => []
  | [], pending => [pending]
  | line :: rest, pending =>
    if isComment line then joinLines rest pending
    else if continues line then joinLines rest (pending ++ line.dropLast ++ [' '])
    else (pending ++ line) :: joinLines rest []

def trim (text : List Char) : List Char := ((text.dropWhile isSeparator).reverse.dropWhile isSeparator).reverse

inductive Line where
  | section (name : List Char)
  | setting (key value : List Char)
  | other
  deriving DecidableEq, Repr

def readLine (line : List Char) : Line :=
  let text := trim line
  if text.head? = some '[' then .section ((text.drop 1).takeWhile (· ≠ ']'))
  else if '=' ∈ text then .setting (trim (text.takeWhile (· ≠ '='))) (trim ((text.dropWhile (· ≠ '=')).drop 1))
  else .other

def values (heading key : List Char) : List Line → List Char → List (List Char)
  | [], _ => []
  | .section name :: rest, _ => values heading key rest name
  | .setting other value :: rest, current =>
    (if current = heading ∧ other = key then [value] else []) ++ values heading key rest current
  | .other :: rest, current => values heading key rest current

def settings (text : String) (heading key : String) : List (List Char) :=
  values heading.toList key.toList ((joinLines (text.toList.splitOn '\n') []).map readLine) []

end Lines

section Environment

def isNameStart (char : Char) : Bool := char.isAlpha || char == '_'

/-- `NAME=VALUE`, where the name is one of a variable and the value has no control characters but tabs and line ends. -/
def assignment (text : List Char) : Option (String × String) :=
  let name := text.takeWhile (· ≠ '=')
  let value := (text.dropWhile (· ≠ '=')).drop 1
  if name.head?.any isNameStart && name.all (fun char => isNameStart char || char.isDigit) && text.contains '=' &&
      value.all (fun char => 32 ≤ char.toNat && char.toNat ≠ 127 || char == '\t' || char == '\n') then
    some (String.ofList name, String.ofList value)
  else none

abbrev Environment := List (String × String)

def assign (env : Environment) (entry : String × String) : Environment :=
  env.filter (fun other => other.1 != entry.1) ++ [entry]

/-- One value of `Environment`: an empty one resets the list, and a word that is no assignment is passed over. -/
def addValue (specifier : Char → Option String) (env : Environment) (value : List Char) : Environment :=
  if value = [] then []
  else ((extractWords value).1.filterMap fun word => assignment (resolve specifier word)).foldl assign env

def environment (specifier : Char → Option String) (text : String) : Environment :=
  (settings text "Service" "Environment").foldl (addValue specifier) []

def execStart (specifier : Char → Option String) (text : String) : Option (List String) :=
  match settings text "Service" "ExecStart" with
  | [value] =>
    let (words, complete) := extractWords value
    if complete then some (words.map fun word => String.ofList (resolve specifier word)) else none
  | _ => none

end Environment

section Reading

variable {chars key value : List Char}

structure Tight (text : List Char) : Prop where
  start : text.head?.all (fun char => !isSeparator char) = true
  stop : text.getLast?.all (fun char => !isSeparator char) = true

theorem dropWhile_tight (start : chars.head?.all (fun char => !isSeparator char) = true) : chars.dropWhile isSeparator = chars := by
  cases chars with
  | nil => rfl
  | cons first rest =>
    rw [List.head?_cons, Option.all_some, Bool.not_eq_true'] at start
    rw [List.dropWhile_cons, start]
    rfl

theorem trim_tight (tight : Tight chars) : trim chars = chars := by
  have back : chars.reverse.head?.all (fun char => !isSeparator char) = true := by
    rw [List.head?_reverse]
    exact tight.stop
  rw [trim, dropWhile_tight tight.start, dropWhile_tight back, List.reverse_reverse]

theorem readLine_setting (keyTight : Tight key) (stop : value.getLast?.all (fun char => !isSeparator char) = true) (named : key ≠ [])
    (given : value ≠ []) (noHeading : key.head? ≠ some '[') (noSign : '=' ∉ key) :
    readLine (key ++ '=' :: value) = .setting key (trim value) := by
  have whole : Tight (key ++ '=' :: value) := by
    constructor
    · rw [List.head?_append_of_ne_nil _ named]
      exact keyTight.start
    · rw [List.getLast?_append_of_ne_nil _ (List.cons_ne_nil _ _), List.getLast?_cons_of_ne_nil given]
      exact stop
  have plain : ∀ char ∈ key, decide (char ≠ '=') = true := fun char listed =>
    decide_eq_true fun isSign => noSign (isSign ▸ listed)
  have front : (key ++ '=' :: value).takeWhile (· ≠ '=') = key := by
    rw [List.takeWhile_append_of_pos plain, List.takeWhile_cons_of_neg (by simp), List.append_nil]
  have back : (key ++ '=' :: value).dropWhile (· ≠ '=') = '=' :: value := by
    rw [List.dropWhile_append_of_pos plain, List.dropWhile_cons_of_neg (by simp)]
  unfold readLine
  dsimp only
  rw [trim_tight whole, List.head?_append_of_ne_nil _ named, if_neg noHeading, if_pos (by simp), front, back, List.drop_one,
    List.tail_cons, trim_tight keyTight]

/-- Lines that do not go on and are no comments are read one by one. -/
theorem joinLines_single {lines : List (List Char)}
    (single : ∀ line ∈ lines, continues line = false ∧ ¬ isComment line) : joinLines lines [] = lines := by
  induction lines with
  | nil => rfl
  | cons line rest ih =>
    rw [List.forall_mem_cons] at single
    obtain ⟨⟨whole, uncommented⟩, later⟩ := single
    rw [joinLines, if_neg uncommented, whole, if_neg (by decide), ih later, List.nil_append]

/-- The escapes of a text are in pairs when each of its pieces leaves none open. -/
theorem foldl_pieces {α σ : Type} {pieces : α → List Char} {turn : σ → Char → σ} {state : σ}
    (closed : ∀ item, (pieces item).foldl turn state = state) (items : List α) :
    (items.flatMap pieces).foldl turn state = state := by
  induction items with
  | nil => rfl
  | cons item rest ih => rw [List.flatMap_cons, List.foldl_append, closed, ih]

def doubled (text : List Char) : List Char := text.flatMap fun char => if char = '%' then ['%', '%'] else [char]

theorem resolve_cons {specifier : Char → Option String} {char : Char} (plain : char ≠ '%') (rest : List Char) :
    resolve specifier (char :: rest) = char :: resolve specifier rest := by
  cases rest with
  | nil => rfl
  | cons next others => rw [resolve, if_neg plain]

theorem resolve_doubled (specifier : Char → Option String) (text : List Char) : resolve specifier (doubled text) = text := by
  induction text with
  | nil => rfl
  | cons char rest ih =>
    rw [doubled, List.flatMap_cons]
    by_cases isPercent : char = '%'
    · rw [if_pos isPercent, List.cons_append, List.singleton_append, resolve, if_pos rfl, if_pos rfl, isPercent]
      exact congrArg ('%' :: ·) ih
    · rw [if_neg isPercent, List.singleton_append, resolve_cons isPercent]
      exact congrArg (char :: ·) ih

end Reading

section Assignments

variable {specifier : Char → Option String}

theorem assignment_chars {text : List Char} {entry : String × String} (known : assignment text = some entry) :
    text = entry.1.toList ++ '=' :: entry.2.toList := by
  unfold assignment at known
  dsimp only at known
  split at known
  · rename_i valid
    simp only [Bool.and_eq_true] at valid
    cases known
    have sign : '=' ∈ text := List.contains_iff_mem.mp valid.1.2
    have whole := List.takeWhile_append_dropWhile (p := (· ≠ '=')) (l := text)
    rw [String.toList_ofList, String.toList_ofList]
    cases rest : text.dropWhile (· ≠ '=') with
    | nil =>
      have none := List.dropWhile_eq_nil_iff.mp rest '=' sign
      simp at none
    | cons first others =>
      have head := List.head?_dropWhile_not (· ≠ '=') text
      rw [rest] at head whole
      have isSign : first = '=' := by simpa using head
      subst isSign
      exact whole.symm
  · cases known

theorem assignment_name {text : List Char} {entry : String × String} (known : assignment text = some entry) :
    entry.1 = String.ofList (text.takeWhile (· ≠ '=')) := by
  unfold assignment at known
  dsimp only at known
  split at known
  · cases known
    rfl
  · cases known

/-- Every variable comes from a word of one of the values. -/
theorem mem_environment {text : String} {entry : String × String} (present : entry ∈ environment specifier text) :
    ∃ value ∈ settings text "Service" "Environment", ∃ word ∈ (extractWords value).1,
      assignment (resolve specifier word) = some entry := by
  have assigned : ∀ (entries : List (String × String)) (env : Environment), entry ∈ entries.foldl assign env →
      entry ∈ env ∨ entry ∈ entries := by
    intro entries
    induction entries with
    | nil => exact fun _ here => Or.inl here
    | cons first rest ih =>
      intro env here
      rcases ih _ here with there | later
      · rcases List.mem_append.mp there with older | own
        · exact Or.inl (List.mem_filter.mp older).1
        · exact Or.inr (List.mem_cons.mpr (Or.inl (List.mem_singleton.mp own)))
      · exact Or.inr (List.mem_cons_of_mem _ later)
  have added : ∀ (values : List (List Char)) (env : Environment), entry ∈ values.foldl (addValue specifier) env →
      entry ∈ env ∨ ∃ value ∈ values, ∃ word ∈ (extractWords value).1, assignment (resolve specifier word) = some entry := by
    intro values
    induction values with
    | nil => exact fun _ here => Or.inl here
    | cons value rest ih =>
      intro env here
      rcases ih _ here with there | ⟨other, isOther, found⟩
      · unfold addValue at there
        split at there
        · cases there
        · rcases assigned _ _ there with older | own
          · exact Or.inl older
          · obtain ⟨word, isWord, isEntry⟩ := List.mem_filterMap.mp own
            exact Or.inr ⟨value, List.mem_cons_self .., word, isWord, isEntry⟩
      · exact Or.inr ⟨other, List.mem_cons_of_mem _ isOther, found⟩
  exact (added _ _ present).resolve_left List.not_mem_nil

end Assignments

end Systemd
