import Mathlib.Algebra.Order.BigOperators.Group.List
import Mathlib.Algebra.Order.Ring.Nat
import OpenAgentHub.Lib.Systemd

namespace Cli

open Systemd

/-- `replace` with a global expression for one character. -/
def replaceAll (chars : List Char) (old : Char → Bool) (new : List Char) : List Char :=
  chars.flatMap fun char => if old char then new else [char]

/-- The replacements that both encodings begin with. -/
def systemdEscape (value : String) : List Char :=
  let doubled := replaceAll (replaceAll value.toList (· == '%') ['%', '%']) (· == '\\') ['\\', '\\']
  replaceAll doubled (fun char => char == '\n' || char == '\r' || char == '\t') [' ']

def systemdArg (value : String) : String :=
  let out := replaceAll (systemdEscape value) (· == '"') ['\\', '"']
  if out.any Text.isBlank then "\"" ++ String.ofList out ++ "\"" else String.ofList out

def systemdEnv (name value : String) : String :=
  let out := systemdEscape value
  if out.any Text.isBlank then "Environment=" ++ name ++ "=\"" ++ String.ofList out ++ "\""
  else "Environment=" ++ name ++ "=" ++ String.ofList out

structure Autostart where
  execPath : String
  binPath : String
  agentHome : String
  port : Nat
  token : String
  version : String

namespace Autostart

variable (start : Autostart)

def unitLines : List String := [
  "[Unit]",
  "Description=OpenAgentHub control plane",
  "After=network.target",
  "",
  "[Service]",
  "ExecStart=" ++ systemdArg start.execPath ++ " " ++ systemdArg start.binPath ++ " daemon",
  "Environment=" ++ systemdEnv "AGENT_HOME" start.agentHome,
  "Environment=PORT=" ++ toString start.port,
  "Environment=" ++ systemdEnv "OPENAGENTHUB_LOCAL_TOKEN" start.token,
  "Environment=" ++ systemdEnv "OPENAGENTHUB_PRODUCT_VERSION" start.version,
  "Restart=always",
  "RestartSec=2",
  "",
  "[Install]",
  "WantedBy=default.target",
  ""]

def unit : String := Text.join "\n" start.unitLines

/-- The unit, as systemd reads it, starts the daemon with the four variables. -/
structure Encodes (specifier : Char → Option String) : Prop where
  command : execStart specifier start.unit = some [start.execPath, start.binPath, "daemon"]
  agentHome : (environment specifier start.unit).lookup "AGENT_HOME" = some start.agentHome
  port : (environment specifier start.unit).lookup "PORT" = some (toString start.port)
  token : (environment specifier start.unit).lookup "OPENAGENTHUB_LOCAL_TOKEN" = some start.token
  version : (environment specifier start.unit).lookup "OPENAGENTHUB_PRODUCT_VERSION" = some start.version

end Autostart

section Pieces

def piece (char : Char) : List Char :=
  if char = '%' then ['%', '%'] else if char = '\\' then ['\\', '\\']
  else if char = '\n' ∨ char = '\r' ∨ char = '\t' then [' '] else [char]

theorem systemdEscape_eq (value : String) : systemdEscape value = value.toList.flatMap piece := by
  unfold systemdEscape replaceAll
  dsimp only
  rw [List.flatMap_assoc, List.flatMap_assoc]
  congr 1
  funext char
  unfold piece
  by_cases percent : char = '%'
  · subst percent
    rfl
  · rw [if_neg (by simpa using percent), if_neg percent]
    by_cases back : char = '\\'
    · subst back
      rfl
    · rw [if_neg back]
      by_cases control : char = '\n' ∨ char = '\r' ∨ char = '\t'
      · rw [if_pos control]
        rcases control with rfl | rfl | rfl <;> rfl
      · rw [if_neg control]
        simp only [List.flatMap_singleton, beq_iff_eq, back, if_false, Bool.or_eq_true, or_assoc, control]

end Pieces

section Reading

variable {lead : List Char} {size : Nat} {word : Option (List Char)} {words : List (List Char)} {char : Char}

def Sized (lead : List Char) (size : Nat) (word : Option (List Char)) (words : List (List Char)) : Prop :=
  ∃ first rest, words ++ word.toList = first :: rest ∧ lead <+: first ∧ ((words ++ word.toList).map List.length).sum ≤ size

theorem Sized.opened (sized : Sized lead size word words) : Sized lead size (some (word.getD [])) words := by
  obtain ⟨first, rest, all, leads, short⟩ := sized
  cases word with
  | some current => exact ⟨first, rest, all, leads, short⟩
  | none =>
    rw [Option.toList_none, List.append_nil] at all short
    refine ⟨first, rest ++ [[]], ?_, leads, ?_⟩
    · rw [all]
      rfl
    · simpa using short

theorem Sized.grown (sized : Sized lead size word words) : Sized lead (size + 1) (some (word.getD [] ++ [char])) words := by
  obtain ⟨first, rest, all, leads, short⟩ := sized
  cases word with
  | none =>
    rw [Option.toList_none, List.append_nil] at all short
    refine ⟨first, rest ++ [[char]], ?_, leads, ?_⟩
    · rw [all]
      rfl
    · simp only [Option.getD_none, List.nil_append, Option.toList_some, List.map_append, List.sum_append, List.map_singleton,
        List.sum_singleton, List.length_singleton]
      omega
  | some current =>
    have longer : ((words ++ (some (current ++ [char])).toList).map List.length).sum ≤ size + 1 := by
      simp only [Option.toList_some, List.map_append, List.sum_append, List.map_singleton, List.sum_singleton,
        List.length_append, List.length_singleton] at short ⊢
      omega
    cases words with
    | nil =>
      obtain ⟨rfl, rfl⟩ := List.cons.inj all
      exact ⟨current ++ [char], [], rfl, leads.trans (List.prefix_append ..), longer⟩
    | cons head others =>
      obtain ⟨rfl, _⟩ := List.cons.inj all
      exact ⟨head, others ++ [current ++ [char]], rfl, leads, longer⟩

theorem Sized.delimited (sized : Sized lead size word words) : Sized lead size none (words ++ word.toList) := by
  unfold Sized
  rw [Option.toList_none, List.append_nil]
  exact sized

def settled (quote : Option Char) (word : Option (List Char)) (words : List (List Char)) : Reading where
  quote := quote
  word := word.map doubled
  words := words.map doubled

def Quoted (quote : Option Char) : Prop := ∀ mark ∈ quote, mark = '\'' ∨ mark = '"'

theorem doubled_append (front back : List Char) : doubled (front ++ back) = doubled front ++ doubled back :=
  List.flatMap_append

theorem add_settled {quote : Option Char} (plain : char ≠ '%') :
    (settled quote word words).add char = settled quote (some (word.getD [] ++ [char])) words := by
  have own : doubled [char] = [char] := by
    rw [doubled, List.flatMap_singleton, if_neg plain]
  cases word with
  | none => simp [settled, Reading.add, own]
  | some current => simp [settled, Reading.add, doubled_append, own]

theorem percent_settled {quote : Option Char} : ((settled quote word words).add '%').add '%' =
    settled quote (some (word.getD [] ++ ['%'])) words := by
  have own : doubled ['%'] = ['%', '%'] := by decide
  cases word with
  | none => simp [settled, Reading.add, own]
  | some current => simp [settled, Reading.add, doubled_append, own]

theorem opened_settled {quote mark : Option Char} :
    ({ settled quote word words with quote := mark, word := some ((settled quote word words).word.getD []) } : Reading) =
      settled mark (some (word.getD [])) words := by
  cases word with
  | none => rfl
  | some current => rfl

theorem delimit_settled {quote : Option Char} : (settled quote word words).delimit = settled quote none (words ++ word.toList) := by
  cases word with
  | none => simp [settled, Reading.delimit]
  | some current => simp [settled, Reading.delimit]

/-- A character that means nothing is read as itself. -/
theorem step_literal {reading : Reading} (failed : reading.failed = false) (escaped : reading.escaped = false)
    (back : char ≠ '\\') (single : char ≠ '\'') (double : char ≠ '"')
    (blank : reading.quote = none → isSeparator char = false) (quoted : Quoted reading.quote) : step reading char = reading.add char := by
  unfold step
  rw [failed, escaped, if_neg (by decide), if_neg (by decide)]
  cases isQuote : reading.quote with
  | none =>
    dsimp only
    rw [if_neg (by simp [single, double]), if_neg back, blank isQuote, if_neg (by decide)]
  | some mark =>
    have differs : char ≠ mark := by
      rcases quoted mark isQuote with rfl | rfl
      · exact single
      · exact double
    dsimp only
    rw [if_neg differs, if_neg back]

theorem step_mark {quote : Option Char} (quoted : Quoted quote) (isMark : char = '\'' ∨ char = '"')
    (sized : Sized lead size word words) : ∃ quote' word', step (settled quote word words) char = settled quote' word' words ∧
      Quoted quote' ∧ Sized lead (size + 1) word' words := by
  have back : char ≠ '\\' := by rcases isMark with rfl | rfl <;> decide
  have percent : char ≠ '%' := by rcases isMark with rfl | rfl <;> decide
  have longer : ∀ {count : Nat} {word : Option (List Char)}, Sized lead count word words → Sized lead (count + 1) word words :=
    fun ⟨first, rest, all, leads, short⟩ => ⟨first, rest, all, leads, Nat.le_succ_of_le short⟩
  cases quote with
  | none =>
    refine ⟨some char, some (word.getD []), ?_, ?_, longer sized.opened⟩
    · rw [← @opened_settled word words none]
      exact if_pos isMark
    · intro mark isChar
      cases isChar
      exact isMark
  | some mark =>
    by_cases closes : char = mark
    · refine ⟨none, word, ?_, fun _ none => (by cases none), longer sized⟩
      exact if_pos closes
    · refine ⟨some mark, some (word.getD [] ++ [char]), ?_, quoted, sized.grown⟩
      rw [← add_settled percent]
      exact (if_neg closes).trans (if_neg back)

theorem Sized.longer (sized : Sized lead size word words) : Sized lead (size + 1) word words := by
  obtain ⟨first, rest, all, leads, short⟩ := sized
  exact ⟨first, rest, all, leads, Nat.le_succ_of_le short⟩

theorem foldl_backslashes {quote : Option Char} (quoted : Quoted quote) :
    ['\\', '\\'].foldl step (settled quote word words) = (settled quote word words).add '\\' := by
  cases quote with
  | none => cases word <;> rfl
  | some mark => rcases quoted mark rfl with rfl | rfl <;> rfl

/-- A blank ends the word, or is part of a quotation. -/
theorem step_blank {quote : Option Char} (quoted : Quoted quote) (sized : Sized lead size word words) :
    ∃ word' words', step (settled quote word words) ' ' = settled quote word' words' ∧ Sized lead (size + 1) word' words' := by
  cases quote with
  | none => exact ⟨none, words ++ word.toList, delimit_settled, sized.delimited.longer⟩
  | some mark =>
    refine ⟨some (word.getD [] ++ [' ']), words, ?_, sized.grown⟩
    rw [← add_settled (by decide)]
    exact step_literal rfl rfl (by decide) (by decide) (by decide) (fun none => by cases none) quoted

/-- Each piece adds at most one character to the words. -/
theorem piece_settled {quote : Option Char} (quoted : Quoted quote) (sized : Sized lead size word words) (char : Char) :
    ∃ quote' word' words', (piece char).foldl step (settled quote word words) = settled quote' word' words' ∧
      Quoted quote' ∧ Sized lead (size + 1) word' words' := by
  unfold piece
  by_cases percent : char = '%'
  · have literal : ∀ reading : Reading, reading.failed = false → reading.escaped = false → Quoted reading.quote →
        step reading '%' = reading.add '%' := fun reading failed escaped quoted =>
      step_literal failed escaped (by decide) (by decide) (by decide) (fun _ => by decide) quoted
    refine ⟨quote, some (word.getD [] ++ ['%']), words, ?_, quoted, sized.grown⟩
    rw [if_pos percent, List.foldl_cons, List.foldl_cons, List.foldl_nil, literal (settled quote word words) rfl rfl quoted,
      literal ((settled quote word words).add '%') rfl rfl quoted, percent_settled]
  rw [if_neg percent]
  by_cases back : char = '\\'
  · refine ⟨quote, some (word.getD [] ++ ['\\']), words, ?_, quoted, sized.grown⟩
    rw [if_pos back, foldl_backslashes quoted, add_settled (by decide)]
  rw [if_neg back]
  obtain ⟨blankWord, blankWords, blank, blankSized⟩ := step_blank quoted sized
  by_cases control : char = '\n' ∨ char = '\r' ∨ char = '\t'
  · rw [if_pos control]
    exact ⟨quote, blankWord, blankWords, blank, quoted, blankSized⟩
  rw [if_neg control, List.foldl_cons, List.foldl_nil]
  by_cases isMark : char = '\'' ∨ char = '"'
  · obtain ⟨quote', word', read, quoted', sized'⟩ := step_mark quoted isMark sized
    exact ⟨quote', word', words, read, quoted', sized'⟩
  rw [not_or] at isMark control
  rw [not_or] at control
  by_cases isBlank : char = ' '
  · subst isBlank
    exact ⟨quote, blankWord, blankWords, blank, quoted, blankSized⟩
  · have other : isSeparator char = false := by
      simp [isSeparator, isBlank, control]
    refine ⟨quote, some (word.getD [] ++ [char]), words, ?_, quoted, sized.grown⟩
    rw [step_literal rfl rfl back isMark.1 isMark.2 (fun _ => other) quoted, add_settled percent]

theorem pieces_settled (chars : List Char) {quote : Option Char} (quoted : Quoted quote) (sized : Sized lead size word words) :
    ∃ quote' word' words', (chars.flatMap piece).foldl step (settled quote word words) = settled quote' word' words' ∧
      Sized lead (size + chars.length) word' words' := by
  induction chars generalizing quote size word words with
  | nil => exact ⟨quote, word, words, rfl, sized⟩
  | cons char rest ih =>
    obtain ⟨quote', word', words', read, quoted', sized'⟩ := piece_settled quoted sized char
    obtain ⟨last, lastWord, lastWords, later, lastSized⟩ := ih quoted' sized'
    refine ⟨last, lastWord, lastWords, ?_, ?_⟩
    · rw [List.flatMap_cons, List.foldl_append, read, later]
    · rw [List.length_cons, Nat.add_comm rest.length, ← Nat.add_assoc]
      exact lastSized

/-- A word of a value begins with its lead, or is one that the pieces after it made. -/
theorem extractWords_pieces {chars : List Char} (reads : lead.foldl step {} = settled none (some lead) []) :
    ∀ text ∈ (extractWords (lead ++ chars.flatMap piece)).1, ∃ own, text = doubled own ∧
      (lead <+: own ∨ own.length ≤ chars.length) := by
  have start : Sized lead lead.length (some lead) [] := ⟨lead, [], rfl, List.prefix_refl lead, by simp⟩
  have unquoted : Quoted none := fun mark isMark => absurd isMark (Option.not_mem_none mark)
  obtain ⟨quote, word, words, read, first, rest, all, leads, short⟩ := pieces_settled chars unquoted start
  have made : ∀ text ∈ (extractWords (lead ++ chars.flatMap piece)).1, text ∈ (words ++ word.toList).map doubled := by
    intro text isWord
    unfold extractWords at isWord
    rw [List.foldl_append, reads, read] at isWord
    dsimp only at isWord
    split at isWord
    · rw [List.map_append]
      exact List.mem_append_left _ isWord
    · rw [delimit_settled] at isWord
      exact isWord
  intro text isWord
  obtain ⟨own, isOwn, rfl⟩ := List.mem_map.mp (made text isWord)
  refine ⟨own, rfl, ?_⟩
  rw [all, List.map_cons, List.sum_cons] at short
  rw [all] at isOwn
  rcases List.mem_cons.mp isOwn with rfl | later
  · exact Or.inl leads
  · have part := List.single_le_sum (fun _ _ => Nat.zero_le _) _ (List.mem_map_of_mem (f := List.length) later)
    have whole := leads.length_le
    exact Or.inr (by omega)

/-- Digits are read as they are. -/
theorem foldl_digits {digits : List Char} (known : ∀ char ∈ digits, char.isDigit = true) :
    digits.foldl step (settled none (some lead) []) = settled none (some (lead ++ digits)) [] := by
  induction digits generalizing lead with
  | nil => rw [List.foldl_nil, List.append_nil]
  | cons char rest ih =>
    rw [List.forall_mem_cons] at known
    have differs : ∀ {other : Char}, other.isDigit = false → char ≠ other := by
      rintro other plain rfl
      rw [known.1] at plain
      cases plain
    have blank : isSeparator char = false := by
      simp [isSeparator, @differs ' ' (by decide), @differs '\t' (by decide), @differs '\n' (by decide), @differs '\r' (by decide)]
    have turn : step (settled none (some lead) []) char = settled none (some (lead ++ [char])) [] := by
      rw [step_literal rfl rfl (differs (by decide)) (differs (by decide)) (differs (by decide)) (fun _ => blank)
        (fun mark isMark => absurd isMark (Option.not_mem_none mark)), add_settled (differs (by decide))]
      rfl
    rw [List.foldl_cons, turn, ih known.2, List.append_assoc, List.singleton_append]

end Reading

section Lines

/-- The text after a variable's name: in quotes where it has a blank. -/
def envBody (value : String) : List Char :=
  if (systemdEscape value).any Text.isBlank then '"' :: (value.toList ++ ['"']) else value.toList

theorem envBody_length (value : String) : (envBody value).length ≤ value.toList.length + 2 := by
  unfold envBody
  split
  · simp
  · exact Nat.le_add_right _ 2

theorem systemdEnv_chars (name value : String) : (systemdEnv name value).toList =
    ("Environment=" ++ name ++ "=").toList ++ (envBody value).flatMap piece := by
  have mark : piece '"' = ['"'] := by decide
  unfold systemdEnv envBody
  dsimp only
  split
  · rw [List.flatMap_cons, List.flatMap_append, List.flatMap_singleton, mark, ← systemdEscape_eq]
    simp only [String.toList_append, String.toList_ofList, List.append_assoc]
    rfl
  · rw [← systemdEscape_eq]
    simp only [String.toList_append, String.toList_ofList, List.append_assoc]

theorem newline_piece (char : Char) : '\n' ∉ piece char := by
  unfold piece
  split
  · decide
  · split
    · decide
    · split
      · decide
      · rename_i control
        rw [List.mem_singleton]
        exact fun same => control (Or.inl same.symm)

theorem newline_pieces (chars : List Char) : '\n' ∉ chars.flatMap piece := by
  rw [List.mem_flatMap]
  rintro ⟨char, _, listed⟩
  exact newline_piece char listed

theorem continues_piece (char : Char) : (piece char).foldl (fun escaped char => !escaped && char == '\\') false = false := by
  unfold piece
  split
  · decide
  · split
    · decide
    · split
      · decide
      · rename_i back _
        simp [back]

theorem newline_env {name : String} (value : String) (plain : '\n' ∉ ("Environment=" ++ name ++ "=").toList) :
    '\n' ∉ ("Environment=" ++ systemdEnv name value).toList := by
  rw [String.toList_append, systemdEnv_chars, List.mem_append, List.mem_append]
  rintro (lead | named | listed)
  · exact absurd lead (by decide)
  · exact plain named
  · exact newline_pieces _ listed

theorem continues_env {name : String} (value : String)
    (plain : continues ("Environment=" ++ ("Environment=" ++ name ++ "=")).toList = false) :
    continues ("Environment=" ++ systemdEnv name value).toList = false := by
  unfold continues at plain ⊢
  rw [String.toList_append, List.foldl_append] at plain ⊢
  rw [systemdEnv_chars, List.foldl_append, plain]
  exact foldl_pieces continues_piece _

def argPiece (char : Char) : List Char := (piece char).flatMap fun char => if char == '"' then ['\\', '"'] else [char]

theorem systemdArg_chars (value : String) : (systemdArg value).toList = value.toList.flatMap argPiece ∨
    (systemdArg value).toList = '"' :: (value.toList.flatMap argPiece ++ ['"']) := by
  have pieces : replaceAll (systemdEscape value) (· == '"') ['\\', '"'] = value.toList.flatMap argPiece := by
    rw [replaceAll, systemdEscape_eq, List.flatMap_assoc]
    rfl
  unfold systemdArg
  dsimp only
  rw [pieces]
  split
  · right
    simp only [String.toList_append, String.toList_ofList, List.append_assoc]
    rfl
  · exact Or.inl String.toList_ofList

theorem newline_arg (value : String) : '\n' ∉ (systemdArg value).toList := by
  have inner : '\n' ∉ value.toList.flatMap argPiece := by
    simp only [argPiece, List.mem_flatMap, not_exists, not_and]
    intro char _ own isOwn listed
    split at listed
    · exact absurd listed (by decide)
    · rw [← List.mem_singleton.mp listed] at isOwn
      exact newline_piece char isOwn
  rcases systemdArg_chars value with bare | quoted
  · rw [bare]
    exact inner
  · rw [quoted, List.mem_cons, List.mem_append]
    rintro (isMark | listed | isMark)
    · exact absurd isMark (by decide)
    · exact inner listed
    · exact absurd isMark (by decide)

theorem continues_arg (value : String) :
    (systemdArg value).toList.foldl (fun escaped char => !escaped && char == '\\') false = false := by
  have closed : ∀ char, (argPiece char).foldl (fun escaped char => !escaped && char == '\\') false = false := by
    intro char
    unfold argPiece piece
    split
    · decide
    · split
      · decide
      · split
        · decide
        · rename_i back _
          rw [List.flatMap_singleton]
          split
          · decide
          · simp [back]
  rcases systemdArg_chars value with bare | quoted
  · rw [bare]
    exact foldl_pieces closed _
  · rw [quoted, List.foldl_cons, List.foldl_append, show (!false && '"' == '\\') = false from by decide, foldl_pieces closed]
    decide

end Lines

section Settings

variable (start : Autostart)

def execText : List Char :=
  (systemdArg start.execPath).toList ++ (" ".toList ++ ((systemdArg start.binPath).toList ++ " daemon".toList))

theorem readLine_exec : readLine ("ExecStart=" ++ systemdArg start.execPath ++ " " ++ systemdArg start.binPath ++ " daemon").toList =
    .setting "ExecStart".toList (trim (execText start)) := by
  have chars : ("ExecStart=" ++ systemdArg start.execPath ++ " " ++ systemdArg start.binPath ++ " daemon").toList =
      "ExecStart".toList ++ '=' :: execText start := by
    have lead : "ExecStart=".toList = "ExecStart".toList ++ ['='] := by decide
    simp only [execText, String.toList_append, lead, List.append_assoc, List.cons_append, List.nil_append]
  have tight : Tight "ExecStart".toList := by constructor <;> decide
  rw [chars]
  refine readLine_setting tight ?_ (by decide) ?_ (by decide) (by decide)
  · unfold execText
    rw [List.getLast?_append_of_ne_nil _ (by simp), List.getLast?_append_of_ne_nil _ (by simp),
      List.getLast?_append_of_ne_nil _ (by decide)]
    decide
  · simp [execText]

theorem not_separator {char : Char} (visible : Text.isBlank char = false) : isSeparator char = false := by
  rw [Bool.eq_false_iff]
  intro separates
  simp only [isSeparator, Bool.or_eq_true, beq_iff_eq] at separates
  rcases separates with ((rfl | rfl) | rfl) | rfl <;> exact absurd visible (by decide)

theorem envValue_tight {name : String} (value : String) (stop : (("Environment=" ++ name ++ "=").toList).getLast? = some '=') :
    Tight (systemdEnv name value).toList := by
  have head : ("Environment=" ++ name ++ "=").toList.head? = some 'E' := by
    rw [String.append_assoc, String.toList_append, List.head?_append_of_ne_nil _ (by decide)]
    decide
  have given : ("Environment=" ++ name ++ "=").toList ≠ [] := by
    intro none
    rw [none] at head
    cases head
  constructor
  · rw [systemdEnv_chars, List.head?_append_of_ne_nil _ given, head]
    decide
  · unfold systemdEnv
    dsimp only
    split
    · rw [String.toList_append, List.getLast?_append_of_ne_nil _ (by decide)]
      decide
    · rename_i visible
      rw [String.toList_append, String.toList_ofList]
      by_cases none : systemdEscape value = []
      · rw [none, List.append_nil, stop]
        decide
      · rw [List.getLast?_append_of_ne_nil _ none, List.getLast?_eq_getLast_of_ne_nil none, Option.all_some, Bool.not_eq_true']
        rw [Bool.not_eq_true, List.any_eq_false] at visible
        exact not_separator (Bool.eq_false_iff.mpr (visible _ (List.getLast_mem none)))

theorem readLine_env {name : String} (value : String) (stop : (("Environment=" ++ name ++ "=").toList).getLast? = some '=') :
    readLine ("Environment=" ++ systemdEnv name value).toList = .setting "Environment".toList (systemdEnv name value).toList := by
  have tight := envValue_tight value stop
  have given : (systemdEnv name value).toList ≠ [] := by
    rw [systemdEnv_chars]
    simp
  have chars : ("Environment=" ++ systemdEnv name value).toList = "Environment".toList ++ '=' :: (systemdEnv name value).toList := by
    rw [String.toList_append]
    rfl
  rw [chars, readLine_setting ⟨by decide, by decide⟩ tight.stop (by decide) given (by decide) (by decide), trim_tight tight]

theorem digits_toString (port : Nat) : ∀ char ∈ (toString port).toList, char.isDigit = true := by
  rw [Nat.toString_eq_ofList_toDigits, String.toList_ofList]
  exact fun char listed => Nat.isDigit_of_mem_toDigits (by decide) (by decide) listed

def Single (line : String) : Prop := '\n' ∉ line.toList ∧ continues line.toList = false ∧ ¬ isComment line.toList

instance (line : String) : Decidable (Single line) := by unfold Single; infer_instance

theorem not_comment {line : List Char} {char : Char} (head : line.head? = some char)
    (visible : isSeparator char = false ∧ char ≠ '#' ∧ char ≠ ';') : ¬ isComment line := by
  have kept : line.dropWhile isSeparator = line := by
    apply dropWhile_tight
    rw [head, Option.all_some, visible.1]
    rfl
  rw [isComment, kept, head]
  simp [visible.2]

theorem exec_single : Single ("ExecStart=" ++ systemdArg start.execPath ++ " " ++ systemdArg start.binPath ++ " daemon") := by
  refine ⟨?_, ?_, @not_comment _ 'E' ?_ (by decide)⟩
  · simp only [String.toList_append, List.mem_append, not_or]
    exact ⟨⟨⟨⟨by decide, newline_arg _⟩, by decide⟩, newline_arg _⟩, by decide⟩
  · have lead : "ExecStart=".toList.foldl (fun escaped char => !escaped && char == '\\') false = false := by decide
    have blank : " ".toList.foldl (fun escaped char => !escaped && char == '\\') false = false := by decide
    have last : " daemon".toList.foldl (fun escaped char => !escaped && char == '\\') false = false := by decide
    unfold continues
    simp only [String.toList_append, List.foldl_append]
    rw [lead, continues_arg, blank, continues_arg, last]
  · simp only [String.append_assoc]
    rw [String.toList_append, List.head?_append_of_ne_nil _ (by decide)]
    decide

theorem env_single {name : String} (value : String) (plain : '\n' ∉ ("Environment=" ++ name ++ "=").toList)
    (whole : continues ("Environment=" ++ ("Environment=" ++ name ++ "=")).toList = false) :
    Single ("Environment=" ++ systemdEnv name value) := by
  refine ⟨newline_env value plain, continues_env value whole, @not_comment _ 'E' ?_ (by decide)⟩
  rw [String.toList_append, List.head?_append_of_ne_nil _ (by decide)]
  decide

theorem port_single (port : Nat) : Single ("Environment=PORT=" ++ toString port) := by
  have digits := digits_toString port
  have lead : "Environment=PORT=".toList.foldl (fun escaped char => !escaped && char == '\\') false = false := by decide
  have whole : ∀ chars : List Char, (∀ char ∈ chars, char.isDigit = true) →
      chars.foldl (fun escaped char => !escaped && char == '\\') false = false := by
    intro chars
    induction chars with
    | nil => exact fun _ => rfl
    | cons char rest ih =>
      intro known
      rw [List.forall_mem_cons] at known
      have other : (char == '\\') = false := by
        rw [beq_eq_false_iff_ne]
        rintro rfl
        exact absurd known.1 (by decide)
      rw [List.foldl_cons, other, Bool.and_false]
      exact ih known.2
  refine ⟨?_, ?_, @not_comment _ 'E' ?_ (by decide)⟩
  · rw [String.toList_append, List.mem_append]
    rintro (fixed | digit)
    · exact absurd fixed (by decide)
    · exact absurd (digits _ digit) (by decide)
  · unfold continues
    rw [String.toList_append, List.foldl_append, lead]
    exact whole _ digits
  · rw [String.toList_append, List.head?_append_of_ne_nil _ (by decide)]
    decide

theorem Autostart.unitLines_single : ∀ line ∈ start.unitLines, Single line := by
  unfold Autostart.unitLines
  simp only [List.forall_mem_cons]
  exact ⟨by decide, by decide, by decide, by decide, by decide, exec_single start, env_single _ (by decide) (by decide),
    port_single _, env_single _ (by decide) (by decide), env_single _ (by decide) (by decide), by decide, by decide, by decide,
    by decide, by decide, by decide, fun _ none => absurd none List.not_mem_nil⟩

theorem readLine_port (port : Nat) : readLine ("Environment=PORT=" ++ toString port).toList =
    .setting "Environment".toList ("PORT=" ++ toString port).toList := by
  have digits := digits_toString port
  have stop : ("PORT=" ++ toString port).toList.getLast?.all (fun char => !isSeparator char) = true := by
    rw [String.toList_append]
    cases isLast : (toString port).toList.getLast? with
    | none =>
      rw [List.getLast?_eq_none_iff.mp isLast]
      decide
    | some last =>
      rw [List.getLast?_append, isLast]
      have digit := digits last (List.mem_of_getLast? isLast)
      rw [Option.some_or, Option.all_some, Bool.not_eq_true', Bool.eq_false_iff]
      intro separates
      simp only [isSeparator, Bool.or_eq_true, beq_iff_eq] at separates
      rcases separates with ((rfl | rfl) | rfl) | rfl <;> exact absurd digit (by decide)
  have start : ("PORT=" ++ toString port).toList.head?.all (fun char => !isSeparator char) = true := by
    rw [String.toList_append, List.head?_append_of_ne_nil _ (by decide)]
    decide
  have chars : ("Environment=PORT=" ++ toString port).toList = "Environment".toList ++ '=' :: ("PORT=" ++ toString port).toList := by
    rw [String.toList_append, String.toList_append]
    rfl
  have tight : Tight "Environment".toList := by constructor <;> decide
  rw [chars, readLine_setting tight stop (by decide) ?_ (by decide) (by decide), trim_tight ⟨start, stop⟩]
  rw [String.toList_append]
  simp

/-- The values of `Environment` are what the source writes after the equals sign. -/
theorem settings_environment : settings start.unit "Service" "Environment" =
    [(systemdEnv "AGENT_HOME" start.agentHome).toList, ("PORT=" ++ toString start.port).toList,
      (systemdEnv "OPENAGENTHUB_LOCAL_TOKEN" start.token).toList, (systemdEnv "OPENAGENTHUB_PRODUCT_VERSION" start.version).toList] := by
  have single := start.unitLines_single
  have lines : start.unit.toList.splitOn '\n' = start.unitLines.map String.toList := by
    have split : Text.split '\n' start.unit = start.unitLines :=
      Text.split_join (fun line listed => (single line listed).1) (by simp [Autostart.unitLines])
    have chars := congrArg (List.map String.toList) split
    rw [Text.split, List.map_map] at chars
    simpa [Function.comp_def] using chars
  have apart : ∀ line ∈ start.unitLines.map String.toList, continues line = false ∧ ¬ isComment line := by
    rw [List.forall_mem_map]
    exact fun line listed => (single line listed).2
  unfold settings
  rw [lines, joinLines_single apart]
  simp only [Autostart.unitLines, List.map_cons, List.map_nil, readLine_exec start, @readLine_env "AGENT_HOME" start.agentHome (by decide),
    @readLine_env "OPENAGENTHUB_LOCAL_TOKEN" start.token (by decide),
    @readLine_env "OPENAGENTHUB_PRODUCT_VERSION" start.version (by decide), readLine_port]
  rfl

end Settings

section Variables

variable {specifier : Char → Option String} {entry : String × String} {start : Autostart}

/-- A word that begins so names the variable before the sign. -/
theorem name_of_lead {text key rest : List Char} (leads : key ++ '=' :: rest <+: text) (plain : '=' ∉ key)
    (known : assignment text = some entry) : entry.1 = String.ofList key := by
  obtain ⟨more, rfl⟩ := leads
  have named : ∀ char ∈ key, decide (char ≠ '=') = true := fun char listed =>
    decide_eq_true fun isSign => plain (isSign ▸ listed)
  rw [assignment_name known, List.append_assoc, List.takeWhile_append_of_pos named, List.cons_append,
    List.takeWhile_cons_of_neg (by simp), List.append_nil]

/-- A variable that one of these values sets is `Environment`, or its text is part of the value's own. -/
theorem assigned_short {name : String} (value : String)
    (reads : ("Environment=" ++ name ++ "=").toList.foldl step {} =
      settled none (some ("Environment=" ++ name ++ "=").toList) [])
    {word : List Char} (isWord : word ∈ (extractWords (systemdEnv name value).toList).1)
    (known : assignment (resolve specifier word) = some entry) :
    entry.1 = "Environment" ∨ entry.1.toList.length + entry.2.toList.length ≤ value.toList.length + 1 := by
  rw [systemdEnv_chars] at isWord
  obtain ⟨own, rfl, leads | short⟩ := extractWords_pieces reads word isWord
  · rw [resolve_doubled] at known
    have lead : ("Environment=" ++ name ++ "=").toList = "Environment".toList ++ '=' :: (name ++ "=").toList := by
      rw [String.append_assoc, String.toList_append]
      rfl
    rw [lead] at leads
    exact Or.inl (name_of_lead leads (by decide) known)
  · rw [resolve_doubled] at known
    have parts := congrArg List.length (assignment_chars known)
    have body := envBody_length value
    rw [List.length_append, List.length_cons] at parts
    exact Or.inr (by omega)

theorem assigned_port {port : Nat} {word : List Char} (isWord : word ∈ (extractWords ("PORT=" ++ toString port).toList).1)
    (known : assignment (resolve specifier word) = some entry) : entry.1 = "PORT" := by
  have read : ("PORT=" ++ toString port).toList.foldl step {} =
      settled none (some ("PORT=".toList ++ (toString port).toList)) [] := by
    have lead : "PORT=".toList.foldl step {} = settled none (some "PORT=".toList) [] := by decide
    rw [String.toList_append, List.foldl_append, lead, foldl_digits (digits_toString port)]
  have single : word = doubled ("PORT=".toList ++ (toString port).toList) := by
    unfold extractWords at isWord
    rw [read] at isWord
    exact List.mem_singleton.mp isWord
  rw [single, resolve_doubled] at known
  exact name_of_lead (List.prefix_refl _) (by decide) known

/-- A variable other than `Environment` and `PORT` is shorter than one of the three texts. -/
theorem variable_short {name text : String} (present : (name, text) ∈ environment specifier start.unit)
    (named : name ≠ "Environment" ∧ name ≠ "PORT") (long : 2 ≤ name.toList.length) : text.toList.length <
      max (max start.agentHome.toList.length start.token.toList.length) start.version.toList.length := by
  obtain ⟨value, isValue, word, isWord, known⟩ := mem_environment present
  rw [settings_environment] at isValue
  simp only [List.mem_cons, List.not_mem_nil, or_false] at isValue
  rcases isValue with isHome | isPort | isToken | isVersion
  · rw [isHome] at isWord
    have short := (assigned_short start.agentHome (by decide +kernel) isWord known).resolve_left named.1
    dsimp only at short
    omega
  · rw [isPort] at isWord
    exact absurd (assigned_port isWord known) named.2
  · rw [isToken] at isWord
    have short := (assigned_short start.token (by decide +kernel) isWord known).resolve_left named.1
    dsimp only at short
    omega
  · rw [isVersion] at isWord
    have short := (assigned_short start.version (by decide +kernel) isWord known).resolve_left named.1
    dsimp only at short
    omega

theorem mem_of_lookup {entries : List (String × String)} {key value : String} (found : entries.lookup key = some value) :
    (key, value) ∈ entries := by
  obtain ⟨before, rest, split, _⟩ := List.lookup_eq_some_iff.mp found
  rw [split]
  exact List.mem_append_right _ (List.mem_cons_self ..)

/-- No unit sets the variables to the texts: the longest of the three is in none of its lines as a value of its own. -/
theorem Autostart.never_encodes (start : Autostart) (specifier : Char → Option String) : ¬ start.Encodes specifier := by
  intro encodes
  have home := variable_short (mem_of_lookup encodes.agentHome) (by decide) (by decide)
  have token := variable_short (mem_of_lookup encodes.token) (by decide) (by decide)
  have version := variable_short (mem_of_lookup encodes.version) (by decide) (by decide)
  omega

/-- An ordinary unit: the three lines set one variable, called `Environment`. -/
theorem ordinary_unit_misses_home :
    ¬ Autostart.Encodes ⟨"/usr/bin/node", "/opt/oah/bin.js", "/home/u/.oah", 31777, "secret", "1.0.0"⟩ (fun _ => none) := by
  intro encodes
  have read : (environment (fun _ => none) (Autostart.unit
      ⟨"/usr/bin/node", "/opt/oah/bin.js", "/home/u/.oah", 31777, "secret", "1.0.0"⟩)).lookup "AGENT_HOME" = none := by
    unfold environment
    rw [settings_environment]
    decide +kernel
  rw [encodes.agentHome] at read
  cases read

end Variables

end Cli
