import Mathlib.Data.List.Basic

/-! How a POSIX shell reads a command: token recognition and quote removal. -/

namespace Shell

structure Mark where
  char : Char
  quoted : Bool
  deriving DecidableEq, Repr

abbrev Word := List Mark

/-- An operator is known by its first character; the end of a line is one. -/
inductive Token where
  | word (marks : Word)
  | operator (char : Char)
  deriving DecidableEq, Repr

inductive Mode where
  | plain | escaped | single | double | doubleEscaped | comment
  deriving DecidableEq, Repr

/-- The tokens that are delimited, and the word that is being read. A pair of quotes makes a word that may be empty. -/
structure Reading where
  mode : Mode := .plain
  word : Option Word := none
  tokens : List Token := []
  deriving DecidableEq, Repr

namespace Reading

def add (reading : Reading) (char : Char) (quoted : Bool) : Reading :=
  { reading with word := some (reading.word.getD [] ++ [⟨char, quoted⟩]) }

def delimit (reading : Reading) : Reading :=
  match reading.word with
  | some marks => { reading with word := none, tokens := reading.tokens ++ [.word marks] }
  | none => reading

def operate (reading : Reading) (char : Char) : Reading :=
  let reading := reading.delimit
  { reading with tokens := reading.tokens ++ [.operator char] }

def enter (reading : Reading) (mode : Mode) : Reading :=
  { reading with mode := mode, word := some (reading.word.getD []) }

def leave (reading : Reading) : Reading := { reading with mode := .plain }

end Reading

def isOperator (char : Char) : Bool :=
  char == '|' || char == '&' || char == ';' || char == '<' || char == '>' || char == '(' || char == ')' || char == '\n'

def step (reading : Reading) (char : Char) : Reading :=
  match reading.mode with
  | .plain =>
    if char = '\\' then { reading with mode := .escaped }
    else if char = '\'' then reading.enter .single
    else if char = '"' then reading.enter .double
    else if isOperator char then reading.operate char
    else if char = ' ' ∨ char = '\t' then reading.delimit
    else if char = '#' ∧ reading.word = none then { reading with mode := .comment }
    else reading.add char false
  | .escaped =>
    -- a line that is continued leaves no trace
    if char = '\n' then reading.leave else reading.leave.add char true
  | .single => if char = '\'' then reading.leave else reading.add char true
  | .double =>
    if char = '"' then reading.leave
    else if char = '\\' then { reading with mode := .doubleEscaped }
    else reading.add char (char ≠ '$' && char ≠ '\x60')
  | .doubleEscaped =>
    let reading := { reading with mode := .double }
    if char = '\n' then reading
    else if char = '$' ∨ char = '\x60' ∨ char = '"' ∨ char = '\\' then reading.add char true
    else (reading.add '\\' true).add char true
  | .comment => if char = '\n' then reading.leave.operate char else reading

def finish (reading : Reading) : Option (List Token) :=
  match reading.mode with
  | .plain | .comment => some reading.delimit.tokens
  | .escaped | .single | .double | .doubleEscaped => none

def tokenize (text : String) : Option (List Token) := finish (text.toList.foldl step {})

def Word.expands (word : Word) : Bool :=
  word.any (fun mark => !mark.quoted && ['$', '\x60', '*', '?', '['].contains mark.char) || word.head? == some ⟨'~', false⟩

def reservedWords : List String :=
  ["!", "\x7b", "\x7d", "case", "do", "done", "elif", "else", "esac", "fi", "for", "if", "in", "then", "until", "while"]

def Word.text (word : Word) : String := String.ofList (word.map Mark.char)

/-- At the place of a command's name: a reserved word, or an assignment. -/
def Word.leads (word : Word) : Bool :=
  (word.all (fun mark => !mark.quoted) && reservedWords.contains (Word.text word)) || word.contains ⟨'=', false⟩

def Token.word? : Token → Option Word
  | .word marks => some marks
  | .operator _ => none

/-- The arguments of a text that is one simple command, with nothing in it for the shell but its words. -/
def argv (text : String) : Option (List String) := do
  let tokens ← tokenize text
  let words ← tokens.mapM Token.word?
  if words.any Word.expands || words.head?.any Word.leads then none else some (words.map Word.text)

section Examples

example : argv "echo 'a b' \"c\"\\ d" = some ["echo", "a b", "c d"] := by decide +kernel

example : argv "echo $HOME" = none := by decide +kernel

example : argv "echo a # b" = some ["echo", "a"] := by decide +kernel

end Examples

section Quotations

variable {reading : Reading} {word : Word}

def literal (chars : List Char) : Word := chars.map fun char => ⟨char, true⟩

theorem step_single {char : Char} (mode : reading.mode = .single) (unquoted : char ≠ '\'') :
    step reading char = reading.add char true := by
  unfold step
  rw [mode]
  exact if_neg unquoted

/-- A single quote within single quotes: out of them, escaped, and into them again. -/
theorem foldl_apostrophe (mode : reading.mode = .single) (isWord : reading.word = some word) :
    ['\'', '\\', '\'', '\''].foldl step reading = reading.add '\'' true := by
  obtain ⟨_, _, tokens⟩ := reading
  subst mode isWord
  rfl

theorem expands_literal (chars : List Char) : Word.expands (literal chars) = false := by
  unfold Word.expands literal
  cases chars <;> simp

@[simp] theorem text_literal (chars : List Char) : Word.text (literal chars) = String.ofList chars := by
  simp [Word.text, literal, Function.comp_def]

end Quotations

end Shell
