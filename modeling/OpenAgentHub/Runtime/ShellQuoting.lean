import OpenAgentHub.Lib.Shell
import OpenAgentHub.Runtime.Container

namespace Runtime

open Shell

def fixedWords (language : Language) : List String :=
  if language = .python then ["pip", "install", "--no-cache-dir", "--target", "/deps"]
  else ["npm", "install", "--prefix", "/deps", "--no-audit", "--no-fund", "--silent"]

def SandboxSpec.declared (spec : SandboxSpec) : Option (List String) := if spec.language = .python then spec.pip else spec.npm

section Quoting

variable {reading : Shell.Reading} {word : Word}

/-- What `quote` makes of one character. -/
def escape (char : Char) : List Char := if char = '\'' then ['\'', '\\', '\'', '\''] else [char]

theorem quote_chars (text : String) : (quote text).toList = '\'' :: (text.toList.flatMap escape ++ ['\'']) := by
  have escapes : (fun char => if [char] = "'".toList then "'\\''".toList else [char]) = escape := by
    funext char
    by_cases isQuote : char = '\''
    · subst isQuote
      rfl
    · have differs : [char] ≠ "'".toList := fun same => isQuote (List.head_eq_of_cons_eq same)
      rw [if_neg differs, escape, if_neg isQuote]
  unfold quote
  dsimp only
  rw [escapes, String.toList_append, String.toList_append, String.toList_ofList, String.toList_ofList]
  rfl

/-- Each character of the text becomes one mark, whatever the mode has to do for it. -/
theorem foldl_escape (chars : List Char) (mode : reading.mode = .single) (isWord : reading.word = some word) :
    (chars.flatMap escape).foldl step reading = { reading with word := some (word ++ literal chars) } := by
  induction chars generalizing reading word with
  | nil => rw [List.flatMap_nil, List.foldl_nil, literal, List.map_nil, List.append_nil, ← isWord]
  | cons char rest ih =>
    have turn : (escape char).foldl step reading = reading.add char true := by
      unfold escape
      split
      · rename_i isQuote
        subst isQuote
        exact foldl_apostrophe mode isWord
      · rename_i other
        exact step_single mode other
    have next : (reading.add char true).word = some (word ++ [⟨char, true⟩]) := by rw [Shell.Reading.add, isWord]; rfl
    rw [List.flatMap_cons, List.foldl_append, turn, @ih (reading.add char true) _ mode next, List.append_assoc]
    rfl

/-- A quoted text is read as one word, each character of which is its own. -/
theorem foldl_quote (text : String) (tokens : List Token) :
    (quote text).toList.foldl step ⟨.plain, none, tokens⟩ = ⟨.plain, some (literal text.toList), tokens⟩ := by
  have opened : step ⟨.plain, none, tokens⟩ '\'' = ⟨.single, some [], tokens⟩ := rfl
  rw [quote_chars, List.foldl_cons, opened, List.foldl_append, foldl_escape text.toList rfl rfl]
  rfl

def quotedToken (text : String) : Token := .word (literal text.toList)

theorem finish_quoted (deps : List String) (tokens : List Token) :
    finish ((Text.join " " (deps.map quote)).toList.foldl step ⟨.plain, none, tokens⟩) = some (tokens ++ deps.map quotedToken) := by
  induction deps generalizing tokens with
  | nil => simp [Text.join, finish, Shell.Reading.delimit]
  | cons dep rest ih =>
    cases rest with
    | nil =>
      rw [List.map_singleton, show Text.join " " [quote dep] = quote dep from rfl, foldl_quote]
      rfl
    | cons next others =>
      have blank : step ⟨.plain, some (literal dep.toList), tokens⟩ ' ' = ⟨.plain, none, tokens ++ [quotedToken dep]⟩ := rfl
      have later := ih (tokens ++ [quotedToken dep])
      rw [List.map_cons] at later
      rw [List.map_cons, List.map_cons, Text.join_cons_cons, List.foldl_append, foldl_quote,
        show " ".toList = [' '] from rfl, List.singleton_append, List.foldl_cons, blank, later, List.map_cons,
        List.append_assoc]
      rfl

end Quoting

section Command

def plainWord (text : String) : Word := text.toList.map fun char => ⟨char, false⟩

/-- The text is read as these plain words, up to a blank, and the shell does nothing else with them. -/
structure Lead (text : String) (words : List String) : Prop where
  reads : text.toList.foldl step {} = ⟨.plain, none, words.map fun word => .word (plainWord word)⟩
  unexpanded : (words.map plainWord).any Word.expands = false
  ordinary : (words.map plainWord).head?.any Word.leads = false

theorem text_plainWord (text : String) : Word.text (plainWord text) = text := by
  simp [Word.text, plainWord, Function.comp_def]

theorem words_of_tokens (words : List Word) : (words.map Token.word).mapM Token.word? = some words := by
  induction words with
  | nil => rfl
  | cons word rest ih =>
    rw [List.map_cons, List.mapM_cons, ih]
    rfl

theorem argv_lead {text : String} {words : List String} (lead : Lead text words) (present : words ≠ []) (deps : List String) :
    argv (text ++ Text.join " " (deps.map quote)) = some (words ++ deps) := by
  have tokens : tokenize (text ++ Text.join " " (deps.map quote)) =
      some ((words.map plainWord ++ deps.map fun dep => literal dep.toList).map Token.word) := by
    rw [tokenize, String.toList_append, List.foldl_append, lead.reads, finish_quoted, List.map_append, List.map_map, List.map_map]
    rfl
  have unexpanded : (words.map plainWord ++ deps.map fun dep => literal dep.toList).any Word.expands = false := by
    rw [List.any_append, lead.unexpanded, Bool.false_or, List.any_map, List.any_eq_false]
    intro dep _
    rw [Function.comp_apply, expands_literal]
    decide
  have ordinary : (words.map plainWord ++ deps.map fun dep => literal dep.toList).head?.any Word.leads = false := by
    rw [List.head?_append_of_ne_nil _ (by simpa using present)]
    exact lead.ordinary
  unfold argv
  rw [tokens, Option.bind_eq_bind, Option.bind_some, words_of_tokens, Option.bind_eq_bind, Option.bind_some, unexpanded, ordinary]
  simp [Function.comp_def, text_plainWord]

theorem lead_python : Lead "pip install --no-cache-dir --target /deps " (fixedWords .python) := by
  constructor <;> decide +kernel

theorem lead_node {language : Language} (other : language ≠ .python) :
    Lead "npm install --prefix /deps --no-audit --no-fund --silent " (fixedWords language) := by
  have fixed : fixedWords language = fixedWords .node := by rw [fixedWords, if_neg other]; rfl
  rw [fixed]
  constructor <;> decide +kernel

/-- What the shell runs is the fixed words and then the dependencies, each unchanged and one word. -/
theorem installCommand_words (spec : SandboxSpec) : (installCommand spec).map argv =
    (Outcome.demand spec.declared noList).map fun deps => some (fixedWords spec.language ++ deps) := by
  unfold installCommand SandboxSpec.declared
  by_cases isPython : spec.language = .python
  · rw [if_pos isPython, if_pos isPython, isPython]
    cases spec.pip with
    | none => rfl
    | some deps => exact congrArg Except.ok (argv_lead lead_python (by decide) deps)
  · rw [if_neg isPython, if_neg isPython]
    have present : fixedWords spec.language ≠ [] := by
      rw [fixedWords, if_neg isPython]
      decide
    cases spec.npm with
    | none => rfl
    | some deps => exact congrArg Except.ok (argv_lead (lead_node isPython) present deps)

example : argv ("pip install --no-cache-dir --target /deps " ++ Text.join " " (["a'; rm -rf /", "$(x)", ""].map quote)) =
    some (fixedWords .python ++ ["a'; rm -rf /", "$(x)", ""]) := by decide +kernel

end Command

end Runtime
