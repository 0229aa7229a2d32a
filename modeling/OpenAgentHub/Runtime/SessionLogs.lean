import OpenAgentHub.Runtime.SessionEvents

namespace Runtime

/-- What the line loop meets at a line: the clock, the deadline, or the end of the process. -/
inductive Tick where
  | reached (now : Int)
  | late
  | stopped
  deriving DecidableEq

def Tick.now : Tick → Int
  | .reached now => now
  | .late | .stopped => 0

structure FileStat where
  size : Nat
  mtimeMs : Int

structure Tally where
  totals : ModelTotals
  usage : List UsageObservation := []
  limits : List LimitObservation := []
  skippedLines : Nat := 0

/-- How the line loop ends; it is broken by an exception or with the process. -/
inductive LoopEnd where
  | finished | cutShort | broken
  deriving DecidableEq

structure ParsedFile where
  usage : List UsageObservation := []
  limits : List LimitObservation := []
  skippedLines : Nat := 0
  cutShort : Bool := false

def lastIndexOf (char : Char) : List Char → Option Nat
  | [] => none
  | head :: rest =>
    match lastIndexOf char rest with
    | some index => some (index + 1)
    | none => if head = char then some 0 else none

def completeEnd (raw : List Char) : Nat :=
  match lastIndexOf '\n' raw with
  | none => 0
  | some next => next + 1

def linesOf (text : List Char) : List (List Char) := text.splitOn '\n'

/-- The value on a line, for `JSON.parse` and the blank lines. -/
def itemOf (host : UsageHost) (line : List Char) : Option Json :=
  if Text.trim line = [] then none else host.jsonParse (Text.trim line)

def readLine {host : UsageHost} (adapter : Adapter host) (known : UsageObservation → Bool) (tally : Tally)
    (line : List Char) (lineNo : Nat) (now : Int) : Except Unit Tally :=
  if Text.trim line = [] then .ok tally
  else
    match host.jsonParse (Text.trim line) with
    | none => .ok { tally with skippedLines := tally.skippedLines + 1 }
    | some item =>
      match adapter.read tally.totals item lineNo now with
      | .error thrown => .error thrown
      | .ok result =>
        let tally := { tally with totals := result.totals, limits := tally.limits ++ result.limit.toList }
        match result.observation with
        | some obs =>
          if known obs then .ok { tally with skippedLines := tally.skippedLines + 1 }
          else .ok { tally with usage := tally.usage ++ [obs] }
        | none => .ok (if result.ignored then { tally with skippedLines := tally.skippedLines + 1 } else tally)

def parseLines {host : UsageHost} (adapter : Adapter host) (known : UsageObservation → Bool) (ticks : Nat → Tick) :
    Nat → List (List Char) → Tally → Tally × LoopEnd
  | _, [], tally => (tally, .finished)
  | lineNo, line :: rest, tally =>
    match ticks lineNo with
    | .late => (tally, .cutShort)
    | .stopped => (tally, .broken)
    | .reached now =>
      match readLine adapter known tally line lineNo now with
      | .error _ => (tally, .broken)
      | .ok tally => parseLines adapter known ticks (lineNo + 1) rest tally

def startOffset (cursor : Option SourceCursor) (stat : FileStat) (raw : List Char) : Nat :=
  let offset :=
    match cursor with
    | some cursor =>
      let boundary := cursor.offset = 0 ∨ raw[cursor.offset - 1]? = some '\n'
      if cursor.offset ≤ stat.size ∧ (stat.mtimeMs = cursor.mtimeMs ∨ boundary) then cursor.offset else 0
    | none => 0
  if completeEnd raw < offset then 0 else offset

def unchanged (cursor : Option SourceCursor) (stat : FileStat) : Bool :=
  cursor.any fun cursor => cursor.size == stat.size && cursor.mtimeMs == stat.mtimeMs

def sliceOf (cursor : Option SourceCursor) (stat : FileStat) (raw : List Char) : List Char :=
  (raw.take (completeEnd raw)).drop (startOffset cursor stat raw)

/-- Without a result where the call does not return. -/
def parseSessionFile {host : UsageHost} (adapter : Adapter host) (store : UsageStore) (stat : Option FileStat)
    (raw : Option (List Char)) (ticks : Nat → Tick) : UsageStore × Option ParsedFile :=
  match stat with
  | none => (store, some {})
  | some stat =>
    let cursor := store.sourceCursors adapter.source
    if unchanged cursor stat then (store, some {})
    else
      match raw with
      | none => (store, some {})
      | some raw =>
        let known := fun obs => store.hasExternal obs.provider obs.source obs.eventKey
        let (tally, ended) := parseLines adapter known ticks 1 (linesOf (sliceOf cursor stat raw))
          { totals := store.codexTotals adapter.source }
        let store := store.setModelTotals adapter.source tally.totals
        if ended = .broken then (store, none)
        else
          (store.setSourceCursor adapter.source ⟨stat.size, stat.mtimeMs, completeEnd raw⟩,
           some { usage := tally.usage, limits := tally.limits, skippedLines := tally.skippedLines,
                  cutShort := decide (ended = .cutShort) })

/-! ### The complete lines of a growing file -/

def Complete (text : List Char) : Prop := text = [] ∨ ∃ body, text = body ++ ['\n']

def complete (raw : List Char) : List Char := raw.take (completeEnd raw)

theorem lastIndexOf_none {char : Char} {raw : List Char} (missing : char ∉ raw) : lastIndexOf char raw = none := by
  induction raw with
  | nil => rfl
  | cons head rest step =>
    have later : char ∉ rest := fun found => missing (List.mem_cons_of_mem _ found)
    have here : ¬ head = char := fun same => missing (same ▸ List.mem_cons_self)
    simp only [lastIndexOf, step later, here, if_false]

theorem lastIndexOf_append {char : Char} {front rest : List Char} :
    lastIndexOf char (front ++ char :: rest) =
      some (front.length + match lastIndexOf char rest with | some index => index + 1 | none => 0) := by
  induction front with
  | nil =>
    cases found : lastIndexOf char rest <;> simp [lastIndexOf, found]
  | cons head tail step =>
    rw [List.cons_append, lastIndexOf, step]
    simp only [List.length_cons, Option.some.injEq]
    omega

theorem completeEnd_none {raw : List Char} (missing : '\n' ∉ raw) : completeEnd raw = 0 := by
  simp only [completeEnd, lastIndexOf_none missing]

theorem completeEnd_append {front rest : List Char} :
    completeEnd (front ++ '\n' :: rest) = front.length + 1 + completeEnd rest := by
  unfold completeEnd
  rw [lastIndexOf_append]
  cases lastIndexOf '\n' rest with
  | none => rfl
  | some index =>
    show front.length + (index + 1) + 1 = front.length + 1 + (index + 1)
    omega

theorem complete_none {raw : List Char} (missing : '\n' ∉ raw) : complete raw = [] := by
  rw [complete, completeEnd_none missing, List.take_zero]

theorem complete_append {text : List Char} (ends : Complete text) (rest : List Char) :
    complete (text ++ rest) = text ++ complete rest := by
  rcases ends with rfl | ⟨body, rfl⟩
  · rfl
  · have ended : completeEnd (body ++ ['\n'] ++ rest) = (body ++ ['\n']).length + completeEnd rest := by
      rw [List.append_assoc, List.singleton_append, completeEnd_append, List.length_append, List.length_singleton]
    rw [complete, ended, List.take_length_add_append, complete]

theorem newline_cases (raw : List Char) : '\n' ∉ raw ∨ ∃ front rest, raw = front ++ '\n' :: rest ∧ '\n' ∉ rest := by
  induction raw with
  | nil => exact Or.inl List.not_mem_nil
  | cons head tail step =>
    rcases step with missing | ⟨front, rest, rfl, last⟩
    · by_cases here : head = '\n'
      · exact Or.inr ⟨[], tail, by rw [here, List.nil_append], missing⟩
      · exact Or.inl fun found => (List.mem_cons.mp found).elim (fun same => here same.symm) missing
    · exact Or.inr ⟨head :: front, rest, rfl, last⟩

theorem complete_of_cut {front rest : List Char} (last : '\n' ∉ rest) :
    complete (front ++ '\n' :: rest) = front ++ ['\n'] := by
  have split : front ++ '\n' :: rest = (front ++ ['\n']) ++ rest := by simp
  rw [split, complete_append (Or.inr ⟨front, rfl⟩) rest, complete_none last, List.append_nil]

theorem complete_complete (raw : List Char) : Complete (complete raw) := by
  rcases newline_cases raw with missing | ⟨front, rest, rfl, last⟩
  · exact Or.inl (complete_none missing)
  · exact Or.inr ⟨front, complete_of_cut last⟩

def Settled (host : UsageHost) (content : List UInt8) (text : List Char) : Prop :=
  Complete text ∧ ∀ more, ∃ rest, host.decode (content ++ more) = text ++ rest

theorem Settled.nil {host : UsageHost} {content : List UInt8} : Settled host content [] :=
  ⟨Or.inl rfl, fun more => ⟨host.decode (content ++ more), rfl⟩⟩

theorem Settled.grow {host : UsageHost} {content more : List UInt8} {text : List Char}
    (settled : Settled host content text) : Settled host (content ++ more) text := by
  refine ⟨settled.1, fun later => ?_⟩
  rw [List.append_assoc]
  exact settled.2 (more ++ later)

theorem byte_cases (bytes : List UInt8) : 10 ∉ bytes ∨ ∃ front rest, bytes = front ++ 10 :: rest ∧ 10 ∉ rest := by
  induction bytes with
  | nil => exact Or.inl List.not_mem_nil
  | cons head tail step =>
    rcases step with missing | ⟨front, rest, rfl, last⟩
    · by_cases here : head = 10
      · exact Or.inr ⟨[], tail, by rw [here, List.nil_append], missing⟩
      · exact Or.inl fun found => (List.mem_cons.mp found).elim (fun same => here same.symm) missing
    · exact Or.inr ⟨head :: front, rest, rfl, last⟩

theorem settled_complete (host : UsageHost) (content : List UInt8) :
    Settled host content (complete (host.decode content)) := by
  rcases byte_cases content with missing | ⟨front, rest, rfl, last⟩
  · rw [complete_none (host.decode_plain content missing)]
    exact Settled.nil
  · have decoded := host.decode_newline front rest
    rw [decoded, complete_of_cut (host.decode_plain rest last)]
    refine ⟨Or.inr ⟨_, rfl⟩, fun more => ⟨host.decode (rest ++ more), ?_⟩⟩
    rw [List.append_assoc, List.cons_append, host.decode_newline, List.append_assoc, List.singleton_append]

theorem sliceOf_settled {host : UsageHost} {content : List UInt8} {text : List Char} {cursor : SourceCursor}
    (settled : Settled host content text) (offset : cursor.offset = text.length) (meanwhile : List UInt8) (mtimeMs : Int) :
    text ++ sliceOf (some cursor) ⟨content.length, mtimeMs⟩ (host.decode (content ++ meanwhile)) =
      complete (host.decode (content ++ meanwhile)) := by
  obtain ⟨rest, decoded⟩ := settled.2 meanwhile
  have whole := complete_append settled.1 rest
  have sized : text.length ≤ content.length := by
    obtain ⟨tail, plain⟩ := settled.2 []
    have bound := host.decode_length (content ++ [])
    rw [plain, List.append_nil, List.length_append] at bound
    omega
  have boundary : cursor.offset = 0 ∨ (host.decode (content ++ meanwhile))[cursor.offset - 1]? = some '\n' := by
    rcases settled.1 with rfl | ⟨body, rfl⟩
    · exact Or.inl offset
    · right
      rw [decoded, offset]
      simp
  have within : ¬ completeEnd (host.decode (content ++ meanwhile)) < text.length := by
    have total := congrArg List.length whole
    simp only [complete, List.length_take, List.length_append] at total
    rw [decoded]
    omega
  have chosen : cursor.offset ≤ content.length ∧
      (mtimeMs = cursor.mtimeMs ∨ cursor.offset = 0 ∨
        (host.decode (content ++ meanwhile))[cursor.offset - 1]? = some '\n') :=
    ⟨offset ▸ sized, Or.inr boundary⟩
  have start : startOffset (some cursor) ⟨content.length, mtimeMs⟩ (host.decode (content ++ meanwhile)) = text.length := by
    unfold startOffset
    dsimp only
    rw [if_pos chosen, offset, if_neg within]
  rw [sliceOf, start]
  have taken : (host.decode (content ++ meanwhile)).take (completeEnd (host.decode (content ++ meanwhile))) =
      text ++ complete rest := by
    rw [decoded]
    exact whole
  rw [taken, List.drop_left, decoded, whole]

theorem sliceOf_none {stat : FileStat} {raw : List Char} : sliceOf none stat raw = complete raw := by
  simp [sliceOf, startOffset, complete]

end Runtime
