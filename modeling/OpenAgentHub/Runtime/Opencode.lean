import OpenAgentHub.Runtime.SessionLogs

namespace Runtime

abbrev MessageRow := List (String × Json)

structure MessagesTable where
  columns : List String
  rows : List MessageRow

/-- An SQLite file; the table may be missing. -/
structure OpencodeDb where
  messages : Option MessagesTable

structure DbSchema where
  timeCol : Option String
  hasTokens : Bool
  hasCost : Bool

def schemaOf (db : OpencodeDb) : Option (DbSchema × List MessageRow) :=
  db.messages.map fun table =>
    ({ timeCol := ["time", "created_at", "timestamp"].find? (table.columns.contains ·)
       hasTokens := table.columns.contains "tokens" || table.columns.contains "input_tokens" ||
         table.columns.contains "tokens_in"
       hasCost := table.columns.contains "cost" }, table.rows)

structure RowTokens where
  input : Option Int := none
  output : Option Int := none
  cache : Option Int := none
  deriving DecidableEq

/-- Each further level has lost its quotes, so that the length of the text is enough `fuel`. -/
def tokensOfText (host : UsageHost) : Nat → List Char → RowTokens
  | 0, _ => {}
  | fuel + 1, text =>
    let trimmed := Text.trim text
    if trimmed.head? = some '{' ∨ trimmed.head? = some '[' then
      match host.jsonParse trimmed with
      | some obj => {
          input := (num host (obj.get "input")).or (num host (obj.get "input_tokens"))
          output := (num host (obj.get "output")).or (num host (obj.get "output_tokens"))
          cache := num host (obj.get "cache") }
      | none => {}
    else if trimmed.head? = some '"' then
      match host.jsonParse trimmed with
      | some (.str inner) => tokensOfText host fuel inner.toList
      | _ => {}
    else if ',' ∈ trimmed then
      match (trimmed.splitOn ',').map fun part => host.number (String.ofList (Text.trim part)) with
      | some input :: some output :: _ => { input := some input, output := some output }
      | _ => {}
    else { output := host.number (String.ofList trimmed) }

def tokensOf (host : UsageHost) (row : MessageRow) : RowTokens :=
  match row.lookup "tokens" with
  | some (.str text) => tokensOfText host (text.length + 1) text.toList
  | some (.num count) => { output := some count }
  | _ => {
      input := (num host (row.lookup "input_tokens")).or (num host (row.lookup "tokens_in"))
      output := (num host (row.lookup "output_tokens")).or (num host (row.lookup "tokens_out")) }

/-- A value for `??`: neither missing nor null. -/
def present (value : Option Json) : Option Json := value.filter fun value => !value.isNull

def modelOf (row : MessageRow) : Option String :=
  textOf (((present (row.lookup "modelID")).or (present (row.lookup "model"))).or (row.lookup "model_id"))

def rowTime (host : UsageHost) (row : MessageRow) : Option Int :=
  ((num host (row.lookup "time")).or (num host (row.lookup "created_at"))).or (num host (row.lookup "timestamp"))

/-- `value > time` in SQLite, where a text is above every number. -/
def sqlAfter (time : Nat) : Option Json → Bool
  | some (.num value) => time < value
  | some (.str _) => true
  | _ => false

def sqlLe : Option Json → Option Json → Bool
  | some (.num one), some (.num other) => one ≤ other
  | some (.num _), _ => true
  | some (.str one), some (.str other) => one ≤ other
  | _, _ => false

def selectMessages (timeCol : Option String) (lastTime : Nat) (rows : List MessageRow) : List MessageRow :=
  match timeCol with
  | some column =>
    (rows.filter fun row => sqlAfter lastTime (row.lookup column)).mergeSort fun one other =>
      sqlLe (one.lookup column) (other.lookup column)
  | none => rows

/-- The rows that `.all()` returns: it throws at a whole number that `node:sqlite` does not read. -/
def readableRow (row : MessageRow) : Bool :=
  row.all fun entry =>
    match entry.2 with
    | .num value => Sqlite.readable value
    | _ => true

structure DbTally where
  usage : List UsageObservation := []
  skippedCount : Nat := 0
  parsedCount : Nat := 0
  maxTime : Int

def messageKey (row : MessageRow) (occurredAt : String) (parsedCount : Nat) : String :=
  match row.lookup "id" with
  | some id => "messages#" ++ id.toText
  | none => occurredAt ++ "|" ++ ((present (row.lookup "session_id")).map Json.toText).getD "" ++ "|" ++ toString parsedCount

def messageObservation (host : UsageHost) (hasCost : Bool) (dbPath : String) (row : MessageRow) (occurredAt : String)
    (parsedCount : Nat) : UsageObservation :=
  let tokens := tokensOf host row
  { provider := .opencode
    source := dbPath
    sessionId := (row.lookup "session_id").map Json.toText
    model := modelOf row
    tokensIn := tokens.input.getD 0
    tokensOut := tokens.output.getD 0
    cacheRead := tokens.cache
    costExact := if hasCost then (num host (row.lookup "cost")).map (Int.cast : Int → Rat) else none
    occurredAt := occurredAt
    eventKey := messageKey row occurredAt parsedCount }

def bearing (host : UsageHost) (row : MessageRow) : Bool :=
  (tokensOf host row).input.isSome || (tokensOf host row).output.isSome

/-- `toISOString` throws for a time outside the range of `Date`. -/
def occurred (host : UsageHost) (row : MessageRow) (now : Int) : Except Unit String :=
  match rowTime host row with
  | some time => if validTime time then .ok (host.iso time) else .error ()
  | none => .ok (host.iso now)

def readRow (host : UsageHost) (hasCost : Bool) (dbPath : String) (tally : DbTally) (row : MessageRow) (now : Int) :
    Except Unit DbTally :=
  if bearing host row then
    match occurred host row now with
    | .error thrown => .error thrown
    | .ok occurredAt => .ok {
        usage := tally.usage ++ [messageObservation host hasCost dbPath row occurredAt (tally.parsedCount + 1)]
        skippedCount := tally.skippedCount
        parsedCount := tally.parsedCount + 1
        maxTime := max tally.maxTime ((rowTime host row).getD tally.maxTime) }
  else .ok { tally with skippedCount := tally.skippedCount + 1 }

def readRows (host : UsageHost) (hasCost : Bool) (dbPath : String) (ticks : Nat → Tick) :
    Nat → List MessageRow → DbTally → DbTally × LoopEnd
  | _, [], tally => (tally, .finished)
  | index, row :: rest, tally =>
    match ticks index with
    | .late => (tally, .cutShort)
    | .stopped => (tally, .broken)
    | .reached now =>
      match readRow host hasCost dbPath tally row now with
      | .error _ => (tally, .broken)
      | .ok tally => readRows host hasCost dbPath ticks (index + 1) rest tally

inductive DbStatus where
  | unsupported | locked
  deriving DecidableEq

structure ParsedDb where
  usage : List UsageObservation := []
  skipped : Nat := 0
  cutShort : Bool := false
  status : Option DbStatus := none

/-- `db` is missing where it cannot be opened. Without a result where the call does not return. -/
def parseDb (host : UsageHost) (dbPath : String) (store : UsageStore) (stat : Option FileStat) (db : Option OpencodeDb)
    (ticks : Nat → Tick) : UsageStore × Option ParsedDb :=
  match stat with
  | none => (store, some {})
  | some stat =>
    let cursor := store.sourceCursors dbPath
    if unchanged cursor stat then (store, some {})
    else
      match db with
      | none => (store, some { status := some .locked })
      | some db =>
        match schemaOf db with
        | none => (store, some { status := some .unsupported })
        | some (schema, rows) =>
          if !schema.hasTokens then (store, some { status := some .unsupported })
          else
            let lastTime := (cursor.map SourceCursor.offset).getD 0
            let selected := selectMessages schema.timeCol lastTime rows
            if !selected.all readableRow then (store, some { status := some .unsupported })
            else
              let (tally, ended) := readRows host schema.hasCost dbPath ticks 1 selected { maxTime := lastTime }
              if ended = .broken then (store, none)
              else
                (store.setSourceCursor dbPath
                  ⟨stat.size, stat.mtimeMs, if schema.timeCol.isSome then tally.maxTime.toNat else stat.size⟩,
                 some { usage := tally.usage, skipped := tally.skippedCount, cutShort := decide (ended = .cutShort) })

end Runtime
