import OpenAgentHub.Lib.Double
import OpenAgentHub.Runtime.UsageDatabase

namespace Runtime

structure RunSummary where
  runId : String
  agentKey : String
  version : String
  interfaceName : String
  sandbox : String
  state : String
  health : String
  startedAt : String
  endedAt : Option String
  durationSec : Option Int
  exitCode : Option Int
  exitReason : Option String
  modelProvider : Option String
  modelName : Option String
  deriving DecidableEq, Repr

/-- The optional fields `from`, `to` and `agent`. -/
structure StatsRange where
  start : Option String := none
  stop : Option String := none
  agent : Option String := none
  deriving DecidableEq, Repr

structure RunCounts where
  running : Nat
  healthy : Nat
  unhealthy : Nat
  stopped : Nat
  failed : Nat
  today : Nat
  allTime : Nat
  lastSuccessfulRun : Option RunSummary
  lastFailedRun : Option RunSummary
  deriving DecidableEq, Repr

structure ContainerCounts where
  current : Nat
  historical : Nat
  deriving DecidableEq, Repr

structure TokenCounts where
  input : Int := 0
  output : Int := 0
  reasoning : Int := 0
  cache : Int := 0
  available : Bool := false
  deriving DecidableEq, Repr

structure Costs where
  exact : Rat := 0
  estimated : Rat := 0
  exactAvailable : Bool := false
  estimatedAvailable : Bool := false
  deriving DecidableEq, Repr

structure ModelUsage where
  provider : String
  model : String
  runs : Nat
  tokensIn : Int
  tokensOut : Int
  deriving DecidableEq, Repr

structure AgentUsage where
  agentKey : String
  runs : Nat
  running : Nat
  lastRunAt : Option String
  deriving DecidableEq, Repr

structure UsageStats where
  generatedAt : String
  lastEventAt : Option String
  range : StatsRange
  runs : RunCounts
  containers : ContainerCounts
  tokens : TokenCounts
  cost : Costs
  models : List ModelUsage
  sandboxes : List (String × Nat)
  perAgent : List AgentUsage
  activeRuns : List RunSummary
  deriving DecidableEq, Repr

section Rows

variable (host : StatsHost)

/-- Whole seconds of a time that has passed, rounded half up. -/
def seconds (elapsed : Int) : Option Int := if 0 < elapsed then some ((elapsed + 500) / 1000) else none

def elapsedSec (later earlier : Option Int) : Option Int := do seconds ((← later) - (← earlier))

def runSummary (entry : String × RunRow) : RunSummary where
  runId := entry.1
  agentKey := entry.2.agentKey
  version := entry.2.version
  interfaceName := entry.2.interfaceName
  sandbox := entry.2.sandbox
  state := entry.2.state
  health := entry.2.health
  startedAt := entry.2.startedAt
  endedAt := given entry.2.endedAt
  durationSec := elapsedSec ((given entry.2.endedAt).bind host.dateParse) (host.dateParse entry.2.startedAt)
  exitCode := entry.2.exitCode
  exitReason := given entry.2.exitReason
  modelProvider := given entry.2.modelProvider
  modelName := given entry.2.modelName

/-- A bound of the range, if there is one; without a result where its date is not valid. -/
def rangeBound (text : Option String) : Option (Option String) :=
  match given text with
  | none => some none
  | some text => (host.isoDate text).map some

/-- `SELECT * FROM runs WHERE … ORDER BY started_at` -/
def selectRuns (runs : Record RunRow) (range : StatsRange) : Option (List (String × RunRow)) := do
  let start ← rangeBound host range.start
  let stop ← rangeBound host range.stop
  let chosen := runs.entries.filter fun entry =>
    start.all (fun start => decide (start ≤ entry.2.startedAt)) &&
      stop.all (fun stop => decide (entry.2.startedAt ≤ stop)) &&
      (given range.agent).all (· == entry.2.agentKey)
  some (chosen.mergeSort fun one other => decide (one.2.startedAt ≤ other.2.startedAt))

end Rows

/-! ### Aggregates -/

def TokenCounts.add (tokens : TokenCounts) (row : TokenUsageRow) : TokenCounts where
  input := Double.add tokens.input row.tokensIn
  output := Double.add tokens.output row.tokensOut
  reasoning := Double.add tokens.reasoning row.tokensReasoning
  cache := Double.add tokens.cache row.tokensCache
  available := true

/-- A cost that is missing counts for zero, and only a cost above zero is added. -/
def Costs.add (cost : Costs) (row : TokenUsageRow) : Costs :=
  let exact := row.costExact.getD 0
  let estimated := row.costEstimated.getD 0
  let cost := if 0 < exact then { cost with exact := cost.exact + exact, exactAvailable := true } else cost
  if 0 < estimated then { cost with estimated := cost.estimated + estimated, estimatedAvailable := true } else cost

structure ModelTally where
  provider : String
  model : String
  tokensIn : Int := 0
  tokensOut : Int := 0
  runIds : List String := []

def ModelTally.add (tally : ModelTally) (row : TokenUsageRow) : ModelTally :=
  { tally with
    tokensIn := Double.add tally.tokensIn row.tokensIn
    tokensOut := Double.add tally.tokensOut row.tokensOut
    runIds := Distinct.enter (· == ·) tally.runIds row.runId }

def ModelTally.usage (tally : ModelTally) : ModelUsage where
  provider := tally.provider
  model := tally.model
  runs := tally.runIds.length
  tokensIn := tally.tokensIn
  tokensOut := tally.tokensOut

def tallyModels (rows : List TokenUsageRow) : Record ModelTally :=
  rows.foldl (fun models row =>
    let key := row.modelProvider ++ ":" ++ row.modelName
    let tally := (models.get key).getD { provider := row.modelProvider, model := row.modelName }
    models.set key (tally.add row)) {}

def countSandboxes (rows : List (String × RunRow)) : Record Nat :=
  rows.foldl (fun counts entry => counts.set entry.2.sandbox ((counts.get entry.2.sandbox).getD 0 + 1)) {}

def AgentUsage.add (usage : AgentUsage) (row : RunRow) : AgentUsage :=
  { usage with
    runs := usage.runs + 1
    running := usage.running + if active row.state then 1 else 0
    lastRunAt :=
      match given usage.lastRunAt with
      | none => some row.startedAt
      | some last => if last < row.startedAt then some row.startedAt else some last }

def tallyAgents (rows : List (String × RunRow)) : Record AgentUsage :=
  rows.foldl (fun agents entry =>
    let key := entry.2.agentKey
    let usage := (agents.get key).getD { agentKey := key, runs := 0, running := 0, lastRunAt := none }
    agents.set key (usage.add entry.2)) {}

section Aggregate

variable (host : StatsHost)

/-- A run that goes on has lasted until now. -/
def activeSummary (now : Int) (entry : String × RunRow) : RunSummary :=
  let summary := runSummary host entry
  { summary with durationSec := (elapsedSec (some now) (host.dateParse summary.startedAt)).or summary.durationSec }

def aggregate (runs : List (String × RunRow)) (tokenUsage : List TokenUsageRow) (lastEventAt : Option String)
    (range : StatsRange) (now : Int) : UsageStats :=
  let activeRuns := runs.filter fun entry => active entry.2.state
  let inScope := tokenUsage.filter fun row => runs.any fun entry => entry.1 == row.runId
  let isContainer := fun entry : String × RunRow => entry.2.sandbox == "container"
  { generatedAt := host.clockText now
    lastEventAt := lastEventAt
    range := range
    runs := {
      running := activeRuns.length
      healthy := activeRuns.countP fun entry => entry.2.health == "ok"
      unhealthy := activeRuns.countP fun entry => entry.2.health == "unhealthy"
      stopped := runs.countP fun entry => !active entry.2.state && entry.2.state != "failed"
      failed := runs.countP fun entry => entry.2.state == "failed"
      today := runs.countP fun entry => decide (host.dayStart now ≤ entry.2.startedAt)
      allTime := runs.length
      lastSuccessfulRun := ((runs.filter fun entry => entry.2.state == "exited").getLast?).map (runSummary host)
      lastFailedRun := ((runs.filter fun entry => entry.2.state == "failed").getLast?).map (runSummary host) }
    containers := { current := activeRuns.countP isContainer, historical := runs.countP isContainer }
    tokens := inScope.foldl TokenCounts.add {}
    cost := inScope.foldl Costs.add {}
    models := ((tallyModels inScope).entries.map fun entry => entry.2.usage).mergeSort fun one other =>
      decide (Double.add other.tokensIn other.tokensOut ≤ Double.add one.tokensIn one.tokensOut)
    sandboxes := (countSandboxes runs).entries
    perAgent := ((tallyAgents runs).entries.map Prod.snd).mergeSort fun one other => decide (other.runs ≤ one.runs)
    activeRuns := (activeRuns.map (activeSummary host now)).mergeSort fun one other =>
      decide (one.startedAt ≤ other.startedAt) }

/-- Without a result where a date of the range is not valid, or a count cannot be read. -/
def computeUsageStats (db : UsageDatabase) (range : StatsRange) (now : Int) : Option UsageStats :=
  (selectRuns host db.runs range).bind fun runs =>
    if db.readable then some (aggregate host runs db.tokenUsage db.lastEventAt range now) else none

end Aggregate

/-! ### What does not depend on the clock -/

def RunSummary.untimed (summary : RunSummary) : RunSummary := { summary with durationSec := none }

def UsageStats.untimed (stats : UsageStats) : UsageStats :=
  { stats with
    generatedAt := ""
    runs := { stats.runs with today := 0 }
    activeRuns := stats.activeRuns.map RunSummary.untimed }

section Clock

variable {host : StatsHost} {db other : UsageDatabase} {range : StatsRange} {stats : UsageStats} {now later : Int}

/-- The active runs in order: their durations do not decide it. -/
theorem untimed_sorted (summaries : List RunSummary) :
    (summaries.mergeSort fun one other => decide (one.startedAt ≤ other.startedAt)).map RunSummary.untimed =
      (summaries.map RunSummary.untimed).mergeSort fun one other => decide (one.startedAt ≤ other.startedAt) :=
  List.map_mergeSort fun _ _ _ _ => rfl

theorem untimed_aggregate {runs : List (String × RunRow)} {tokenUsage : List TokenUsageRow} {lastEventAt : Option String} :
    (aggregate host runs tokenUsage lastEventAt range now).untimed =
      (aggregate host runs tokenUsage lastEventAt range later).untimed := by
  unfold aggregate UsageStats.untimed
  dsimp only
  congr 1
  rw [untimed_sorted, untimed_sorted, List.map_map, List.map_map]
  congr 1

theorem untimed_computeUsageStats :
    (computeUsageStats host db range now).map UsageStats.untimed =
      (computeUsageStats host db range later).map UsageStats.untimed := by
  unfold computeUsageStats
  rw [Option.map_bind, Option.map_bind]
  congr 1
  funext runs
  dsimp only [Function.comp_apply]
  split
  · exact congrArg some untimed_aggregate
  · rfl

theorem computeUsageStats_eq_some : computeUsageStats host db range now = some stats ↔
    db.readable = true ∧ ∃ runs, selectRuns host db.runs range = some runs ∧
      stats = aggregate host runs db.tokenUsage db.lastEventAt range now := by
  unfold computeUsageStats
  rw [Option.bind_eq_some_iff]
  cases readable : db.readable with
  | false => simp
  | true => simp [eq_comm (a := stats)]

theorem computed_range (computed : computeUsageStats host db range now = some stats) : stats.range = range := by
  obtain ⟨_, runs, _, rfl⟩ := computeUsageStats_eq_some.mp computed
  rfl

theorem computeUsageStats_congr (rows : selectRuns host other.runs range = selectRuns host db.runs range)
    (usage : other.tokenUsage = db.tokenUsage) (latest : other.lastEventAt = db.lastEventAt) :
    computeUsageStats host other range now = computeUsageStats host db range now := by
  unfold computeUsageStats UsageDatabase.readable
  rw [rows, usage, latest]

end Clock

end Runtime
