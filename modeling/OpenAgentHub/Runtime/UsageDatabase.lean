import OpenAgentHub.Lib.Record
import OpenAgentHub.Runtime.UsageStore

namespace Runtime

/-- What the store and its statistics take from the JavaScript runtime. -/
structure StatsHost where
  /-- `new Date(text).toISOString()`, without a text where it throws. -/
  isoDate : String → Option String
  /-- `new Date(time).toISOString()`, likewise. -/
  isoTime : Rat → Option String
  dateParse : String → Option Int
  /-- The ISO text of a reading of the clock. -/
  clockText : Int → String
  /-- The ISO text of the local midnight before it. -/
  dayStart : Int → String
  number : String → Option Rat

structure RunRow where
  agentKey : String
  version : String
  interfaceName : String
  sandbox : String
  state : String
  health : String
  exitCode : Option Int := none
  exitReason : Option String := none
  modelProvider : Option String := none
  modelName : Option String := none
  containerId : Option String := none
  createdAt : String
  startedAt : String
  endedAt : Option String := none
  deriving DecidableEq, Repr

structure RunFacts extends RunRow where
  runId : String

structure TokenUsageRow where
  runId : String
  modelProvider : String
  modelName : String
  tokensIn : Int
  tokensOut : Int
  tokensReasoning : Int
  tokensCache : Int
  costExact : Option Rat
  costEstimated : Option Rat
  recordedAt : String
  deriving DecidableEq, Repr

structure UsageSample where
  runId : String
  modelProvider : String
  modelName : String
  tokensIn : Int
  tokensOut : Int
  tokensReasoning : Option Int := none
  tokensCache : Option Int := none
  costExact : Option Rat := none
  costEstimated : Option Rat := none
  recordedAt : Option String := none

structure ResourceSampleRow where
  runId : String
  memBytes : Option Int
  cpuPercent : Option Rat
  containerId : Option String
  sampledAt : String

structure ResourceSample where
  runId : String
  memBytes : Option Int := none
  cpuPercent : Option Rat := none
  containerId : Option String := none
  sampledAt : Option String := none

inductive LimitSource where
  | «local» | live | manual

structure LimitRow where
  provider : ProviderName
  window : String
  plan : Option String := none
  usedPercent : Option Rat := none
  units : Option String := none
  creditsUsed : Option Rat := none
  creditsTotal : Option Rat := none
  resetAt : Option String := none
  observedAt : String
  source : LimitSource

structure PruneOptions where
  olderThanDays : Option Rat := none
  keep : Option Rat := none

structure UsageDatabase extends UsageStore where
  runs : Record RunRow := {}
  tokenUsage : List TokenUsageRow := []
  resourceSamples : List ResourceSampleRow := []
  settings : String → Option String := fun _ => none
  limits : List LimitRow := []

/-- What a mutation leaves, and whether it calls `touch`. -/
structure Mutated where
  db : UsageDatabase
  touched : Bool

def active (state : String) : Bool := state == "starting" || state == "running" || state == "stopping"

/-- A text that JavaScript takes for true. -/
def given (text : Option String) : Option String := text.filter (· != "")

/-- `MAX` of texts. -/
def latestText (texts : List String) : Option String :=
  texts.foldl (fun latest text => if latest.all (· < text) then some text else latest) none

namespace UsageDatabase

variable (host : StatsHost) (db : UsageDatabase) (now : Int)

/-- A stored run is updated in place, and without `touch`. -/
def syncRun (run : RunFacts) : Mutated where
  db := { db with runs := db.runs.set run.runId run.toRunRow }
  touched := (db.runs.get run.runId).isNone

def recordUsage (sample : UsageSample) : Mutated where
  db := { db with tokenUsage := db.tokenUsage ++ [{
    runId := sample.runId
    modelProvider := sample.modelProvider
    modelName := sample.modelName
    tokensIn := sample.tokensIn
    tokensOut := sample.tokensOut
    tokensReasoning := sample.tokensReasoning.getD 0
    tokensCache := sample.tokensCache.getD 0
    costExact := sample.costExact
    costEstimated := sample.costEstimated
    recordedAt := sample.recordedAt.getD (host.clockText now) }] }
  touched := true

def recordResourceSample (sample : ResourceSample) : Mutated where
  db := { db with resourceSamples := db.resourceSamples ++ [{
    runId := sample.runId
    memBytes := sample.memBytes
    cpuPercent := sample.cpuPercent
    containerId := sample.containerId
    sampledAt := sample.sampledAt.getD (host.clockText now) }] }
  touched := true

def setSetting (key value : String) : Mutated where
  db := { db with settings := Function.update db.settings key (some value) }
  touched := false

def recordExternalRow (obs : UsageObservation) : Mutated where
  db := { db with toUsageStore := (db.recordExternal obs (host.clockText now)).1 }
  touched := (db.recordExternal obs (host.clockText now)).2

def upsertLimit (obs : LimitRow) : Mutated where
  db :=
    let same := fun row : LimitRow => row.provider == obs.provider && row.window == obs.window
    { db with limits :=
        if db.limits.any same then db.limits.map fun row => if same row then obs else row else db.limits ++ [obs] }
  touched := true

def clearProviderUsage (provider : ProviderName) : Mutated where
  db := { db with
    externalUsage := db.externalUsage.filter (·.provider != provider)
    limits := db.limits.filter (·.provider != provider) }
  touched := true

def setCursor (source : String) (cursor : SourceCursor) : Mutated where
  db := { db with toUsageStore := db.setSourceCursor source cursor }
  touched := false

def setCodexTotal (source model : String) (total : CodexTotal) : Mutated where
  db := { db with toUsageStore :=
    db.setModelTotals source (Function.update (db.codexTotals source) model (some total)) }
  touched := false

def ended : List (String × RunRow) := db.runs.entries.filter fun entry => !active entry.2.state

def newestFirst (rows : List (String × RunRow)) : List (String × RunRow) :=
  rows.mergeSort fun one other => decide (other.2.createdAt ≤ one.2.createdAt)

/-- Without a list where a query or a date throws. -/
def pruneCandidates (opts : PruneOptions) : Option (List String) := do
  let old ←
    match opts.olderThanDays.filter (0 ≤ ·) with
    | none => some []
    | some days =>
      (host.isoTime (now - days * 86400000)).map fun cutoff =>
        (db.ended.filter fun entry => entry.2.createdAt < cutoff).map Prod.fst
  let excess ←
    match opts.keep.filter (0 ≤ ·) with
    | none => some []
    | some keep =>
      (Sqlite.offset keep).map fun kept => ((newestFirst db.ended).drop kept).map Prod.fst
  some (Distinct.enterAll (· == ·) [] (old ++ excess))

/-- Without a result where the query throws: it binds every identifier. -/
def removeRuns (ids : List String) : Option Mutated :=
  if Sqlite.maxVariables < ids.length then none
  else
    let gone := (db.runs.entries.filter fun entry => ids.contains entry.1).map Prod.fst
    some {
      db := { db with
        runs := db.runs.discard gone.contains
        tokenUsage := db.tokenUsage.filter fun row => !gone.contains row.runId
        resourceSamples := db.resourceSamples.filter fun row => !gone.contains row.runId }
      touched := !gone.isEmpty }

/-- Where it throws, nothing has been removed. -/
def prune (opts : PruneOptions) : Mutated :=
  match db.pruneCandidates host now opts with
  | none => ⟨db, false⟩
  | some [] => ⟨db, false⟩
  | some ids => (db.removeRuns ids).getD ⟨db, false⟩

def pruneById (runId : String) : Mutated := (db.removeRuns [runId]).getD ⟨db, false⟩

def positiveSetting (key : String) : Option Rat :=
  ((given (db.settings key)).bind host.number).filter (0 < ·)

def pruneBySettings : Mutated :=
  let days := db.positiveSetting host "retention.days"
  let keep := db.positiveSetting host "retention.max_runs"
  if days.isNone && keep.isNone then ⟨db, false⟩ else db.prune host now { olderThanDays := days, keep := keep }

def deleteAll : Mutated := ⟨{}, true⟩

def readable : Bool :=
  db.tokenUsage.all fun row =>
    Sqlite.readable row.tokensIn && Sqlite.readable row.tokensOut && Sqlite.readable row.tokensReasoning &&
      Sqlite.readable row.tokensCache

def lastEventAt : Option String :=
  latestText (db.runs.entries.map (·.2.createdAt) ++ db.tokenUsage.map (·.recordedAt))

end UsageDatabase

end Runtime
