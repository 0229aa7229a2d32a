import OpenAgentHub.Runtime.Opencode
import OpenAgentHub.Runtime.UsageDatabase

namespace Runtime

def ProviderName.text : ProviderName → String
  | .claude => "claude"
  | .codex => "codex"
  | .opencode => "opencode"

inductive ConsentKind where
  | credentials | live

def ConsentKind.text : ConsentKind → String
  | .credentials => "credentials"
  | .live => "live"

def consentKey (provider : ProviderName) (kind : ConsentKind) : String :=
  "integration." ++ provider.text ++ "." ++ kind.text

def enabledKey (provider : ProviderName) : String := "integration." ++ provider.text ++ ".enabled"

namespace UsageDatabase

variable (db : UsageDatabase) (provider : ProviderName)

def setEnabled (enabled : Bool) : UsageDatabase := (db.setSetting (enabledKey provider) (if enabled then "1" else "0")).db

def setConsent (kind : ConsentKind) (granted : Bool) : UsageDatabase :=
  (db.setSetting (consentKey provider kind) (if granted then "1" else "0")).db

def consent (kind : ConsentKind) : Bool := db.settings (consentKey provider kind) == some "1"

def enabled : Bool := (db.settings (enabledKey provider)).all (· == "1")

/-- The cursors and the totals of the sources stay. -/
def revokeProvider : UsageDatabase :=
  (((db.setConsent provider .credentials false).setConsent provider .live false).clearProviderUsage provider).db

def grant : UsageDatabase := (db.setEnabled provider true).setConsent provider .credentials true

end UsageDatabase

/-- The session files and databases of the providers, in the order of the walk, and `claude.json`. -/
structure SessionSources where
  files : ProviderName → List String
  distinct : ∀ provider, (files provider).Nodup
  stat : String → FileStat
  log : String → List UInt8
  database : String → OpencodeDb
  claudeLimits : List LimitRow := []

structure AdapterOutput where
  usage : List UsageObservation := []
  limits : List LimitRow := []

def AdapterOutput.append (first second : AdapterOutput) : AdapterOutput where
  usage := first.usage ++ second.usage
  limits := first.limits ++ second.limits

def LimitObservation.limitRow (obs : LimitObservation) : LimitRow where
  provider := obs.provider
  window := obs.window
  units := some obs.units
  creditsUsed := obs.creditsUsed.map Int.cast
  creditsTotal := obs.creditsTotal.map Int.cast
  resetAt := obs.resetAt
  observedAt := ""
  source := .local

/-- The ticks that a source is read with; a source without ticks is not reached, or cannot be opened. -/
abbrev Visits := String → Option (Nat → Tick)

structure Pass where
  provider : ProviderName
  visits : Visits

/-- `completes` says that the process has not ended before the observations are recorded. -/
structure Collection where
  passes : List Pass
  now : String
  completes : Bool := true

section Collect

variable (host : UsageHost) (sources : SessionSources)

def readLog (adapter : Adapter host) (ticks : Nat → Tick) (store : UsageStore) : UsageStore × Option AdapterOutput :=
  let (store, parsed) := parseSessionFile adapter store (some (sources.stat adapter.source))
    (some (host.decode (sources.log adapter.source))) ticks
  (store, parsed.map fun parsed => { usage := parsed.usage, limits := parsed.limits.map LimitObservation.limitRow })

def readSource (provider : ProviderName) (path : String) (ticks : Nat → Tick) (store : UsageStore) :
    UsageStore × Option AdapterOutput :=
  match provider with
  | .claude => readLog host sources (claudeAdapter host path) ticks store
  | .codex => readLog host sources (codexAdapter host path) ticks store
  | .opencode =>
    let (store, parsed) := parseDb host path store (some (sources.stat path)) (some (sources.database path)) ticks
    (store, parsed.map fun parsed => { usage := parsed.usage })

def readSources (provider : ProviderName) (visits : Visits) : List String → UsageStore → UsageStore × AdapterOutput × Bool
  | [], store => (store, {}, true)
  | path :: rest, store =>
    match visits path with
    | none => readSources provider visits rest store
    | some ticks =>
      match readSource host sources provider path ticks store with
      | (store, none) => (store, {}, false)
      | (store, some output) =>
        let (store, more, ended) := readSources provider visits rest store
        (store, output.append more, ended)

/-- `collectClaude`, `collectCodex` and `collectOpencode`. -/
def collectSources (pass : Pass) (store : UsageStore) : UsageStore × AdapterOutput :=
  let (store, output, ended) := readSources host sources pass.provider pass.visits (sources.files pass.provider) store
  if pass.provider = .claude ∧ ended = true then (store, output.append { limits := sources.claudeLimits })
  else (store, output)

def runPass (run : UsageDatabase × List AdapterOutput) (pass : Pass) : UsageDatabase × List AdapterOutput :=
  let (db, outputs) := run
  if db.enabled pass.provider && db.consent pass.provider .credentials then
    let (store, output) := collectSources host sources pass db.toUsageStore
    ({ db with toUsageStore := store }, outputs ++ [output])
  else (db, outputs)

def recordOutput (now : String) (db : UsageDatabase) (output : AdapterOutput) : UsageDatabase :=
  let db := { db with toUsageStore := db.toUsageStore.recordAll output.usage now }
  output.limits.foldl (fun db limit => (db.upsertLimit { limit with observedAt := now }).db) db

def collectProvidersSync (db : UsageDatabase) (collection : Collection) : UsageDatabase :=
  let (db, outputs) := collection.passes.foldl (runPass host sources) (db, [])
  if collection.completes then outputs.foldl (recordOutput collection.now) db else db

inductive UsageStep where
  | collect (collection : Collection)
  | setEnabled (provider : ProviderName) (enabled : Bool)
  | setConsent (provider : ProviderName) (kind : ConsentKind) (granted : Bool)
  | revoke (provider : ProviderName)

def UsageStep.perform (db : UsageDatabase) : UsageStep → UsageDatabase
  | .collect collection => collectProvidersSync host sources db collection
  | .setEnabled provider enabled => db.setEnabled provider enabled
  | .setConsent provider kind granted => db.setConsent provider kind granted
  | .revoke provider => db.revokeProvider provider

end Collect

end Runtime
