import OpenAgentHub.Lib.Distinct
import Mathlib.Algebra.Order.Ring.Rat

namespace Sqlite

/-- The variables that one statement may bind. -/
def maxVariables : Nat := 32766

/-- A number as an `OFFSET`; SQLite refuses what is no whole number of 64 bits. -/
def offset (number : Rat) : Option Nat := if number.isInt ∧ number < 2 ^ 63 then some number.num.toNat else none

/-- A stored count that `node:sqlite` reads: an `INTEGER` above 2^53 - 1 makes it throw, and what needs more than 64 bits
    is stored as a `REAL`. -/
def readable (count : Int) : Bool := decide (count.natAbs < 2 ^ 53) || decide (2 ^ 63 ≤ count.natAbs)

end Sqlite

namespace Runtime

inductive ProviderName where
  | claude | codex | opencode
  deriving DecidableEq, Repr

structure UsageObservation where
  provider : ProviderName
  source : String
  sessionId : Option String := none
  model : Option String := none
  tokensIn : Int
  tokensOut : Int
  cacheRead : Option Int := none
  cacheWrite : Option Int := none
  costExact : Option Rat := none
  costEstimated : Option Rat := none
  occurredAt : String
  eventKey : String
  deriving DecidableEq, Repr

structure ExternalUsageRow where
  provider : ProviderName
  source : String
  sessionId : Option String
  model : Option String
  tokensIn : Int
  tokensOut : Int
  cacheRead : Int
  cacheWrite : Int
  costExact : Option Rat
  costEstimated : Option Rat
  occurredAt : String
  eventKey : String
  ingestedAt : String
  deriving DecidableEq, Repr

structure SourceCursor where
  size : Nat
  mtimeMs : Int
  offset : Nat
  deriving DecidableEq, Repr

structure CodexTotal where
  lastInput : Int
  lastOutput : Int
  deriving DecidableEq, Repr

abbrev ModelTotals := String → Option CodexTotal

structure UsageStore where
  externalUsage : List ExternalUsageRow := []
  sourceCursors : String → Option SourceCursor := fun _ => none
  codexTotals : String → ModelTotals := fun _ _ => none

def UsageObservation.row (obs : UsageObservation) (ingestedAt : String) : ExternalUsageRow where
  provider := obs.provider
  source := obs.source
  sessionId := obs.sessionId
  model := obs.model
  tokensIn := obs.tokensIn
  tokensOut := obs.tokensOut
  cacheRead := obs.cacheRead.getD 0
  cacheWrite := obs.cacheWrite.getD 0
  costExact := obs.costExact
  costEstimated := obs.costEstimated
  occurredAt := obs.occurredAt
  eventKey := obs.eventKey
  ingestedAt := ingestedAt

namespace ExternalUsageRow

/-- `UNIQUE (provider, source, event_key)` -/
def clashes (old new : ExternalUsageRow) : Bool :=
  old.provider == new.provider && old.source == new.source && old.eventKey == new.eventKey

def ofSource (provider : ProviderName) (source : String) (row : ExternalUsageRow) : Bool :=
  row.provider == provider && row.source == source

def facts (row : ExternalUsageRow) : ExternalUsageRow := { row with occurredAt := "", eventKey := "", ingestedAt := "" }

end ExternalUsageRow

namespace UsageStore

/-- `INSERT OR IGNORE`, and whether the row was new. -/
def recordExternal (store : UsageStore) (obs : UsageObservation) (now : String) : UsageStore × Bool :=
  let rows := Distinct.enter ExternalUsageRow.clashes store.externalUsage (obs.row now)
  ({ store with externalUsage := rows }, decide (store.externalUsage.length < rows.length))

def hasExternal (store : UsageStore) (provider : ProviderName) (source eventKey : String) : Bool :=
  store.externalUsage.any fun row => row.provider == provider && row.source == source && row.eventKey == eventKey

def setSourceCursor (store : UsageStore) (source : String) (cursor : SourceCursor) : UsageStore :=
  { store with sourceCursors := Function.update store.sourceCursors source (some cursor) }

def setModelTotals (store : UsageStore) (source : String) (totals : ModelTotals) : UsageStore :=
  { store with codexTotals := Function.update store.codexTotals source totals }

/-- The error is the one of `node:sqlite`. -/
def getCodexTotal (totals : ModelTotals) (model : String) : Except Unit (Option CodexTotal) :=
  match totals model with
  | none => .ok none
  | some total =>
    if Sqlite.readable total.lastInput && Sqlite.readable total.lastOutput then .ok (some total) else .error ()

def rowsOf (store : UsageStore) (provider : ProviderName) (source : String) : List ExternalUsageRow :=
  store.externalUsage.filter (ExternalUsageRow.ofSource provider source)

def recordAll (store : UsageStore) (usage : List UsageObservation) (now : String) : UsageStore :=
  usage.foldl (fun store obs => (store.recordExternal obs now).1) store

end UsageStore

theorem any_clashes (rows : List ExternalUsageRow) (row : ExternalUsageRow) :
    rows.any (ExternalUsageRow.clashes · row) =
      (rows.filter (ExternalUsageRow.ofSource row.provider row.source)).any (ExternalUsageRow.clashes · row) := by
  rw [List.any_filter]
  congr 1
  funext old
  simp only [ExternalUsageRow.clashes, ExternalUsageRow.ofSource]
  cases old.provider == row.provider <;> cases old.source == row.source <;> simp

theorem rowsOf_recordExternal {store : UsageStore} {obs : UsageObservation} {now : String} :
    (store.recordExternal obs now).1.rowsOf obs.provider obs.source =
      Distinct.enter ExternalUsageRow.clashes (store.rowsOf obs.provider obs.source) (obs.row now) := by
  have mine : ExternalUsageRow.ofSource obs.provider obs.source (obs.row now) = true := by
    simp [ExternalUsageRow.ofSource, UsageObservation.row]
  have seen : store.externalUsage.any (ExternalUsageRow.clashes · (obs.row now)) =
      (store.rowsOf obs.provider obs.source).any (ExternalUsageRow.clashes · (obs.row now)) := any_clashes _ _
  unfold UsageStore.recordExternal Distinct.enter
  dsimp only
  rw [seen]
  split
  · rfl
  · simp [UsageStore.rowsOf, mine]

theorem rowsOf_recordAll {provider : ProviderName} {source now : String} {usage : List UsageObservation} :
    ∀ {store : UsageStore}, (∀ obs ∈ usage, obs.provider = provider ∧ obs.source = source) →
    (store.recordAll usage now).rowsOf provider source =
      Distinct.enterAll ExternalUsageRow.clashes (store.rowsOf provider source) (usage.map (·.row now)) := by
  induction usage with
  | nil => exact fun _ => rfl
  | cons obs rest step =>
    intro store mine
    obtain ⟨rfl, rfl⟩ := mine obs List.mem_cons_self
    have later := @step (store.recordExternal obs now).1 fun other member => mine other (List.mem_cons_of_mem _ member)
    rw [List.map_cons, Distinct.enterAll_cons, ← rowsOf_recordExternal]
    exact later

theorem recordAll_rows {usage : List UsageObservation} {now : String} : ∀ {store : UsageStore},
    (store.recordAll usage now).externalUsage =
      Distinct.enterAll ExternalUsageRow.clashes store.externalUsage (usage.map (·.row now)) := by
  induction usage with
  | nil => exact fun {_} => rfl
  | cons obs rest step =>
    intro store
    exact @step (store.recordExternal obs now).1

theorem recordAll_frame {usage : List UsageObservation} {now : String} : ∀ {store : UsageStore},
    (store.recordAll usage now).sourceCursors = store.sourceCursors ∧
      (store.recordAll usage now).codexTotals = store.codexTotals := by
  induction usage with
  | nil => exact fun {_} => ⟨rfl, rfl⟩
  | cons obs rest step =>
    intro store
    exact @step (store.recordExternal obs now).1

theorem hasExternal_eq {store : UsageStore} {obs : UsageObservation} {now : String} :
    store.hasExternal obs.provider obs.source obs.eventKey =
      (store.rowsOf obs.provider obs.source).any (ExternalUsageRow.clashes · (obs.row now)) :=
  any_clashes store.externalUsage (obs.row now)

end Runtime
