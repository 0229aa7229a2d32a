import OpenAgentHub.Runtime.Launch

namespace Cli.Supervisor

open Runtime

inductive RunState where
  | starting | running | stopping | exited | failed | orphaned
  deriving DecidableEq, Repr

inductive RunHealth where
  | unknown | ok | unhealthy
  deriving DecidableEq, Repr

inductive ExitReason where
  | exit | signal | timeout | oom | manualStop | crashed | containerGone | supervisorGone
  deriving DecidableEq, Repr

inductive RestartPolicy where
  | none | always
  deriving DecidableEq, Repr

inductive Sandbox where
  | container | process | none
  deriving DecidableEq, Repr

/-- One file `<runId>.json`. Times are ISO texts. -/
structure RunRecord where
  runId : String
  agentKey : String
  version : String
  interfaceName : InterfaceName
  sandbox : Sandbox
  managed : Bool
  state : RunState
  pid : Option Nat := none
  containerId : Option String := none
  port : Option Nat := none
  health : RunHealth
  timeoutMs : Option Nat := none
  restartPolicy : RestartPolicy
  createdAt : String
  startedAt : String
  endedAt : Option String := none
  exitCode : Option Int := none
  exitReason : Option ExitReason := none
  digest : Option String := none
  modelProvider : Option String := none
  modelName : Option String := none
  deriving DecidableEq, Repr

def activeStates : List RunState := [.starting, .running, .stopping]

def runIsActive (record : RunRecord) : Bool := activeStates.contains record.state

structure ManagedRunOptions where
  runId : String
  agentKey : String
  version : String
  interfaceName : InterfaceName
  sandbox : Sandbox
  port : Option Nat := none
  timeoutMs : Option Nat := none
  restartPolicy : Option RestartPolicy := none
  digest : Option String := none

/-- The record `startManagedRun` writes before it spawns the worker. -/
def startingRecord (opts : ManagedRunOptions) (now : String) : RunRecord where
  runId := opts.runId
  agentKey := opts.agentKey
  version := opts.version
  interfaceName := opts.interfaceName
  sandbox := opts.sandbox
  managed := true
  state := .starting
  health := .unknown
  port := opts.port
  timeoutMs := opts.timeoutMs
  restartPolicy := opts.restartPolicy.getD .none
  createdAt := now
  startedAt := now
  digest := opts.digest

structure ContainerProbe where
  id : String
  running : Bool
  oomKilled : Bool
  deriving DecidableEq, Repr

structure RunProbe where
  isAlive : Nat → Bool
  groupAlive : Nat → Bool
  container : String → Option ContainerProbe

def exited (record : RunRecord) (now : String) (reason : ExitReason) : RunRecord :=
  { record with state := .exited, exitReason := some reason, endedAt := some now }

def reconcileRun (record : RunRecord) (probe : RunProbe) (now : String) : RunRecord :=
  if !runIsActive record then record
  else if record.sandbox = .container then
    match probe.container record.runId with
    | none => exited record now .containerGone
    | some found =>
      if !found.running then exited record now (if found.oomKilled then .oom else .signal)
      else { record with containerId := some found.id }
  else
    match record.pid with
    | none => exited record now .crashed
    | some pid =>
      let workerAlive := probe.isAlive pid
      if !workerAlive && !probe.groupAlive pid then exited record now .crashed
      else if !workerAlive then
        { record with state := .orphaned, exitReason := some .supervisorGone, endedAt := some now }
      else record

/-- A run is left as it is, or it has ended. -/
theorem reconcileRun_state (record : RunRecord) (probe : RunProbe) (now : String) :
    (reconcileRun record probe now).state = record.state ∨ runIsActive (reconcileRun record probe now) = false := by
  unfold reconcileRun
  split
  · exact .inl rfl
  split
  · split
    · exact .inr rfl
    · split
      · exact .inr rfl
      · exact .inl rfl
  · split
    · exact .inr rfl
    · dsimp only
      split
      · exact .inr rfl
      split
      · exact .inr rfl
      · exact .inl rfl

end Cli.Supervisor
