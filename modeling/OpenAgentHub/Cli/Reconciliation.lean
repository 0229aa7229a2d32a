import OpenAgentHub.Cli.Supervisor

namespace Cli.Supervisor

/-- What the docker calls print, `none` where a call fails or times out. -/
structure DockerCalls where
  ps : String → Option (List String)
  inspectRunning : String → Option Bool
  inspectOomKilled : String → Option Bool

def dockerContainerByRunId (docker : DockerCalls) (runId : String) : Option ContainerProbe := do
  let listed ← docker.ps runId
  let id ← listed.head?.filter (· ≠ "")
  return { id, running := (docker.inspectRunning id).getD false, oomKilled := (docker.inspectOomKilled id).getD false }

inductive ContainerState where
  | notCreated | running | stopped (oomKilled : Bool) | removed
  deriving DecidableEq, Repr

structure World where
  workerPid : Nat
  alive : Nat → Bool
  groupAlive : Nat → Bool
  containerId : String
  named : containerId ≠ ""
  container : ContainerState
  psAnswers : Bool
  inspectRunningAnswers : Bool
  inspectOomKilledAnswers : Bool

namespace World

def listed (world : World) : List String :=
  match world.container with
  | .running | .stopped _ => [world.containerId]
  | .notCreated | .removed => []

def docker (world : World) : DockerCalls where
  ps _ := if world.psAnswers then some world.listed else none
  inspectRunning _ := if world.inspectRunningAnswers then some (world.container = .running) else none
  inspectOomKilled _ := if world.inspectOomKilledAnswers then some (world.container = .stopped true) else none

/-- `defaultProbe`. -/
def probe (world : World) : RunProbe where
  isAlive := world.alive
  groupAlive := world.groupAlive
  container := dockerContainerByRunId world.docker

def workerOrGroup (world : World) : Bool := world.alive world.workerPid || world.groupAlive world.workerPid

/-- Only a run in a container has one. -/
def containerAlive (world : World) (record : RunRecord) : Bool :=
  record.sandbox == .container && world.container == .running

def live (world : World) (record : RunRecord) : Bool := world.workerOrGroup || world.containerAlive record

end World

def Evident (record : RunRecord) (world : World) : Prop :=
  (if record.sandbox = .container then
      world.container = .running ∧ world.psAnswers = true ∧ world.inspectRunningAnswers = true
    else record.pid.isSome = true) ∨ world.live record = false

variable {record : RunRecord} {world : World} {now : String}

theorem dockerContainer_running (runId : String) :
    (∃ found, dockerContainerByRunId world.docker runId = some found ∧ found.running = true) ↔
      world.container = .running ∧ world.psAnswers = true ∧ world.inspectRunningAnswers = true := by
  unfold dockerContainerByRunId World.docker World.listed
  cases world.container <;> cases world.psAnswers <;> cases world.inspectRunningAnswers <;>
    simp [world.named, Option.filter]

theorem active_not_exited (active : runIsActive record = true) : record.state ≠ .exited := by
  intro isExited
  unfold runIsActive at active
  rw [isExited] at active
  cases active

/-- A run in a container is buried unless docker shows its container running. -/
theorem reconcileRun_container (active : runIsActive record = true) (inContainer : record.sandbox = .container) :
    (reconcileRun record world.probe now).state = .exited ↔
      ¬ (world.container = .running ∧ world.psAnswers = true ∧ world.inspectRunningAnswers = true) := by
  rw [← dockerContainer_running record.runId]
  have notExited := active_not_exited active
  have probed : world.probe.container record.runId = dockerContainerByRunId world.docker record.runId := rfl
  unfold reconcileRun
  rw [active, if_neg (by decide), if_pos inContainer, ← probed]
  cases world.probe.container record.runId with
  | none => simp [exited]
  | some found =>
    cases running : found.running with
    | true => simp [running, notExited]
    | false => simp [running, exited]

/-- Any other run is buried when no pid is known, or neither the process nor its group is alive. -/
theorem reconcileRun_process (active : runIsActive record = true) (outside : record.sandbox ≠ .container) :
    (reconcileRun record world.probe now).state = .exited ↔
      ∀ pid ∈ record.pid, world.alive pid = false ∧ world.groupAlive pid = false := by
  have notExited := active_not_exited active
  unfold reconcileRun
  rw [active, if_neg (by decide), if_neg outside]
  cases record.pid with
  | none => simp [exited]
  | some pid =>
    have isAlive : world.probe.isAlive pid = world.alive pid := rfl
    have groupAlive : world.probe.groupAlive pid = world.groupAlive pid := rfl
    dsimp only
    rw [isAlive, groupAlive]
    cases worker : world.alive pid with
    | true => simp [notExited, worker]
    | false =>
      cases group : world.groupAlive pid with
      | true => simp [group]
      | false => simp [exited, worker, group]

/-- Only a dead run is moved to `exited` exactly when the evidence is sufficient. -/
theorem buries_only_the_dead_iff (active : runIsActive record = true) (ownPid : ∀ pid ∈ record.pid, pid = world.workerPid) :
    ((reconcileRun record world.probe now).state = .exited → world.live record = false) ↔ Evident record world := by
  unfold Evident
  by_cases inContainer : record.sandbox = .container
  · rw [reconcileRun_container active inContainer, if_pos inContainer]
    tauto
  · rw [reconcileRun_process active inContainer, if_neg inContainer]
    cases recorded : record.pid with
    | none => simp
    | some pid =>
      refine iff_of_true (fun dead => ?_) (.inl rfl)
      obtain ⟨worker, group⟩ := dead pid rfl
      rw [ownPid pid recorded] at worker group
      simp [World.live, World.workerOrGroup, World.containerAlive, worker, group, inContainer]

def weatherRecord : RunRecord where
  runId := "r-mb2k9x1c-04f7aa"
  agentKey := "acme/weather@1.0.0"
  version := "1.0.0"
  interfaceName := .cli
  sandbox := .container
  managed := true
  state := .starting
  health := .unknown
  restartPolicy := .none
  createdAt := "2026-01-01T00:00:00.000Z"
  startedAt := "2026-01-01T00:00:00.000Z"

def startingUp : World where
  workerPid := 4711
  alive pid := pid == 4711
  groupAlive pid := pid == 4711
  containerId := "3f4e1c2d9a7b"
  named := by decide
  container := .notCreated
  psAnswers := true
  inspectRunningAnswers := true
  inspectOomKilledAnswers := true

theorem running_container_spared :
    runIsActive weatherRecord = true ∧
      ((reconcileRun weatherRecord { startingUp with container := .running }.probe "2026-01-01T00:00:01.000Z").state = .exited →
        World.live { startingUp with container := .running } weatherRecord = false) :=
  ⟨rfl, (buries_only_the_dead_iff rfl (fun _ recorded => by cases recorded)).mpr (.inl ⟨rfl, rfl, rfl⟩)⟩

/-- A live worker whose container is not there yet. -/
theorem starting_run_buried :
    runIsActive weatherRecord = true ∧ (∀ pid ∈ weatherRecord.pid, pid = startingUp.workerPid) ∧
      (reconcileRun weatherRecord startingUp.probe "2026-01-01T00:00:01.000Z").state = .exited ∧
      startingUp.live weatherRecord = true :=
  ⟨rfl, (fun _ recorded => by cases recorded), rfl, rfl⟩

end Cli.Supervisor
