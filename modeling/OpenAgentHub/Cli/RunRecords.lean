import OpenAgentHub.Lib.Runs
import OpenAgentHub.Cli.Supervisor

namespace Cli.Supervisor

open Runtime

/-- `startManagedRun` after its first write: it spawns the worker and keeps the record to write the pid. -/
inductive Starter where
  | idle
  | spawned (record : RunRecord)
  | done

/-- What `executeAgentRun` returns. -/
structure RunResult where
  exitCode : Int
  timedOut : Bool
  inContainer : Bool
  provider : String
  model : String

/-- Where the worker is between its reads and writes of the record. `record` is its own copy,
    `current` what it has just read. -/
inductive Worker where
  | unborn
  | waiting (initial : RunRecord)
  | preparing (record : RunRecord)
  | failing (current : RunRecord)
  | allocating (base : RunRecord)
  | executing (record : RunRecord)
  | polled (record current : RunRecord) (containerId : String)
  | probing (record : RunRecord) (result : RunResult)
  | probed (record current : RunRecord) (result : RunResult) (health : RunHealth)
  | concluding (record : RunRecord) (result : RunResult)
  | concluded (record current : RunRecord) (result : RunResult) (reason : ExitReason)
  | finalizing (record : RunRecord) (code : Int) (reason : ExitReason)
  | finalized (current : RunRecord) (code : Int) (reason : ExitReason)
  | finished
  | gone

/-- A `stopRun`. `sawFinished` tells whether the worker had finished when the stopper read the record. -/
inductive Stopper where
  | idle
  | read (record : RunRecord) (sawFinished : Bool)
  | signalling (record : RunRecord) (sawFinished : Bool)
  | settling
  | settled (current : RunRecord)

structure RunFile where
  file : Option RunRecord := none
  starter : Starter := .idle
  worker : Worker := .unborn
  stoppers : Nat → Stopper := fun _ => .idle
  reconcilers : Nat → Option RunRecord := fun _ => none

inductive RunStep where
  | startWrite (opts : ManagedRunOptions) (now : String)
  | pidWrite (pid : Option Nat)
  | workerRead
  | runningWrite
  | prepareFailed
  | failWrite (now : String)
  | prepared
  | portWrite (port : Nat)
  | pollRead (container : Option ContainerProbe)
  | pollWrite
  | executed (result : RunResult)
  | raised
  | signalled
  | healthRead (health : RunHealth)
  | healthWrite
  | concludeRead
  | modelWrite
  | finalRead
  | finalWrite (now : String)
  | workerDies
  | stopRead (client : Nat)
  | stopWrite (client : Nat)
  | revertWrite (client : Nat)
  | stopSent (client : Nat)
  | settleRead (client : Nat) (dead : Bool)
  | settleWrite (client : Nat) (now : String)
  | reconcileRead (client : Nat)
  | reconcileWrite (client : Nat) (probe : RunProbe) (now : String)

namespace RunFile

def write (board : RunFile) (record : RunRecord) : RunFile := { board with file := some record }

/-- `readRun(record.runId) ?? record`. -/
def current (board : RunFile) (record : RunRecord) : RunRecord := board.file.getD record

def setStopper (board : RunFile) (client : Nat) (stopper : Stopper) : RunFile :=
  { board with stoppers := Function.update board.stoppers client stopper }

def workerFinished (board : RunFile) : Bool :=
  match board.worker with
  | .finished => true
  | _ => false

end RunFile

section Worker

def failedRecord (current : RunRecord) (now : String) : RunRecord :=
  { current with
    state := .failed
    exitReason := some (if current.state = .stopping then .manualStop else .crashed)
    exitCode := some 1
    endedAt := some now }

def finalRecord (current : RunRecord) (code : Int) (reason : ExitReason) (now : String) : RunRecord :=
  { current with
    state := if reason = .manualStop then .exited else if code = 0 then .exited else .failed
    exitCode := some (if reason = .manualStop then 0 else code)
    exitReason := some reason
    endedAt := some now }

def concludedReason (current : RunRecord) (result : RunResult) : ExitReason :=
  if current.state = .stopping ∨ current.exitReason = some .manualStop then .manualStop
  else if result.timedOut then .timeout
  else if result.inContainer ∧ result.exitCode = 137 then .oom
  else .exit

/-- After the run: only an http run with a port is probed. -/
def afterRun (record : RunRecord) (result : RunResult) : Worker :=
  if record.interfaceName = .http ∧ record.port.any (· ≠ 0) then .probing record result else .concluding record result

def workerStep (board : RunFile) : RunStep → Option (Option RunRecord × Worker)
  | .workerRead =>
    match board.worker, board.starter, board.file with
    | .unborn, .idle, _ => none
    | .unborn, _, none => some (none, .gone)
    | .unborn, _, some initial => some (none, .waiting initial)
    | _, _, _ => none
  | .runningWrite =>
    match board.worker with
    | .waiting initial => some (some { initial with state := .running }, .preparing { initial with state := .running })
    | _ => none
  | .prepareFailed =>
    match board.worker with
    | .preparing record => some (none, .failing (board.current record))
    | _ => none
  | .failWrite now =>
    match board.worker with
    | .failing current => some (some (failedRecord current now), .finished)
    | _ => none
  | .prepared =>
    match board.worker with
    | .preparing record =>
      some (none, if record.interfaceName = .http ∧ record.port = none then .allocating (board.current record)
        else .executing record)
    | _ => none
  | .portWrite port =>
    match board.worker with
    | .allocating base => some (some { base with port := some port }, .executing { base with port := some port })
    | _ => none
  | .pollRead container =>
    match board.worker, container, board.file with
    | .executing record, some found, some current =>
      if record.sandbox = .container ∧ current.containerId ≠ some found.id then
        some (none, .polled record current found.id)
      else none
    | _, _, _ => none
  | .pollWrite =>
    match board.worker with
    | .polled record current containerId =>
      some (some { current with containerId := some containerId }, .executing record)
    | _ => none
  | .executed result =>
    match board.worker with
    | .executing record => some (none, afterRun record result)
    | _ => none
  | .raised =>
    match board.worker with
    | .executing record => some (none, .finalizing record 1 .crashed)
    | _ => none
  | .signalled =>
    -- the handlers run between the synchronous parts, and a worker of a container has none
    match board.worker with
    | .executing record | .probing record _ =>
      if record.sandbox = .container then none else some (none, .finalizing record 0 .manualStop)
    | _ => none
  | .healthRead health =>
    match board.worker with
    | .probing record result => some (none, .probed record (board.current record) result health)
    | _ => none
  | .healthWrite =>
    match board.worker with
    | .probed record current result health => some (some { current with health }, .concluding record result)
    | _ => none
  | .concludeRead =>
    match board.worker with
    | .concluding record result =>
      some (none, .concluded record (board.current record) result (concludedReason (board.current record) result))
    | _ => none
  | .modelWrite =>
    match board.worker with
    | .concluded record current result reason =>
      some (some { current with modelProvider := some result.provider, modelName := some result.model },
        .finalizing record result.exitCode reason)
    | _ => none
  | .finalRead =>
    match board.worker with
    | .finalizing record code reason => some (none, .finalized (board.current record) code reason)
    | _ => none
  | .finalWrite now =>
    match board.worker with
    | .finalized current code reason => some (some (finalRecord current code reason now), .finished)
    | _ => none
  | .workerDies =>
    match board.worker with
    | .unborn | .finished => none
    | _ => some (none, .gone)
  | _ => none

end Worker

section Others

def stoppedRecord (current : RunRecord) (now : String) : RunRecord :=
  { current with state := .exited, exitCode := some 0, exitReason := some .manualStop, endedAt := some now }

def stopStep (board : RunFile) (client : Nat) : RunStep → RunFile
  | .stopRead _ =>
    match board.stoppers client, board.file with
    | .idle, some record =>
      if runIsActive record then board.setStopper client (.read record board.workerFinished) else board
    | _, _ => board
  | .stopWrite _ =>
    match board.stoppers client with
    | .read record sawFinished =>
      (board.write { record with state := .stopping }).setStopper client
        (.signalling { record with state := .stopping } sawFinished)
    | _ => board
  | .revertWrite _ =>
    -- no container was found to stop
    match board.stoppers client with
    | .signalling record _ =>
      if record.sandbox = .container ∧ record.containerId = none then
        (board.write { record with state := .running }).setStopper client .idle
      else board
    | _ => board
  | .stopSent _ =>
    match board.stoppers client with
    | .signalling _ _ => board.setStopper client .settling
    | _ => board
  | .settleRead _ dead =>
    match board.stoppers client, board.file with
    | .settling, some current =>
      if current.state ≠ .stopping then board.setStopper client .idle
      else if dead then board.setStopper client (.settled current)
      else board
    | _, _ => board
  | .settleWrite _ now =>
    match board.stoppers client with
    | .settled current => (board.write (stoppedRecord current now)).setStopper client .idle
    | _ => board
  | _ => board

/-- A record is written only when its state has changed. -/
def reconcileWrite (board : RunFile) (client : Nat) (probe : RunProbe) (now : String) : RunFile :=
  match board.reconcilers client with
  | none => board
  | some record =>
    let next := reconcileRun record probe now
    let board := { board with reconcilers := Function.update board.reconcilers client none }
    if next.state ≠ record.state then board.write next else board

def RunFile.advance (board : RunFile) : Option (Option RunRecord × Worker) → RunFile
  | none => board
  | some (written, worker) => { board with worker, file := written.or board.file }

def execute (board : RunFile) (step : RunStep) : RunFile :=
  match step with
  | .startWrite opts now =>
    match board.starter with
    | .idle => { board.write (startingRecord opts now) with starter := .spawned (startingRecord opts now) }
    | _ => board
  | .pidWrite pid =>
    match board.starter with
    | .spawned record => { board.write { record with pid } with starter := .done }
    | _ => board
  | .stopRead client | .stopWrite client | .revertWrite client | .stopSent client | .settleRead client _
  | .settleWrite client _ => stopStep board client step
  | .reconcileRead client => { board with reconcilers := Function.update board.reconcilers client board.file }
  | .reconcileWrite client probe now => reconcileWrite board client probe now
  | _ => board.advance (workerStep board step)

end Others

section Monotone

/-- Once the worker has written its final state, the record is not active. -/
def Settled (board : RunFile) : Prop :=
  board.workerFinished = true → ∀ record ∈ board.file, runIsActive record = false

/-- The worker does not finish between what a party has read, or has written before,
    and its next write of an active record. -/
def NotOvertaken (board : RunFile) : RunStep → Prop
  | .pidWrite _ =>
    match board.starter with
    | .spawned _ => board.workerFinished = false
    | _ => True
  | .stopWrite client =>
    match board.stoppers client with
    | .read _ sawFinished => board.workerFinished = sawFinished
    | _ => True
  | .revertWrite client =>
    match board.stoppers client with
    | .signalling record sawFinished =>
      record.sandbox = .container ∧ record.containerId = none → board.workerFinished = sawFinished
    | _ => True
  | _ => True

def Stopper.sawFinished : Stopper → Bool
  | .read _ sawFinished | .signalling _ sawFinished => sawFinished
  | _ => false

structure Attentive (board : RunFile) : Prop where
  started : board.starter = .idle → board.worker = .unborn
  spawned : ∀ record, board.starter = .spawned record → record.state = .starting
  stoppers : ∀ client, (board.stoppers client).sawFinished = false

variable {board : RunFile} {step : RunStep} {record : RunRecord} {client : Nat} {written : Option RunRecord} {worker : Worker}

theorem workerFinished_iff : board.workerFinished = true ↔ board.worker = .finished := by
  unfold RunFile.workerFinished
  cases board.worker <;> simp

theorem settled_of_unfinished (unfinished : board.worker ≠ .finished) : Settled board :=
  fun finished => absurd (workerFinished_iff.mp finished) unfinished

theorem settled_write_iff : Settled (board.write record) ↔ (board.workerFinished = true → runIsActive record = false) := by
  constructor
  · exact fun settled finished => settled finished record rfl
  · intro inactive finished other isOther
    cases isOther
    exact inactive finished

/-- A record that another process writes as active is harmful exactly after the worker has finished. -/
theorem settled_active_write_iff (active : runIsActive record = true) :
    Settled (board.write record) ↔ board.workerFinished = false := by
  rw [settled_write_iff, active]
  simp

theorem workerStep_unstarted (idle : board.starter = .idle) (unborn : board.worker = .unborn) :
    workerStep board step = none := by
  cases step <;> simp [workerStep, idle, unborn]

theorem failedRecord_inactive (current : RunRecord) (now : String) : runIsActive (failedRecord current now) = false := rfl

theorem finalRecord_inactive (current : RunRecord) (code : Int) (reason : ExitReason) (now : String) :
    runIsActive (finalRecord current code reason now) = false := by
  have final : (finalRecord current code reason now).state = .exited ∨ (finalRecord current code reason now).state = .failed := by
    unfold finalRecord
    dsimp only
    split
    · exact .inl rfl
    split
    · exact .inl rfl
    · exact .inr rfl
  unfold runIsActive
  rcases final with isExited | isFailed
  · rw [isExited]
    rfl
  · rw [isFailed]
    rfl

theorem workerStep_final (stepped : workerStep board step = some (written, .finished)) :
    ∃ record, written = some record ∧ runIsActive record = false := by
  cases step with
  | failWrite now =>
    dsimp only [workerStep] at stepped
    split at stepped
    · cases stepped
      exact ⟨_, rfl, failedRecord_inactive _ now⟩
    · cases stepped
  | finalWrite now =>
    dsimp only [workerStep] at stepped
    split at stepped
    · cases stepped
      exact ⟨_, rfl, finalRecord_inactive _ _ _ now⟩
    · cases stepped
  | prepared =>
    dsimp only [workerStep] at stepped
    split at stepped
    · split at stepped <;> cases stepped
    · cases stepped
  | executed result =>
    dsimp only [workerStep] at stepped
    split at stepped
    · unfold afterRun at stepped
      split at stepped <;> cases stepped
    · cases stepped
  | _ =>
    dsimp only [workerStep] at stepped
    repeat' split at stepped
    all_goals cases stepped

theorem advance_settled (settled : Settled board) : Settled (board.advance (workerStep board step)) := by
  cases stepped : workerStep board step with
  | none => exact settled
  | some outcome =>
    obtain ⟨written, worker⟩ := outcome
    by_cases last : worker = .finished
    · subst last
      obtain ⟨record, rfl, inactive⟩ := workerStep_final stepped
      intro _ other isOther
      cases isOther
      exact inactive
    · exact settled_of_unfinished last

theorem advance_attentive (attentive : Attentive board) : Attentive (board.advance (workerStep board step)) := by
  cases stepped : workerStep board step with
  | none => exact attentive
  | some outcome =>
    refine ⟨fun idle => ?_, attentive.spawned, attentive.stoppers⟩
    have unstarted : workerStep board step = none := workerStep_unstarted idle (attentive.started idle)
    cases unstarted.symm.trans stepped

theorem setStopper_attentive {stopper : Stopper} (attentive : Attentive board) (unseen : stopper.sawFinished = false) :
    Attentive (board.setStopper client stopper) := by
  refine ⟨attentive.started, attentive.spawned, fun other => ?_⟩
  unfold RunFile.setStopper
  dsimp only
  by_cases same : other = client
  · rw [same, Function.update_self]
    exact unseen
  · rw [Function.update_of_ne same]
    exact attentive.stoppers other

theorem write_attentive (attentive : Attentive board) : Attentive (board.write record) :=
  ⟨attentive.started, attentive.spawned, attentive.stoppers⟩

theorem stopStep_attentive (client : Nat) (step : RunStep) (attentive : Attentive board) (settled : Settled board) :
    Attentive (stopStep board client step) := by
  have seen := attentive.stoppers client
  unfold stopStep
  split
  · split
    · rename_i record _ isRecord
      split
      · rename_i active
        apply setStopper_attentive attentive
        show board.workerFinished = false
        rw [← Bool.not_eq_true]
        intro finished
        rw [settled finished record isRecord] at active
        cases active
      · exact attentive
    · exact attentive
  · split
    · rename_i holds
      rw [holds] at seen
      exact setStopper_attentive (write_attentive attentive) seen
    · exact attentive
  · split
    · split
      · exact setStopper_attentive (write_attentive attentive) rfl
      · exact attentive
    · exact attentive
  · split
    · exact setStopper_attentive attentive rfl
    · exact attentive
  · split
    · split
      · exact setStopper_attentive attentive rfl
      split
      · exact setStopper_attentive attentive rfl
      · exact attentive
    · exact attentive
  · split
    · exact setStopper_attentive (write_attentive attentive) rfl
    · exact attentive
  · exact attentive

theorem reconcileWrite_attentive {probe : RunProbe} {now : String} (attentive : Attentive board) :
    Attentive (reconcileWrite board client probe now) := by
  unfold reconcileWrite
  split
  · exact attentive
  · dsimp only
    split
    · exact ⟨attentive.started, attentive.spawned, attentive.stoppers⟩
    · exact ⟨attentive.started, attentive.spawned, attentive.stoppers⟩

theorem execute_attentive (attentive : Attentive board) (settled : Settled board) : Attentive (execute board step) := by
  cases step with
  | startWrite opts now =>
    dsimp only [execute]
    split
    · refine ⟨fun isIdle => (nomatch isIdle), fun record isSpawned => ?_, attentive.stoppers⟩
      cases isSpawned
      rfl
    · exact attentive
  | pidWrite pid =>
    dsimp only [execute]
    split
    · exact ⟨fun isIdle => (nomatch isIdle), fun _ isSpawned => (nomatch isSpawned), attentive.stoppers⟩
    · exact attentive
  | stopRead client | stopWrite client | revertWrite client | stopSent client | settleRead client dead
  | settleWrite client now =>
    dsimp only [execute]
    exact stopStep_attentive client _ attentive settled
  | reconcileRead client => exact ⟨attentive.started, attentive.spawned, attentive.stoppers⟩
  | reconcileWrite client probe now => exact reconcileWrite_attentive attentive
  | _ => exact advance_attentive attentive

theorem reconcileWrite_settled {probe : RunProbe} {now : String} (settled : Settled board) :
    Settled (reconcileWrite board client probe now) := by
  unfold reconcileWrite
  split
  · exact settled
  · rename_i record _
    dsimp only
    split
    · rename_i changed
      have ended := (reconcileRun_state record probe now).resolve_left changed
      exact settled_write_iff.mpr fun _ => ended
    · exact settled

theorem execute_settled_iff (attentive : Attentive board) (settled : Settled board) :
    Settled (execute board step) ↔ NotOvertaken board step := by
  cases step with
  | startWrite opts now =>
    refine iff_of_true ?_ trivial
    dsimp only [execute]
    split
    · rename_i idle
      apply settled_of_unfinished
      show board.worker ≠ .finished
      rw [attentive.started idle]
      exact nofun
    · exact settled
  | pidWrite pid =>
    dsimp only [execute, NotOvertaken]
    cases started : board.starter with
    | spawned record =>
      have active : runIsActive { record with pid } = true := by
        show activeStates.contains record.state = true
        rw [attentive.spawned record started]
        rfl
      exact settled_active_write_iff active
    | idle | done => exact iff_of_true settled trivial
  | stopWrite client =>
    dsimp only [execute, stopStep, NotOvertaken]
    have seen := attentive.stoppers client
    cases holds : board.stoppers client with
    | read record sawFinished =>
      rw [holds] at seen
      rw [show sawFinished = false from seen]
      exact settled_active_write_iff rfl
    | idle | signalling | settling | settled => exact iff_of_true settled trivial
  | revertWrite client =>
    dsimp only [execute, stopStep, NotOvertaken]
    have seen := attentive.stoppers client
    cases holds : board.stoppers client with
    | signalling record sawFinished =>
      rw [holds] at seen
      rw [show sawFinished = false from seen]
      dsimp only
      split
      · rename_i missing
        rw [forall_prop_of_true missing]
        exact settled_active_write_iff rfl
      · rename_i present
        exact iff_of_true settled fun missing => absurd missing present
    | idle | read | settling | settled => exact iff_of_true settled trivial
  | settleWrite client now =>
    refine iff_of_true ?_ trivial
    dsimp only [execute, stopStep]
    split
    · exact settled_write_iff.mpr fun _ => rfl
    · exact settled
  | stopRead client | stopSent client | settleRead client dead =>
    refine iff_of_true ?_ trivial
    dsimp only [execute, stopStep]
    repeat' split
    all_goals exact settled
  | reconcileRead client => exact iff_of_true settled trivial
  | reconcileWrite client probe now => exact iff_of_true (reconcileWrite_settled settled) trivial
  | _ => exact iff_of_true (advance_settled settled) trivial

/-- For every order of reads and writes, a finished run stays finished exactly
    when no party is overtaken by the worker's last write. -/
theorem records_monotone_iff (steps : List RunStep) :
    Runs.Along execute Settled {} steps ↔ Runs.AllMeet execute NotOvertaken {} steps := by
  have attentive : Attentive {} := ⟨fun _ => rfl, fun _ isSpawned => (nomatch isSpawned), fun _ => rfl⟩
  have settled : Settled {} := settled_of_unfinished nofun
  exact Runs.along_iff_allMeet Attentive (fun _ _ attentive settled => execute_attentive attentive settled)
    (fun _ _ attentive settled => execute_settled_iff attentive settled) attentive settled

def weatherRun : ManagedRunOptions where
  runId := "r-mb2k9x1c-04f7aa"
  agentKey := "acme/weather@1.0.0"
  version := "1.0.0"
  interfaceName := .cli
  sandbox := .process

def overtaken : List RunStep :=
  [.startWrite weatherRun "2026-01-01T00:00:00.000Z", .pidWrite (some 4711), .workerRead, .runningWrite, .stopRead 0,
    .prepareFailed, .failWrite "2026-01-01T00:00:01.000Z", .stopWrite 0]

theorem stopper_revives_failed_run : ¬ Runs.Along execute Settled {} overtaken := by
  intro along
  have inactive := along.final rfl _ rfl
  cases inactive

end Monotone

end Cli.Supervisor
