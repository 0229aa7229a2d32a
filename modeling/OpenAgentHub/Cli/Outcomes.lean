import OpenAgentHub.Cli.Reconciliation
import OpenAgentHub.Cli.RunRecords
import OpenAgentHub.Runtime.RunOutcomes

namespace Cli.Supervisor

open Runtime

def RunState.text : RunState → String
  | .starting => "starting"
  | .running => "running"
  | .stopping => "stopping"
  | .exited => "exited"
  | .failed => "failed"
  | .orphaned => "orphaned"

def RunHealth.text : RunHealth → String
  | .unknown => "unknown"
  | .ok => "ok"
  | .unhealthy => "unhealthy"

def ExitReason.text : ExitReason → String
  | .exit => "exit"
  | .signal => "signal"
  | .timeout => "timeout"
  | .oom => "oom"
  | .manualStop => "manual-stop"
  | .crashed => "crashed"
  | .containerGone => "container-gone"
  | .supervisorGone => "supervisor-gone"

def Sandbox.text : Sandbox → String
  | .container => "container"
  | .process => "process"
  | .none => "none"

def interfaceText : InterfaceName → String
  | .cli => "cli"
  | .mcp => "mcp"
  | .http => "http"

def toRunFacts (record : RunRecord) : RunFacts where
  runId := record.runId
  agentKey := record.agentKey
  version := record.version
  interfaceName := interfaceText record.interfaceName
  sandbox := record.sandbox.text
  state := record.state.text
  health := record.health.text
  exitCode := record.exitCode
  exitReason := record.exitReason.map ExitReason.text
  containerId := record.containerId
  createdAt := record.createdAt
  startedAt := record.startedAt
  endedAt := record.endedAt
  modelProvider := record.modelProvider
  modelName := record.modelName

def written (board : RunFile) (step : RunStep) : Option RunRecord :=
  match step with
  | .startWrite opts now =>
    match board.starter with
    | .idle => some (startingRecord opts now)
    | _ => none
  | .pidWrite pid =>
    match board.starter with
    | .spawned record => some { record with pid }
    | _ => none
  | .stopWrite client =>
    match board.stoppers client with
    | .read record _ => some { record with state := .stopping }
    | _ => none
  | .revertWrite client =>
    match board.stoppers client with
    | .signalling record _ =>
      if record.sandbox = .container ∧ record.containerId = none then some { record with state := .running } else none
    | _ => none
  | .settleWrite client now =>
    match board.stoppers client with
    | .settled current => some (stoppedRecord current now)
    | _ => none
  | .reconcileWrite client probe now =>
    match board.reconcilers client with
    | some record => some (reconcileRun record probe now) |>.filter (·.state ≠ record.state)
    | none => none
  | .stopRead _ | .stopSent _ | .settleRead _ _ | .reconcileRead _ => none
  | _ => (workerStep board step).bind Prod.fst

theorem execute_file {board : RunFile} {step : RunStep} :
    (execute board step).file = (written board step).or board.file := by
  cases step with
  | startWrite opts now | pidWrite pid =>
    dsimp only [execute, written]
    cases board.starter <;> rfl
  | stopWrite client | stopSent client | settleWrite client now =>
    dsimp only [execute, stopStep, written]
    cases board.stoppers client <;> rfl
  | stopRead client | settleRead client dead =>
    dsimp only [execute, stopStep, written]
    repeat' split
    all_goals rfl
  | revertWrite client =>
    dsimp only [execute, stopStep, written]
    cases board.stoppers client with
    | signalling record sawFinished =>
      dsimp only
      split <;> rfl
    | idle | read | settling | settled => rfl
  | reconcileRead client => rfl
  | reconcileWrite client probe now =>
    dsimp only [execute, reconcileWrite, written]
    cases board.reconcilers client with
    | none => rfl
    | some record =>
      by_cases changed : (reconcileRun record probe now).state = record.state <;> simp [RunFile.write, changed, Option.filter]
  | _ =>
    dsimp only [execute, written]
    generalize workerStep board _ = outcome
    cases outcome <;> rfl

structure Supervision where
  files : String → RunFile := fun _ => {}
  db : UsageDatabase := {}

def RunStep.about (runId : String) : RunStep → RunStep
  | .startWrite opts now => .startWrite { opts with runId } now
  | step => step

/-- A step of one run; `writeRun` ends with `syncRun`. -/
def Supervision.perform (system : Supervision) (act : String × RunStep) : Supervision where
  files := Function.update system.files act.1 (execute (system.files act.1) (act.2.about act.1))
  db :=
    match written (system.files act.1) (act.2.about act.1) with
    | some record => (system.db.syncRun (toRunFacts record)).db
    | none => system.db

section Fairness

def failing : List ExitReason := [.crashed, .oom, .containerGone, .signal, .timeout]

def Fair (record : RunRecord) : Prop :=
  runIsActive record = false → ∀ reason ∈ record.exitReason, reason ∈ failing → record.state = .failed

def FitEnding (code : Int) (reason : ExitReason) : Prop := reason ∈ failing → reason = .timeout ∨ code ≠ 0

def Worker.Sound : Worker → Prop
  | .unborn | .finished | .gone => True
  | .waiting record | .preparing record | .failing record | .allocating record | .executing record | .probing record _
  | .concluding record _ => Fair record
  | .polled record current _ | .probed record current _ _ => Fair record ∧ Fair current
  | .concluded record current result reason => Fair record ∧ Fair current ∧ FitEnding result.exitCode reason
  | .finalizing record code reason | .finalized record code reason => Fair record ∧ FitEnding code reason

structure Held (board : RunFile) : Prop where
  file : ∀ record ∈ board.file, Fair record
  worker : board.worker.Sound
  spawned : ∀ record, board.starter = .spawned record → runIsActive record = true

def Buried (record : RunRecord) (probe : RunProbe) : Prop :=
  runIsActive record = true ∧
    if record.sandbox = .container then ∀ found, probe.container record.runId = some found → found.running = false
    else ∀ pid, record.pid = some pid → probe.isAlive pid = false ∧ probe.groupAlive pid = false

/-- The reconciler ends no run, and no run that has timed out ends with the exit code 0. -/
def Candid (board : RunFile) : RunStep → Prop
  | .reconcileWrite client probe _ => ∀ record, board.reconcilers client = some record → ¬ Buried record probe
  | .finalWrite _ => ∀ current code reason, board.worker = .finalized current code reason → ¬ (reason = .timeout ∧ code = 0)
  | _ => True

variable {board : RunFile} {step : RunStep} {record other : RunRecord} {probe : RunProbe} {now : String}
  {saved : Option RunRecord} {worker : Worker}

theorem fair_iff : Fair record ↔
    ((toRunFacts record).EndedBadly → (toRunFacts record).state = "failed") := by
  have inactive : active record.state.text = runIsActive record := by
    unfold runIsActive
    cases record.state <;> rfl
  have failed : record.state.text = "failed" ↔ record.state = .failed := by cases record.state <;> decide
  have bad : ∀ reason : ExitReason, reason.text ∈ failingReasons ↔ reason ∈ failing := by
    intro reason
    cases reason <;> decide
  simp only [Fair, RunRow.EndedBadly, toRunFacts, inactive, failed, Option.mem_def, Option.map_eq_some_iff, and_imp]
  constructor
  · rintro fair ended ⟨_, ⟨reason, isReason, rfl⟩, isBad⟩
    exact fair ended reason isReason ((bad reason).mp isBad)
  · intro fair ended reason isReason isBad
    exact fair ended ⟨reason.text, ⟨reason, isReason, rfl⟩, (bad reason).mpr isBad⟩

theorem fair_of_active (active : runIsActive record = true) : Fair record := by
  intro inactive
  rw [active] at inactive
  cases inactive

theorem fair_of_failed (failed : record.state = .failed) : Fair record := fun _ _ _ _ => failed

theorem Fair.congr (fair : Fair record) (state : other.state = record.state) (reason : other.exitReason = record.exitReason) :
    Fair other := by
  unfold Fair runIsActive at *
  rw [state, reason]
  exact fair

theorem Held.current (held : Held board) (fair : Fair record) : Fair (board.current record) := by
  unfold RunFile.current
  cases onFile : board.file with
  | none => exact fair
  | some found => exact held.file found onFile

theorem concluded_fits (current : RunRecord) (result : RunResult) :
    FitEnding result.exitCode (concludedReason current result) := by
  unfold concludedReason
  split
  · exact fun bad => absurd bad (by decide)
  split
  · exact fun _ => .inl rfl
  split
  · rename_i killed
    refine fun _ => .inr ?_
    rw [killed.2]
    decide
  · exact fun bad => absurd bad (by decide)

theorem finalRecord_fair_iff {code : Int} {reason : ExitReason} (fits : FitEnding code reason) :
    Fair (finalRecord record code reason now) ↔ ¬ (reason = .timeout ∧ code = 0) := by
  constructor
  · rintro fair ⟨rfl, rfl⟩
    have failed := fair rfl .timeout rfl (by decide)
    cases failed
  · intro candid _ other isReason bad
    obtain rfl : reason = other := Option.some.inj isReason
    have manual : reason ≠ .manualStop := by
      rintro rfl
      exact absurd bad (by decide)
    have nonzero : code ≠ 0 := by
      intro zero
      obtain isTimeout | other := fits bad
      · exact candid ⟨isTimeout, zero⟩
      · exact other zero
    simp [finalRecord, manual, nonzero]

theorem reconcileRun_buried (buried : Buried record probe) :
    ∃ reason ∈ failing, reconcileRun record probe now = exited record now reason := by
  obtain ⟨active, evidence⟩ := buried
  unfold reconcileRun
  rw [active, if_neg (by decide)]
  split
  · rename_i inContainer
    rw [if_pos inContainer] at evidence
    split
    · exact ⟨.containerGone, by decide, rfl⟩
    · rename_i found isFound
      rw [if_pos (by rw [evidence found isFound]; rfl)]
      cases found.oomKilled
      · exact ⟨.signal, by decide, rfl⟩
      · exact ⟨.oom, by decide, rfl⟩
  · rename_i outside
    rw [if_neg outside] at evidence
    split
    · exact ⟨.crashed, by decide, rfl⟩
    · rename_i pid isPid
      obtain ⟨worker, group⟩ := evidence pid isPid
      rw [worker, group]
      exact ⟨.crashed, by decide, rfl⟩

theorem reconcileRun_spared (spared : ¬ Buried record probe) (changed : (reconcileRun record probe now).state ≠ record.state) :
    Fair (reconcileRun record probe now) := by
  cases active : runIsActive record with
  | false =>
    rw [reconcileRun, active] at changed
    exact absurd rfl changed
  | true =>
    unfold Buried at spared
    unfold reconcileRun at changed ⊢
    rw [active, if_neg (by decide)] at changed ⊢
    simp only [active, true_and] at spared
    by_cases inContainer : record.sandbox = .container
    · rw [if_pos inContainer] at changed spared ⊢
      cases probed : probe.container record.runId with
      | none => exact absurd (fun _ isFound => nomatch probed.symm.trans isFound) spared
      | some found =>
        cases running : found.running with
        | false =>
          refine absurd (fun other isFound => ?_) spared
          rw [← Option.some.inj (probed.symm.trans isFound), running]
        | true => simp [probed, running] at changed
    · rw [if_neg inContainer] at changed spared ⊢
      cases recorded : record.pid with
      | none => exact absurd (fun _ isPid => nomatch recorded.symm.trans isPid) spared
      | some pid =>
        cases worker : probe.isAlive pid with
        | true => simp [recorded, worker] at changed
        | false =>
          cases group : probe.groupAlive pid with
          | false =>
            refine absurd (fun other isPid => ?_) spared
            rw [← Option.some.inj (recorded.symm.trans isPid)]
            exact ⟨worker, group⟩
          | true =>
            simp only [worker, group, Bool.not_false, Bool.not_true, Bool.and_false, Bool.false_eq_true, if_false, if_true]
            intro _ reason isReason bad
            cases isReason
            exact absurd bad (by decide)

/-- What the worker keeps is from the file, or it has written it. -/
theorem workerStep_sound (held : Held board) (stepped : workerStep board step = some (saved, worker))
    (fair : ∀ record ∈ saved, Fair record) : worker.Sound := by
  have sound := held.worker
  cases step with
  | workerRead =>
    dsimp only [workerStep] at stepped
    split at stepped
    · cases stepped
    · cases stepped
      trivial
    · rename_i initial _ onFile _
      cases stepped
      exact held.file initial onFile
    · cases stepped
  | runningWrite =>
    dsimp only [workerStep] at stepped
    split at stepped
    · cases stepped
      exact fair _ rfl
    · cases stepped
  | prepareFailed =>
    dsimp only [workerStep] at stepped
    split at stepped
    · rename_i record working
      cases stepped
      rw [working] at sound
      exact held.current sound
    · cases stepped
  | failWrite now | finalWrite now =>
    dsimp only [workerStep] at stepped
    split at stepped <;> cases stepped
    trivial
  | prepared =>
    dsimp only [workerStep] at stepped
    split at stepped
    · rename_i record working
      cases stepped
      rw [working] at sound
      split
      · exact held.current sound
      · exact sound
    · cases stepped
  | portWrite port =>
    dsimp only [workerStep] at stepped
    split at stepped
    · cases stepped
      exact fair _ rfl
    · cases stepped
  | pollRead container =>
    dsimp only [workerStep] at stepped
    split at stepped
    · rename_i record found current working onFile
      split at stepped
      · cases stepped
        rw [working] at sound
        exact ⟨sound, held.file current onFile⟩
      · cases stepped
    · cases stepped
  | pollWrite =>
    dsimp only [workerStep] at stepped
    split at stepped
    · rename_i record current containerId working
      cases stepped
      rw [working] at sound
      exact sound.1
    · cases stepped
  | executed result =>
    dsimp only [workerStep] at stepped
    split at stepped
    · rename_i record working
      cases stepped
      rw [working] at sound
      unfold afterRun
      split <;> exact sound
    · cases stepped
  | raised =>
    dsimp only [workerStep] at stepped
    split at stepped
    · rename_i record working
      cases stepped
      rw [working] at sound
      exact ⟨sound, fun _ => .inr (by decide)⟩
    · cases stepped
  | signalled =>
    have manual : FitEnding 0 .manualStop := fun bad => absurd bad (by decide)
    dsimp only [workerStep] at stepped
    split at stepped
    · rename_i record working
      rw [working] at sound
      split at stepped <;> cases stepped
      exact ⟨sound, manual⟩
    · rename_i record result working
      rw [working] at sound
      split at stepped <;> cases stepped
      exact ⟨sound, manual⟩
    · cases stepped
  | healthRead health =>
    dsimp only [workerStep] at stepped
    split at stepped
    · rename_i record result working
      cases stepped
      rw [working] at sound
      exact ⟨sound, held.current sound⟩
    · cases stepped
  | healthWrite =>
    dsimp only [workerStep] at stepped
    split at stepped
    · rename_i record current result health working
      cases stepped
      rw [working] at sound
      exact sound.1
    · cases stepped
  | concludeRead =>
    dsimp only [workerStep] at stepped
    split at stepped
    · rename_i record result working
      cases stepped
      rw [working] at sound
      exact ⟨sound, held.current sound, concluded_fits _ _⟩
    · cases stepped
  | modelWrite =>
    dsimp only [workerStep] at stepped
    split at stepped
    · rename_i record current result reason working
      cases stepped
      rw [working] at sound
      exact ⟨sound.1, sound.2.2⟩
    · cases stepped
  | finalRead =>
    dsimp only [workerStep] at stepped
    split at stepped
    · rename_i record code reason working
      cases stepped
      rw [working] at sound
      exact ⟨held.current sound.1, sound.2⟩
    · cases stepped
  | workerDies =>
    dsimp only [workerStep] at stepped
    split at stepped <;> cases stepped
    trivial
  | _ => cases stepped

theorem stopStep_frame (client : Nat) : (stopStep board client step).worker = board.worker ∧
    (stopStep board client step).starter = board.starter := by
  unfold stopStep
  repeat' split
  all_goals exact ⟨rfl, rfl⟩

theorem reconcileWrite_frame (client : Nat) : (reconcileWrite board client probe now).worker = board.worker ∧
    (reconcileWrite board client probe now).starter = board.starter := by
  unfold reconcileWrite
  split
  · exact ⟨rfl, rfl⟩
  · dsimp only
    split <;> exact ⟨rfl, rfl⟩

theorem advance_held (held : Held board) (fair : ∀ record ∈ (workerStep board step).bind Prod.fst, Fair record)
    (file : ∀ record ∈ (board.advance (workerStep board step)).file, Fair record) :
    Held (board.advance (workerStep board step)) := by
  cases stepped : workerStep board step with
  | none => exact held
  | some outcome =>
    rw [stepped] at fair file
    exact ⟨file, workerStep_sound held stepped fair, held.spawned⟩

theorem held_execute (held : Held board) (fair : ∀ record ∈ written board step, Fair record) : Held (execute board step) := by
  have file : ∀ record ∈ (execute board step).file, Fair record := by
    intro record onFile
    rw [execute_file] at onFile
    obtain now | before := Option.or_eq_some_iff.mp onFile
    · exact fair record now
    · exact held.file record before.2
  have frame : (execute board step).worker = board.worker ∧ (execute board step).starter = board.starter →
      Held (execute board step) := by
    rintro ⟨worker, starter⟩
    refine ⟨file, ?_, ?_⟩
    · rw [worker]
      exact held.worker
    · rw [starter]
      exact held.spawned
  cases step with
  | startWrite opts now =>
    dsimp only [execute] at file ⊢
    cases started : board.starter with
    | idle =>
      rw [started] at file
      refine ⟨file, held.worker, fun record isSpawned => ?_⟩
      cases isSpawned
      rfl
    | spawned | done => exact held
  | pidWrite pid =>
    dsimp only [execute] at file ⊢
    cases started : board.starter with
    | spawned record =>
      rw [started] at file
      exact ⟨file, held.worker, fun _ isSpawned => (nomatch isSpawned)⟩
    | idle | done => exact held
  | stopRead client | stopWrite client | revertWrite client | stopSent client | settleRead client dead
  | settleWrite client now => exact frame (stopStep_frame client)
  | reconcileRead client => exact frame ⟨rfl, rfl⟩
  | reconcileWrite client probe now => exact frame (reconcileWrite_frame client)
  | _ => exact advance_held held fair file

theorem written_fair_iff (held : Held board) : (∀ record ∈ written board step, Fair record) ↔ Candid board step := by
  have sound := held.worker
  cases step with
  | startWrite opts now =>
    refine iff_of_true (fun record isWritten => ?_) trivial
    dsimp only [written] at isWritten
    split at isWritten <;> cases isWritten
    exact fair_of_active rfl
  | pidWrite pid =>
    refine iff_of_true (fun record isWritten => ?_) trivial
    dsimp only [written] at isWritten
    split at isWritten
    · rename_i starting started
      cases isWritten
      exact fair_of_active (held.spawned starting started)
    · cases isWritten
  | stopWrite client =>
    refine iff_of_true (fun record isWritten => ?_) trivial
    dsimp only [written] at isWritten
    split at isWritten <;> cases isWritten
    exact fair_of_active rfl
  | revertWrite client =>
    refine iff_of_true (fun record isWritten => ?_) trivial
    dsimp only [written] at isWritten
    split at isWritten
    · split at isWritten <;> cases isWritten
      exact fair_of_active rfl
    · cases isWritten
  | settleWrite client now =>
    refine iff_of_true (fun record isWritten => ?_) trivial
    dsimp only [written] at isWritten
    split at isWritten <;> cases isWritten
    intro _ reason isReason bad
    cases isReason
    exact absurd bad (by decide)
  | reconcileWrite client probe now =>
    dsimp only [written, Candid]
    cases copied : board.reconcilers client with
    | none => simp
    | some record =>
      simp only [Option.mem_def, Option.filter_eq_some_iff, Option.some.injEq, decide_eq_true_eq, forall_eq', and_imp]
      constructor
      · intro fair buried
        obtain ⟨reason, bad, ends⟩ := @reconcileRun_buried record probe now buried
        rw [ends] at fair
        have failed := fair (active_not_exited buried.1).symm rfl reason rfl bad
        cases failed
      · exact fun spared changed => reconcileRun_spared spared changed
  | finalWrite now =>
    dsimp only [written, workerStep, Candid]
    cases working : board.worker with
    | finalized current code reason =>
      rw [working] at sound
      simp [finalRecord_fair_iff sound.2]
    | _ => simp
  | runningWrite =>
    refine iff_of_true (fun record isWritten => ?_) trivial
    dsimp only [written, workerStep] at isWritten
    split at isWritten <;> cases isWritten
    exact fair_of_active rfl
  | failWrite now =>
    refine iff_of_true (fun record isWritten => ?_) trivial
    dsimp only [written, workerStep] at isWritten
    split at isWritten <;> cases isWritten
    exact fair_of_failed rfl
  | portWrite port =>
    refine iff_of_true (fun record isWritten => ?_) trivial
    dsimp only [written, workerStep] at isWritten
    split at isWritten
    · rename_i base working
      cases isWritten
      rw [working] at sound
      exact Fair.congr sound rfl rfl
    · cases isWritten
  | pollWrite =>
    refine iff_of_true (fun record isWritten => ?_) trivial
    dsimp only [written, workerStep] at isWritten
    split at isWritten
    · rename_i copy current containerId working
      cases isWritten
      rw [working] at sound
      exact sound.2.congr rfl rfl
    · cases isWritten
  | healthWrite =>
    refine iff_of_true (fun record isWritten => ?_) trivial
    dsimp only [written, workerStep] at isWritten
    split at isWritten
    · rename_i copy current result health working
      cases isWritten
      rw [working] at sound
      exact sound.2.congr rfl rfl
    · cases isWritten
  | modelWrite =>
    refine iff_of_true (fun record isWritten => ?_) trivial
    dsimp only [written, workerStep] at isWritten
    split at isWritten
    · rename_i copy current result reason working
      cases isWritten
      rw [working] at sound
      exact sound.2.1.congr rfl rfl
    · cases isWritten
  | _ =>
    refine iff_of_true (fun record isWritten => ?_) trivial
    dsimp only [written, workerStep] at isWritten
    repeat' split at isWritten
    all_goals cases isWritten

end Fairness

section Reporting

variable {host : StatsHost} {db : UsageDatabase} {record : RunRecord} {system : Supervision} {act : String × RunStep}

theorem reported_syncRun_iff (readable : db.readable = true) (reported : db.OutcomesReported host) :
    (db.syncRun (toRunFacts record)).db.OutcomesReported host ↔ Fair record := by
  have same : (db.syncRun (toRunFacts record)).db.readable = true := readable
  rw [outcomesReported_iff readable] at reported
  rw [outcomesReported_iff same]
  rw [fair_iff]
  have stored : (db.syncRun (toRunFacts record)).db.runs = db.runs.set record.runId (toRunFacts record).toRunRow := rfl
  rw [stored]
  constructor
  · intro all
    exact all (record.runId, (toRunFacts record).toRunRow) (Record.mem_of_get (by simp))
  · rintro fair ⟨runId, row⟩ present
    have found := Record.get_of_mem present
    rw [Record.get_set] at found
    split at found
    · cases found
      exact fair
    · exact reported _ (Record.mem_of_get found)

theorem reported_perform_iff (readable : system.db.readable = true) (reported : system.db.OutcomesReported host) :
    (system.perform act).db.OutcomesReported host ↔
      ∀ record ∈ written (system.files act.1) (act.2.about act.1), Fair record := by
  unfold Supervision.perform
  cases written (system.files act.1) (act.2.about act.1) with
  | none => simpa using reported
  | some record => simpa using reported_syncRun_iff readable reported

theorem readable_perform : (system.perform act).db.readable = system.db.readable := by
  unfold Supervision.perform
  cases written (system.files act.1) (act.2.about act.1) <;> rfl

theorem candid_about {board : RunFile} {runId : String} {step : RunStep} : Candid board (step.about runId) ↔ Candid board step := by
  cases step <;> exact Iff.rfl

theorem held_perform (held : ∀ runId, Held (system.files runId))
    (fair : ∀ record ∈ written (system.files act.1) (act.2.about act.1), Fair record) (runId : String) :
    Held ((system.perform act).files runId) := by
  unfold Supervision.perform
  by_cases same : runId = act.1
  · subst same
    simpa using held_execute (held _) fair
  · simpa [same] using held runId

/-- Along every history of the runs, the statistics of every range report the outcomes exactly if the reconciler
    ends none of the runs and none that has timed out ends with the exit code 0. -/
theorem outcomes_reported_iff (host : StatsHost) (acts : List (String × RunStep)) :
    Runs.Along Supervision.perform (fun system => system.db.OutcomesReported host) {} acts ↔
      Runs.AllMeet Supervision.perform (fun system act => Candid (system.files act.1) act.2) {} acts := by
  have empty : Held {} := ⟨fun _ onFile => (nomatch onFile), trivial, fun _ isSpawned => (nomatch isSpawned)⟩
  have reported : ({} : UsageDatabase).OutcomesReported host :=
    (outcomesReported_iff rfl).mpr fun _ present => (nomatch present)
  refine Runs.along_iff_allMeet (fun system => system.db.readable = true ∧
    (system.db.OutcomesReported host → ∀ runId, Held (system.files runId))) ?_ ?_ ⟨rfl, fun _ _ => empty⟩ reported
  · rintro system act ⟨readable, held⟩ now
    exact ⟨readable_perform.trans readable,
      fun later => held_perform (held now) ((reported_perform_iff readable now).mp later)⟩
  · rintro system act ⟨readable, held⟩ now
    rw [reported_perform_iff readable now, written_fair_iff (held now act.1), candid_about]

section Samples

private def stillHost : StatsHost where
  isoDate _ := none
  isoTime _ := none
  dateParse _ := none
  clockText _ := "2026-01-01T00:01:00.000Z"
  dayStart _ := "2026-01-01T00:00:00.000Z"
  number _ := none

def killedRun : List (String × RunStep) :=
  [.startWrite weatherRun "2026-01-01T00:00:00.000Z", .pidWrite (some 4711), .workerRead, .runningWrite, .workerDies,
    .reconcileRead 0, .reconcileWrite 0 { isAlive _ := false, groupAlive _ := false, container _ := none }
      "2026-01-01T00:00:05.000Z"].map fun step => ("r-mb2k9x1c-04f7aa", step)

/-- The crashed run is the last successful one, and no run has failed. -/
theorem killed_run_successful :
    (computeUsageStats stillHost (killedRun.foldl Supervision.perform {}).db {} 0).map (fun stats =>
      (stats.runs.failed, stats.runs.lastSuccessfulRun.bind RunSummary.exitReason)) = some (0, some "crashed") ∧
    ¬ Runs.Along Supervision.perform (fun system => system.db.OutcomesReported stillHost) {} killedRun := by
  have ran : (computeUsageStats stillHost (killedRun.foldl Supervision.perform {}).db {} 0).map (fun stats =>
      (stats.runs.failed, stats.runs.lastSuccessfulRun.bind RunSummary.exitReason)) = some (0, some "crashed") := by
    decide +kernel
  refine ⟨ran, fun along => ?_⟩
  obtain ⟨stats, computed, counts⟩ := Option.map_eq_some_iff.mp ran
  obtain ⟨summary, last, crashed⟩ := Option.bind_eq_some_iff.mp (Prod.mk.inj counts).2
  exact (along.final {} 0 stats computed).1 summary last "crashed" crashed (by decide)

end Samples

end Reporting

end Cli.Supervisor
