import OpenAgentHub.Lib.Runs
import Mathlib.Logic.Function.Basic

namespace Cli.ControlPlane

/-- `CONTROL_LOCK_DIR` and what its `owner` file says. -/
inductive LockDir where
  | absent
  | made (owner : Option Nat)
  deriving DecidableEq, Repr

def lockOwnerPid : LockDir → Option Nat
  | .made (some owner) => if 0 < owner then some owner else none
  | .made none | .absent => none

/-- Where a process is in `acquireLock`, in `releaseLock`, or in the part of `runDaemon` that takes
    over the lock of its starter. Each constructor waits for one access to the file system. -/
inductive LockCall where
  | returned
  | making (attempt : Nat)
  | writing (attempt : Nat)
  | reading (attempt : Nat)
  | judging (attempt : Nat) (owner : Option Nat)
  | removing (attempt : Nat)
  | releasing
  | weighing (owner : Option Nat)
  | clearing
  | adopting
  | inheriting
  deriving DecidableEq, Repr

inductive Procedure where
  | acquireLock | releaseLock | runDaemonLocked
  deriving DecidableEq, Repr

def Procedure.entry : Procedure → LockCall
  | .acquireLock => .making 0
  | .releaseLock => .releasing
  | .runDaemonLocked => .adopting

/-- `holding`: an `acquireLock` of this process has returned true, and no `releaseLock` has ended since. -/
structure Process where
  alive : Bool := false
  holding : Bool := false
  call : LockCall := .returned
  deriving DecidableEq, Repr

namespace Process

def goesTo (process : Process) (call : LockCall) : Process := { process with call }

def keeps (process : Process) : Bool :=
  process.alive && (process.holding || process.call matches .writing _)

def holds (process : Process) : Bool := process.alive && process.holding

end Process

def advance (pid : Nat) (isProcessAlive : Nat → Bool) (lock : LockDir) (process : Process) : LockDir × Process :=
  match process.call with
  | .returned => (lock, process)
  | .making attempt =>
    match lock with
    | .absent => (.made none, process.goesTo (.writing attempt))
    | .made _ => (lock, process.goesTo (.reading attempt))
  | .writing attempt =>
    match lock with
    | .absent => (lock, process.goesTo (.reading attempt))
    -- the directory need not be the one that the process has made
    | .made _ => (.made (some pid), { process with holding := true, call := .returned })
  | .reading attempt => (lock, process.goesTo (.judging attempt (lockOwnerPid lock)))
  | .judging attempt owner =>
    (lock, process.goesTo (if owner.any isProcessAlive then .returned else .removing attempt))
  | .removing attempt => (.absent, process.goesTo (if attempt + 1 < 2 then .making (attempt + 1) else .returned))
  | .releasing => (lock, process.goesTo (.weighing (lockOwnerPid lock)))
  | .weighing owner =>
    if owner = some pid ∨ owner.any (fun other => !isProcessAlive other) then (lock, process.goesTo .clearing)
    else (lock, { process with holding := false, call := .returned })
  | .clearing => (.absent, { process with holding := false, call := .returned })
  | .adopting =>
    match lock with
    | .absent => (.made none, process.goesTo .inheriting)
    | .made _ => (lock, process.goesTo .inheriting)
  | .inheriting =>
    match lock with
    | .made _ => (.made (some pid), process.goesTo .returned)
    -- `writeFileSync` throws, and the daemon ends
    | .absent => (lock, { process with alive := false })

structure Control where
  lock : LockDir := .absent
  processes : Nat → Process := fun _ => {}

inductive LockStep where
  | start (pid : Nat)
  | call (pid : Nat) (procedure : Procedure)
  | advance (pid : Nat)
  | crash (pid : Nat)
  deriving DecidableEq, Repr

namespace Control

def set (state : Control) (pid : Nat) (process : Process) : Control :=
  { state with processes := Function.update state.processes pid process }

def isProcessAlive (state : Control) (pid : Nat) : Bool := (state.processes pid).alive

end Control

def execute (state : Control) : LockStep → Control
  | .start pid => if pid = 0 ∨ state.isProcessAlive pid then state else state.set pid { alive := true }
  | .call pid procedure =>
    if state.isProcessAlive pid ∧ (state.processes pid).call = .returned then
      state.set pid ((state.processes pid).goesTo procedure.entry)
    else state
  | .advance pid =>
    if state.isProcessAlive pid then
      let next := advance pid state.isProcessAlive state.lock (state.processes pid)
      { state.set pid next.2 with lock := next.1 }
    else state
  | .crash pid => state.set pid { state.processes pid with alive := false }

def Exclusive (state : Control) : Prop :=
  ∀ first second, (state.processes first).holds → (state.processes second).holds → first = second

/-- No directory is removed under a live process that keeps it. A process may release what it holds itself. -/
def Guarded (state : Control) : LockStep → Prop
  | .advance pid =>
    state.isProcessAlive pid →
      match (state.processes pid).call with
      | .removing _ => ∀ other, (state.processes other).keeps = false
      | .clearing => ∀ other, other ≠ pid → (state.processes other).keeps = false
      | _ => True
  | .start _ | .call _ _ | .crash _ => True

structure Orderly (state : Control) : Prop where
  present : ∀ pid, (state.processes pid).keeps → state.lock ≠ .absent
  single : ∀ first second, (state.processes first).keeps → (state.processes second).keeps → first = second

variable {state : Control} {pid : Nat} {process : Process}

theorem keeps_of_holds (holds : process.holds = true) : process.keeps = true := by
  simp only [Process.holds, Bool.and_eq_true] at holds
  simp [Process.keeps, holds.1, holds.2]

theorem holds_of_keeps {process : Process} (elsewhere : ∀ attempt, process.call ≠ .writing attempt) (keeps : process.keeps = true) :
    process.holds = true := by
  cases call : process.call with
  | writing attempt => exact absurd call (elsewhere attempt)
  | _ => simpa [Process.keeps, Process.holds, call] using keeps

/-- A process that goes on without having made the directory has no more claim on it than before. -/
theorem keeps_of_goesTo {call : LockCall} (elsewhere : ∀ attempt, call ≠ .writing attempt)
    (keeps : (process.goesTo call).keeps = true) : process.keeps = true := by
  have holds : (process.goesTo call).holds = true := holds_of_keeps elsewhere keeps
  have same : process.holds = true := holds
  exact keeps_of_holds same

theorem Orderly.exclusive (orderly : Orderly state) : Exclusive state := by
  intro first second firstHolds secondHolds
  exact orderly.single first second (keeps_of_holds firstHolds) (keeps_of_holds secondHolds)

@[simp] theorem set_lock : (state.set pid process).lock = state.lock := rfl

@[simp] theorem set_self : (state.set pid process).processes pid = process := Function.update_self ..

theorem set_other {other : Nat} (differs : other ≠ pid) :
    (state.set pid process).processes other = state.processes other := Function.update_of_ne differs ..

/-- A step of one process that takes no new claim on the lock, and leaves the directory where it is. -/
theorem Orderly.quiet (orderly : Orderly state) {lock : LockDir} (keeps : process.keeps → (state.processes pid).keeps)
    (stays : state.lock ≠ .absent → lock ≠ .absent) : Orderly { state.set pid process with lock } := by
  have kept : ∀ other, ((state.set pid process).processes other).keeps → (state.processes other).keeps := by
    intro other otherKeeps
    by_cases same : other = pid
    · subst same
      rw [set_self] at otherKeeps
      exact keeps otherKeeps
    · rwa [set_other same] at otherKeeps
  constructor
  · intro other otherKeeps
    exact stays (orderly.present other (kept other otherKeeps))
  · intro first second firstKeeps secondKeeps
    exact orderly.single first second (kept first firstKeeps) (kept second secondKeeps)

theorem orderly_alone {lock : LockDir} (others : ∀ other, other ≠ pid → (state.processes other).keeps = false)
    (present : process.keeps → lock ≠ .absent) : Orderly { state.set pid process with lock } := by
  have alone : ∀ other, ((state.set pid process).processes other).keeps → other = pid := by
    intro other otherKeeps
    by_contra differs
    rw [set_other differs, others other differs] at otherKeeps
    cases otherKeeps
  constructor
  · intro other otherKeeps
    have same := alone other otherKeeps
    subst same
    rw [show ({ state.set other process with lock } : Control).processes other = process from set_self] at otherKeeps
    exact present otherKeeps
  · intro first second firstKeeps secondKeeps
    rw [alone first firstKeeps, alone second secondKeeps]

theorem Orderly.unclaimed (orderly : Orderly state) (absent : state.lock = .absent) (other : Nat) :
    (state.processes other).keeps = false := by
  by_contra keeps
  exact orderly.present other (by simpa using keeps) absent

theorem execute_advance (alive : state.isProcessAlive pid = true) :
    execute state (.advance pid) =
      { state.set pid (advance pid state.isProcessAlive state.lock (state.processes pid)).2 with
        lock := (advance pid state.isProcessAlive state.lock (state.processes pid)).1 } := if_pos alive

theorem execute_dead (dead : ¬ state.isProcessAlive pid = true) : execute state (.advance pid) = state := if_neg dead

theorem advance_orderly (orderly : Orderly state) (guarded : Guarded state (.advance pid)) :
    Orderly (execute state (.advance pid)) := by
  by_cases alive : state.isProcessAlive pid = true
  · rw [execute_advance alive]
    have guard := guarded alive
    have isAlive : (state.processes pid).alive = true := alive
    unfold advance
    cases call : (state.processes pid).call with
    | returned => exact orderly.quiet id id
    | making attempt =>
      cases lock : state.lock with
      | absent => exact orderly_alone (fun other _ => orderly.unclaimed lock other) (fun _ => by simp)
      | made owner => exact orderly.quiet (keeps_of_goesTo (by simp)) (by simp)
    | writing attempt =>
      cases lock : state.lock with
      | absent => exact orderly.quiet (keeps_of_goesTo (by simp)) (by simp [lock])
      | made owner => exact orderly.quiet (by simp [Process.keeps, isAlive, call]) (by simp)
    | reading attempt => exact orderly.quiet (keeps_of_goesTo (by simp)) id
    | judging attempt owner =>
      refine orderly.quiet (keeps_of_goesTo ?_) id
      split <;> simp
    | removing attempt =>
      rw [call] at guard
      have unheld : (state.processes pid).holding = false := by
        have keeps := guard pid
        simpa [Process.keeps, isAlive, call] using keeps
      refine orderly_alone (fun other _ => guard other) ?_
      dsimp only
      split <;> simp [Process.keeps, Process.goesTo, unheld]
    | releasing => exact orderly.quiet (keeps_of_goesTo (by simp)) id
    | weighing owner =>
      dsimp only
      split
      · exact orderly.quiet (keeps_of_goesTo (by simp)) id
      · exact orderly.quiet (by simp [Process.keeps]) id
    | clearing =>
      rw [call] at guard
      exact orderly_alone guard (by simp [Process.keeps])
    | adopting =>
      cases lock : state.lock with
      | absent => exact orderly.quiet (keeps_of_goesTo (by simp)) (by simp [lock])
      | made owner => exact orderly.quiet (keeps_of_goesTo (by simp)) (by simp)
    | inheriting =>
      cases lock : state.lock with
      | absent => exact orderly.quiet (by simp [Process.keeps]) (by simp [lock])
      | made owner => exact orderly.quiet (keeps_of_goesTo (by simp)) (by simp)
  · rw [execute_dead alive]
    exact orderly

theorem execute_orderly {step : LockStep} (orderly : Orderly state) (guarded : Guarded state step) :
    Orderly (execute state step) := by
  cases step with
  | advance pid => exact advance_orderly orderly guarded
  | start pid =>
    show Orderly (if pid = 0 ∨ state.isProcessAlive pid then state else _)
    split
    next => exact orderly
    next => exact orderly.quiet (by simp [Process.keeps]) id
  | call pid procedure =>
    show Orderly (if state.isProcessAlive pid ∧ (state.processes pid).call = .returned then _ else state)
    split
    next =>
      refine orderly.quiet (keeps_of_goesTo ?_) id
      cases procedure <;> simp [Procedure.entry]
    next => exact orderly
  | crash pid => exact orderly.quiet (by simp [Process.keeps]) id

theorem orderly_initial : Orderly {} := by
  constructor
  · intro pid keeps
    cases keeps
  · intro first second keeps
    cases keeps

section Inspection

structure Attributed (state : Control) : Prop where
  named : ∀ pid, (state.processes pid).holds → state.lock = .made (some pid)
  positive : ∀ pid, (state.processes pid).alive → 0 < pid

theorem attributed_initial : Attributed {} := by
  constructor
  · intro pid holds
    cases holds
  · intro pid alive
    cases alive

theorem Attributed.set (attributed : Attributed state) {lock : LockDir} (alive : process.alive → 0 < pid)
    (own : process.holds → lock = .made (some pid))
    (others : ∀ other, other ≠ pid → (state.processes other).holds → lock = state.lock) :
    Attributed { state.set pid process with lock } := by
  constructor
  · intro other holds
    by_cases same : other = pid
    · subst same
      exact own (by simpa [Control.set] using holds)
    · have held : (state.processes other).holds := by simpa [Control.set, Function.update_of_ne same] using holds
      show lock = .made (some other)
      rw [others other same held]
      exact attributed.named other held
  · intro other isAlive
    by_cases same : other = pid
    · subst same
      exact alive (by simpa [Control.set] using isAlive)
    · exact attributed.positive other (by simpa [Control.set, Function.update_of_ne same] using isAlive)

theorem advance_attributed (orderly : Orderly state) (attributed : Attributed state)
    (guarded : Guarded state (.advance pid)) (own : (state.processes pid).call ≠ .inheriting) :
    Attributed (execute state (.advance pid)) := by
  by_cases alive : state.isProcessAlive pid = true
  · rw [execute_advance alive]
    have guard := guarded alive
    have isAlive : (state.processes pid).alive = true := alive
    have positive : 0 < pid := attributed.positive pid isAlive
    have quiet : ∀ lock call, lock = state.lock → Attributed { state.set pid ((state.processes pid).goesTo call) with lock } := by
      intro lock call same
      subst same
      exact attributed.set (fun _ => positive) (attributed.named pid) (fun _ _ _ => rfl)
    have unheld : state.lock = .absent → ∀ other, ¬ (state.processes other).holds := fun absent other holds =>
      orderly.present other (keeps_of_holds holds) absent
    unfold advance
    cases call : (state.processes pid).call with
    | inheriting => exact absurd call own
    | returned => exact attributed.set (fun _ => positive) (attributed.named pid) (fun _ _ _ => rfl)
    | making attempt =>
      cases lock : state.lock with
      | absent =>
        exact attributed.set (fun _ => positive) (fun holds => absurd holds (unheld lock pid))
          (fun other _ holds => absurd holds (unheld lock other))
      | made owner => exact quiet _ _ lock.symm
    | writing attempt =>
      cases lock : state.lock with
      | absent => exact quiet _ _ lock.symm
      | made owner =>
        -- whoever held the lock would keep it beside this process
        refine attributed.set (fun _ => positive) (fun _ => rfl) (fun other differs holds => absurd ?_ differs)
        exact orderly.single other pid (keeps_of_holds holds) (by simp [Process.keeps, isAlive, call])
    | removing attempt =>
      rw [call] at guard
      have free : ∀ other, ¬ (state.processes other).holds := by
        intro other holds
        have keeps := keeps_of_holds holds
        rw [guard other] at keeps
        cases keeps
      exact attributed.set (fun _ => positive) (fun holds => absurd holds (free pid))
        (fun other _ holds => absurd holds (free other))
    | weighing owner =>
      dsimp only
      split
      · exact quiet _ _ rfl
      · exact attributed.set (fun _ => positive) (by simp [Process.holds]) (fun _ _ _ => rfl)
    | clearing =>
      rw [call] at guard
      refine attributed.set (fun _ => positive) (by simp [Process.holds]) (fun other differs holds => ?_)
      have keeps := keeps_of_holds holds
      rw [guard other differs] at keeps
      cases keeps
    | adopting =>
      cases lock : state.lock with
      | absent =>
        exact attributed.set (fun _ => positive) (fun holds => absurd holds (unheld lock pid))
          (fun other _ holds => absurd holds (unheld lock other))
      | made owner => exact quiet _ _ lock.symm
    | reading attempt => exact quiet _ _ rfl
    | judging attempt owner => exact quiet _ _ rfl
    | releasing => exact quiet _ _ rfl
  · rw [execute_dead alive]
    exact attributed

theorem execute_attributed {step : LockStep} (orderly : Orderly state) (attributed : Attributed state)
    (guarded : Guarded state step) (own : ∀ pid, (state.processes pid).call ≠ .inheriting) :
    Attributed (execute state step) := by
  cases step with
  | advance pid => exact advance_attributed orderly attributed guarded (own pid)
  | start pid =>
    show Attributed (if pid = 0 ∨ state.isProcessAlive pid then state else _)
    split
    next => exact attributed
    next fresh => exact attributed.set (fun _ => by omega) (by simp [Process.holds]) (fun _ _ _ => rfl)
  | call pid procedure =>
    show Attributed (if state.isProcessAlive pid ∧ (state.processes pid).call = .returned then _ else state)
    split
    next idle => exact attributed.set (fun _ => attributed.positive pid idle.1) (attributed.named pid) (fun _ _ _ => rfl)
    next => exact attributed
  | crash pid => exact attributed.set (by simp) (by simp [Process.holds]) (fun _ _ _ => rfl)

theorem guarded_run_attributed {run : List LockStep}
    (met : Runs.AllMeet execute (fun state step => Guarded state step ∧ ∀ pid, (state.processes pid).call ≠ .inheriting) {} run) :
    Attributed (run.foldl execute {}) := by
  have along : Runs.Along execute (fun state => Orderly state ∧ Attributed state) {} run := by
    refine met.along ⟨orderly_initial, attributed_initial⟩ (fun state step held meets => ?_)
    exact ⟨execute_orderly held.1 meets.1, execute_attributed held.1 held.2 meets.1 meets.2⟩
  exact along.final.2

/-- What `acquireLock` looks at is enough when the lock stays as it was read, no daemon takes it over,
    and no live process is between the directory and its owner file. -/
theorem inspection_guarded {attempt : Nat} {owner : Option Nat} (attributed : Attributed state)
    (inspected : (state.processes pid).call = .judging attempt owner) (current : owner = lockOwnerPid state.lock)
    (written : ∀ other attempt, (state.processes other).alive → (state.processes other).call ≠ .writing attempt) :
    Guarded (execute state (.advance pid)) (.advance pid) := by
  by_cases alive : state.isProcessAlive pid = true
  · rw [execute_advance alive]
    intro _
    simp only [advance, inspected, Control.set, Function.update_self, Process.goesTo]
    by_cases owned : owner.any state.isProcessAlive = true
    · simp [owned]
    · simp only [owned, Bool.false_eq_true, if_false]
      intro other
      by_contra keeps
      rw [Bool.not_eq_false] at keeps
      have holds : (state.processes other).holds = true := by
        by_cases same : other = pid
        · subst same
          rw [Function.update_self] at keeps
          have held := holds_of_keeps (by simp) keeps
          exact held
        · rw [Function.update_of_ne same] at keeps
          have isAlive : (state.processes other).alive = true := by
            simp only [Process.keeps, Bool.and_eq_true] at keeps
            exact keeps.1
          exact holds_of_keeps (fun attempt => written other attempt isAlive) keeps
      have named := attributed.named other holds
      simp only [Process.holds, Bool.and_eq_true] at holds
      have positive := attributed.positive other holds.1
      apply owned
      rw [current, named]
      simpa [lockOwnerPid, positive, Control.isProcessAlive] using holds.1
  · rw [execute_dead alive]
    exact fun isAlive => absurd isAlive alive

end Inspection

section Rival

def rivalSteps (pid : Nat) : List LockStep :=
  [.crash pid, .start pid, .call pid .acquireLock, .advance pid, .advance pid]

/-- Where there is no directory, the rival gets the lock, whoever believes to have it. -/
theorem rival_acquires (positive : 0 < pid) (absent : state.lock = .absent) :
    (rivalSteps pid).foldl execute state =
      { lock := .made (some pid), processes := Function.update state.processes pid { alive := true, holding := true } } := by
  have nonzero : pid ≠ 0 := by omega
  simp [rivalSteps, nonzero, execute, Control.set, Control.isProcessAlive, Process.goesTo, Procedure.entry, advance, absent]

theorem rival_guarded (positive : 0 < pid) (absent : state.lock = .absent) :
    Runs.AllMeet execute Guarded state (rivalSteps pid) := by
  have nonzero : pid ≠ 0 := by omega
  simp [rivalSteps, nonzero, Runs.AllMeet, Guarded, execute, Control.set, Control.isProcessAlive, Process.goesTo,
    Procedure.entry, advance, absent]

theorem not_exclusive (first second : Nat) (firstHolds : (state.processes first).holds = true)
    (secondHolds : (state.processes second).holds = true) (differ : first ≠ second) : ¬ Exclusive state :=
  fun exclusive => differ (exclusive first second firstHolds secondHolds)

/-- Once the directory is gone under a live process that keeps it, nothing prevents a second holder. -/
theorem removal_fatal {keeper : Nat} (absent : state.lock = .absent) (keeps : (state.processes keeper).keeps = true) :
    ∃ future, Runs.AllMeet execute Guarded state future ∧ ¬ Exclusive (future.foldl execute state) := by
  have differ : keeper ≠ keeper + 1 := by omega
  have acquired := rival_acquires (Nat.succ_pos keeper) absent
  unfold Process.keeps at keeps
  rw [Bool.and_eq_true, Bool.or_eq_true] at keeps
  obtain ⟨alive, holding | writing⟩ := keeps
  · refine ⟨rivalSteps (keeper + 1), rival_guarded (Nat.succ_pos keeper) absent, ?_⟩
    rw [acquired]
    apply not_exclusive keeper (keeper + 1) _ _ differ
    · simp [Process.holds, alive, holding]
    · simp [Process.holds]
  · -- the keeper puts its pid into the directory of the rival
    cases call : (state.processes keeper).call with
    | writing attempt =>
      refine ⟨rivalSteps (keeper + 1) ++ [.advance keeper], ?_, ?_⟩
      · rw [Runs.allMeet_append, acquired]
        exact ⟨rival_guarded (Nat.succ_pos keeper) absent, by simp [Guarded, call], trivial⟩
      · rw [List.foldl_append, acquired, List.foldl_cons, List.foldl_nil,
          execute_advance (by simp [Control.isProcessAlive, alive])]
        apply not_exclusive keeper (keeper + 1) _ _ differ
        · simp [Control.set, advance, call, Process.holds, alive]
        · simp [Control.set, Process.holds]
    | _ =>
      rw [call] at writing
      cases writing

/-- A removal that is not guarded takes the directory away under a live process that keeps it. -/
theorem unguarded_removes {step : LockStep} (unguarded : ¬ Guarded state step) :
    (execute state step).lock = .absent ∧ ∃ keeper, ((execute state step).processes keeper).keeps = true := by
  cases step with
  | start pid => exact absurd trivial unguarded
  | call pid procedure => exact absurd trivial unguarded
  | crash pid => exact absurd trivial unguarded
  | advance pid =>
    obtain ⟨alive, open'⟩ := Classical.not_imp.mp unguarded
    rw [execute_advance alive]
    cases call : (state.processes pid).call with
    | removing attempt =>
      rw [call] at open'
      obtain ⟨keeper, keeps⟩ := not_forall.mp open'
      rw [Bool.not_eq_false] at keeps
      refine ⟨by simp [advance, call], keeper, ?_⟩
      by_cases same : keeper = pid
      · -- it still holds a lock that was handed to a daemon
        subst same
        have holds := holds_of_keeps (by simp [call]) keeps
        apply keeps_of_holds
        simpa [Control.set, advance, call, Process.holds, Process.goesTo] using holds
      · simpa [Control.set, Function.update_of_ne same] using keeps
    | clearing =>
      rw [call] at open'
      obtain ⟨keeper, remaining⟩ := not_forall.mp open'
      obtain ⟨differs, keeps⟩ := Classical.not_imp.mp remaining
      rw [Bool.not_eq_false] at keeps
      exact ⟨by simp [advance, call], keeper, by simpa [Control.set, Function.update_of_ne differs] using keeps⟩
    | _ =>
      rw [call] at open'
      exact absurd trivial open'

end Rival

/-- A run whose removals are all guarded keeps the lock exclusive, and the first removal that is
    not can always be followed by a second holder. -/
theorem lock_exclusive_iff (run : List LockStep) (met : Runs.AllMeet execute Guarded {} run) :
    Runs.Along execute Exclusive {} run ∧
      ∀ step, (∀ future, Runs.AllMeet execute Guarded (execute (run.foldl execute {}) step) future →
          Runs.Along execute Exclusive {} (run ++ step :: future)) ↔ Guarded (run.foldl execute {}) step := by
  have exclusive : ∀ steps, Runs.AllMeet execute Guarded {} steps → Runs.Along execute Exclusive {} steps := by
    intro steps all
    have along := all.along orderly_initial (fun _ _ orderly guarded => execute_orderly orderly guarded)
    exact along.imp fun _ orderly => orderly.exclusive
  refine ⟨exclusive run met, fun step => ⟨fun safe => ?_, fun guarded future rest => ?_⟩⟩
  · by_contra unguarded
    obtain ⟨absent, keeper, keeps⟩ := unguarded_removes unguarded
    obtain ⟨future, allowed, violated⟩ := removal_fatal absent keeps
    have final := (safe future allowed).final
    rw [List.foldl_append, List.foldl_cons] at final
    exact violated final
  · apply exclusive
    rw [Runs.allMeet_append]
    exact ⟨met, guarded, rest⟩

def staleRun : List LockStep :=
  [.start 1, .call 1 .acquireLock, .advance 1, .advance 1, .crash 1,
    .start 2, .call 2 .acquireLock, .advance 2, .advance 2, .advance 2, .advance 2, .advance 2, .advance 2]

theorem staleRun_guarded : Runs.AllMeet execute Guarded {} staleRun := by
  simp [staleRun, Runs.AllMeet, Guarded, execute, Control.set, Control.isProcessAlive, Process.goesTo,
    Procedure.entry, advance, lockOwnerPid]
  intro other
  by_cases second : other = 2
  · simp [second, Process.keeps]
  · by_cases first : other = 1 <;> simp [first, second, Process.keeps]

theorem stale_lock_taken_over :
    Runs.Along execute Exclusive {} staleRun ∧ ((staleRun.foldl execute {}).processes 2).holds = true :=
  ⟨(lock_exclusive_iff staleRun staleRun_guarded).1, by decide⟩

def gapRun : List LockStep :=
  [.start 1, .start 2, .call 1 .acquireLock, .advance 1, .call 2 .acquireLock, .advance 2, .advance 2, .advance 2,
    .advance 2, .advance 2, .advance 2, .advance 1]

theorem ownerless_lock_taken_twice : ¬ Runs.Along execute Exclusive {} gapRun := fun along =>
  not_exclusive 1 2 (by decide) (by decide) (by decide) along.final

/-- The daemon of the first process takes the lock over and dies while its starter still waits. -/
example :
    ¬ Exclusive
        ([.start 1, .call 1 .acquireLock, .advance 1, .advance 1, .start 3, .call 3 .runDaemonLocked, .advance 3, .advance 3,
          .crash 3, .start 2, .call 2 .acquireLock, .advance 2, .advance 2, .advance 2, .advance 2, .advance 2,
          .advance 2].foldl execute {}) :=
  not_exclusive 1 2 (by decide) (by decide) (by decide)

end Cli.ControlPlane
