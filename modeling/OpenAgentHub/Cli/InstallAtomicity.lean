import OpenAgentHub.Cli.InstallBinding

namespace Cli

open Sdk Runtime Program

section Refusals

variable {faults : Faults} {call : Call} {before after : Machine} {raised : Thrown}

theorem Faults.raises_attempt : Raises (faults.attempt call) before raised after ↔
    ∃ refusal, faults call = some refusal ∧ refusal.error = raised ∧
      { before with agentDirs := refusal.left before.agentDirs } = after := by
  unfold Faults.attempt
  split
  next refusal refused => simp [refused, raises_bind]
  next passed => simp [passed]

@[simp] theorem Faults.throws_attempt : Throws (faults.attempt call) before ↔ faults call ≠ none := by
  simp [Throws, Faults.raises_attempt, Option.ne_none_iff_exists']

@[simp] theorem Faults.pass_error : (∃ raised, faults.pass call = .error raised) ↔ faults call ≠ none := by
  unfold Faults.pass
  split
  next _ refused => simp [refused]
  next passed => simp [passed]

end Refusals

section Atomicity

variable (around : Surroundings) (faults : Faults) (opts : InstallOptions) (now : Nat) (spec : String) (source : Source)
  (schedule : Schedule)

/-- If the installation throws, the configuration and the directory of the version that it is about are as before. -/
def Atomic (before : Machine) : Prop :=
  ∀ raised after, Raises (installAgent around faults opts now spec source schedule) before raised after →
    after.config = before.config ∧
      ∀ decided, plan around faults opts now before.config spec source = some (.ok decided) →
        after.agentDirs (installedAgentDir before.agentsDir decided.key) =
          before.agentDirs (installedAgentDir before.agentsDir decided.key)

def Recordable : Prop := faults .recordInstall = none ∧ faults .saveGrantedPermissions = none

def Savable (signature : Option SignatureFile) : Prop :=
  signature.isSome → faults .saveSignature = none ∧ faults .saveArchive = none

def Unfailing (dest : List String) (resolved : ResolvedPackage) : Prop :=
  faults .makeDest = none ∧
    match resolved.archive with
    | some archive => faults .unpackFiles = none ∧
      match unpackAgent around.toHost {} dest {} (around.readArchive archive) schedule with
      | some (.ok _) => Savable faults resolved.signature ∧ Recordable faults
      | some (.error _) => False
      | none => True
    | none => faults .copyFiles = none ∧ Recordable faults

/-- The old directory is the last thing that the installation can fail at: its removal, if it is refused, has removed
    nothing, and if it is done, nothing fails after it. -/
def Shielded (config : OpenAgentHubConfig) (agentsDir : List String) : Prop :=
  faults .loadConfig = none → ∀ decided, plan around faults opts now config spec source = some (.ok decided) →
    let dest := installedAgentDir agentsDir decided.key
    match faults .removeDest with
    | some refusal => ∀ dirs, refusal.left dirs dest = dirs dest
    | none => Unfailing around faults schedule dest decided.resolved

end Atomicity

section Failing

variable {around : Surroundings} {faults : Faults} {opts : InstallOptions} {now : Nat} {spec : String} {source : Source}
  {schedule : Schedule} {before other after : Machine} {raised : Thrown} {dest : List String} {resolved : ResolvedPackage}
  {archive : Buffer} {signature : Option SignatureFile} {decided : Plan}

theorem throws_attempt_bind {α : Type} {call : Call} {rest : Unit → Program Machine Thrown α} :
    Throws (faults.attempt call >>= rest) before ↔ faults call ≠ none ∨ Throws (rest ()) before := by
  by_cases passes : faults call = none
  · have returned : Returns (faults.attempt call) before () before := Faults.returns_attempt.mpr ⟨passes, rfl⟩
    simp [returned.throws_bind, passes]
  · simp [throws_bind, passes]

theorem throws_change_bind {α : Type} {update : Machine → Machine} {rest : Unit → Program Machine Thrown α} :
    Throws (change update >>= rest) before ↔ Throws (rest ()) (update before) := by
  have returned : Returns (change update : Program Machine Thrown Unit) before () (update before) := returns_change.mpr rfl
  exact returned.throws_bind

theorem throws_pass_bind {α : Type} {call : Call} {rest : Unit → Program Machine Thrown α} :
    Throws (liftExcept (faults.pass call) >>= rest) before ↔ faults call ≠ none ∨ Throws (rest ()) before := by
  by_cases passes : faults call = none
  · have returned : Returns (liftExcept (faults.pass call)) before () before := by simp [passes]
    simp [returned.throws_bind, passes]
  · simp [throws_bind, passes]

theorem saveBeside_throws : Throws (saveBeside faults dest archive signature) before ↔ ¬ Savable faults signature := by
  cases signature with
  | none => simp [saveBeside, Savable]
  | some signature =>
    simp only [saveBeside, throws_attempt_bind, throws_change_bind, not_throws_change, Savable]
    by_cases signs : faults .saveSignature = none <;> simp [signs]

theorem saveBeside_ends : (∃ done after, Returns (saveBeside faults dest archive signature) before done after) ↔
    Savable faults signature := by
  cases signature with
  | none => simp [saveBeside, Savable]
  | some signature => simp [saveBeside, Savable]

theorem unpackInto_throws : Throws (unpackInto around faults dest archive schedule) before ↔
    faults .unpackFiles ≠ none ∨ ∃ raised, unpackAgent around.toHost {} dest {} (around.readArchive archive) schedule = some (.error raised) := by
  simp only [unpackInto, throws_change_bind, throws_attempt_bind, throws_await]

theorem unpackInto_ends {manifest : Json} :
    (∃ after, Returns (unpackInto around faults dest archive schedule) before manifest after) ↔ faults .unpackFiles = none ∧
      unpackAgent around.toHost {} dest {} (around.readArchive archive) schedule = some (.ok manifest) := by
  simp [unpackInto]

theorem placeFiles_throws (removes : faults .removeDest = none) :
    Throws (placeFiles around faults dest resolved schedule) before ↔
      faults .makeDest ≠ none ∨
        match resolved.archive with
        | some archive =>
          (faults .unpackFiles ≠ none ∨
            ∃ raised, unpackAgent around.toHost {} dest {} (around.readArchive archive) schedule = some (.error raised)) ∨
            (∃ manifest, faults .unpackFiles = none ∧
              unpackAgent around.toHost {} dest {} (around.readArchive archive) schedule = some (.ok manifest)) ∧
              ¬ Savable faults resolved.signature
        | none => faults .copyFiles ≠ none := by
  unfold placeFiles
  simp only [throws_attempt_bind, throws_change_bind, removes, ne_eq, not_true_eq_false, false_or]
  refine or_congr_right ?_
  cases resolved.archive with
  | none => simp only [throws_attempt_bind, throws_change_bind, not_throws_pure, ne_eq, or_false]
  | some archive =>
    simp only [throws_bind, unpackInto_throws, saveBeside_throws, not_throws_pure, and_false, exists_false, or_false]
    refine or_congr_right ⟨?_, ?_⟩
    · rintro ⟨manifest, middle, returned, unsaved⟩
      exact ⟨⟨manifest, unpackInto_ends.mp ⟨middle, returned⟩⟩, unsaved⟩
    · rintro ⟨⟨manifest, unpacks⟩, unsaved⟩
      obtain ⟨middle, returned⟩ := unpackInto_ends.mpr unpacks
      exact ⟨manifest, middle, returned, unsaved⟩

theorem placeFiles_ends (removes : faults .removeDest = none) :
    (∃ unpacked after, Returns (placeFiles around faults dest resolved schedule) before unpacked after) ↔
      faults .makeDest = none ∧
        match resolved.archive with
        | some archive =>
          (∃ manifest, faults .unpackFiles = none ∧
            unpackAgent around.toHost {} dest {} (around.readArchive archive) schedule = some (.ok manifest)) ∧
            Savable faults resolved.signature
        | none => faults .copyFiles = none := by
  unfold placeFiles
  cases resolved.archive with
  | none =>
    simp only [returns_bind, Faults.returns_attempt, returns_change, returns_pure, removes, true_and]
    constructor
    · rintro ⟨_, _, _, _, rfl, _, _, rfl, _, _, ⟨makes, rfl⟩, _, _, rfl, _, _, ⟨copies, rfl⟩, _⟩
      exact ⟨makes, copies⟩
    · rintro ⟨makes, copies⟩
      exact ⟨none, _, (), before, rfl, (), _, rfl, (), _, ⟨makes, rfl⟩, (), _, rfl, (), _, ⟨copies, rfl⟩, (), _, rfl, rfl, rfl⟩
  | some archive =>
    simp only [returns_bind, Faults.returns_attempt, returns_change, returns_pure, removes, true_and]
    constructor
    · rintro ⟨_, _, _, _, rfl, _, _, rfl, _, _, ⟨makes, rfl⟩, _, _, rfl, manifest, middle, unpacks, _, _, saves, _⟩
      exact ⟨makes, ⟨manifest, unpackInto_ends.mp ⟨middle, unpacks⟩⟩, saveBeside_ends.mp ⟨_, _, saves⟩⟩
    · rintro ⟨makes, ⟨manifest, unpacks⟩, savable⟩
      obtain ⟨middle, unpacks⟩ := unpackInto_ends.mpr unpacks
      obtain ⟨_, after, saves⟩ := saveBeside_ends.mpr savable
      exact ⟨some manifest, after, (), before, rfl, (), _, rfl, (), _, ⟨makes, rfl⟩, (), _, rfl, manifest, middle, unpacks, (),
        after, saves, rfl, rfl⟩

theorem placeFiles_agree (removes : faults .removeDest = none) (same : other.remove dest = before.remove dest) :
    placeFiles around faults dest resolved schedule other = placeFiles around faults dest resolved schedule before := by
  have passes : ∀ machine, Returns (faults.attempt .removeDest) machine () machine :=
    fun machine => Faults.returns_attempt.mpr ⟨removes, rfl⟩
  have removed : ∀ machine, Returns (change fun machine => machine.remove dest : Program Machine Thrown Unit) machine ()
    (machine.remove dest) := fun machine => returns_change.mpr rfl
  rw [placeFiles, (passes other).bind_eq, (removed other).bind_eq, (passes before).bind_eq, (removed before).bind_eq, same]

def recordPlan (around : Surroundings) (faults : Faults) (now : Nat) (config : OpenAgentHubConfig) (plan : Plan)
    (unpacked : Option Json) : Program Machine Thrown Installation := do
  Program.liftExcept (faults.pass .recordInstall)
  let recorded := recordInstall config (installedRecord around now plan)
  Program.change fun machine => machine.setConfig recorded
  Program.liftExcept (faults.pass .saveGrantedPermissions)
  let granted := saveGrantedPermissions recorded (agentKeyToString plan.key) plan.granted
  Program.change fun machine => machine.setConfig granted
  return ⟨plan.key, plan.resolved.manifest, unpacked, plan.resolved.signature, plan.granted⟩

theorem recordPlan_throws {config : OpenAgentHubConfig} {unpacked : Option Json} :
    Throws (recordPlan around faults now config decided unpacked) before ↔ ¬ Recordable faults := by
  simp only [recordPlan, throws_pass_bind, throws_change_bind, not_throws_pure, Recordable]
  by_cases records : faults .recordInstall = none <;> simp [records]

theorem place_and_record_throws {config : OpenAgentHubConfig} (removes : faults .removeDest = none) :
    Throws (placeFiles around faults dest decided.resolved schedule >>= recordPlan around faults now config decided) before ↔
      ¬ Unfailing around faults schedule dest decided.resolved := by
  simp only [throws_bind, recordPlan_throws, exists_and_right]
  rw [placeFiles_throws removes, placeFiles_ends removes, Unfailing]
  by_cases makes : faults .makeDest = none
  · simp only [makes, ne_eq, not_true_eq_false, false_or, true_and]
    cases decided.resolved.archive with
    | none =>
      dsimp only
      tauto
    | some archive =>
      dsimp only
      by_cases writes : faults .unpackFiles = none
      · simp only [writes, not_true_eq_false, false_or, true_and]
        cases unpackAgent around.toHost {} dest {} (around.readArchive archive) schedule with
        | none => simp
        | some outcome =>
          cases outcome with
          | error raised => simp
          | ok manifest =>
            simp only [Option.some.injEq, reduceCtorEq, exists_false, false_or, Except.ok.injEq, exists_eq', true_and]
            by_cases savable : Savable faults decided.resolved.signature <;> simp [savable]
      · simp [writes]
  · simp [makes]

section Planned

variable (loads : faults .loadConfig = none)
  (planned : plan around faults opts now before.config spec source = some (.ok decided))

include loads planned

theorem installAgent_planned :
    installAgent around faults opts now spec source schedule before =
      (placeFiles around faults (installedAgentDir before.agentsDir decided.key) decided.resolved schedule >>=
        recordPlan around faults now before.config decided) before := by
  have loaded : Returns (liftExcept (faults.pass .loadConfig)) before () before := by simp [loads]
  have known : Returns (Program.read id : Program Machine Thrown Machine) before before before := returns_read.mpr ⟨rfl, rfl⟩
  have decides : Returns (await (plan around faults opts now before.config spec source)) before decided before :=
    returns_await.mpr ⟨planned, rfl⟩
  rw [installAgent, loaded.bind_eq, known.bind_eq, decides.bind_eq]
  rfl

end Planned

theorem installAgent_undecided (raises : Raises (installAgent around faults opts now spec source schedule) before raised after)
    (undecided : faults .loadConfig ≠ none ∨
      ∀ decided, plan around faults opts now before.config spec source ≠ some (.ok decided)) : after = before := by
  simp only [installAgent, raises_bind, raises_liftExcept, returns_liftExcept, not_raises_read, returns_read, raises_await,
    returns_await, Faults.pass_ok] at raises
  obtain ⟨_, rfl⟩ | ⟨_, _, ⟨loads, rfl⟩, no | ⟨_, _, ⟨rfl, rfl⟩, ⟨_, rfl⟩ | ⟨decided, _, ⟨planned, rfl⟩, _⟩⟩⟩ := raises
  · rfl
  · cases no
  · rfl
  · obtain stuck | never := undecided
    · exact absurd loads stuck
    · exact absurd planned (never decided)

theorem installAgent_unremoved (before : Machine) {refusal : Refusal} (loads : faults .loadConfig = none)
    (planned : plan around faults opts now before.config spec source = some (.ok decided))
    (refused : faults .removeDest = some refusal) :
    Raises (installAgent around faults opts now spec source schedule) before refusal.error
      { before with agentDirs := refusal.left before.agentDirs } := by
  rw [Raises, installAgent_planned loads planned]
  have raises : Raises (faults.attempt .removeDest) before refusal.error
      { before with agentDirs := refusal.left before.agentDirs } := Faults.raises_attempt.mpr ⟨refusal, refused, rfl, rfl⟩
  exact raises_bind.mpr (.inl (raises_bind.mpr (.inl raises)))

theorem installAgent_agree (schedule : Schedule) (before other : Machine) (loads : faults .loadConfig = none)
    (planned : plan around faults opts now before.config spec source = some (.ok decided))
    (removes : faults .removeDest = none) (config : other.config = before.config) (agentsDir : other.agentsDir = before.agentsDir)
    (same : other.remove (installedAgentDir before.agentsDir decided.key) =
      before.remove (installedAgentDir before.agentsDir decided.key)) :
    installAgent around faults opts now spec source schedule other = installAgent around faults opts now spec source schedule before := by
  have plannedToo : plan around faults opts now other.config spec source = some (.ok decided) := by rw [config, planned]
  rw [installAgent_planned loads planned, installAgent_planned loads plannedToo, config, agentsDir, bind_apply, bind_apply,
    placeFiles_agree removes same]

theorem installAgent_throws (before : Machine) (loads : faults .loadConfig = none)
    (planned : plan around faults opts now before.config spec source = some (.ok decided)) (removes : faults .removeDest = none) :
    Throws (installAgent around faults opts now spec source schedule) before ↔
      ¬ Unfailing around faults schedule (installedAgentDir before.agentsDir decided.key) decided.resolved := by
  have same : Throws (installAgent around faults opts now spec source schedule) before ↔
      Throws (placeFiles around faults (installedAgentDir before.agentsDir decided.key) decided.resolved schedule >>=
        recordPlan around faults now before.config decided) before := by
    simp only [Throws, Raises, installAgent_planned loads planned]
  rw [same, place_and_record_throws removes]

theorem remove_setDir {machine : Machine} {dir : AgentDir} : (machine.setDir dest dir).remove dest = machine.remove dest := by
  simp only [Machine.remove, Machine.setDir, Machine.mk.injEq, true_and]
  funext path
  by_cases below : dest <+: path
  · simp [below]
  · have apart : path ≠ dest := by
      rintro rfl
      exact below (List.prefix_refl _)
    simp [below, apart]

/-- Whatever was in the agents' directories, an installation that throws has changed neither the directory of its
    version nor the configuration, exactly if it can fail no later than at the removal of that directory. -/
theorem install_atomic_iff (machine : Machine) :
    (∀ agentDirs, Atomic around faults opts now spec source schedule { machine with agentDirs }) ↔
      Shielded around faults opts now spec source schedule machine.config machine.agentsDir := by
  constructor
  · intro atomic loads decided planned
    dsimp only
    cases removes : faults .removeDest with
    | some refusal =>
      intro dirs
      exact (atomic dirs _ _ (installAgent_unremoved { machine with agentDirs := dirs } loads planned removes)).2 decided planned
    | none =>
      by_contra fails
      obtain ⟨raised, after, raises⟩ := (installAgent_throws machine loads planned removes).mpr fails
      -- The removal leaves nothing of what tells these two installations apart.
      have left : ∀ dir, after.agentDirs (installedAgentDir machine.agentsDir decided.key) = some dir := by
        intro dir
        have same := installAgent_agree schedule machine (machine.setDir _ dir) loads planned removes rfl rfl remove_setDir
        have kept := (atomic _ raised after (same.trans raises)).2 decided planned
        rw [kept]
        exact agentDirs_setDir
      have first := (left {}).symm.trans (left { archive := some [] })
      simp at first
  · intro shielded agentDirs raised after raises
    by_cases decides : faults .loadConfig = none ∧
        ∃ decided, plan around faults opts now machine.config spec source = some (.ok decided)
    · obtain ⟨loads, decided, planned⟩ := decides
      have guarded := shielded loads decided planned
      dsimp only at guarded
      cases removes : faults .removeDest with
      | some refusal =>
        rw [removes] at guarded
        have same := raises.symm.trans (installAgent_unremoved { machine with agentDirs } loads planned removes)
        cases same
        refine ⟨rfl, fun other plannedToo => ?_⟩
        obtain rfl : decided = other := Except.ok.inj (Option.some.inj (planned.symm.trans plannedToo))
        exact guarded agentDirs
      | none =>
        rw [removes] at guarded
        have throws : Throws (installAgent around faults opts now spec source schedule) { machine with agentDirs } :=
          ⟨raised, after, raises⟩
        exact absurd guarded ((installAgent_throws { machine with agentDirs } loads planned removes).mp throws)
    · have undecided : faults .loadConfig ≠ none ∨
          ∀ decided, plan around faults opts now machine.config spec source ≠ some (.ok decided) := by
        by_contra both
        push Not at both
        exact decides ⟨both.1, both.2⟩
      rw [installAgent_undecided raises undecided]
      exact ⟨rfl, fun _ _ => rfl⟩

end Failing

section Samples

def unsafeEntry : Entry := ⟨"../agent.yaml", .file, 300, sampleData "none", none, 0⟩

def sampleDest : List String := ["home", "agents", "demo", "hello", "1.0.0"]

def installedMachine : Machine :=
  let key : AgentKey := ⟨"demo", "hello", "1.0.0"⟩
  let record : InstalledAgent :=
    { namespaceName := "demo", name := "hello", version := "1.0.0", author := "demo", trust := .unknown, installedAt := 0,
      source := "" }
  sampleMachine.setConfig (recordInstall {} record) |>.setDir (installedAgentDir sampleMachine.agentsDir key)
    { archive := some [] }

abbrev sampleReinstall : Program Machine Thrown Installation :=
  installAgent (sampleSurroundings unsafeEntry) (fun _ => none) { force := true } 0 "demo/hello@1.0.0"
    (.registry (sampleAnswers "demo/hello" "1.0.0")) ⟨[0], [.entry]⟩

/-- A forced reinstallation from an archive that is signed but unsafe: the directory that was there is gone. -/
theorem reinstall_loses_directory :
    (∃ raised after, Raises sampleReinstall installedMachine raised after ∧
      (installedMachine.agentDirs sampleDest).bind AgentDir.archive = some [] ∧
      (after.agentDirs sampleDest).bind AgentDir.archive = none) ∧
    ¬ Atomic (sampleSurroundings unsafeEntry) (fun _ => none) { force := true } 0 "demo/hello@1.0.0"
      (.registry (sampleAnswers "demo/hello" "1.0.0")) ⟨[0], [.entry]⟩ installedMachine := by
  have ran : (sampleReinstall installedMachine).map (fun outcome =>
      (outcome.1.toOption.isNone, (outcome.2.agentDirs sampleDest).bind AgentDir.archive)) = some (true, none) := by
    decide +kernel
  have held : (installedMachine.agentDirs sampleDest).bind AgentDir.archive = some [] := by decide +kernel
  have decides : ((plan (sampleSurroundings unsafeEntry) (fun _ => none) { force := true } 0 installedMachine.config
      "demo/hello@1.0.0" (.registry (sampleAnswers "demo/hello" "1.0.0"))).bind Except.toOption).map Plan.key =
        some ⟨"demo", "hello", "1.0.0"⟩ := by decide +kernel
  obtain ⟨⟨outcome, after⟩, ran, ended⟩ := Option.map_eq_some_iff.mp ran
  obtain ⟨threw, lost⟩ := Prod.mk.inj ended
  cases outcome with
  | ok installed => cases threw
  | error raised =>
    refine ⟨⟨raised, after, ran, held, lost⟩, fun atomic => ?_⟩
    obtain ⟨decided, planned, key⟩ := Option.map_eq_some_iff.mp decides
    obtain ⟨outcome, planned, isOk⟩ := Option.bind_eq_some_iff.mp planned
    rw [Outcome.toOption_eq_some.mp isOk] at planned
    have kept := (atomic raised after ran).2 decided planned
    have dest : installedAgentDir installedMachine.agentsDir decided.key = sampleDest := by
      rw [key]
      decide +kernel
    rw [dest] at kept
    rw [kept, held] at lost
    cases lost

end Samples

end Cli
