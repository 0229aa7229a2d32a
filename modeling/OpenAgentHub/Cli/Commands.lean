import OpenAgentHub.Cli.InstallAtomicity
import OpenAgentHub.Cli.Revocation
import OpenAgentHub.Runtime.VaultMap

namespace Cli

open Sdk Runtime

structure Home where
  machine : Machine
  vault : VaultFiles := fun _ => none

structure Desk extends Surroundings where
  vaultHost : VaultHost
  localeCompare : String → String → Int
  loadManifestFromDir : AgentDir → Except Thrown Manifest
  dockerAvailable : Bool

inductive Command where
  | install (opts : InstallOptions) (spec : String) (source : Source) (schedule : Schedule) (faults : Faults)
  | uninstall (spec : String)
  | sandboxSet (spec : String) (sandbox : SandboxKind) (acknowledgeRisk : Bool)
  | sandboxReset (spec : String)
  | run (spec : Spec) (prepare : PrepareOptions) (execute : ExecuteOptions)
  | login (registryUrl : String)
  /-- Of `env`, `login`, `logout` and the integrations: what they do to the vault. -/
  | vault (iv : String) (call : VaultCall)

/-- A command, when it is given, and what `getRevocations` would tell it. -/
structure Act where
  now : Nat
  revocations : Except Thrown (List RevocationItem) := .ok []
  command : Command

section Commands

variable (desk : Desk) (home : Home) (act : Act)

def Desk.around : RunSurroundings where
  localeCompare := desk.localeCompare
  agentsDir := home.machine.agentsDir
  manifests := fun dir => (home.machine.agentDirs dir).map desk.loadManifestFromDir
  revocations := act.revocations
  now := act.now
  vault := SecretsVault.get desk.vaultHost home.vault
  dockerAvailable := desk.dockerAvailable

def Home.setConfig (config : OpenAgentHubConfig) : Home := { home with machine := home.machine.setConfig config }

def uninstallCandidates (spec : Spec) : List (String × InstalledAgent) :=
  let found := installedMatches (desk.around home act) home.machine.config spec.namespaceName spec.name
  match spec.version with
  | some version => found.filter fun entry => entry.2.version == version
  | none => found

/-- The version of the record names the directory, and the secrets; its key names the entries of the configuration. -/
def removeAgent (spec : Spec) (home : Home) (entry : String × InstalledAgent) : Home where
  machine :=
    (home.machine.remove (installedAgentDir home.machine.agentsDir ⟨spec.namespaceName, spec.name, entry.2.version⟩)).setConfig
      { home.machine.config with
        installed := home.machine.config.installed.discard (· == entry.1)
        permissions := home.machine.config.permissions.discard (· == entry.1) }
  vault := SecretsVault.delete desk.vaultHost home.vault (agentKeyToString ⟨spec.namespaceName, spec.name, entry.2.version⟩)

/-- `Uninstall.run`: the secret grants and the sandbox overrides stay. -/
def uninstall (spec : String) : Except Thrown Home := do
  let spec ← parseSpec spec
  let candidates := uninstallCandidates desk home act spec
  Outcome.ensure (candidates ≠ [])
    (plainError ("agent '" ++ spec.fullName ++ ((spec.version.map ("@" ++ ·)).getD "") ++ "' is not installed"))
  Outcome.ensure (candidates.length ≤ 1 ∨ spec.version.isSome)
    (plainError ("multiple versions of '" ++ spec.fullName ++ "' are installed (" ++
      Text.join ", " (candidates.map (·.2.version)) ++ "); specify the version to remove: openagenthub uninstall " ++
      spec.fullName ++ "@<version>"))
  return candidates.foldl (removeAgent desk spec) home

/-- The override is bound to the archive that lies beside the agent's files. -/
def overrideDigest (spec : Spec) (agentKey : String) (installed : InstalledAgent) : Except Thrown String :=
  match (home.machine.agentDirs (installedAgentDir home.machine.agentsDir
      ⟨spec.namespaceName, spec.name, installed.version⟩)).bind AgentDir.archive with
  | some archive => .ok (desk.sha256Hex archive)
  | none =>
    if installed.trust = .local then .ok "local"
    else .error (plainError ("cannot compute archive digest for " ++ agentKey ++ "; reinstall the agent first"))

def resolveSpec (spec : String) : Except Thrown (Spec × String × InstalledAgent) := do
  let spec ← parseSpec spec
  let (agentKey, installed) ← resolveInstalledOrThrow (desk.around home act) home.machine.config spec.namespaceName spec.name
    spec.version
  return (spec, agentKey, installed)

/-- `SandboxSet.run` up to the override that it saves. -/
def chosenOverride (spec : String) (sandbox : SandboxKind) (acknowledgeRisk : Bool) :
    Except Thrown (String × SandboxOverride) := do
  let (spec, agentKey, installed) ← resolveSpec desk home act spec
  Outcome.ensure (sandbox = .process → installed.trust = .trusted ∨ installed.trust = .local)
    (plainError ("process override is only allowed for trusted or local agents (this agent is '" ++
      trustText installed.trust ++ "')"))
  Outcome.ensure (sandbox = .process → acknowledgeRisk = true)
    (plainError "running an agent in a host process removes container isolation; pass --acknowledge-risk to confirm")
  let digest ← overrideDigest desk home spec agentKey installed
  return (agentKey, ⟨sandbox, digest, act.now⟩)

def sandboxSet (spec : String) (sandbox : SandboxKind) (acknowledgeRisk : Bool) : Except Thrown OpenAgentHubConfig := do
  let (agentKey, override) ← chosenOverride desk home act spec sandbox acknowledgeRisk
  return setSandboxOverride home.machine.config agentKey override.sandbox override.digest override.setAt

def sandboxReset (spec : String) : Except Thrown OpenAgentHubConfig := do
  let (_, agentKey, _) ← resolveSpec desk home act spec
  return (clearSandboxOverride home.machine.config agentKey).getD home.machine.config

/-- The home that a command leaves, whether or not it succeeds. -/
def perform : Home :=
  match act.command with
  | .install opts spec source schedule faults =>
    { home with machine := (installAgent desk.toSurroundings faults opts act.now spec source schedule).final home.machine }
  | .uninstall spec => (uninstall desk home act spec).toOption.getD home
  | .sandboxSet spec sandbox acknowledgeRisk =>
    home.setConfig ((sandboxSet desk home act spec sandbox acknowledgeRisk).toOption.getD home.machine.config)
  | .sandboxReset spec => home.setConfig ((sandboxReset desk home act spec).toOption.getD home.machine.config)
  | .run spec prepare execute =>
    home.setConfig ((runCommand (desk.around home act) spec prepare execute).final home.machine.config)
  | .login registryUrl => home.setConfig { home.machine.config with registryUrl := some registryUrl }
  | .vault iv call => { home with vault := callVault desk.vaultHost home.vault (iv, call) }

end Commands

section Frames

open Program

def undated (record : InstalledAgent) : InstalledAgent := { record with reviewStatus := none, statusCheckedAt := none }

structure SameAgents (before after : OpenAgentHubConfig) : Prop where
  installed : after.installed.entries.map (Prod.map id undated) = before.installed.entries.map (Prod.map id undated)
  permissions : after.permissions = before.permissions
  overrides : after.sandboxOverrides = before.sandboxOverrides

theorem map_put {α β : Type} {view : α → β} {key : String} {old value : α} (same : view value = view old) :
    ∀ {entries : List (String × α)}, entries.lookup key = some old →
      (Record.put entries key value).map (Prod.map id view) = entries.map (Prod.map id view)
  | [], found => by cases found
  | (first, kept) :: rest, found => by
    by_cases own : first = key
    · subst own
      rw [List.lookup_cons_self, Option.some.injEq] at found
      simp [Record.put, same, found]
    · rw [List.lookup_cons, beq_false_of_ne (Ne.symm own)] at found
      simp [Record.put, own, map_put same found]

variable {base config : OpenAgentHubConfig}

theorem SameAgents.refl (config : OpenAgentHubConfig) : SameAgents config config := ⟨rfl, rfl, rfl⟩

theorem SameAgents.refresh (same : SameAgents base config) (key : String) (reviewStatus : Option String) (now : Nat) :
    SameAgents base ((recordStatusRefresh config key reviewStatus now).getD config) := by
  unfold recordStatusRefresh
  cases found : config.installed.get key with
  | none => exact same
  | some record =>
    have dated : undated { record with reviewStatus, statusCheckedAt := some now } = undated record := rfl
    exact ⟨(map_put dated found).trans same.installed, same.permissions, same.overrides⟩

theorem saveSecretGrants_sameAgents {agentKey : String} {secrets : List String} {loaded before : OpenAgentHubConfig}
    (ofLoaded : SameAgents base loaded) (ofBefore : SameAgents base before) :
    Program.Leaves (SameAgents base) (saveSecretGrants agentKey loaded secrets) before := by
  induction secrets generalizing loaded before with
  | nil => exact leaves_pure ofBefore
  | cons secret rest ih =>
    have granted : SameAgents base (saveSecretGrant loaded agentKey secret) :=
      ⟨ofLoaded.installed, ofLoaded.permissions, ofLoaded.overrides⟩
    exact leaves_change_bind granted (ih granted granted)

theorem check_sameAgents {around : RunSurroundings} {agentKey registryUrl : String} {installed : InstalledAgent}
    (same : SameAgents base config) :
    Program.Leaves (SameAgents base) (checkRevocationBeforeRun around agentKey installed registryUrl) config := by
  have refreshes : ∀ (status : Option String) (check : RevocationCheck), Program.Leaves (SameAgents base)
      (refreshStatus around.now agentKey status >>= fun _ => pure check) config := by
    intro status check
    have refreshed := same.refresh agentKey status around.now
    exact leaves_change_bind refreshed (leaves_pure refreshed)
  unfold checkRevocationBeforeRun
  split
  · exact leaves_pure same
  split
  · exact leaves_pure same
  split
  · exact leaves_pure same
  split
  · exact refreshes _ _
  · exact refreshes _ _

theorem prepareRunContext_sameAgents {around : RunSurroundings} {spec : Spec} {prepare : PrepareOptions} :
    Program.Leaves (SameAgents config) (prepareRunContext around spec prepare) config := by
  have same := SameAgents.refl config
  unfold prepareRunContext
  refine leaves_read_bind same ?_
  refine leaves_liftExcept_bind same ?_
  intro ⟨agentKey, installed⟩ _
  refine leaves_liftExcept_bind same ?_
  intro found _
  refine leaves_liftExcept_bind same ?_
  intro manifest _
  apply Program.Leaves.bind (check_sameAgents same)
  intro check checked isChecked
  have kept := (check_sameAgents same).returned isChecked
  refine leaves_liftExcept_bind kept ?_
  intro _ _
  refine leaves_liftExcept_bind kept ?_
  intro secrets _
  apply Program.Leaves.bind (saveSecretGrants_sameAgents same kept)
  intro granted after saved
  exact leaves_pure ((saveSecretGrants_sameAgents same kept).returned saved)

theorem runCommand_sameAgents {around : RunSurroundings} {spec : Spec} {prepare : PrepareOptions} {execute : ExecuteOptions} :
    SameAgents config ((runCommand around spec prepare execute).final config) := by
  have leaves : Program.Leaves (SameAgents config) (runCommand around spec prepare execute) config := by
    apply Program.Leaves.bind prepareRunContext_sameAgents
    intro context after prepared
    have kept := prepareRunContext_sameAgents.returned prepared
    exact leaves_liftExcept_bind kept fun _ _ => leaves_pure kept
  exact leaves.final (.refl config)

end Frames

section Installs

open Program

def Labelled (namespaceName name : String) : Prop := '/' ∉ namespaceName.toList ∧ '@' ∉ name.toList

def recordKey (record : InstalledAgent) : String := agentKeyToString ⟨record.namespaceName, record.name, record.version⟩

theorem not_mem_takeWhile {separator : Char} {chars : List Char} : separator ∉ chars.takeWhile (· != separator) := by
  intro present
  have kept := List.all_eq_true.mp (@List.all_takeWhile _ (· != separator) chars) separator present
  simp at kept

theorem parseSpec_labelled {text : String} {spec : Spec} (parsed : parseSpec text = .ok spec) :
    Labelled spec.namespaceName spec.name := by
  have matched := Outcome.demand_eq_ok.mp parsed
  unfold matchSpec at matched
  split at matched
  · cases matched
  · dsimp only at matched
    split at matched
    · cases matched
      constructor
      · rw [String.toList_ofList]
        exact not_mem_takeWhile
      · rw [String.toList_ofList]
        exact not_mem_takeWhile
    · cases matched

variable {around : Surroundings} {faults : Faults} {opts : InstallOptions} {now : Nat} {spec : String} {source : Source}
  {schedule : Schedule} {machine : Machine} {config : OpenAgentHubConfig}

theorem plan_labelled {decided : Plan} (planned : plan around faults opts now config spec source = some (.ok decided)) :
    Labelled decided.key.namespaceName decided.key.name := by
  unfold plan at planned
  simp only [Option.bind_eq_bind, Option.bind_eq_some_iff, Option.pure_def, Option.some.injEq, Outcome.bind_eq_ok,
    Outcome.pure_eq_ok] at planned
  obtain ⟨_, _, _, _, parsed, parses, _, _, _, _, _, _, _, _, rfl⟩ := planned
  exact parseSpec_labelled parses

inductive InstallWrites (config : OpenAgentHubConfig) : OpenAgentHubConfig → Prop
  | nothing : InstallWrites config config
  | recorded {record : InstalledAgent} (labelled : Labelled record.namespaceName record.name) :
    InstallWrites config (recordInstall config record)
  | granted {record : InstalledAgent} (labelled : Labelled record.namespaceName record.name) (permissions : GrantedPermissions) :
    InstallWrites config (saveGrantedPermissions (recordInstall config record) (recordKey record) permissions)

def Quiet (before after : Machine) : Prop := after.config = before.config ∧ after.agentsDir = before.agentsDir

theorem attempt_quiet {call : Call} {before : Machine} (quiet : Quiet machine before) :
    Program.Leaves (Quiet machine) (faults.attempt call) before := by
  unfold Faults.attempt
  split
  · exact leaves_change_bind quiet (leaves_liftExcept quiet)
  · exact leaves_pure quiet

theorem attempt_bind_quiet {α : Type} {call : Call} {before : Machine} {rest : Unit → Program Machine Thrown α}
    (quiet : Quiet machine before) (next : Program.Leaves (Quiet machine) (rest ()) before) :
    Program.Leaves (Quiet machine) (faults.attempt call >>= rest) before := by
  apply Program.Leaves.bind (attempt_quiet quiet)
  intro _ middle returned
  obtain ⟨_, rfl⟩ := Faults.returns_attempt.mp returned
  exact next

variable {before : Machine} {dest : List String}

theorem Quiet.setDir (quiet : Quiet machine before) (dir : AgentDir) : Quiet machine (before.setDir dest dir) := quiet

theorem Quiet.remove (quiet : Quiet machine before) : Quiet machine (before.remove dest) := quiet

theorem unpackInto_quiet {archive : Buffer} (quiet : Quiet machine before) :
    Program.Leaves (Quiet machine) (unpackInto around faults dest archive schedule) before := by
  unfold unpackInto
  have placed : Quiet machine (before.setDir dest { disk := extractedDisk around dest archive schedule }) := quiet.setDir _
  exact leaves_change_bind placed (attempt_bind_quiet placed (leaves_await placed))

theorem saveBeside_quiet {archive : Buffer} {signature : Option SignatureFile} (quiet : Quiet machine before) :
    Program.Leaves (Quiet machine) (saveBeside faults dest archive signature) before := by
  unfold saveBeside
  split
  · exact leaves_pure quiet
  · refine attempt_bind_quiet quiet (leaves_change_bind ?_ (attempt_bind_quiet ?_ (leaves_change ?_))) <;> exact quiet

theorem placeFiles_quiet {resolved : ResolvedPackage} :
    Program.Leaves (Quiet machine) (placeFiles around faults dest resolved schedule) machine := by
  have start : Quiet machine machine := ⟨rfl, rfl⟩
  have emptied : Quiet machine ((machine.remove dest).setDir dest {}) := start.remove.setDir {}
  unfold placeFiles
  refine attempt_bind_quiet start (leaves_change_bind start.remove (attempt_bind_quiet start.remove
    (leaves_change_bind emptied ?_)))
  split
  · apply Program.Leaves.bind (unpackInto_quiet emptied)
    intro manifest unpacked isUnpacked
    have quiet := (unpackInto_quiet emptied).returned isUnpacked
    apply Program.Leaves.bind (saveBeside_quiet quiet)
    intro _ saved isSaved
    exact leaves_pure ((saveBeside_quiet quiet).returned isSaved)
  · exact attempt_bind_quiet emptied (leaves_change_bind (emptied.setDir _) (leaves_pure (emptied.setDir _)))

theorem installAgent_writes :
    let after := (installAgent around faults opts now spec source schedule).final machine
    InstallWrites machine.config after.config ∧ after.agentsDir = machine.agentsDir := by
  have start : InstallWrites machine.config machine.config ∧ machine.agentsDir = machine.agentsDir := ⟨.nothing, rfl⟩
  have leaves : Program.Leaves (fun after => InstallWrites machine.config after.config ∧ after.agentsDir = machine.agentsDir)
      (installAgent around faults opts now spec source schedule) machine := by
    unfold installAgent
    refine leaves_liftExcept_bind start fun _ _ => leaves_read_bind start (leaves_await_bind start ?_)
    intro decided planned
    have labelled := plan_labelled planned
    have quiet : ∀ placed, Quiet machine placed → InstallWrites machine.config placed.config ∧ placed.agentsDir = machine.agentsDir := by
      rintro placed ⟨config, agentsDir⟩
      rw [config]
      exact ⟨.nothing, agentsDir⟩
    apply Program.Leaves.bind fun outcome placed ran => quiet placed (placeFiles_quiet outcome placed ran)
    intro unpacked placed places
    have untouched := placeFiles_quiet.returned places
    have recorded : InstallWrites machine.config (recordInstall machine.config (installedRecord around now decided)) :=
      .recorded labelled
    have granted := @InstallWrites.granted machine.config (installedRecord around now decided) labelled decided.granted
    refine leaves_liftExcept_bind (quiet placed untouched) fun _ _ => leaves_change_bind ⟨recorded, untouched.2⟩ ?_
    refine leaves_liftExcept_bind ⟨recorded, untouched.2⟩ fun _ _ => leaves_change_bind ⟨granted, untouched.2⟩ ?_
    exact leaves_pure ⟨granted, untouched.2⟩
  exact leaves.final start

theorem placeFiles_sets {resolved : ResolvedPackage} {unpacked : Option Json} {after : Machine}
    (places : Returns (placeFiles around faults dest resolved schedule) before unpacked after) :
    ∃ dir, after = (before.remove dest).setDir dest dir := by
  cases hasArchive : resolved.archive with
  | none =>
    simp only [placeFiles, hasArchive, returns_bind, returns_change, returns_pure, Faults.returns_attempt] at places
    obtain ⟨_, _, ⟨_, rfl⟩, _, _, rfl, _, _, ⟨_, rfl⟩, _, _, rfl, _, _, ⟨_, rfl⟩, _, _, rfl, _, rfl⟩ := places
    exact ⟨_, setDir_setDir⟩
  | some archive =>
    cases hasSignature : resolved.signature with
    | some signature =>
      obtain ⟨_, _, rfl⟩ := (placeFiles_returns hasArchive hasSignature).mp places
      exact ⟨_, rfl⟩
    | none =>
      simp only [placeFiles, hasArchive, hasSignature, unpackInto, saveBeside, returns_bind, returns_change, returns_await,
        returns_pure, Faults.returns_attempt] at places
      obtain ⟨_, _, ⟨_, rfl⟩, _, _, rfl, _, _, ⟨_, rfl⟩, _, _, rfl, _, _, ⟨_, _, rfl, _, _, ⟨_, rfl⟩, _, rfl⟩, _, _,
        ⟨_, rfl⟩, _, rfl⟩ := places
      exact ⟨_, setDir_setDir⟩

end Installs

theorem uninstall_cases {desk : Desk} {home left : Home} {act : Act} {text : String} (done : uninstall desk home act text = .ok left) :
    ∃ spec, parseSpec text = .ok spec ∧ left = (uninstallCandidates desk home act spec).foldl (removeAgent desk spec) home := by
  unfold uninstall at done
  simp only [Outcome.bind_eq_ok, Outcome.pure_eq_ok] at done
  obtain ⟨spec, parsed, _, _, _, _, rfl⟩ := done
  exact ⟨spec, parsed, rfl⟩

section Samples

def sampleDesk : Desk :=
  { sampleSurroundings rootEntry with
    vaultHost := plainVault
    localeCompare := helloAround.localeCompare
    loadManifestFromDir := fun _ => .ok helloManifest
    dockerAvailable := true }

end Samples

end Cli
