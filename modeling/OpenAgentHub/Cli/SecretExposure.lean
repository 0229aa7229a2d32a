import OpenAgentHub.Cli.Runs
import Mathlib.Data.List.Find

namespace Cli

open Sdk (Thrown)
open Runtime Program

section Models

variable {manifest : Manifest} {first second : Record String} {agentKey : String}

theorem configFor_congr {provider : ModelProvider} {overrideModel : Option String} (supported : provider ∈ manifest.supported)
    (agree : ∀ key ∈ manifest.keyNames, first.get key = second.get key) :
    configFor first provider overrideModel = configFor second provider overrideModel := by
  have same : provider.settings.keyEnv.bind first.get = provider.settings.keyEnv.bind second.get := by
    cases isKey : provider.settings.keyEnv with
    | none => rfl
    | some key => exact agree key (List.mem_filterMap.mpr ⟨provider, supported, isKey⟩)
  rw [configFor, configFor, same]

theorem pickModel_congr {requested : Option String} (agree : ∀ key ∈ manifest.keyNames, first.get key = second.get key) :
    pickModel manifest first agentKey requested = pickModel manifest second agentKey requested := by
  have byDefault : pickDefault manifest first = pickDefault manifest second := by
    have found : (manifest.supported.find? fun provider =>
          provider.settings.keyEnv.isNone || truthy (provider.settings.keyEnv.bind first.get)) =
        manifest.supported.find? fun provider =>
          provider.settings.keyEnv.isNone || truthy (provider.settings.keyEnv.bind second.get) := by
      refine List.find?_congr fun provider supported => ?_
      have same : (configFor first provider none).apiKey = (configFor second provider none).apiKey :=
        congrArg ModelConfig.apiKey (configFor_congr supported agree)
      exact congrArg (fun apiKey => provider.settings.keyEnv.isNone || truthy apiKey) same
    rw [pickDefault, pickDefault, found]
    refine configFor_congr ?_ agree
    cases isFound : manifest.supported.find? _ with
    | none => exact List.head_mem _
    | some provider => exact List.mem_of_find?_eq_some isFound
  have byRequest : ∀ requested, pickRequested manifest first agentKey requested =
      pickRequested manifest second agentKey requested := by
    intro requested
    unfold pickRequested
    cases isFound : manifest.supported.find? fun provider => provider.name == (splitModel requested).1 with
    | none => simp [isFound]
    | some provider =>
      have supported := List.mem_of_find?_eq_some isFound
      simp [isFound, configFor_congr supported agree]
  cases requested with
  | none => simp [pickModel, byDefault]
  | some requested => simp [pickModel, byDefault, byRequest]

end Models

section Preparing

variable {around : RunSurroundings} {spec : Spec} {prepare : PrepareOptions}
  {stored after : OpenAgentHubConfig} {context : RunContext} {agentKey : String}

theorem saveSecretGrants_keeps {secrets : List String} {config granted before : OpenAgentHubConfig}
    (saved : Returns (saveSecretGrants agentKey config secrets) before granted after) :
    granted.permissions = config.permissions ∧ granted.sandboxOverrides = config.sandboxOverrides := by
  induction secrets generalizing config before with
  | nil =>
    simp only [saveSecretGrants, returns_pure] at saved
    rw [saved.1]
    exact ⟨rfl, rfl⟩
  | cons secret rest ih =>
    simp only [saveSecretGrants, returns_bind, returns_change] at saved
    obtain ⟨_, _, _, saved⟩ := saved
    obtain ⟨permissions, overrides⟩ := ih saved
    exact ⟨permissions, overrides⟩

theorem saveSecretGrants_total (agentKey : String) (secrets : List String) (config before : OpenAgentHubConfig) :
    ∃ granted after, Returns (saveSecretGrants agentKey config secrets) before granted after := by
  induction secrets generalizing config before with
  | nil => exact ⟨config, before, returns_pure.mpr ⟨rfl, rfl⟩⟩
  | cons secret rest ih =>
    obtain ⟨granted, after, saved⟩ := ih (saveSecretGrant config agentKey secret) (saveSecretGrant config agentKey secret)
    refine ⟨granted, after, ?_⟩
    simp only [saveSecretGrants, returns_bind, returns_change]
    exact ⟨(), _, rfl, saved⟩

structure Prepared (around : RunSurroundings) (spec : Spec) (stored : OpenAgentHubConfig) (context : RunContext) : Prop where
  resolved : resolveInstalledOrThrow around stored spec.namespaceName spec.name spec.version =
    .ok (context.agentKey, context.installed)
  dir : context.agentDir =
    installedAgentDir around.agentsDir ⟨spec.namespaceName, spec.name, context.installed.version⟩
  manifest : around.manifests context.agentDir = some (.ok context.manifest)
  checked : ∃ check middle, Returns (checkRevocationBeforeRun around context.agentKey context.installed
    (stored.registryUrl.getD registryDefault)) stored check middle ∧ context.statusFresh = check.statusFresh
  granted : context.granted =
    ((grantedPermissions stored context.agentKey).entries.filter fun entry => entry.2 && entry.1 != "none").map Prod.fst
  override : context.sandboxOverride = Runtime.sandboxOverride stored context.agentKey
  exposed : context.exposedSecrets =
    context.manifest.secrets.filter fun secret => (grantedSecretNames context.config context.agentKey).contains secret

theorem prepareRunContext_prepared (prepared : Returns (prepareRunContext around spec prepare) stored context after) :
    Prepared around spec stored context := by
  simp only [prepareRunContext, returns_bind, returns_read, returns_liftExcept, returns_pure, Outcome.demand_eq_ok] at prepared
  obtain ⟨_, _, ⟨rfl, rfl⟩, ⟨agentKey, installed⟩, _, ⟨resolved, rfl⟩, found, _, ⟨isFound, rfl⟩, manifest, _, ⟨isManifest, rfl⟩,
    check, _, checked, _, _, _, secrets, _, ⟨_, rfl⟩, config, _, saved, rfl, rfl⟩ := prepared
  obtain ⟨permissions, overrides⟩ := saveSecretGrants_keeps saved
  refine ⟨resolved, rfl, by rw [isFound, isManifest], ⟨check, _, checked, rfl⟩, ?_, ?_, rfl⟩
  · simp only [grantedPermissions, permissions, id]
  · simp only [Runtime.sandboxOverride, overrides, id]

theorem prepareRunContext_other {vault other : SecretsVault} {secretsToo : Record String}
    (prepared : Returns (prepareRunContext { around with vault } spec prepare) stored context after)
    (readable : other context.agentKey = .ok secretsToo) :
    ∃ contextToo afterToo, Returns (prepareRunContext { around with vault := other } spec prepare) stored contextToo afterToo := by
  simp only [prepareRunContext, returns_bind, returns_read, returns_liftExcept, returns_pure, Outcome.demand_eq_ok] at prepared ⊢
  obtain ⟨_, _, ⟨rfl, rfl⟩, ⟨agentKey, installed⟩, _, ⟨resolved, rfl⟩, found, _, ⟨isFound, rfl⟩, manifest, _, ⟨isManifest, rfl⟩,
    check, _, checked, _, _, ⟨passes, rfl⟩, secrets, _, ⟨_, rfl⟩, config, _, saved, rfl, rfl⟩ := prepared
  obtain ⟨granted, afterToo, savedToo⟩ := saveSecretGrants_total agentKey
    (newlyGranted prepare manifest agentKey secretsToo (id _)) (id _) _
  exact ⟨_, _, _, _, ⟨rfl, rfl⟩, ⟨agentKey, installed⟩, _, ⟨resolved, rfl⟩, found, _, ⟨isFound, rfl⟩, manifest, _, ⟨isManifest, rfl⟩,
    check, _, checked, _, _, ⟨passes, rfl⟩, secretsToo, _, ⟨readable, rfl⟩, granted, afterToo, savedToo, rfl, rfl⟩

theorem runOptions_congr (execute : ExecuteOptions) {vault other : SecretsVault} {contextToo : RunContext}
    (prepared : Prepared { around with vault } spec stored context)
    (preparedToo : Prepared { around with vault := other } spec stored contextToo) :
    runOptions contextToo execute = runOptions context execute := by
  obtain ⟨sameKey, sameInstalled⟩ : contextToo.agentKey = context.agentKey ∧ contextToo.installed = context.installed := by
    have same := Except.ok.inj (preparedToo.resolved.symm.trans prepared.resolved)
    simpa using same
  have sameDir : contextToo.agentDir = context.agentDir := by
    rw [preparedToo.dir, prepared.dir, sameInstalled]
  have sameManifest : contextToo.manifest = context.manifest := by
    have its := preparedToo.manifest
    rw [sameDir] at its
    exact Except.ok.inj (Option.some.inj (its.symm.trans prepared.manifest))
  have sameFresh : contextToo.statusFresh = context.statusFresh := by
    obtain ⟨check, middle, checked, fresh⟩ := prepared.checked
    obtain ⟨checkToo, middleToo, checkedToo, freshToo⟩ := preparedToo.checked
    rw [sameKey, sameInstalled] at checkedToo
    rw [fresh, freshToo, (Returns.unique checkedToo checked).1]
  have sameGranted : contextToo.granted = context.granted := by
    rw [preparedToo.granted, prepared.granted, sameKey]
  have sameOverride : contextToo.sandboxOverride = context.sandboxOverride := by
    rw [preparedToo.override, prepared.override, sameKey]
  simp only [runOptions, sameKey, sameInstalled, sameDir, sameManifest, sameFresh, sameGranted, sameOverride]

end Preparing

section Exposure

structure Launched (around : RunSurroundings) (vault : SecretsVault) (spec : Spec) (prepare : PrepareOptions)
    (execute : ExecuteOptions) (stored : OpenAgentHubConfig) (context : RunContext) (secrets : Record String)
    (launch : Launch) : Prop where
  secrets : vault context.agentKey = .ok secrets
  runs : ∃ after, Returns (runCommand { around with vault } spec prepare execute) stored (context, .launched launch) after

def Allowed (context : RunContext) (launch : Launch) (key : String) : Prop :=
  (key ∈ context.manifest.secrets ∧ key ∈ grantedSecretNames context.config context.agentKey) ∨
    launch.model.provider.settings.keyEnv = some key

/-- No other stored secret is in the environment. -/
def OnlyAllowed (context : RunContext) (secrets : Record String) (launch : Launch) : Prop :=
  ∀ key value, secrets.get key = some value → launch.env.get key = some value → Allowed context launch key

def lateEnv (context : RunContext) (execute : ExecuteOptions) (launch : Launch) : Record String :=
  settledEnv (runOptions context execute) launch.granted

/-- Every other stored secret has the name of a variable that the runtime then sets to something else. -/
def Confined (context : RunContext) (execute : ExecuteOptions) (secrets : Record String) (launch : Launch) : Prop :=
  ∀ key value, secrets.get key = some value →
    Allowed context launch key ∨ ∃ other, (lateEnv context execute launch).get key = some other ∧ other ≠ value

def Agree (context contextToo : RunContext) (secrets secretsToo : Record String) : Prop :=
  ∀ key, key ∈ context.exposedSecrets ∨ key ∈ contextToo.exposedSecrets ∨ key ∈ context.manifest.keyNames →
    secrets.get key = secretsToo.get key

def seen (context : RunContext) (secrets : Record String) (launch : Launch) (key : String) : Option String :=
  (secrets.get key).or ((buildAgentEnv launch.model context.manifest.name context.manifest.version).get key)

def AgreeElsewhere (context contextToo : RunContext) (execute : ExecuteOptions) (secrets secretsToo : Record String)
    (launch : Launch) : Prop :=
  ∀ key, key ∉ context.exposedSecrets → key ∉ contextToo.exposedSecrets → key ∉ context.manifest.keyNames →
    (lateEnv context execute launch).get key = none → seen context secrets launch key = seen context secretsToo launch key

variable {around : RunSurroundings} {vault other : SecretsVault} {spec : Spec} {prepare : PrepareOptions} {execute : ExecuteOptions}
  {stored : OpenAgentHubConfig} {context contextToo : RunContext} {secrets secretsToo : Record String}
  {launch launchToo : Launch}

theorem executeAgentRun_launched (stores : around.vault context.agentKey = .ok secrets)
    (executed : executeAgentRun around context execute = .ok (.launched launch)) :
    checkGrants (runOptions context execute) = .ok launch.granted ∧
      pickModel context.manifest secrets context.agentKey execute.model = .ok launch.model ∧
      launch.env = agentEnv (runOptions context execute) secrets launch.model launch.granted := by
  unfold executeAgentRun runAgent at executed
  split at executed
  · obtain ⟨_, _, isRemote⟩ := Outcome.bind_eq_ok.mp executed
    cases isRemote
  · simp only [Outcome.bind_eq_ok, Outcome.pure_eq_ok, RunOutcome.launched.injEq] at executed
    obtain ⟨_, _, effective, grants, policy, _, its, isIts, model, picked, _, _, command, _, rfl⟩ := executed
    obtain rfl : secrets = its := Except.ok.inj (stores.symm.trans isIts)
    exact ⟨grants, picked, rfl⟩

theorem executeAgentRun_other (stores : vault context.agentKey = .ok secrets)
    (readable : other context.agentKey = .ok secretsToo)
    (same : runOptions contextToo execute = runOptions context execute)
    (agree : ∀ key ∈ context.manifest.keyNames, secrets.get key = secretsToo.get key)
    (executed : executeAgentRun { around with vault } context execute = .ok (.launched launch)) :
    ∃ launchToo, executeAgentRun { around with vault := other } contextToo execute = .ok (.launched launchToo) := by
  unfold executeAgentRun runAgent at executed ⊢
  rw [same]
  split at executed
  · obtain ⟨_, _, isRemote⟩ := Outcome.bind_eq_ok.mp executed
    cases isRemote
  · rename_i isLocal
    simp only [Outcome.bind_eq_ok, Outcome.pure_eq_ok, RunOutcome.launched.injEq] at executed
    obtain ⟨_, supported, effective, grants, policy, decided, its, isIts, model, picked, _, trusts, command, commands, _⟩ := executed
    obtain rfl : secrets = its := Except.ok.inj (stores.symm.trans isIts)
    have pickedToo : pickModel (runOptions context execute).manifest secretsToo (runOptions context execute).agentKey
        (runOptions context execute).model = .ok model := (pickModel_congr agree).symm.trans picked
    rw [if_neg isLocal]
    simp only [Outcome.bind_eq_ok, Outcome.pure_eq_ok, RunOutcome.launched.injEq]
    exact ⟨_, (), supported, effective, grants, policy, decided, secretsToo, readable, model, pickedToo, (), trusts, command,
      commands, rfl⟩

theorem Launched.parts (launched : Launched around vault spec prepare execute stored context secrets launch) :
    Prepared { around with vault } spec stored context ∧
      executeAgentRun { around with vault } context execute = .ok (.launched launch) := by
  obtain ⟨after, runs⟩ := launched.runs
  simp only [runCommand, returns_bind, returns_liftExcept, returns_pure, Prod.mk.injEq] at runs
  obtain ⟨its, _, prepared, outcome, _, ⟨executed, _⟩, ⟨isContext, isOutcome⟩, _⟩ := runs
  rw [isContext] at prepared executed
  rw [isOutcome] at executed
  exact ⟨prepareRunContext_prepared prepared, executed⟩

theorem Launched.with_vault (launched : Launched around vault spec prepare execute stored context secrets launch)
    (readable : other context.agentKey = .ok secretsToo)
    (agree : ∀ key ∈ context.manifest.keyNames, secrets.get key = secretsToo.get key) :
    ∃ contextToo launchToo, Launched around other spec prepare execute stored contextToo secretsToo launchToo := by
  obtain ⟨preparedAlike, executed⟩ := launched.parts
  obtain ⟨after, runs⟩ := launched.runs
  simp only [runCommand, returns_bind, returns_liftExcept, returns_pure, Prod.mk.injEq] at runs
  obtain ⟨its, _, prepared, _, _, _, ⟨isContext, _⟩, _⟩ := runs
  rw [isContext] at prepared
  obtain ⟨contextToo, afterToo, preparedToo⟩ := prepareRunContext_other prepared readable
  have same := runOptions_congr execute preparedAlike (prepareRunContext_prepared preparedToo)
  have sameKey : contextToo.agentKey = context.agentKey := congrArg RunAgentOptions.agentKey same
  obtain ⟨launchToo, executedToo⟩ := executeAgentRun_other launched.secrets readable same agree executed
  refine ⟨contextToo, launchToo, by rw [sameKey]; exact readable, afterToo, ?_⟩
  simp only [runCommand, returns_bind, returns_liftExcept, returns_pure]
  exact ⟨contextToo, afterToo, preparedToo, .launched launchToo, afterToo, ⟨executedToo, rfl⟩, rfl, rfl⟩

/-- What reaches the sandbox: the late variables, then every stored secret, then what belongs to the model. -/
theorem Launched.env_get (launched : Launched around vault spec prepare execute stored context secrets launch) (key : String) :
    launch.env.get key = ((lateEnv context execute launch).get key).or (seen context secrets launch key) := by
  obtain ⟨_, _, env⟩ := executeAgentRun_launched launched.secrets launched.parts.2
  have extra : (runOptions context execute).extraSecrets.get key = none := rfl
  rw [env, agentEnv, Record.get_spread, Record.get_spread, Record.get_spread, extra]
  rfl

theorem Launched.same (launched : Launched around vault spec prepare execute stored context secrets launch)
    (launchedToo : Launched around other spec prepare execute stored contextToo secretsToo launchToo)
    (agree : ∀ key ∈ context.manifest.keyNames, secrets.get key = secretsToo.get key) :
    runOptions contextToo execute = runOptions context execute ∧ launchToo.model = launch.model ∧
      launchToo.granted = launch.granted := by
  obtain ⟨prepared, executed⟩ := launched.parts
  obtain ⟨preparedToo, executedToo⟩ := launchedToo.parts
  have same := runOptions_congr execute prepared preparedToo
  obtain ⟨grants, picked, _⟩ := executeAgentRun_launched launched.secrets executed
  obtain ⟨grantsToo, pickedToo, _⟩ := executeAgentRun_launched launchedToo.secrets executedToo
  have sameManifest : contextToo.manifest = context.manifest := congrArg RunAgentOptions.manifest same
  have sameKey : contextToo.agentKey = context.agentKey := congrArg RunAgentOptions.agentKey same
  rw [same] at grantsToo
  rw [sameManifest, sameKey, ← pickModel_congr agree] at pickedToo
  exact ⟨same, Except.ok.inj (pickedToo.symm.trans picked), Except.ok.inj (grantsToo.symm.trans grants)⟩

theorem onlyAllowed_iff (launched : Launched around vault spec prepare execute stored context secrets launch) :
    OnlyAllowed context secrets launch ↔ Confined context execute secrets launch := by
  constructor
  · intro only key value stores
    cases late : (lateEnv context execute launch).get key with
    | none =>
      refine .inl (only key value stores ?_)
      simp [launched.env_get key, late, seen, stores]
    | some overwritten =>
      by_cases same : overwritten = value
      · refine .inl (only key value stores ?_)
        simp [launched.env_get key, late, same]
      · exact .inr ⟨overwritten, rfl, same⟩
  · intro confined key value stores inEnv
    rcases confined key value stores with allowed | ⟨overwritten, late, different⟩
    · exact allowed
    · rw [launched.env_get key, late] at inEnv
      exact absurd (Option.some.inj inEnv) different

theorem sameEnv_iff (launched : Launched around vault spec prepare execute stored context secrets launch)
    (launchedToo : Launched around other spec prepare execute stored contextToo secretsToo launchToo)
    (agree : Agree context contextToo secrets secretsToo) :
    (∀ key, launch.env.get key = launchToo.env.get key) ↔
      AgreeElsewhere context contextToo execute secrets secretsToo launch := by
  obtain ⟨sameOptions, sameModel, sameGranted⟩ := launched.same launchedToo fun key isKey => agree key (.inr (.inr isKey))
  have sameManifest : contextToo.manifest = context.manifest := congrArg RunAgentOptions.manifest sameOptions
  have env : ∀ key, launch.env.get key = ((lateEnv context execute launch).get key).or (seen context secrets launch key) :=
    launched.env_get
  have envToo : ∀ key, launchToo.env.get key =
      ((lateEnv context execute launch).get key).or (seen context secretsToo launch key) := by
    intro key
    rw [launchedToo.env_get key, lateEnv, sameOptions, sameGranted, seen, sameModel, sameManifest]
    rfl
  constructor
  · intro same key _ _ _ late
    have its := same key
    simpa [env key, envToo key, late] using its
  · intro elsewhere key
    rw [env key, envToo key]
    cases late : (lateEnv context execute launch).get key with
    | some value => rfl
    | none =>
      by_cases shared : key ∈ context.exposedSecrets ∨ key ∈ contextToo.exposedSecrets ∨ key ∈ context.manifest.keyNames
      · rw [seen, seen, agree key shared]
      · simp only [not_or] at shared
        rw [elsewhere key shared.1 shared.2.1 shared.2.2 late]

/-- Whatever is granted, the sandbox is handed every stored secret. So it is handed the allowed ones only exactly
    when the vault stores no others, and two vaults that agree on these give one environment exactly when they agree
    elsewhere too. -/
theorem secret_exposure_iff (launched : Launched around vault spec prepare execute stored context secrets launch) :
    (OnlyAllowed context secrets launch ↔ Confined context execute secrets launch) ∧
      ∀ other secretsToo, other context.agentKey = .ok secretsToo →
        (∀ key ∈ context.manifest.keyNames, secrets.get key = secretsToo.get key) →
        ∃ contextToo launchToo, Launched around other spec prepare execute stored contextToo secretsToo launchToo ∧
          (Agree context contextToo secrets secretsToo →
            ((∀ key, launch.env.get key = launchToo.env.get key) ↔
              AgreeElsewhere context contextToo execute secrets secretsToo launch)) := by
  refine ⟨onlyAllowed_iff launched, ?_⟩
  intro other secretsToo readable agree
  obtain ⟨contextToo, launchToo, launchedToo⟩ := launched.with_vault readable agree
  exact ⟨contextToo, launchToo, launchedToo, sameEnv_iff launched launchedToo⟩

end Exposure

section Samples

def helloManifest : Manifest where
  name := "demo/hello"
  version := "1.0.0"
  supported := [.ollama]
  someSupported := by simp
  cli := some "hello"
  secrets := ["API_TOKEN"]

def helloAround : RunSurroundings where
  localeCompare first second := if first = second then 0 else if first < second then -1 else 1
  agentsDir := ["home", "agents"]
  manifests _ := some (.ok helloManifest)
  revocations := .error ⟨.registryError, "fetch failed"⟩
  now := 0
  vault _ := .ok {}
  dockerAvailable := true

def helloAgent : InstalledAgent where
  namespaceName := "demo"
  name := "hello"
  version := "1.0.0"
  author := "demo"
  trust := .local
  installedAt := 0
  source := "dir:/demo/hello"

def helloStored : OpenAgentHubConfig where
  installed := { entries := [("demo/hello@1.0.0", helloAgent)] }

def apiToken : Record String where
  entries := [("API_TOKEN", "t0k3n")]

def helloSpec : Spec := ⟨"demo", "hello", none⟩

def helloLaunch (prepare : PrepareOptions) (secrets : Record String) : Option (RunContext × Launch) :=
  match runCommand { helloAround with vault := fun _ => .ok secrets } helloSpec prepare { interfaceName := .cli } helloStored with
  | some (.ok (context, .launched launch), _) => some (context, launch)
  | _ => none

theorem helloLaunch_launched {prepare : PrepareOptions} {secrets : Record String} {context : RunContext} {launch : Launch}
    (isRun : helloLaunch prepare secrets = some (context, launch)) :
    Launched helloAround (fun _ => .ok secrets) helloSpec prepare { interfaceName := .cli } helloStored context secrets launch := by
  unfold helloLaunch at isRun
  split at isRun
  · rename_i context' launch' after ran
    cases isRun
    exact ⟨rfl, after, ran⟩
  · cases isRun

theorem secret_exposure_iff_granted :
    ∃ context launch,
      Launched helloAround (fun _ => .ok apiToken) helloSpec { allowSecrets := true } { interfaceName := .cli } helloStored context
        apiToken launch ∧
      OnlyAllowed context apiToken launch ∧ launch.env.get "API_TOKEN" = some "t0k3n" := by
  have runs : (helloLaunch { allowSecrets := true } apiToken).any (fun run =>
      "API_TOKEN" ∈ run.1.manifest.secrets ∧ "API_TOKEN" ∈ grantedSecretNames run.1.config run.1.agentKey ∧
        run.2.env.get "API_TOKEN" = some "t0k3n") = true := by decide +kernel
  obtain ⟨⟨context, launch⟩, isRun, facts⟩ := (Option.any_eq_true _ _).mp runs
  obtain ⟨declared, granted, inEnv⟩ := of_decide_eq_true facts
  have launched := helloLaunch_launched isRun
  refine ⟨context, launch, launched, (secret_exposure_iff launched).1.mpr ?_, inEnv⟩
  intro key value stores
  have isToken : key = "API_TOKEN" := by
    by_contra different
    simp [Record.get, apiToken, beq_false_of_ne different] at stores
  rw [isToken]
  exact .inl (.inl ⟨declared, granted⟩)

/-- A secret that nobody has granted reaches the sandbox, and so do its changes. -/
theorem ungranted_secret_is_exposed :
    ∃ context launch contextToo launchToo,
      Launched helloAround (fun _ => .ok apiToken) helloSpec {} { interfaceName := .cli } helloStored context apiToken launch ∧
      Launched helloAround (fun _ => .ok {}) helloSpec {} { interfaceName := .cli } helloStored contextToo {} launchToo ∧
      ¬ OnlyAllowed context apiToken launch ∧ Agree context contextToo apiToken {} ∧
      launch.env.get "API_TOKEN" = some "t0k3n" ∧ launchToo.env.get "API_TOKEN" = none := by
  have runs : (helloLaunch {} apiToken).any (fun run =>
      grantedSecretNames run.1.config run.1.agentKey = [] ∧ run.2.model.provider = .ollama ∧ run.1.exposedSecrets = [] ∧
        run.1.manifest.keyNames = [] ∧ run.2.env.get "API_TOKEN" = some "t0k3n") = true := by decide +kernel
  have runsToo : (helloLaunch {} {}).any (fun run =>
      run.1.exposedSecrets = [] ∧ run.2.env.get "API_TOKEN" = none) = true := by decide +kernel
  obtain ⟨⟨context, launch⟩, isRun, facts⟩ := (Option.any_eq_true _ _).mp runs
  obtain ⟨⟨contextToo, launchToo⟩, isRunToo, factsToo⟩ := (Option.any_eq_true _ _).mp runsToo
  obtain ⟨ungranted, provider, unexposed, keyless, inEnv⟩ := of_decide_eq_true facts
  obtain ⟨unexposedToo, absent⟩ := of_decide_eq_true factsToo
  refine ⟨context, launch, contextToo, launchToo, helloLaunch_launched isRun, helloLaunch_launched isRunToo, ?_, ?_, inEnv, absent⟩
  · intro only
    rcases only "API_TOKEN" "t0k3n" (by decide +kernel) inEnv with ⟨_, granted⟩ | isKey
    · rw [ungranted] at granted
      cases granted
    · rw [provider] at isKey
      cases isKey
  · intro key shared
    rw [unexposed, unexposedToo, keyless] at shared
    simp at shared

end Samples

end Cli
