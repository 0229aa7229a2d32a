import OpenAgentHub.Cli.Installer
import OpenAgentHub.Lib.Double
import OpenAgentHub.Lib.Lexical
import OpenAgentHub.Runtime.Launch

namespace Cli

open Sdk (Thrown)
open Runtime

section Versions

/-- A number is a double, so that long ones are rounded. -/
inductive CorePart where
  | number (value : Nat)
  | text (value : String)
  deriving DecidableEq, Repr

def CorePart.toText : CorePart → String
  | .number value => Double.text value
  | .text value => value

def corePart (part : String) : CorePart :=
  if part ≠ "" ∧ part.toList.all Char.isDigit then .number (Double.ofNat (Lexical.value part.toList)) else .text part

def splitCore (version : String) : List CorePart × Option String :=
  let chars := version.toList
  let core := (Text.split '.' (String.ofList (chars.takeWhile (· != '-')))).map corePart
  match chars.dropWhile (· != '-') with
  | [] => (core, none)
  | _ :: pre => (core, some (String.ofList pre))

/-- The first place where the cores differ decides. A missing part counts as `0`. -/
def compareCores (localeCompare : String → String → Int) (coreA coreB : List CorePart) : Option Int :=
  (List.range (max coreA.length coreB.length)).findSome? fun place =>
    match coreA.getD place (.number 0), coreB.getD place (.number 0) with
    | .number x, .number y => if x = y then none else some (x - y)
    | x, y => if x = y then none else some (localeCompare x.toText y.toText)

def compareVersions (localeCompare : String → String → Int) (first second : String) : Int :=
  let (coreA, preA) := splitCore first
  let (coreB, preB) := splitCore second
  match compareCores localeCompare coreA coreB, preA, preB with
  | some order, _, _ => order
  | none, none, none => 0
  | none, none, some _ => 1
  | none, some _, none => -1
  | none, some preA, some preB => if preA = preB then 0 else localeCompare preA preB

end Versions

structure RevocationItem where
  namespaceName : String
  name : String
  version : String
  digest : String
  reason : String
  reviewStatus : String
  deriving DecidableEq, Repr

/-- What surrounds a run: the directories of the agents with their manifests, the answer of the registry to
    `getRevocations`, the clock, and the vault. -/
structure RunSurroundings where
  localeCompare : String → String → Int
  agentsDir : List String
  manifests : List String → Option (Except Thrown Manifest)
  revocations : Except Thrown (List RevocationItem)
  now : Nat
  vault : SecretsVault
  dockerAvailable : Bool

section Resolving

variable (around : RunSurroundings) (config : OpenAgentHubConfig) (namespaceName name : String)

def installedMatches : List (String × InstalledAgent) :=
  (config.installed.entries.filter fun entry => Text.startsWith entry.1 (namespaceName ++ "/" ++ name ++ "@")).mergeSort
    fun first second => compareVersions around.localeCompare first.2.version second.2.version ≤ 0

def resolveInstalledOrThrow (version : Option String) : Except Thrown (String × InstalledAgent) :=
  let found := installedMatches around config namespaceName name
  match version with
  | some version =>
    Outcome.demand (found.find? fun entry => entry.2.version == version)
      (plainError ("agent '" ++ namespaceName ++ "/" ++ name ++ "@" ++ version ++ "' is not installed"))
  | none => Outcome.demand found.getLast? (plainError ("agent '" ++ namespaceName ++ "/" ++ name ++ "' is not installed"))

end Resolving

section Revocation

structure RevocationCheck where
  blocked : Option String := none
  staleWarning : Option String := none
  statusFresh : Bool

def statusFreshMs : Nat := 60 * 60 * 1000

def installedIsFresh (now : Nat) (installed : InstalledAgent) : Bool :=
  installed.statusCheckedAt.any fun checkedAt => now < checkedAt + statusFreshMs

def RevocationItem.concerns (item : RevocationItem) (installed : InstalledAgent) : Bool :=
  item.namespaceName == installed.namespaceName && item.name == installed.name &&
    (item.version == installed.version || some item.digest == installed.archiveDigest)

/-- A refresh reads the configuration again and saves that one. -/
def refreshStatus (now : Nat) (agentKey : String) (reviewStatus : Option String) : Program OpenAgentHubConfig Thrown Unit :=
  Program.change fun config => (recordStatusRefresh config agentKey reviewStatus now).getD config

def checkRevocationBeforeRun (around : RunSurroundings) (agentKey : String) (installed : InstalledAgent) (registryUrl : String) :
    Program OpenAgentHubConfig Thrown RevocationCheck := do
  if registryUrl = "" then return { statusFresh := false }
  else if installedIsFresh around.now installed then return { statusFresh := true }
  else
    match around.revocations with
    | .error _ =>
      return { statusFresh := false,
               staleWarning := some ("cannot reach " ++ registryUrl ++ " to refresh status; last known review status is '" ++
                 installed.reviewStatus.getD "unknown" ++ "'") }
    | .ok items =>
      match items.find? (·.concerns installed) with
      | some item => do
        refreshStatus around.now agentKey (some item.reviewStatus)
        return { blocked := some ("agent was " ++ item.reviewStatus ++ " by the registry: " ++ item.reason), statusFresh := true }
      | none => do
        refreshStatus around.now agentKey installed.reviewStatus
        return { statusFresh := true }

end Revocation

/-- `confirmSecrets` answers the questions of one call. -/
structure PrepareOptions where
  allowSecrets : Bool := false
  confirmSecrets : Option (List String → List Bool) := none

structure RunContext where
  agentKey : String
  agentDir : List String
  manifest : Manifest
  installed : InstalledAgent
  config : OpenAgentHubConfig
  granted : List String
  exposedSecrets : List String
  sandboxOverride : Option SandboxOverride
  statusFresh : Bool

section Preparing

variable (opts : PrepareOptions) (manifest : Manifest) (agentKey : String) (secrets : Record String)

def secretsToAsk (config : OpenAgentHubConfig) : List String :=
  manifest.secrets.filter fun secret => (secrets.get secret).isSome && !(grantedSecretNames config agentKey).contains secret

def newlyGranted (config : OpenAgentHubConfig) : List String :=
  let toAsk := secretsToAsk manifest agentKey secrets config
  if opts.allowSecrets then toAsk
  else
    match opts.confirmSecrets with
    | some confirm =>
      let answers := confirm (toAsk.map fun secret => "expose stored secret '" ++ secret ++ "' to " ++ manifest.name ++ "?")
      (toAsk.zip answers).filterMap fun asked => if asked.2 then some asked.1 else none
    | none => []

/-- Every grant saves the configuration that was loaded before the check. -/
def saveSecretGrants (config : OpenAgentHubConfig) : List String → Program OpenAgentHubConfig Thrown OpenAgentHubConfig
  | [] => pure config
  | secret :: rest => do
    let config := saveSecretGrant config agentKey secret
    Program.change fun _ => config
    saveSecretGrants config rest

end Preparing

section Running

variable (around : RunSurroundings)

def prepareRunContext (spec : Spec) (opts : PrepareOptions) : Program OpenAgentHubConfig Thrown RunContext := do
  let config ← Program.read id
  let (agentKey, installed) ← Program.liftExcept
    (resolveInstalledOrThrow around config spec.namespaceName spec.name spec.version)
  let dir := installedAgentDir around.agentsDir ⟨spec.namespaceName, spec.name, installed.version⟩
  let found ← Program.liftExcept (Outcome.demand (around.manifests dir)
    (plainError ("agent directory missing for " ++ agentKey ++ " (reinstall with: openagenthub install " ++ spec.fullName ++ "@" ++
      installed.version ++ ")")))
  let manifest ← Program.liftExcept found
  let check ← checkRevocationBeforeRun around agentKey installed (config.registryUrl.getD registryDefault)
  Program.liftExcept (Outcome.ensure (check.blocked = none) (plainError ("blocked: " ++ check.blocked.getD "")))
  let secrets ← Program.liftExcept (around.vault agentKey)
  let config ← saveSecretGrants agentKey config (newlyGranted opts manifest agentKey secrets config)
  let exposedSecrets := manifest.secrets.filter fun secret => (grantedSecretNames config agentKey).contains secret
  let granted := ((grantedPermissions config agentKey).entries.filter fun entry => entry.2 && entry.1 != "none").map Prod.fst
  return { agentKey, agentDir := dir, manifest, installed, config, granted, exposedSecrets,
           sandboxOverride := Runtime.sandboxOverride config agentKey, statusFresh := check.statusFresh }

structure ExecuteOptions where
  interfaceName : InterfaceName
  input : Option String := none
  model : Option String := none
  usageFilePath : Option String := none

/-- Of the secrets that are exposed nothing is passed on. -/
def runOptions (context : RunContext) (opts : ExecuteOptions) : RunAgentOptions where
  agentDir := "/" ++ Text.join "/" context.agentDir
  manifest := context.manifest
  agentKey := context.agentKey
  interfaceName := opts.interfaceName
  input := opts.input.filter (· != "")
  granted := context.granted
  trustLevel := context.installed.trust
  model := opts.model
  reviewStatus := context.installed.reviewStatus
  statusFresh := some context.statusFresh
  sandboxOverride := context.sandboxOverride
  archiveDigest := context.installed.archiveDigest
  usageFilePath := opts.usageFilePath

def executeAgentRun (context : RunContext) (opts : ExecuteOptions) : Except Thrown RunOutcome :=
  runAgent (runOptions context opts) around.vault around.dockerAvailable

def runCommand (spec : Spec) (prepare : PrepareOptions) (execute : ExecuteOptions) :
    Program OpenAgentHubConfig Thrown (RunContext × RunOutcome) := do
  let context ← prepareRunContext around spec prepare
  let outcome ← Program.liftExcept (executeAgentRun around context execute)
  return (context, outcome)

end Running

end Cli
