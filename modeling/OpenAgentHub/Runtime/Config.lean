import OpenAgentHub.Lib.Record
import OpenAgentHub.Sdk.Signatures

namespace Runtime

open Sdk (TrustLevel)

structure AgentKey where
  namespaceName : String
  name : String
  version : String
  deriving DecidableEq, Repr

def agentKeyToString (key : AgentKey) : String := key.namespaceName ++ "/" ++ key.name ++ "@" ++ key.version

/-- `path.join`, over the segments of the paths. -/
def join (base : List String) (parts : List String) : List String :=
  (parts.flatMap (Text.split '/')).foldl (fun path segment =>
    if segment = "" ∨ segment = "." then path else if segment = ".." then path.dropLast else path ++ [segment]) base

def installedAgentDir (agentsDir : List String) (key : AgentKey) : List String :=
  join agentsDir [key.namespaceName, key.name, key.version]

/-- Times are milliseconds since the epoch. -/
structure InstalledAgent where
  namespaceName : String
  name : String
  version : String
  author : String
  trust : TrustLevel
  installedAt : Nat
  source : String
  signatureKeyId : Option String := none
  reviewStatus : Option String := none
  statusCheckedAt : Option Nat := none
  archiveDigest : Option String := none
  deriving DecidableEq, Repr

inductive SandboxKind where
  | container | process
  deriving DecidableEq, Repr

structure SandboxOverride where
  sandbox : SandboxKind
  digest : String
  setAt : Nat
  deriving DecidableEq, Repr

abbrev GrantedPermissions := Record Bool

/-- A section that is absent from the file is empty here. -/
structure OpenAgentHubConfig where
  registryUrl : Option String := none
  installed : Record InstalledAgent := {}
  permissions : Record GrantedPermissions := {}
  secretGrants : Record (List String) := {}
  sandboxOverrides : Record SandboxOverride := {}

def registryDefault : String := "https://registry.openagenthub.dev"

section Config

variable (config : OpenAgentHubConfig)

def recordInstall (agent : InstalledAgent) : OpenAgentHubConfig :=
  { config with
    installed := config.installed.set (agentKeyToString ⟨agent.namespaceName, agent.name, agent.version⟩) agent }

/-- The configuration that is saved, or nothing when the agent has no record. -/
def recordStatusRefresh (key : String) (reviewStatus : Option String) (now : Nat) : Option OpenAgentHubConfig :=
  (config.installed.get key).map fun record =>
    { config with installed := config.installed.set key { record with reviewStatus, statusCheckedAt := some now } }

def grantedPermissions (agentKey : String) : GrantedPermissions := (config.permissions.get agentKey).getD {}

def saveGrantedPermissions (agentKey : String) (permissions : GrantedPermissions) : OpenAgentHubConfig :=
  { config with permissions := config.permissions.set agentKey permissions }

def grantedSecretNames (agentKey : String) : List String := (config.secretGrants.get agentKey).getD []

def saveSecretGrant (agentKey secret : String) : OpenAgentHubConfig :=
  let grants := grantedSecretNames config agentKey
  { config with
    secretGrants := config.secretGrants.set agentKey (if grants.contains secret then grants else grants ++ [secret]) }

def sandboxOverride (agentKey : String) : Option SandboxOverride := config.sandboxOverrides.get agentKey

def setSandboxOverride (agentKey : String) (sandbox : SandboxKind) (digest : String) (now : Nat) : OpenAgentHubConfig :=
  { config with sandboxOverrides := config.sandboxOverrides.set agentKey ⟨sandbox, digest, now⟩ }

/-- The configuration that is saved, or nothing when the agent has no override. -/
def clearSandboxOverride (agentKey : String) : Option OpenAgentHubConfig :=
  (config.sandboxOverrides.get agentKey).map fun _ =>
    { config with sandboxOverrides := config.sandboxOverrides.discard (· == agentKey) }

end Config

/-- The names of permissions in place of `Permission[]`. -/
def requestedPermissions (permissions : List String) : List String :=
  if permissions.contains "none" then ["none"] else permissions

def effectivePermissions (permissions : List String) (saved : GrantedPermissions) : List String :=
  let requested := requestedPermissions permissions
  if requested = ["none"] then []
  else (saved.entries.filter fun entry => entry.2 && requested.contains entry.1).map Prod.fst

end Runtime
