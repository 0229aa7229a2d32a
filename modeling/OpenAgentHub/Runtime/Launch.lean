import OpenAgentHub.Runtime.Models

namespace Runtime

open Sdk (Thrown TrustLevel)

def trustText : TrustLevel → String
  | .trusted => "trusted"
  | .untrusted => "untrusted"
  | .unknown => "unknown"
  | .local => "local"
  | .other text => text

structure SandboxDecision where
  mode : SandboxKind
  reason : String
  blocked : Option String := none
  overrideApplied : Bool := false
  staleStatus : Option Bool := none

structure SandboxPolicyInput where
  trust : TrustLevel
  manifest : Manifest
  reviewStatus : Option String := none
  statusFresh : Option Bool := none
  override : Option SandboxOverride := none
  archiveDigest : Option String := none

section Policy

variable (input : SandboxPolicyInput)

def overridden (override : SandboxOverride) : SandboxDecision :=
  if truthy input.archiveDigest ∧ some override.digest ≠ input.archiveDigest then
    { mode := .container, reason := "sandbox override is stale (archive digest changed); using container isolation" }
  else
    match override.sandbox with
    | .process =>
      { mode := .process, reason := "local sandbox policy overrides to process execution", overrideApplied := true }
    | .container =>
      { mode := .container, reason := "local sandbox policy forces container isolation", overrideApplied := true }

def byManifest : SandboxDecision :=
  match input.manifest.sandbox.getD .auto with
  | .container => { mode := .container, reason := "manifest requests container sandbox" }
  | .isolatedProcess => { mode := .process, reason := "manifest requests isolated-process sandbox" }
  | .auto => { mode := .process, reason := "trusted or local agent; using fast isolated-process path" }

def effectiveSandbox : SandboxDecision :=
  let status := input.reviewStatus.getD ""
  if status = "rejected" ∨ status = "revoked" then
    { mode := .container, reason := "not used",
      blocked := some ("this version was " ++ status ++ " by the registry and cannot be run") }
  else if input.trust = .untrusted then
    { mode := .container, reason := "agent is not trusted; source trust requires container isolation" }
  else if input.trust = .unknown then
    { mode := .container, reason := "agent trust is unknown; defaulting to container isolation" }
  else if input.reviewStatus.isSome ∧ status ≠ "verified" ∧ input.statusFresh ≠ some true then
    { mode := .container, reason := "review status '" ++ status ++ "' is not verified; using container isolation",
      staleStatus := some (input.statusFresh == some false) }
  else
    match input.override with
    | some override => overridden input override
    | none => byManifest input

end Policy

inductive InterfaceName where
  | cli | mcp | http
  deriving DecidableEq, Repr

def commandFor (manifest : Manifest) : InterfaceName → Except Thrown String
  | .cli => Outcome.demand manifest.cli ⟨.error, "manifest has no cli interface"⟩
  | .mcp => Outcome.demand manifest.mcp ⟨.error, "manifest has no mcp interface"⟩
  | .http => .error ⟨.error, "http interface is handled by the CLI, not the local runtime"⟩

/-- What a run asks of the sandbox. `extraSecrets` has no caller that sets it. -/
structure RunAgentOptions where
  agentDir : String
  manifest : Manifest
  agentKey : String
  interfaceName : InterfaceName := .cli
  input : Option String := none
  granted : List String
  trustLevel : TrustLevel
  model : Option String := none
  extraSecrets : Record String := {}
  reviewStatus : Option String := none
  statusFresh : Option Bool := none
  sandboxOverride : Option SandboxOverride := none
  archiveDigest : Option String := none
  usageFilePath : Option String := none

abbrev SecretsVault := String → Except Thrown (Record String)

structure Launch where
  kind : SandboxKind
  env : Record String
  granted : List String
  network : Bool
  command : String
  input : Option String
  model : ModelConfig
  reason : String

/-- A remote agent has an endpoint in place of a sandbox. -/
inductive RunOutcome where
  | remote (endpoint : String)
  | launched (launch : Launch)

def dockerInstallHint : String :=
  Text.join "\n" ["docker is not available but the container sandbox is required",
    "  - macOS: install Docker Desktop (https://www.docker.com/products/docker-desktop) and start it",
    "  - Linux: install Docker Engine (https://docs.docker.com/engine/install/) and start the daemon",
    "  - verify with: docker version"]

section RunAgent

variable (opts : RunAgentOptions)

def settledEnv (effective : List String) : Record String :=
  setWhen (Record.setAll {} [("AGENT_TRUST", trustText opts.trustLevel), ("AGENT_HOME", opts.agentDir),
    ("AGENT_GRANTED_PERMISSIONS", Text.join "," effective)]) "AGENT_USAGE_FILE" opts.usageFilePath

def agentEnv (secrets : Record String) (model : ModelConfig) (effective : List String) : Record String :=
  ((buildAgentEnv model opts.manifest.name opts.manifest.version).spread (secrets.spread opts.extraSecrets)).spread
    (settledEnv opts effective)

def checkGrants : Except Thrown (List String) := do
  let effective := effectivePermissions opts.manifest.permissions (Record.setAll {} (opts.granted.map (·, true)))
  let dropped := opts.granted.filter fun permission => !effective.contains permission
  Outcome.ensure (effective.length = opts.granted.length)
    ⟨.error, "refusing grants absent from the manifest: " ++ Text.join ", " dropped⟩
  return effective

def decideSandbox (dockerCheck : Bool) : Except Thrown SandboxDecision := do
  let policy := effectiveSandbox ⟨opts.trustLevel, opts.manifest, opts.reviewStatus, opts.statusFresh, opts.sandboxOverride,
    opts.archiveDigest⟩
  match policy.blocked with
  | some blocked => .error ⟨.error, blocked⟩
  | none =>
    Outcome.ensure (policy.mode ≠ .container ∨ dockerCheck) ⟨.error, dockerInstallHint⟩
    return policy

def runAgent (vault : SecretsVault) (dockerCheck : Bool) : Except Thrown RunOutcome := do
  if opts.interfaceName = .http then
    return .remote (← Outcome.demand opts.manifest.http ⟨.error, "manifest has no http interface"⟩)
  else
    Outcome.ensure (opts.manifest.system = []) ⟨.error, "dependencies.system is not supported by OpenAgentHub yet"⟩
    let effective ← checkGrants opts
    let policy ← decideSandbox opts dockerCheck
    let secrets ← vault opts.agentKey
    let model ← pickModel opts.manifest secrets opts.agentKey opts.model
    Outcome.ensure (policy.mode = .container ∨ opts.trustLevel = .trusted ∨ opts.trustLevel = .local)
      ⟨.error, "internal error: process sandbox chosen for non-trusted agent"⟩
    let command ← commandFor opts.manifest opts.interfaceName
    return .launched { kind := policy.mode, env := agentEnv opts secrets model effective, granted := effective,
                       network := effective.contains "network", command, input := opts.input, model, reason := policy.reason }

end RunAgent

end Runtime
