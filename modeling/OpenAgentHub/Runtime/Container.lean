import OpenAgentHub.Lib.Record
import OpenAgentHub.Lib.Text
import OpenAgentHub.Sdk.Extraction

namespace Runtime

open Sdk (Thrown)

inductive Language where
  | python | node | go | rust | other
  deriving DecidableEq, Repr

structure SandboxSpec where
  agentDir : String
  name : String
  version : String
  language : Language
  pip : Option (List String) := none
  npm : Option (List String) := none
  granted : List String := []
  env : Record String := {}
  network : Bool := false
  runId : Option String := none
  interfaceName : Option String := none
  packageDigest : Option String := none

/-- The environment of the process, and the hexadecimal SHA-256 digest. -/
structure ContainerHost where
  imageDigestPython : Option String := none
  imageDigestNode : Option String := none
  runtimeVersion : Option String := none
  sha256 : String → String

section Image

variable (host : ContainerHost)

def imageTag : Language → String
  | .node => "node:22-bookworm-slim"
  | _ => "python:3.12-slim"

def imageDigest : Language → String
  | .node => host.imageDigestNode.getD ""
  | _ => host.imageDigestPython.getD ""

def resolveImage (language : Language) : String :=
  let digest := imageDigest host language
  if digest ≠ "" then imageTag language ++ "@" ++ digest else imageTag language

end Image

section Volume

/-- `[a-z0-9@._-]`. -/
def isSlugChar (char : Char) : Bool :=
  Text.isLowerOrDigit char || char == '@' || char == '.' || char == '_' || char == '-'

/-- The characters of names and versions are ASCII. -/
def slugChar (char : Char) : Char :=
  if isSlugChar char.toLower then char.toLower else '-'

def slugOf (name version : String) : String := String.ofList ((name ++ "@" ++ version).toList.map slugChar)

def depsVolumeName (host : ContainerHost) (name version : String) : String :=
  "oah-deps-" ++ String.ofList ((host.sha256 (slugOf name version)).toList.take 12)

end Volume

section Arguments

variable (host : ContainerHost) (spec : SandboxSpec)

def managerLabelValue : String := "openagenthub-runtime-" ++ host.runtimeVersion.getD "0.x"

def labels : List (String × String) :=
  [("oah.manager", managerLabelValue host), ("oah.package", spec.name), ("oah.version", spec.version),
    ("oah.sandbox", "container"), ("oah.run_id", spec.runId.getD "unknown"),
    ("oah.interface", spec.interfaceName.getD "cli"), ("oah.digest", spec.packageDigest.getD "unknown")]

def labelFlags : List String := (labels host spec).flatMap fun label => ["--label", label.1 ++ "=" ++ label.2]

def baseFlags : List String :=
  ["--rm", "--cap-drop", "ALL", "--security-opt", "no-new-privileges", "--pids-limit", "256", "--memory", "512m",
    "--cpus", "1", "--user", "10001:10001"] ++ labelFlags host spec ++
    (if spec.network then [] else ["--network", "none"]) ++
    (if "filesystem" ∈ spec.granted then ["--tmpfs", "/work:rw,size=64m"]
      else ["--read-only", "--tmpfs", "/tmp:rw,size=32m"])

def envFlags : List String := spec.env.entries.flatMap fun entry => ["--env", entry.1 ++ "=" ++ entry.2]

def mountFlags : List String := ["--volume", spec.agentDir ++ ":/app:ro", "--workdir", "/app"]

def volumeFlags : List String := ["--volume", depsVolumeName host spec.name spec.version ++ ":/deps"]

def resolveCommand (cmd : String) : String :=
  let envLine := if spec.language = .python then "export PYTHONPATH=/deps" else "export NODE_PATH=/deps/node_modules"
  "set -e; " ++ envLine ++ "; cd /app && " ++ cmd

def buildRunArgs (command : String) (envFile : Option String) : List String :=
  let flags := match envFile with
    | some path => ["--env-file", path]
    | none => envFlags spec
  ["run", "--interactive"] ++ baseFlags host spec ++ flags ++ mountFlags spec ++ volumeFlags host spec ++
    [resolveImage host spec.language, "/bin/sh", "-c", resolveCommand spec command]

/-- `/SECRET|TOKEN|KEY|PASSWORD/i`. -/
def namesSecret (name : String) : Bool :=
  ["SECRET", "TOKEN", "KEY", "PASSWORD"].any fun word => decide (word.toList <:+: name.toList.map Char.toUpper)

def secretEntries : List (String × String) := spec.env.entries.filter fun entry => namesSecret entry.1

/-- The path and the contents of the file that is written into the fresh directory `dir`. -/
def writeEnvFile (dir : String) : Option (String × String) :=
  if secretEntries spec = [] then none
  else some (dir ++ "/secrets.env", Text.join "\n" ((secretEntries spec).map fun entry => entry.1 ++ "=" ++ entry.2))

def runArgs (dir command : String) : List String × Option (String × String) :=
  let envFile := writeEnvFile spec dir
  (buildRunArgs host spec command (envFile.map Prod.fst), envFile)

end Arguments

section Prepare

variable (host : ContainerHost) (spec : SandboxSpec)

def hasDeps : Bool := spec.pip.any (· ≠ []) || spec.npm.any (· ≠ [])

def quote (text : String) : String :=
  let mark := "'"
  mark ++ String.ofList (text.toList.flatMap fun char => if [char] = mark.toList then "'\\''".toList else [char]) ++ mark

def noList : Thrown := ⟨.systemError, "Cannot read properties of undefined (reading 'map')"⟩

def installCommand : Except Thrown String :=
  if spec.language = .python then do
    let pip ← Outcome.demand spec.pip noList
    return "pip install --no-cache-dir --target /deps " ++ Text.join " " (pip.map quote)
  else do
    let npm ← Outcome.demand spec.npm noList
    return "npm install --prefix /deps --no-audit --no-fund --silent " ++ Text.join " " (npm.map quote)

/-- The arguments of the run that installs the dependencies into the volume, where there are any. -/
def installArgs : Except Thrown (Option (List String)) :=
  if hasDeps spec then do
    Outcome.ensure spec.network ⟨.error, "agent declares dependencies but network permission was not granted"⟩
    let command ← installCommand spec
    return some (["run"] ++ baseFlags host spec ++ envFlags spec ++ volumeFlags host spec ++
      [resolveImage host spec.language, "/bin/sh", "-c", command])
  else .ok none

end Prepare

end Runtime
