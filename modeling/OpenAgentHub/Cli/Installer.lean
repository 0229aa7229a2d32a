import OpenAgentHub.Lib.Program
import OpenAgentHub.Runtime.Config

namespace Cli

open Sdk Runtime

structure Spec where
  namespaceName : String
  name : String
  version : Option String := none
  deriving DecidableEq, Repr

def Spec.fullName (spec : Spec) : String := spec.namespaceName ++ "/" ++ spec.name

def plainError (message : String) : Thrown := ⟨.error, message⟩

/-- `[a-z0-9][…]*[a-z0-9]`, with the characters that are allowed in between. -/
def isLabel (inner : Char → Bool) (chars : List Char) : Bool :=
  2 ≤ chars.length && chars.all (fun char => Text.isLowerOrDigit char || inner char) &&
    chars.head?.any Text.isLowerOrDigit && chars.getLast?.any Text.isLowerOrDigit

/-- What `.` does not match. -/
def isLineTerminator (char : Char) : Bool :=
  char == '\n' || char == '\r' || char.toNat == 0x2028 || char.toNat == 0x2029

/-- Neither part of the name can contain the separator that follows it, so the pattern matches in one way only. -/
def matchSpec (chars : List Char) : Option Spec :=
  let namespaceName := chars.takeWhile (· != '/')
  match chars.dropWhile (· != '/') with
  | [] => none
  | _ :: rest =>
    let name := rest.takeWhile (· != '@')
    let version := (rest.dropWhile (· != '@')).drop 1
    if isLabel (· == '-') namespaceName && isLabel (fun char => char == '_' || char == '-') name &&
        !version.any isLineTerminator then
      some ⟨String.ofList namespaceName, String.ofList name, if version = [] then none else some (String.ofList version)⟩
    else none

def parseSpec (spec : String) : Except Thrown Spec :=
  Outcome.demand (matchSpec spec.toList)
    (plainError ("invalid agent spec '" ++ spec ++ "'. Expected namespace/name[@version]"))

structure InstallOptions where
  forceYes : Bool := false
  noPermissions : Bool := false
  registryUrl : Option String := none
  force : Bool := false

inductive Call where
  | loadConfig | stageArchive | removeDest | makeDest | unpackFiles | saveSignature | saveArchive | copyFiles
  | recordInstall | saveGrantedPermissions
  deriving DecidableEq, Repr

structure AgentDir where
  disk : Disk := {}
  signature : Option SignatureFile := none
  archive : Option Buffer := none

abbrev AgentDirs := List String → Option AgentDir

/-- A refused call, with what it has made of the agents' directories before it gives up. -/
structure Refusal where
  error : Thrown
  left : AgentDirs → AgentDirs := id

abbrev Faults := Call → Option Refusal

def Faults.pass (faults : Faults) (call : Call) : Except Thrown Unit :=
  match faults call with
  | some refusal => .error refusal.error
  | none => .ok ()

@[simp] theorem Faults.pass_ok {faults : Faults} {call : Call} {done : Unit} :
    faults.pass call = .ok done ↔ faults call = none := by
  unfold Faults.pass
  split <;> simp_all

structure RequirementCheck where
  satisfied : Bool
  missing : List String

/-- What surrounds the installer: libraries, the machine as `detectRuntime` finds it, and the user at the prompt,
    who is asked the questions of one `confirmAll` in their order. -/
structure Surroundings extends Crypto, Sdk.Host where
  readArchive : Buffer → Archive
  checkAgentRequirements : Json → Except Thrown RequirementCheck
  answer : Nat → String → Bool

structure ResolvedPackage where
  manifest : Json
  archive : Option Buffer := none
  project : Disk := {}
  signature : Option SignatureFile := none
  trust : TrustLevel
  source : String
  reviewStatus : Option String := none
  statusCheckedAt : Option Nat := none

/-- Where the package comes from, with what is found there. For a file the schedule is that of its first
    unpacking, below a directory of `tmpdir()`. -/
inductive Source where
  | registry (answers : Answers)
  | file (path : String) (signature : Except Thrown SignatureFile) (archive : Except Thrown Buffer)
      (tmp : List String) (schedule : Schedule)
  | dir (path : String) (manifest : Except Thrown Json) (project : Disk)

section Resolving

variable (around : Surroundings) (faults : Faults)

def blockedReview (detail : AgentVersionDetail) : Bool :=
  detail.reviewStatus == some "rejected" || detail.reviewStatus == some "revoked"

def resolveFromRegistry (now : Nat) (registryUrl spec : String) (answers : Answers) : Except Thrown ResolvedPackage := do
  let ⟨namespaceName, name, _⟩ ← parseSpec spec
  let detail ← answers.detail
  Outcome.ensure (detail.manifest.isNull = false) ⟨.systemError, "Cannot read properties of null (reading 'version')"⟩
  let version := versionText detail.manifest
  let (buffer, signature) ← downloadArchive answers
  faults.pass .stageArchive
  verifySignatureFileStrict around.toCrypto signature buffer
  Outcome.ensure (blockedReview detail = false)
    (plainError ("version " ++ namespaceName ++ "/" ++ name ++ "@" ++ version ++ " is " ++ detail.reviewStatus.getD "" ++
      " by the registry: " ++ detail.reviewReason.getD "no reason recorded"))
  return { manifest := detail.manifest
           archive := some buffer
           signature := some signature
           trust := if detail.securityStatus = some "flagged" then .untrusted else detail.trust.getD .unknown
           reviewStatus := detail.reviewStatus
           statusCheckedAt := some now
           source := registryUrl ++ "/api/v1/agents/" ++ namespaceName ++ "/" ++ name ++ "/versions/" ++ version ++ "/archive" }

/-- A signature that is missing or does not verify is left out. -/
def fileSignature (signature : Except Thrown SignatureFile) (archive : Except Thrown Buffer) : Option SignatureFile :=
  Except.toOption do
    let signature ← signature
    let archive ← archive
    verifySignatureFileStrict around.toCrypto signature archive
    return signature

def resolve (now : Nat) (registryUrl spec : String) : Source → Option (Except Thrown ResolvedPackage)
  | .registry answers => some (resolveFromRegistry around faults now registryUrl spec answers)
  | .file path signature archive tmp schedule =>
    match archive with
    | .error error => some (.error error)
    | .ok buffer => do
      let unpacked ← unpackAgent around.toHost {} tmp {} (around.readArchive buffer) schedule
      return unpacked.map fun manifest =>
        { manifest, archive := some buffer, signature := fileSignature around signature archive, trust := .unknown,
          source := "file:" ++ path }
  | .dir path manifest project => some (manifest.map fun manifest =>
      { manifest, project, trust := .local, source := "dir:" ++ path })

end Resolving

section Permissions

variable (around : Surroundings)

def confirmAll (questions : List String) (forceYes : Bool) : List Bool :=
  if forceYes then questions.map fun _ => true
  else questions.zipIdx.map fun question => around.answer question.2 question.1

/-- `requestedPermissions`, on a manifest that may hold anything. A string has `includes` as well, and is iterated
    over by its characters. -/
def requestedItems (manifest : Json) : Except Thrown (List Json) :=
  match manifest.get "permissions" with
  | none | some .null => .ok []
  | some (.arr items) => .ok (if items.any (·.asString == some "none") then [.str "none"] else items)
  | some (.str text) => .ok
      (if "none".toList <:+: text.toList then [.str "none"] else text.toList.map fun char => .str (String.ofList [char]))
  | some _ => .error ⟨.systemError, "perms.includes is not a function"⟩

/-- Only an array has `map`. -/
def isMappable (manifest : Json) : Bool :=
  match manifest.get "permissions" with
  | some (.str _) => false
  | _ => true

def isUnrestricted : List Json → Bool
  | [] => true
  | [.str text] => text == "none"
  | _ => false

def checkRequirements (opts : InstallOptions) (manifest : Json) : Except Thrown Unit := do
  let req ← around.checkAgentRequirements manifest
  let question := "missing runtime components (" ++ Text.join ", " req.missing ++ "). install anyway?"
  Outcome.ensure (req.satisfied ∨ opts.forceYes ∨ confirmAll around [question] false = [true])
    (plainError "aborted: missing runtime requirements")

def grantPermissions (opts : InstallOptions) (manifest : Json) : Except Thrown GrantedPermissions := do
  let perms ← requestedItems manifest
  let names := perms.map Json.toText
  if isUnrestricted perms then return Record.setAll {} (names.map (·, true))
  else if opts.noPermissions then return Record.setAll {} (names.map (·, false))
  else
    Outcome.ensure (isMappable manifest) ⟨.systemError, "perms.map is not a function"⟩
    let name := ((manifest.get "name").getD .null).toText
    let answers := confirmAll around (names.map fun item => "grant '" ++ item ++ "' permission to " ++ name ++ "?") opts.forceYes
    return Record.setAll {} (names.zip answers)

end Permissions

structure Machine where
  config : OpenAgentHubConfig := {}
  agentsDir : List String
  agentDirs : AgentDirs := fun _ => none

namespace Machine

variable (machine : Machine)

/-- `rmSync(dest, { recursive: true, force: true })`. -/
def remove (dest : List String) : Machine :=
  { machine with agentDirs := fun path => if dest <+: path then none else machine.agentDirs path }

def setDir (dest : List String) (dir : AgentDir) : Machine :=
  { machine with agentDirs := Function.update machine.agentDirs dest (some dir) }

def setConfig (config : OpenAgentHubConfig) : Machine := { machine with config }

end Machine

def Faults.attempt (faults : Faults) (call : Call) : Program Machine Thrown Unit :=
  match faults call with
  | some refusal => do
    Program.change fun machine => { machine with agentDirs := refusal.left machine.agentDirs }
    Program.liftExcept (.error refusal.error)
  | none => pure ()

@[simp] theorem Faults.returns_attempt {faults : Faults} {call : Call} {before after : Machine} {done : Unit} :
    Program.Returns (faults.attempt call) before done after ↔ faults call = none ∧ before = after := by
  unfold Faults.attempt
  split
  next _ refused => simp [refused]
  next passed => simp [passed]

/-- What `installAgent` has worked with when it returns: the manifest it has shown, the one that `unpackAgent` has
    returned, and the agent. -/
structure Installation where
  key : AgentKey
  manifest : Json
  unpacked : Option Json
  signature : Option SignatureFile
  granted : GrantedPermissions

structure Plan where
  key : AgentKey
  resolved : ResolvedPackage
  granted : GrantedPermissions

section Installing

variable (around : Surroundings) (faults : Faults) (opts : InstallOptions) (now : Nat)

def plan (config : OpenAgentHubConfig) (spec : String) (source : Source) : Option (Except Thrown Plan) := do
  let registryUrl := opts.registryUrl.getD (config.registryUrl.getD registryDefault)
  let resolved ← resolve around faults now registryUrl spec source
  return do
    let resolved ← resolved
    let ⟨namespaceName, name, _⟩ ← parseSpec spec
    let manifest := resolved.manifest
    Outcome.ensure ((manifest.get "name").bind Json.asString = some (namespaceName ++ "/" ++ name))
      (plainError ("manifest name '" ++ (((manifest.get "name").map Json.toText).getD "undefined") ++
        "' does not match requested spec '" ++ namespaceName ++ "/" ++ name ++ "'"))
    let key : AgentKey := ⟨namespaceName, name, versionText manifest⟩
    let label := agentKeyToString key
    Outcome.ensure ((config.installed.get label).isNone ∨ opts.force)
      (plainError (label ++ " is already installed (reinstall with: openagenthub install " ++ label ++ " --force)"))
    checkRequirements around opts manifest
    let granted ← grantPermissions around opts manifest
    return ⟨key, resolved, granted⟩

/-- The files of the archive are on the disk whether or not `unpackAgent` succeeds. -/
def unpackInto (dest : List String) (archive : Buffer) (schedule : Schedule) : Program Machine Thrown Json := do
  Program.change fun machine => machine.setDir dest
    { disk := ((extracted around.toHost {} dest {} (around.readArchive archive) schedule).map (·.tally.disk)).getD {} }
  faults.attempt .unpackFiles
  Program.await (unpackAgent around.toHost {} dest {} (around.readArchive archive) schedule)

def saveBeside (dest : List String) (archive : Buffer) : Option SignatureFile → Program Machine Thrown Unit
  | none => pure ()
  | some signature => do
    faults.attempt .saveSignature
    Program.change fun machine => machine.setDir dest { (machine.agentDirs dest).getD {} with signature := some signature }
    faults.attempt .saveArchive
    Program.change fun machine => machine.setDir dest { (machine.agentDirs dest).getD {} with archive := some archive }

def placeFiles (dest : List String) (resolved : ResolvedPackage) (schedule : Schedule) :
    Program Machine Thrown (Option Json) := do
  faults.attempt .removeDest
  Program.change fun machine => machine.remove dest
  faults.attempt .makeDest
  Program.change fun machine => machine.setDir dest {}
  match resolved.archive with
  | some archive => do
    let unpacked ← unpackInto around faults dest archive schedule
    saveBeside faults dest archive resolved.signature
    return some unpacked
  | none => do
    faults.attempt .copyFiles
    Program.change fun machine => machine.setDir dest { disk := resolved.project }
    return none

def installedRecord (plan : Plan) : InstalledAgent where
  namespaceName := plan.key.namespaceName
  name := plan.key.name
  version := plan.key.version
  author := ((plan.resolved.manifest.get "author").map Json.toText).getD "undefined"
  trust := plan.resolved.trust
  installedAt := now
  source := plan.resolved.source
  signatureKeyId := plan.resolved.signature.map SignatureFile.publicKeyId
  reviewStatus := plan.resolved.reviewStatus
  statusCheckedAt := plan.resolved.statusCheckedAt
  archiveDigest := plan.resolved.archive.map around.sha256Hex

/-- The configuration that is written is the one that was loaded at the start. -/
def installAgent (spec : String) (source : Source) (schedule : Schedule) : Program Machine Thrown Installation := do
  Program.liftExcept (faults.pass .loadConfig)
  let machine ← Program.read id
  let config := machine.config
  let plan ← Program.await (plan around faults opts now config spec source)
  let dest := installedAgentDir machine.agentsDir plan.key
  let unpacked ← placeFiles around faults dest plan.resolved schedule
  Program.liftExcept (faults.pass .recordInstall)
  let recorded := recordInstall config (installedRecord around now plan)
  Program.change fun machine => machine.setConfig recorded
  Program.liftExcept (faults.pass .saveGrantedPermissions)
  let granted := saveGrantedPermissions recorded (agentKeyToString plan.key) plan.granted
  Program.change fun machine => machine.setConfig granted
  return ⟨plan.key, plan.resolved.manifest, unpacked, plan.resolved.signature, plan.granted⟩

end Installing

end Cli
