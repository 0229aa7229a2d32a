import OpenAgentHub.Cli.Installer
import OpenAgentHub.Sdk.ManifestChoice

namespace Cli

open Sdk Runtime Program

/-- Every file that is called like a manifest and that the extractor reaches holds this manifest, or none; and so does
    whatever is left of one of which the parser can have buffered the first bytes. -/
def OnlyManifest (host : Sdk.Host) (destRoot : List String) (entries : List Entry) (manifest : Json) : Prop :=
  ∀ before entry after amount, entries = before ++ entry :: after → Buffers host.highWaterMark before entry amount →
    entry.isCandidate → (acceptAll {} destRoot { disk := {} } (before ++ [entry])).isSome →
    ∀ other, loadManifest host (decodeText (entry.data.drop amount)) = .ok other → other = manifest

def Machine.savedSignature (machine : Machine) (key : AgentKey) : Option SignatureFile :=
  (machine.agentDirs (installedAgentDir machine.agentsDir key)).bind AgentDir.signature

/-- The signature beside the installed agent is for the agent and the version that were asked for, and the archive
    holds the manifest that was shown. -/
structure Bound (spec : Spec) (machine : Machine) (installed : Installation) : Prop where
  signed : ∃ record signature, machine.config.installed.get (agentKeyToString installed.key) = some record ∧
    machine.savedSignature installed.key = some signature ∧ signature.name = spec.fullName ∧
    signature.version = record.version ∧ ∀ version, spec.version = some version → record.version = version
  manifest : installed.unpacked = some installed.manifest

structure Consistent (around : Surroundings) (agentsDir : List String) (spec : Spec) (detail : AgentVersionDetail)
    (signature : SignatureFile) (archive : Buffer) : Prop where
  name : signature.name = spec.fullName
  version : signature.version = versionText detail.manifest
  requested : ∀ version, spec.version = some version → versionText detail.manifest = version
  manifests : OnlyManifest around.toHost
    (installedAgentDir agentsDir ⟨spec.namespaceName, spec.name, versionText detail.manifest⟩)
    (around.readArchive archive).entries detail.manifest

section Placing

variable {around : Surroundings} {faults : Faults} {dest : List String} {resolved : ResolvedPackage}
  {schedule : Schedule} {before after : Machine} {archive : Buffer} {signature : SignatureFile}
  {unpacked : Option Json}

@[simp] theorem setDir_setDir {machine : Machine} {first second : AgentDir} :
    (machine.setDir dest first).setDir dest second = machine.setDir dest second := by
  simp [Machine.setDir]

@[simp] theorem agentDirs_setDir {machine : Machine} {dir : AgentDir} : (machine.setDir dest dir).agentDirs dest = some dir := by
  simp [Machine.setDir]

def extractedDisk (around : Surroundings) (dest : List String) (archive : Buffer) (schedule : Schedule) : Disk :=
  ((extracted around.toHost {} dest {} (around.readArchive archive) schedule).map (·.tally.disk)).getD {}

theorem placeFiles_returns (hasArchive : resolved.archive = some archive) (hasSignature : resolved.signature = some signature) :
    Returns (placeFiles around faults dest resolved schedule) before unpacked after ↔
      (faults .removeDest = none ∧ faults .makeDest = none ∧ faults .unpackFiles = none ∧ faults .saveSignature = none ∧
          faults .saveArchive = none) ∧
        (∃ manifest, unpackAgent around.toHost {} dest {} (around.readArchive archive) schedule = some (.ok manifest) ∧
          unpacked = some manifest) ∧
        after = (before.remove dest).setDir dest
          ⟨extractedDisk around dest archive schedule, some signature, some archive⟩ := by
  simp only [placeFiles, hasArchive, hasSignature, unpackInto, saveBeside, returns_bind, returns_change,
    returns_await, returns_pure, Faults.returns_attempt]
  constructor
  · rintro ⟨_, _, ⟨removes, rfl⟩, _, _, rfl, _, _, ⟨makes, rfl⟩, _, _, rfl, manifest, _, ⟨_, _, rfl, _, _, ⟨writes, rfl⟩, unpacks, rfl⟩, _, _,
      ⟨_, _, ⟨signs, rfl⟩, _, _, rfl, _, _, ⟨archives, rfl⟩, rfl⟩, rfl, rfl⟩
    refine ⟨⟨removes, makes, writes, signs, archives⟩, ⟨manifest, unpacks, rfl⟩, ?_⟩
    simp [extractedDisk]
  · rintro ⟨⟨removes, makes, writes, signs, archives⟩, ⟨manifest, unpacks, rfl⟩, rfl⟩
    refine ⟨(), _, ⟨removes, rfl⟩, (), _, rfl, (), _, ⟨makes, rfl⟩, (), _, rfl, manifest, _, ⟨(), _, rfl, (), _, ⟨writes, rfl⟩, unpacks, rfl⟩, (), _,
      ⟨(), _, ⟨signs, rfl⟩, (), _, rfl, (), _, ⟨archives, rfl⟩, rfl⟩, rfl, ?_⟩
    simp [extractedDisk]

end Placing

section Installing

variable {around : Surroundings} {faults : Faults} {opts : InstallOptions} {now : Nat} {spec : String} {answers : Answers}
  {schedule others : Schedule} {before after : Machine} {installed : Installation}

structure Answered (spec : String) (answers : Answers) (parsed : Spec) (detail : AgentVersionDetail)
    (signature : SignatureFile) (archive : Buffer) : Prop where
  parses : parseSpec spec = .ok parsed
  tells : answers.detail = .ok detail
  signs : ∃ signed, answers.signed = .ok signed ∧ signed.signature = some signature
  sends : answers.archive = .ok archive

theorem plan_answered {config : OpenAgentHubConfig} {decided : Plan}
    (planned : plan around faults opts now config spec (.registry answers) = some (.ok decided)) :
    ∃ parsed detail signature archive, Answered spec answers parsed detail signature archive ∧
      decided.key = ⟨parsed.namespaceName, parsed.name, versionText detail.manifest⟩ ∧
      decided.resolved.manifest = detail.manifest ∧ decided.resolved.archive = some archive ∧
      decided.resolved.signature = some signature ∧ grantPermissions around opts detail.manifest = .ok decided.granted := by
  simp only [plan, resolve, resolveFromRegistry, downloadArchive, Option.bind_eq_bind, Option.bind_some, Option.pure_def,
    Option.some.injEq, Outcome.bind_eq_ok, Outcome.ensure_eq_ok, Outcome.demand_eq_ok, Outcome.pure_eq_ok] at planned
  obtain ⟨resolved, ⟨parsed, parses, detail, tells, _, _, _, ⟨signed, isSigned, signature, hasSignature, archive, sends, _, _,
    rfl⟩, _, _, _, _, _, _, rfl⟩, again, parsesAgain, _, _, _, _, _, _, granted, grants, rfl⟩ := planned
  obtain rfl : parsed = again := Except.ok.inj (parses.symm.trans parsesAgain)
  exact ⟨parsed, detail, signature, archive, ⟨parses, tells, ⟨signed, isSigned, hasSignature⟩, sends⟩, rfl, rfl, rfl, rfl,
    grants⟩

theorem Answered.unique {parsed other : Spec} {detail otherDetail : AgentVersionDetail} {signature otherSignature : SignatureFile}
    {archive otherArchive : Buffer} (answered : Answered spec answers parsed detail signature archive)
    (answeredToo : Answered spec answers other otherDetail otherSignature otherArchive) :
    other = parsed ∧ otherDetail = detail ∧ otherSignature = signature ∧ otherArchive = archive := by
  obtain ⟨parses, tells, ⟨signed, isSigned, has⟩, sends⟩ := answered
  obtain ⟨parsesToo, tellsToo, ⟨signedToo, isSignedToo, hasToo⟩, sendsToo⟩ := answeredToo
  obtain rfl : signed = signedToo := Except.ok.inj (isSigned.symm.trans isSignedToo)
  exact ⟨Except.ok.inj (parsesToo.symm.trans parses), Except.ok.inj (tellsToo.symm.trans tells),
    Option.some.inj (hasToo.symm.trans has), Except.ok.inj (sendsToo.symm.trans sends)⟩

theorem installAgent_returns {source : Source} :
    Returns (installAgent around faults opts now spec source schedule) before installed after ↔
      faults .loadConfig = none ∧ ∃ decided, plan around faults opts now before.config spec source = some (.ok decided) ∧
        ∃ unpacked placed,
          Returns (placeFiles around faults (installedAgentDir before.agentsDir decided.key) decided.resolved schedule) before
            unpacked placed ∧
          faults .recordInstall = none ∧ faults .saveGrantedPermissions = none ∧
          installed = ⟨decided.key, decided.resolved.manifest, unpacked, decided.resolved.signature, decided.granted⟩ ∧
          after = placed.setConfig (saveGrantedPermissions (recordInstall before.config (installedRecord around now decided))
            (agentKeyToString decided.key) decided.granted) := by
  simp only [installAgent, returns_bind, returns_liftExcept, returns_read, returns_change, returns_await, returns_pure,
    Faults.pass_ok]
  constructor
  · rintro ⟨_, _, ⟨loads, rfl⟩, _, _, ⟨rfl, rfl⟩, decided, _, ⟨planned, rfl⟩, unpacked, placed, places, _, _, ⟨records, rfl⟩,
      _, _, rfl, _, _, ⟨saves, rfl⟩, _, _, rfl, rfl, rfl⟩
    exact ⟨loads, decided, planned, unpacked, placed, places, records, saves, rfl, rfl⟩
  · rintro ⟨loads, decided, planned, unpacked, placed, places, records, saves, rfl, rfl⟩
    exact ⟨(), _, ⟨loads, rfl⟩, _, _, ⟨rfl, rfl⟩, decided, _, ⟨planned, rfl⟩, unpacked, placed, places, (), _, ⟨records, rfl⟩,
      (), _, rfl, (), _, ⟨saves, rfl⟩, (), _, rfl, rfl, rfl⟩

variable {parsed : Spec} {detail : AgentVersionDetail} {signature : SignatureFile} {archive : Buffer}

def answeredKey (parsed : Spec) (detail : AgentVersionDetail) : AgentKey :=
  ⟨parsed.namespaceName, parsed.name, versionText detail.manifest⟩

structure Leaves (around : Surroundings) (opts : InstallOptions) (before : Machine) (parsed : Spec) (detail : AgentVersionDetail)
    (signature : SignatureFile) (archive : Buffer) (schedule : Schedule) (installed : Installation) (after : Machine) :
    Prop where
  key : installed.key = answeredKey parsed detail
  manifest : installed.manifest = detail.manifest
  unpacks : ∃ manifest, unpackAgent around.toHost {} (installedAgentDir before.agentsDir (answeredKey parsed detail)) {}
    (around.readArchive archive) schedule = some (.ok manifest) ∧ installed.unpacked = some manifest
  granted : ∃ granted, grantPermissions around opts detail.manifest = .ok granted ∧
    after.config.permissions.get (agentKeyToString installed.key) = some granted
  record : ∃ record, after.config.installed.get (agentKeyToString installed.key) = some record ∧
    record.version = versionText detail.manifest
  signed : after.savedSignature installed.key = some signature

theorem installAgent_leaves (answered : Answered spec answers parsed detail signature archive)
    (returned : Returns (installAgent around faults opts now spec (.registry answers) schedule) before installed after) :
    Leaves around opts before parsed detail signature archive schedule installed after := by
  obtain ⟨_, decided, planned, unpacked, placed, places, _, _, rfl, rfl⟩ := installAgent_returns.mp returned
  obtain ⟨_, _, _, _, answeredToo, key, manifest, hasArchive, hasSignature, grants⟩ := plan_answered planned
  obtain ⟨rfl, rfl, rfl, rfl⟩ := answered.unique answeredToo
  rw [placeFiles_returns hasArchive hasSignature, key] at places
  obtain ⟨_, unpacks, rfl⟩ := places
  refine ⟨key, manifest, unpacks, ⟨decided.granted, grants, ?_⟩, ⟨installedRecord around now decided, ?_, ?_⟩, ?_⟩
  · simp [Machine.setConfig, saveGrantedPermissions]
  · have label : agentKeyToString ⟨(installedRecord around now decided).namespaceName, (installedRecord around now decided).name,
        (installedRecord around now decided).version⟩ = agentKeyToString decided.key := rfl
    simp [Machine.setConfig, saveGrantedPermissions, recordInstall, label]
  · rw [installedRecord, key]
  · simp only [Machine.savedSignature, Machine.setConfig, key]
    change (((before.remove _).setDir _ _).agentDirs (installedAgentDir before.agentsDir _)).bind _ = _
    rw [agentDirs_setDir]
    rfl

theorem installAgent_again (answered : Answered spec answers parsed detail signature archive)
    (returned : Returns (installAgent around faults opts now spec (.registry answers) schedule) before installed after)
    {other : Json} (unpacks : unpackAgent around.toHost {} (installedAgentDir before.agentsDir (answeredKey parsed detail)) {}
      (around.readArchive archive) others = some (.ok other)) :
    ∃ installed after, Returns (installAgent around faults opts now spec (.registry answers) others) before installed after := by
  obtain ⟨loads, decided, planned, unpacked, placed, places, records, saves, rfl, rfl⟩ := installAgent_returns.mp returned
  obtain ⟨_, _, _, _, answeredToo, key, _, hasArchive, hasSignature, _⟩ := plan_answered planned
  obtain ⟨rfl, rfl, rfl, rfl⟩ := answered.unique answeredToo
  rw [placeFiles_returns hasArchive hasSignature] at places
  obtain ⟨passes, _, _⟩ := places
  have dest : installedAgentDir before.agentsDir (answeredKey _ _) = installedAgentDir before.agentsDir decided.key :=
    congrArg (installedAgentDir before.agentsDir) key.symm
  rw [dest] at unpacks
  have placesToo : Returns (placeFiles around faults _ decided.resolved others) before (some other) _ :=
    (placeFiles_returns hasArchive hasSignature).mpr ⟨passes, ⟨other, unpacks, rfl⟩, rfl⟩
  exact ⟨_, _, installAgent_returns.mpr ⟨loads, decided, planned, some other, _, placesToo, records, saves, rfl, rfl⟩⟩

/-- Every installation that a registry can bring about with these answers is bound to the request exactly when the
    answers are consistent: the installer itself never compares them. -/
theorem install_binding_iff (answered : Answered spec answers parsed detail signature archive)
    (succeeds : ∃ schedule installed after,
      Returns (installAgent around faults opts now spec (.registry answers) schedule) before installed after) :
    (∀ schedule installed after, Returns (installAgent around faults opts now spec (.registry answers) schedule) before installed
      after → Bound parsed after installed) ↔
      Consistent around before.agentsDir parsed detail signature archive := by
  constructor
  · intro binds
    obtain ⟨schedule, installed, after, returned⟩ := succeeds
    obtain ⟨⟨record, saved, isRecord, isSaved, name, version, requested⟩, _⟩ := binds _ _ _ returned
    have leaves := installAgent_leaves answered returned
    obtain ⟨its, isIts, itsVersion⟩ := leaves.record
    obtain rfl : record = its := Option.some.inj (isRecord.symm.trans isIts)
    obtain rfl : saved = signature := Option.some.inj (isSaved.symm.trans leaves.signed)
    rw [itsVersion] at version requested
    refine ⟨name, version, requested, ?_⟩
    intro first entry rest amount entries loses candidate accepted other loaded
    obtain ⟨others, unpacks⟩ := unpackAgent_chooses around.toHost _ entries loses accepted candidate
    rw [loaded] at unpacks
    obtain ⟨installedToo, afterToo, returnedToo⟩ := installAgent_again answered returned unpacks
    have bound := binds _ _ _ returnedToo
    have leavesToo := installAgent_leaves answered returnedToo
    obtain ⟨manifest, unpacksToo, isUnpacked⟩ := leavesToo.unpacks
    obtain rfl : other = manifest := Except.ok.inj (Option.some.inj (unpacks.symm.trans unpacksToo))
    have same := bound.manifest
    rw [isUnpacked, leavesToo.manifest] at same
    exact Option.some.inj same
  · intro consistent schedule installed after returned
    have leaves := installAgent_leaves answered returned
    obtain ⟨record, isRecord, version⟩ := leaves.record
    refine ⟨⟨record, signature, isRecord, leaves.signed, consistent.name, ?_, ?_⟩, ?_⟩
    · rw [version]
      exact consistent.version
    · rw [version]
      exact consistent.requested
    · obtain ⟨manifest, unpacks, isUnpacked⟩ := leaves.unpacks
      obtain ⟨first, entry, rest, amount, entries, loses, candidate, accepted, loaded⟩ := unpackAgent_returns unpacks
      rw [isUnpacked, leaves.manifest]
      exact congrArg some (consistent.manifests first entry rest amount entries loses candidate accepted manifest loaded)

end Installing

section Samples

def sampleDigest : String := "5891b5b522d5df086d0ff0b110fbd9d21bb4fc7163af34d08286a2e846f6be03"

def sampleSurroundings (entry : Entry) : Surroundings :=
  { sampleHost with
    sha256Hex := fun _ => sampleDigest
    derOfKey := fun _ => .ok []
    nodeVerify := fun payload signature publicKey => .ok (signature == publicKey ++ payload)
    readArchive := fun _ => ⟨[entry], none⟩
    checkAgentRequirements := fun _ => .ok ⟨true, []⟩
    answer := fun _ _ => true }

def sampleSignature (name version : String) : SignatureFile where
  publicKey := "key"
  publicKeyId := "5891b5b522d5df08"
  sha256 := sampleDigest
  name := name
  version := version
  signature := "key" ++ signaturePayload name version sampleDigest

def sampleAnswers (name version : String) : Answers where
  detail := .ok { manifest := sampleManifest "none" }
  signed := .ok { manifest := sampleManifest "none", signature := some (sampleSignature name version) }
  archive := .ok []

def sampleMachine : Machine where
  agentsDir := ["home", "agents"]

def sampleSpec : Spec := ⟨"demo", "hello", some "1.0.0"⟩

theorem sample_answered {name version : String} : Answered "demo/hello@1.0.0" (sampleAnswers name version) sampleSpec
    { manifest := sampleManifest "none" } (sampleSignature name version) [] := by
  refine ⟨?_, rfl, ⟨_, rfl, rfl⟩, rfl⟩
  have matched : matchSpec "demo/hello@1.0.0".toList = some sampleSpec := by decide +kernel
  rw [parseSpec, matched]
  rfl

abbrev sampleInstall (entry : Entry) (name version : String) (schedule : Schedule) : Program Machine Thrown Installation :=
  installAgent (sampleSurroundings entry) (fun _ => none) {} 0 "demo/hello@1.0.0" (.registry (sampleAnswers name version)) schedule

theorem sample_installs (entry : Entry) (name version : String) {machine : Machine} {manifest : Json}
    (located : machine.agentsDir = ["home", "agents"])
    (planned : ((plan (sampleSurroundings entry) (fun _ => none) {} 0 machine.config "demo/hello@1.0.0"
      (.registry (sampleAnswers name version))).bind Except.toOption).isSome)
    (accepted : (acceptAll {} ["home", "agents", "demo", "hello", "1.0.0"] { disk := {} } ([] ++ [entry])).isSome)
    (candidate : entry.isCandidate) (loaded : loadManifest sampleHost (decodeText entry.data) = .ok manifest) :
    ∃ schedule installed after, Returns (sampleInstall entry name version schedule) machine installed after ∧
      installed.unpacked = some manifest := by
  obtain ⟨decided, planned⟩ := Option.isSome_iff_exists.mp planned
  obtain ⟨outcome, planned, isOk⟩ := Option.bind_eq_some_iff.mp planned
  rw [Outcome.toOption_eq_some.mp isOk] at planned
  obtain ⟨_, _, _, _, answered, key, _, hasArchive, hasSignature, _⟩ := plan_answered planned
  obtain ⟨rfl, rfl, rfl, rfl⟩ := sample_answered.unique answered
  obtain ⟨schedule, unpacks⟩ := unpackAgent_chooses sampleHost ⟨[entry], none⟩ rfl (.inl rfl) accepted candidate
  rw [List.drop_zero, loaded] at unpacks
  have dest : installedAgentDir machine.agentsDir decided.key = ["home", "agents", "demo", "hello", "1.0.0"] := by
    rw [key, located]
    decide +kernel
  rw [← dest] at unpacks
  have places : Returns (placeFiles (sampleSurroundings entry) (fun _ => none) _ decided.resolved schedule) machine
      (some manifest) _ :=
    (placeFiles_returns hasArchive hasSignature).mpr ⟨⟨rfl, rfl, rfl, rfl, rfl⟩, ⟨manifest, unpacks, rfl⟩, rfl⟩
  exact ⟨schedule, _, _, installAgent_returns.mpr ⟨rfl, decided, planned, some manifest, _, places, rfl, rfl, rfl, rfl⟩, rfl⟩

theorem install_binding_iff_sample :
    (∃ schedule installed after, Returns (sampleInstall rootEntry "demo/hello" "1.0.0" schedule) sampleMachine installed after) ∧
      ∀ schedule installed after, Returns (sampleInstall rootEntry "demo/hello" "1.0.0" schedule) sampleMachine installed after →
        Bound sampleSpec after installed := by
  obtain ⟨schedule, installed, after, returned, _⟩ := sample_installs rootEntry "demo/hello" "1.0.0"
    (show sampleMachine.agentsDir = _ from rfl) (by decide +kernel) (by decide +kernel) ⟨rfl, by decide +kernel⟩ rootEntry_loads
  have succeeds : ∃ schedule installed after,
      Returns (sampleInstall rootEntry "demo/hello" "1.0.0" schedule) sampleMachine installed after :=
    ⟨schedule, installed, after, returned⟩
  refine ⟨succeeds, (install_binding_iff sample_answered succeeds).mpr ⟨by decide +kernel, by decide +kernel, ?_, ?_⟩⟩
  · intro version requested
    cases requested
    decide +kernel
  · intro first entry rest amount entries loses _ _ other loaded
    have sole : [rootEntry] = first ++ entry :: rest := entries
    obtain ⟨rfl, rfl⟩ : first = [] ∧ rootEntry = entry := by
      cases first with
      | nil => exact ⟨rfl, (List.cons_eq_cons.mp sole).1⟩
      | cons head more => simp at sole
    obtain rfl : amount = 0 := by
      rcases loses with none | ⟨_, big, isBig, _⟩
      · exact none
      · cases isBig
    rw [List.drop_zero] at loaded
    exact Except.ok.inj (loaded.symm.trans rootEntry_loads)

def networkEntry : Entry := { rootEntry with data := sampleData "network" }

theorem networkEntry_loads : loadManifest sampleHost (decodeText networkEntry.data) = .ok (sampleManifest "network") := by
  rw [show networkEntry.data = sampleData "network" by simp only [networkEntry], loadManifest_sampleData parseSample_network]

/-- The registry shows a manifest that asks for nothing, and sends the archive and the signature of another agent. -/
theorem foreign_archive_is_installed :
    ∃ schedule installed after, Returns (sampleInstall networkEntry "other/tool" "2.0.0" schedule) sampleMachine installed after ∧
      installed.manifest = sampleManifest "none" ∧ installed.unpacked = some (sampleManifest "network") ∧
      after.savedSignature installed.key = some (sampleSignature "other/tool" "2.0.0") ∧ ¬ Bound sampleSpec after installed := by
  obtain ⟨schedule, installed, after, returned, unpacked⟩ := sample_installs networkEntry "other/tool" "2.0.0"
    (show sampleMachine.agentsDir = _ from rfl) (by decide +kernel) (by decide +kernel) ⟨rfl, by decide +kernel⟩ networkEntry_loads
  have leaves := installAgent_leaves sample_answered returned
  refine ⟨schedule, installed, after, returned, leaves.manifest, unpacked, leaves.signed, ?_⟩
  intro bound
  obtain ⟨_, signature, _, saved, name, _⟩ := bound.signed
  obtain rfl := Option.some.inj (saved.symm.trans leaves.signed)
  exact absurd name (by decide +kernel)

end Samples

end Cli
