import OpenAgentHub.Cli.InstallBinding
import OpenAgentHub.Registry.Packages.Alias
import OpenAgentHub.Registry.Packages.Catalog
import OpenAgentHub.Registry.Packages.Feed
import OpenAgentHub.Registry.Packages.Publication
import OpenAgentHub.Registry.Packages.UrlGrants

namespace Cli.Delivery

open Relational Registry.Packages Runs Program
open Sdk (Buffer Answers versionText)
open Registry (SignatureFile Agent AgentVersion Db Time)

structure Visit where
  now : Time
  system : System

/-- The requests of one installation: `getVersion`, the `getVersion` of `downloadArchive`, the request for a URL, which only
    a client with a token makes, and the download. -/
structure Visits where
  told : Visit
  signed : Visit
  granted : Visit
  sent : Visit

section Requests

def clientSignature (sig : SignatureFile) : Sdk.SignatureFile where
  schemaVersion := sig.schemaVersion
  publicKey := sig.publicKey
  publicKeyId := sig.publicKeyId
  sha256 := sig.sha256
  name := sig.name
  version := sig.version
  signature := sig.signature

def clientTrust : Trust → Sdk.TrustLevel
  | .unknown => .unknown
  | .untrusted => .untrusted

def clientDetail (detail : AgentVersionDetail) : Sdk.AgentVersionDetail where
  manifest := detail.manifest
  reviewStatus := some detail.reviewStatus.name
  reviewReason := detail.reviewReason
  trust := some (clientTrust detail.trust)
  securityStatus := some (SecurityStatus.name detail.security.1)
  signature := some (clientSignature detail.signature)

variable (host : PackageHost) (visits : Visits) (caller : Option Subject) (namespaceName name version : String)

def getVersion (visit : Visit) : Except Registry.Raised Sdk.AgentVersionDetail := do
  let detail ← getVersionDetail visit.now visit.system.db namespaceName name version caller
  return clientDetail detail

/-- A client with a token asks for a URL and follows it without the token. -/
def sendArchive : Except Registry.Raised Buffer :=
  match caller with
  | none => do
    let download ← downloadArchive visits.sent.system.db visits.sent.system.files namespaceName name version none
    return download.data
  | some caller => do
    let (_, url) ← issueDownloadUrl host visits.granted.now visits.granted.system.db namespaceName name version (some caller)
    let download ← downloadArchiveViaToken host visits.sent.now visits.sent.system.db visits.sent.system.files
      url.target.namespaceName url.target.name url.target.version (downloadToken host url.target url.expiresEpoch)
    return download.data

end Requests

/-- Any request can fail. One that succeeds is answered by the registry, except that a version such as `..` makes the first
    one a request for something else, which has no manifest. -/
structure Relayed (host : PackageHost) (visits : Visits) (caller : Option Subject) (spec : Spec) (answers : Answers) : Prop where
  detail : ∀ detail, answers.detail = .ok detail → detail.manifest.isNull = true ∨
    getVersion caller spec.namespaceName spec.name (spec.version.getD "latest") visits.told = .ok detail
  signed : ∀ detail signed, answers.detail = .ok detail → answers.signed = .ok signed →
    getVersion caller spec.namespaceName spec.name (versionText detail.manifest) visits.signed = .ok signed
  archive : ∀ detail archive, answers.detail = .ok detail → answers.archive = .ok archive →
    sendArchive host visits caller spec.namespaceName spec.name (versionText detail.manifest) = .ok archive

def thrown {α : Type} : Except Registry.Raised α → Except Sdk.Thrown α
  | .ok value => .ok value
  | .error raised => .error ⟨.registryError, raised.message⟩

theorem thrown_eq_ok {α : Type} {outcome : Except Registry.Raised α} {value : α} : thrown outcome = .ok value ↔ outcome = .ok value := by
  cases outcome with
  | error raised => simp [thrown]
  | ok answer => simp [thrown]

def answersOf (host : PackageHost) (visits : Visits) (caller : Option Subject) (spec : Spec) : Answers :=
  let told := getVersion caller spec.namespaceName spec.name (spec.version.getD "latest") visits.told
  { detail := thrown told
    signed := thrown do getVersion caller spec.namespaceName spec.name (versionText (← told).manifest) visits.signed
    archive := thrown do sendArchive host visits caller spec.namespaceName spec.name (versionText (← told).manifest) }

theorem answersOf_relayed (host : PackageHost) (visits : Visits) (caller : Option Subject) (spec : Spec) :
    Relayed host visits caller spec (answersOf host visits caller spec) where
  detail _ told := .inr (thrown_eq_ok.mp told)
  signed _ _ told signs := by
    have signs := thrown_eq_ok.mp signs
    rw [thrown_eq_ok.mp told] at signs
    exact signs
  archive _ _ told sends := by
    have sends := thrown_eq_ok.mp sends
    rw [thrown_eq_ok.mp told] at sends
    exact sends

structure InOrder (host : PackageHost) (start : System) (visits : Visits) : Prop where
  told : Reaches (Steps host) start visits.told.system
  signed : Reaches (Steps host) visits.told.system visits.signed.system
  granted : Reaches (Steps host) visits.signed.system visits.granted.system
  sent : Reaches (Steps host) visits.granted.system visits.sent.system

def Machine.savedArchive (machine : Machine) (key : Runtime.AgentKey) : Option Buffer :=
  (machine.agentDirs (Runtime.installedAgentDir machine.agentsDir key)).bind AgentDir.archive

/-- The machine has installed this version of this package, as it stands in the registry when the archive is sent. -/
structure Delivered (host : PackageHost) (start : System) (visits : Visits) (around : Surroundings) (spec : Spec) (after : Machine)
    (installed : Installation) (agent : Agent) (row : AgentVersion) : Prop where
  known : agentByName visits.sent.system.db spec.namespaceName spec.name = some agent
  listed : versionByName visits.sent.system.db agent row.version = some row
  requested : ∀ version, spec.version = some version → version ≠ "latest" → row.version = version
  admissible : blockedDownloadReason row = none
  key : installed.key = ⟨spec.namespaceName, spec.name, row.version⟩
  shown : installed.manifest = row.manifest
  recorded : ∃ record, after.config.installed.get (Runtime.agentKeyToString installed.key) = some record ∧
    record.namespaceName = spec.namespaceName ∧ record.name = spec.name ∧ record.version = row.version ∧
    record.archiveDigest = some row.sha256 ∧ record.signatureKeyId = some row.signature.publicKeyId
  signed : after.savedSignature installed.key = some (clientSignature row.signature)
  archive : ∃ archive, Machine.savedArchive after installed.key = some archive ∧ around.sha256Hex archive = row.sha256 ∧
    visits.sent.system.files.get spec.namespaceName spec.name row.version = .ok (some archive)
  intact : Intact host start visits.sent.system spec.namespaceName spec.name (release row)

section Releases

variable {host : PackageHost} {start before after : System} {db : Db} {namespaceName name version : String} {agent other : Agent}
  {row its : AgentVersion}

/-- A version that is committed was admitted under its name, which the schema has seen. -/
theorem sound_unaliased (schooled : Schooled host) (sound : Registry.Packages.Sound host start before) : Unaliased before.db := by
  intro row stored isAlias
  obtain ⟨agent, _, _, intact⟩ := sound.versions row stored
  obtain ⟨user, submission, _, _, _, _, versioned, _, earlier, next, _, begins, _⟩ := intact.published
  have admitted : (admitSubmission host (release row).publishedAt earlier.db user submission).toOption.isSome = true := by
    change beginPublish host earlier user _ submission = some next at begins
    unfold beginPublish at begins
    obtain ⟨admitted, admits, _⟩ := Option.bind_eq_some_iff.mp begins
    rw [admits]
    rfl
  obtain ⟨⟨db, admission⟩, admits⟩ := Option.isSome_iff_exists.mp admitted
  have admits := Outcome.toOption_eq_some.mp admits
  have states := (admitSubmission_ok admits).1.manifest
  rw [versioned, show (release row).version = "latest" from isAlias] at states
  exact schooled.schema _ _ states (admitSubmission_schema admits)

theorem resolveVersion_listed (resolved : resolveVersion db agent version = some row) :
    versionByName db agent row.version = some row ∧ (version ≠ "latest" → row.version = version) := by
  unfold resolveVersion at resolved
  split at resolved
  · next isAlias => exact ⟨versionByName_of_mem (latest_eq_some.mp resolved).mem, fun proper => absurd isAlias proper⟩
  · obtain ⟨_, _, same⟩ := versionByName_eq_some.mp resolved
    exact ⟨same.symm ▸ resolved, fun _ => same⟩

/-- The same name and version stand for the same release later on. -/
theorem release_kept (kept : Kept before after) (known : agentByName before.db namespaceName name = some agent)
    (listed : versionByName before.db agent version = some row) (knownToo : agentByName after.db namespaceName name = some other)
    (listedToo : versionByName after.db other version = some its) : release its = release row := by
  obtain ⟨stored, owned, versioned⟩ := versionByName_eq_some.mp listed
  obtain ⟨present, space, named⟩ := agentByName_eq_some.mp known
  obtain ⟨row', stored', same, agent', present', identities, _⟩ := kept row stored agent present owned.symm
  simp only [identity, Prod.mk.injEq] at identities
  have again : agentByName after.db namespaceName name = some agent' :=
    agentByName_eq_some.mpr ⟨present', identities.2.1.trans space, identities.2.2.trans named⟩
  rw [knownToo] at again
  cases again
  have sameId : row'.agentId = row.agentId := congrArg Release.agentId same
  have sameVersion : row'.version = row.version := congrArg Release.version same
  have theirs : versionByName after.db other version = some row' :=
    versionByName_eq_some.mpr ⟨stored', by rw [sameId, owned, identities.1], sameVersion.trans versioned⟩
  rw [listedToo] at theirs
  cases theirs
  exact same

theorem versionText_states {manifest : Json} (states : manifestStates manifest name version) : versionText manifest = version := by
  obtain ⟨value, stated, isText⟩ := Option.bind_eq_some_iff.mp states.2
  unfold versionText
  rw [stated]
  cases value with
  | str text =>
    cases isText
    exact Json.toText.eq_4 _
  | null | bool | num | arr | obj => cases isText

theorem intact_of_listed (sound : Registry.Packages.Sound host start before) (known : agentByName before.db namespaceName name = some agent)
    (listed : versionByName before.db agent version = some row) : Intact host start before namespaceName name (release row) := by
  obtain ⟨stored, owned, _⟩ := versionByName_eq_some.mp listed
  obtain ⟨present, space, named⟩ := agentByName_eq_some.mp known
  obtain ⟨owner, present', own, intact⟩ := sound.versions row stored
  cases Table.eq_of_id present present' (owned.symm.trans own.symm)
  rw [space, named] at intact
  exact intact

end Releases

section Answering

variable {host : PackageHost} {visit : Visit} {visits : Visits} {caller : Option Subject} {namespaceName name version : String}
  {detail : Sdk.AgentVersionDetail} {archive : Buffer}

theorem viewableAgent_named {db : Db} {agent : Agent} (viewed : viewableAgent db namespaceName name caller = .ok agent) :
    agentByName db namespaceName name = some agent :=
  (Option.filter_eq_some_iff.mp (Outcome.demand_eq_ok.mp viewed)).1

theorem getVersion_ok (told : getVersion caller namespaceName name version visit = .ok detail) :
    ∃ agent row, agentByName visit.system.db namespaceName name = some agent ∧
      resolveVersion visit.system.db agent version = some row ∧ detail.manifest = row.manifest ∧
      detail.signature = some (clientSignature row.signature) := by
  simp only [getVersion, getVersionDetail, Outcome.bind_eq_ok, Outcome.demand_eq_ok, Outcome.pure_eq_ok] at told
  obtain ⟨_, ⟨agent, viewed, row, resolved, rfl⟩, rfl⟩ := told
  exact ⟨agent, row, viewableAgent_named viewed, resolved, rfl, rfl⟩

theorem serveArchive_ok {files : Archives} {agent : Agent} {row : AgentVersion} {download : Download}
    (served : serveArchive files namespaceName name agent row = .ok download) :
    blockedDownloadReason row = none ∧ files.get namespaceName name row.version = .ok (some download.data) := by
  simp only [serveArchive, Outcome.bind_eq_ok, Outcome.demand_eq_ok, Outcome.pure_eq_ok] at served
  obtain ⟨_, open_, stored, got, data, found, rfl⟩ := served
  refine ⟨?_, by rw [got, found]⟩
  unfold ensureNotBlocked at open_
  split at open_
  · next reason => exact reason
  · cases open_

theorem sendArchive_ok (proper : version ≠ "latest")
    (sent : sendArchive host visits caller namespaceName name version = .ok archive) :
    ∃ agent row, agentByName visits.sent.system.db namespaceName name = some agent ∧
      versionByName visits.sent.system.db agent version = some row ∧ blockedDownloadReason row = none ∧
      visits.sent.system.files.get namespaceName name version = .ok (some archive) := by
  unfold sendArchive at sent
  cases caller with
  | none =>
    simp only [downloadArchive, Outcome.bind_eq_ok, Outcome.demand_eq_ok, Outcome.pure_eq_ok] at sent
    obtain ⟨download, ⟨agent, viewed, row, resolved, served⟩, rfl⟩ := sent
    obtain ⟨listed, versioned⟩ := resolveVersion_listed resolved
    obtain ⟨open_, got⟩ := serveArchive_ok served
    rw [versioned proper] at listed got
    exact ⟨agent, row, viewableAgent_named viewed, listed, open_, got⟩
  | some caller =>
    simp only [Outcome.bind_eq_ok, Outcome.pure_eq_ok, Prod.exists] at sent
    obtain ⟨after, url, issued, download, served, rfl⟩ := sent
    obtain ⟨_, granted, _, resolved, _, isTarget, _⟩ := issueDownloadUrl_granted issued
    have asked : url.target.version = version := by
      rw [isTarget]
      exact (resolveVersion_listed resolved).2 proper
    have space : url.target.namespaceName = namespaceName := by rw [isTarget]; rfl
    have named : url.target.name = name := by rw [isTarget]; rfl
    rw [asked, space, named] at served
    simp only [downloadArchiveViaToken, Outcome.bind_eq_ok, Outcome.demand_eq_ok, Outcome.ensure_eq_ok] at served
    obtain ⟨agent, known, row, resolved, _, _, _, _, served⟩ := served
    obtain ⟨listed, versioned⟩ := resolveVersion_listed resolved
    obtain ⟨open_, got⟩ := serveArchive_ok served
    rw [versioned proper] at listed got
    exact ⟨agent, row, known, listed, open_, got⟩

end Answering

section Installing

variable {around : Surroundings} {faults : Faults} {opts : InstallOptions} {now : Nat} {text : String} {answers : Answers}
  {schedule : Sdk.Schedule} {before after : Machine} {installed : Installation} {spec : Spec} {detail : Sdk.AgentVersionDetail}
  {signature : Sdk.SignatureFile} {archive : Buffer}

theorem savedArchive_setDir {machine : Machine} {config : Runtime.OpenAgentHubConfig} {key : Runtime.AgentKey} {disk : Sdk.Disk} :
    Machine.savedArchive ((machine.setDir (Runtime.installedAgentDir machine.agentsDir key) ⟨disk, some signature, some archive⟩).setConfig
      config) key = some archive := by
  simp [Machine.savedArchive, Machine.setConfig, Machine.setDir]

theorem plan_verified {config : Runtime.OpenAgentHubConfig} {decided : Plan} (answered : Answered text answers spec detail signature archive)
    (planned : plan around faults opts now config text (.registry answers) = some (.ok decided)) :
    detail.manifest.isNull = false ∧ around.sha256Hex archive = signature.sha256 := by
  obtain ⟨parses, tells, ⟨signed, isSigned, hasSignature⟩, sends⟩ := answered
  simp only [plan, resolve, resolveFromRegistry, Sdk.downloadArchive, parses, tells, isSigned, hasSignature, sends,
    Option.bind_eq_bind, Option.bind_some, Option.pure_def, Option.some.injEq, Outcome.bind_eq_ok, Outcome.ensure_eq_ok,
    Outcome.pure_eq_ok, Outcome.ok_bind, Outcome.demand_some] at planned
  obtain ⟨_, ⟨_, present, _, ⟨_, _, rfl⟩, _, _, _, verified, _⟩, _⟩ := planned
  exact ⟨present, (Sdk.verifySignatureFileStrict_ok.mp verified).2.1⟩

structure Records (around : Surroundings) (spec : Spec) (detail : Sdk.AgentVersionDetail) (signature : Sdk.SignatureFile)
    (archive : Buffer) (installed : Installation) (after : Machine) : Prop where
  verified : detail.manifest.isNull = false ∧ around.sha256Hex archive = signature.sha256
  record : ∃ record, after.config.installed.get (Runtime.agentKeyToString installed.key) = some record ∧
    record.namespaceName = spec.namespaceName ∧ record.name = spec.name ∧ record.version = versionText detail.manifest ∧
    record.archiveDigest = some (around.sha256Hex archive) ∧ record.signatureKeyId = some signature.publicKeyId
  archive : Machine.savedArchive after installed.key = some archive

theorem installAgent_records (answered : Answered text answers spec detail signature archive)
    (returned : Returns (installAgent around faults opts now text (.registry answers) schedule) before installed after) :
    Records around spec detail signature archive installed after := by
  obtain ⟨_, decided, planned, unpacked, placed, places, _, _, rfl, rfl⟩ := installAgent_returns.mp returned
  have verified := plan_verified answered planned
  obtain ⟨_, _, _, _, answeredToo, key, manifest, hasArchive, hasSignature, _⟩ := plan_answered planned
  obtain ⟨rfl, rfl, rfl, rfl⟩ := answered.unique answeredToo
  rw [placeFiles_returns hasArchive hasSignature] at places
  obtain ⟨_, _, rfl⟩ := places
  refine ⟨verified, ⟨installedRecord around now decided, ?_, ?_⟩, ?_⟩
  · have label : Runtime.agentKeyToString ⟨(installedRecord around now decided).namespaceName,
        (installedRecord around now decided).name, (installedRecord around now decided).version⟩ =
        Runtime.agentKeyToString decided.key := rfl
    simp [Machine.setConfig, Runtime.saveGrantedPermissions, Runtime.recordInstall, label]
  · simp only [installedRecord, key, hasArchive, hasSignature, Option.map_some, and_self]
  · exact savedArchive_setDir

end Installing

/-- Whatever the registry goes through meanwhile, an installation from it ends with a version that was published under the
    name and the version asked for: its signature, its archive with the digest that was signed, and its manifest. -/
theorem installs_are_published {host : PackageHost} (schooled : Schooled host) {start : System} (fresh : start.Fresh) (visits : Visits)
    (inOrder : InOrder host start visits) (caller : Option Subject) (around : Surroundings) (faults : Faults) (opts : InstallOptions)
    (now : Nat) (text : String) (spec : Spec) (parses : parseSpec text = .ok spec) (answers : Answers)
    (relayed : Relayed host visits caller spec answers) (schedule : Sdk.Schedule) (before after : Machine) (installed : Installation)
    (returned : Returns (installAgent around faults opts now text (.registry answers) schedule) before installed after) :
    ∃ agent row, Delivered host start visits around spec after installed agent row := by
  obtain ⟨_, _, planned, _⟩ := installAgent_returns.mp returned
  obtain ⟨_, detail, signature, archive, answered, _⟩ := plan_answered planned
  cases Except.ok.inj (answered.parses.symm.trans parses)
  have leaves := installAgent_leaves answered returned
  have records := installAgent_records answered returned
  -- the release is fixed by the first answer
  have told := (relayed.detail detail answered.tells).resolve_left (by simp [records.verified.1])
  obtain ⟨first, release₁, knownFirst, resolvedFirst, manifest, _⟩ := getVersion_ok told
  obtain ⟨listedFirst, requested⟩ := resolveVersion_listed resolvedFirst
  have soundFirst := reached_sound fresh.sound inOrder.told
  have version : versionText detail.manifest = release₁.version := by
    rw [manifest]
    exact versionText_states (intact_of_listed soundFirst knownFirst listedFirst).manifest
  have proper := sound_unaliased schooled soundFirst release₁ (versionByName_eq_some.mp listedFirst).1
  -- the signature and the archive come with later answers, and are those of the same release
  obtain ⟨signed, isSigned, hasSignature⟩ := answered.signs
  have signs := relayed.signed detail signed answered.tells isSigned
  rw [version] at signs
  obtain ⟨second, release₂, knownSecond, resolvedSecond, _, isSignature⟩ := getVersion_ok signs
  obtain ⟨listedSecond, same⟩ := resolveVersion_listed resolvedSecond
  rw [same proper] at listedSecond
  have sends := relayed.archive detail archive answered.tells answered.sends
  rw [version] at sends
  obtain ⟨agent, row, known, listed, admissible, stored⟩ := sendArchive_ok proper sends
  have later := (inOrder.signed.trans inOrder.granted).trans inOrder.sent
  have sameSigned := release_kept (reached_kept fresh.sound inOrder.told inOrder.signed) knownFirst listedFirst knownSecond listedSecond
  have sameSent := release_kept (reached_kept fresh.sound inOrder.told later) knownFirst listedFirst known listed
  have rowVersion : row.version = release₁.version := congrArg Release.version sameSent
  have rowSignature : signature = clientSignature row.signature := by
    have both : release₂.signature = row.signature := congrArg Release.signature (sameSigned.trans sameSent.symm)
    rw [← both]
    exact Option.some.inj (hasSignature.symm.trans isSignature)
  have intact := intact_of_listed (reached_sound fresh.sound (inOrder.told.trans later)) known listed
  have digest : around.sha256Hex archive = row.sha256 := by
    rw [records.verified.2, rowSignature]
    exact intact.signed.symm
  rw [← rowVersion] at listed requested version stored
  refine ⟨agent, row, known, listed, ?_, admissible, ?_, ?_, ?_, ?_, ⟨archive, records.archive, digest, stored⟩, intact⟩
  · intro given asked named
    rw [asked] at requested
    exact requested named
  · rw [leaves.key, answeredKey, version]
  · rw [leaves.manifest, manifest]
    exact (congrArg Release.manifest sameSent).symm
  · obtain ⟨record, isRecord, space, named, versioned, hash, keyId⟩ := records.record
    exact ⟨record, isRecord, space, named, versioned.trans version, hash.trans (congrArg some digest),
      keyId.trans (congrArg (fun sig => some sig.publicKeyId) rowSignature)⟩
  · rw [leaves.signed, rowSignature]

section Samples

def publishing : List Label :=
  [.operate ⟨Registry.Organizations.founder, none⟩ 1 (.registerSigningKey founderKey.pem none none),
    .operate ⟨Registry.Organizations.founder, none⟩ 1 (.claimNamespace "acme"),
    .begin Registry.Organizations.founder 2 (firstBuild.submission "public" none),
    .place 1, .locate 1, .clear 1, .reserve 1, .store 1, .commit 1]

def yanking : Label := .operate ⟨Registry.Organizations.founder, none⟩ 3 (.yankVersion "acme" "tool" "1.0.0" true)

def ranOr (labels : List Label) (start : System) : System := (labels.foldlM (step strictHost) start).getD start

def yankedMeanwhile : Visits where
  told := ⟨4, ranOr publishing opening⟩
  signed := ⟨4, ranOr [yanking] (ranOr publishing opening)⟩
  granted := ⟨4, ranOr [yanking] (ranOr publishing opening)⟩
  sent := ⟨4, ranOr [yanking] (ranOr publishing opening)⟩

def toolEntry : Sdk.Entry := ⟨"agent.yaml", .file, 191, Utf8.encode firstBuild.yaml.toList, none, 0⟩

def toolSurroundings : Surroundings where
  sha256Hex := workshopHost.sha256Hex
  derOfKey pem := match workshopHost.derOfPem pem with
    | .ok der => .ok der
    | .error message => .error ⟨.error, message⟩
  nodeVerify payload signature key := .ok (decide (workshopHost.verifyEd25519 key signature payload = .valid))
  parseManifest text := if text = firstBuild.yaml then .ok firstBuild.manifest else .error ⟨.error, "end of the stream is expected"⟩
  manifestErrors _ := []
  highWaterMark := 65536
  readArchive _ := ⟨[toolEntry], none⟩
  checkAgentRequirements _ := .ok ⟨true, []⟩
  answer _ _ := true

def toolAnswers : Answers := answersOf strictHost yankedMeanwhile none ⟨"acme", "tool", none⟩

def toolMachine : Machine where
  agentsDir := ["home", "agents"]

theorem tool_planned : ((plan toolSurroundings (fun _ => none) {} 0 {} "acme/tool" (.registry toolAnswers)).bind
    Except.toOption).map Plan.key = some ⟨"acme", "tool", "1.0.0"⟩ := by
  decide +kernel

theorem ranOr_reaches {labels : List Label} {start : System} (runs : (labels.foldlM (step strictHost) start).isSome = true) :
    Reaches (Steps strictHost) start (ranOr labels start) := by
  obtain ⟨after, ran⟩ := Option.isSome_iff_exists.mp runs
  unfold ranOr
  rw [ran]
  exact reaches_foldlM ran

theorem yankedMeanwhile_inOrder : InOrder strictHost opening yankedMeanwhile where
  told := ranOr_reaches (by decide +kernel)
  signed := ranOr_reaches (by decide +kernel)
  granted := .refl
  sent := .refl

theorem tool_installs : ∃ schedule installed after,
    Returns (installAgent toolSurroundings (fun _ => none) {} 0 "acme/tool" (.registry toolAnswers) schedule) toolMachine installed after := by
  obtain ⟨decided, planned, key⟩ := Option.map_eq_some_iff.mp tool_planned
  obtain ⟨outcome, planned, isOk⟩ := Option.bind_eq_some_iff.mp planned
  rw [Outcome.toOption_eq_some.mp isOk] at planned
  obtain ⟨_, _, _, _, _, _, _, hasArchive, hasSignature, _⟩ := plan_answered planned
  have accepted : (Sdk.acceptAll {} ["home", "agents", "acme", "tool", "1.0.0"] { disk := {} } ([] ++ [toolEntry])).isSome = true := by
    decide +kernel
  obtain ⟨schedule, unpacks⟩ := Sdk.unpackAgent_chooses toolSurroundings.toHost ⟨[toolEntry], none⟩ rfl (.inl rfl) accepted
    ⟨rfl, by decide +kernel⟩
  have loaded : Sdk.loadManifest toolSurroundings.toHost (Sdk.decodeText toolEntry.data) = .ok firstBuild.manifest := by
    simp [Sdk.loadManifest, toolSurroundings, toolEntry, Sdk.assertValidManifest, Outcome.ensure]
  have dest : Runtime.installedAgentDir toolMachine.agentsDir decided.key = ["home", "agents", "acme", "tool", "1.0.0"] := by
    rw [key]
    decide +kernel
  rw [List.drop_zero, loaded, ← dest] at unpacks
  have places : Returns (placeFiles toolSurroundings (fun _ => none) _ decided.resolved schedule) toolMachine
      (some firstBuild.manifest) _ :=
    (placeFiles_returns hasArchive hasSignature).mpr ⟨⟨rfl, rfl, rfl, rfl, rfl⟩, ⟨_, unpacks, rfl⟩, rfl⟩
  exact ⟨schedule, _, _, installAgent_returns.mpr ⟨rfl, decided, planned, some firstBuild.manifest, _, places, rfl, rfl, rfl, rfl⟩⟩

theorem installs_are_published_tool : ∃ after installed agent row,
    Delivered strictHost opening yankedMeanwhile toolSurroundings ⟨"acme", "tool", none⟩ after installed agent row := by
  obtain ⟨schedule, installed, after, returned⟩ := tool_installs
  have fresh : opening.Fresh := ⟨by decide +kernel, by decide +kernel, rfl⟩
  have parses : parseSpec "acme/tool" = .ok ⟨"acme", "tool", none⟩ := by
    have matched : matchSpec "acme/tool".toList = some ⟨"acme", "tool", none⟩ := by decide +kernel
    rw [parseSpec, matched]
    rfl
  exact ⟨after, installed, installs_are_published strictHost_schooled fresh yankedMeanwhile yankedMeanwhile_inOrder none
    toolSurroundings (fun _ => none) {} 0 "acme/tool" _ parses toolAnswers (answersOf_relayed _ _ _ _) schedule toolMachine after
    installed returned⟩

end Samples

end Cli.Delivery
