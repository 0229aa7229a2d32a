import OpenAgentHub.Registry.Packages.Versions

namespace Registry.Packages

open Relational Organizations Quotas

def Visibility.name : Visibility → String
  | .public => "public"
  | .private => "private"
  | .internal => "internal"

def visibilities : List Visibility := [.public, .private, .internal]

def parseVisibility (text : String) : Except Raised Visibility :=
  Outcome.demand (visibilities.find? fun visibility => Visibility.name visibility == text)
    ⟨.registryError, "visibility must be one of " ++ Text.join ", " (visibilities.map Visibility.name)⟩

structure Submission where
  namespaceName : String
  name : String
  version : String
  archive : Bytes
  signatureRaw : Bytes
  visibility : String := "public"
  organizationSlug : Option String := none

def Submission.fullName (submission : Submission) : String := submission.namespaceName ++ "/" ++ submission.name

def invalidPayload (message : String) : Raised := ⟨.invalidPayload, message⟩

def readSignatureFile (host : PackageHost) (raw : Bytes) : Except Raised SignatureFile :=
  match host.parseSignatureFile raw with
  | .ok signature => .ok signature
  | .error message => .error ⟨.invalidSignatureFile, "invalid signature file: " ++ message⟩

def checkSigningKey (now : Time) (db : Db) (user : User) (sig : SignatureFile) : Except Raised (Db × SigningKey) := do
  let key ← Outcome.demand (keyByFingerprint db sig.publicKeyId)
    ⟨.signingKeyForbidden, "signature key is not registered to this registry"⟩
  Outcome.ensure (key.userId = user.id)
    ⟨.signingKeyForbidden, "signature key is not registered to your account"⟩
  Outcome.ensure (key.revokedAt = none) ⟨.signingKeyForbidden, "signature key has been revoked"⟩
  Outcome.ensure (∀ expiry ∈ key.expiresAt, now < expiry) ⟨.signingKeyForbidden, "signature key has expired"⟩
  let signingKeys := db.signingKeys.modify (·.id == key.id) fun row => { row with lastUsedAt := some now }
  return ({ db with signingKeys }, key)

/-- What the checks of a submission establish before any package row is touched. -/
structure Admission where
  visibility : Visibility
  signature : SignatureFile
  manifest : Json

def manifestStates (manifest : Json) (name version : String) : Prop :=
  (manifest.get "name").bind Json.asString = some name ∧ (manifest.get "version").bind Json.asString = some version

instance (manifest : Json) (name version : String) : Decidable (manifestStates manifest name version) :=
  inferInstanceAs (Decidable (_ ∧ _))

def isMapping : Json → Bool
  | .obj _ => true
  | _ => false

def admitSubmission (host : PackageHost) (now : Time) (db : Db) (user : User) (submission : Submission) :
    Except Raised (Db × Admission) := do
  let visibility ← parseVisibility submission.visibility
  Outcome.ensure (submission.archive.length ≤ host.settings.maxArchiveBytes)
    ⟨.archiveTooLarge, "archive too large"⟩
  Outcome.ensure (submission.signatureRaw.length ≤ 1024 * 1024)
    ⟨.archiveTooLarge, "signature file too large"⟩
  let signature ← readSignatureFile host submission.signatureRaw
  Outcome.refuse (host.lookupRaises signature.publicKeyId)
  let (db, _) ← checkSigningKey now db user signature
  reraise .signatureError invalidPayload (verifySignature host signature submission.archive)
  Outcome.ensure (signature.name = submission.fullName)
    (invalidPayload "signature name does not match route")
  Outcome.ensure (signature.version = submission.version)
    (invalidPayload "signature version does not match route")
  let manifest ← reraise .valueError invalidPayload (manifestFromArchive host submission.archive)
  reraise .valueError invalidPayload (validateManifestSchema host manifest)
  Outcome.ensure (isMapping manifest = true) ⟨.attributeError, "object has no attribute 'get'"⟩
  Outcome.ensure (manifestStates manifest signature.name submission.version)
    (invalidPayload "manifest does not match signature")
  return (db, ⟨visibility, signature, manifest⟩)

section Placement

def accountAgeDays (now : Time) (user : User) : Nat := (now - user.createdAt) / days 1

def countByAction (db : Db) (actorId : Nat) (action : String) (since : Time) : Nat :=
  (db.auditEvents.select fun event =>
    event.actorId == some actorId && event.action == action && decide (since ≤ event.createdAt)).length

def checkPublishQuota (settings : Settings) (now : Time) (db : Db) (user : User) : Except Raised Unit :=
  if settings.publishQuotaNewAccountDays ≤ accountAgeDays now user then .ok ()
  else Outcome.ensure
    (countByAction db user.id "version.published" (now - hours 24) < settings.publishQuotaNewAccountDaily)
    ⟨.publishQuotaExceeded, "new-account daily publish limit reached"⟩

def isReservedNamespace (host : PackageHost) (name : String) : Bool :=
  let lowered := host.lower name
  (host.settings.reservedNamespacePrefixes.filter (· ≠ "")).any fun lead =>
    lowered == Text.rstrip lead '-' || Text.startsWith lowered lead

def createNamespace (now : Time) (db : Db) (user : User) (name : String) : Except Raised (Db × Namespace) := do
  let (space, namespaces) ← Db.insertRow db.namespaces fun id => { id, name }
  let (_, namespaceMembers) ← Db.insertRow db.namespaceMembers fun id =>
    { id, namespaceId := space.id, userId := user.id, role := .owner }
  return ({ db with namespaces, namespaceMembers }.recordAudit
    { id := 0, actorId := some user.id, action := "namespace.claimed", targetType := some "namespace"
      targetId := some space.id, detail := [("name", .str name)], createdAt := now }, space)

def resolvePublishNamespace (host : PackageHost) (now : Time) (db : Db) (user : User) (name : String) :
    Except Raised Db :=
  match namespaceByName db name with
  | none => do
    Outcome.ensure (isReservedNamespace host name = false)
      ⟨.namespaceReserved, "namespace '" ++ name ++ "' is reserved"⟩
    let (db, _) ← createNamespace now db user name
    return db
  | some space => do
    let _ ← Outcome.demand (isMember db space user.id)
      ⟨.namespaceForbidden, "you are not a member of namespace '" ++ name ++ "'"⟩
    return db

def administeredOrganization (db : Db) (user : User) (slug refusal : String) : Except Raised Organization := do
  let org ← Outcome.demand (orgBySlug db slug)
    ⟨.registryError, "organization '" ++ slug ++ "' not found"⟩
  let _ ← Outcome.demand ((membership db org.id user.id).filter canAdminister) ⟨.registryError, refusal⟩
  return org

/-- Only an internal package is bound to an organization by publishing it. -/
def publishOrganization (db : Db) (user : User) (visibility : Visibility) (slug : Option String) :
    Except Raised (Option Nat) :=
  if visibility = .internal then do
    let slug ← Outcome.demand (slug.filter (· ≠ ""))
      ⟨.registryError, "internal visibility requires an organizationSlug"⟩
    let org ← administeredOrganization db user slug
      "you must be an owner or administrator of that organization to publish internally"
    return some org.id
  else return none

def place (host : PackageHost) (now : Time) (db : Db) (user : User) (submission : Submission)
    (admission : Admission) : Except Raised (Db × Option Nat) := do
  checkPublishQuota host.settings now db user
  let db ← resolvePublishNamespace host now db user submission.namespaceName
  let organizationId ← publishOrganization db user admission.visibility submission.organizationSlug
  Outcome.refuse (host.rowsRaise admission.manifest)
  return (db, organizationId)

end Placement

section Agents

def textOr (manifest : Json) (key fallback : String) : String :=
  ((manifest.get key).bind Json.asString).getD fallback

def frameworkOf (manifest : Json) : Option String :=
  match manifest.get "framework" with
  | some (.obj fields) => ((Json.obj fields).get "name").bind Json.asString
  | some (.str name) => some name
  | _ => none

def supportedModels (manifest : Json) : List String :=
  (((manifest.get "models").bind fun models => models.get "supported").map Json.strings).getD []

def tagsOf (manifest : Json) : List String := ((manifest.get "tags").map Json.strings).getD []

/-- `update_metadata`, and `bind_organization` when the submission names an organization. -/
def republished (agent : Agent) (manifest : Json) (organizationId : Option Nat) : Agent :=
  { agent with
    author := textOr manifest "author" agent.author
    description := textOr manifest "description" agent.description
    license := textOr manifest "license" agent.license
    framework := frameworkOf manifest
    models := supportedModels manifest
    tags := tagsOf manifest
    organizationId := organizationId.or agent.organizationId }

def newAgent (id : Nat) (user : User) (submission : Submission) (admission : Admission)
    (organizationId : Option Nat) : Agent where
  id := id
  namespaceName := submission.namespaceName
  name := submission.name
  ownerId := user.id
  visibility := admission.visibility
  organizationId := organizationId
  author := textOr admission.manifest "author" user.username
  description := textOr admission.manifest "description" ""
  license := textOr admission.manifest "license" ""
  framework := frameworkOf admission.manifest
  models := supportedModels admission.manifest
  tags := tagsOf admission.manifest

def locate (db : Db) (user : User) (submission : Submission) (admission : Admission)
    (organizationId : Option Nat) : Except Raised (Db × Agent) :=
  match agentByName db submission.namespaceName submission.name with
  | none => do
    let (agent, agents) ← Db.insertRow db.agents fun id => newAgent id user submission admission organizationId
    return ({ db with agents }, agent)
  | some agent =>
    .ok (setAgent db agent.id (fun row => republished row admission.manifest organizationId),
      republished agent admission.manifest organizationId)

end Agents

section Versions

def versionConflict (version : String) : Raised :=
  ⟨.versionConflict, "version " ++ version ++ " already published (re-publish with a new version)"⟩

/-- The message of an exceeded organization quota is extended. -/
def releaseHint (message : String) : Raised :=
  ⟨.quotaExceeded, message ++ "; release capacity or raise the organization quota"⟩

def enforceQuota (host : PackageHost) (now : Time) (db : Db) (agent : Agent) (submission : Submission) :
    Except Raised Db :=
  match agent.organizationId with
  | none => .ok db
  | some organizationId =>
    reraise .quotaExceeded releaseHint
      (enforcePublishQuota host.settings now db organizationId 1 submission.archive.length)

/-- No version of that name is published yet, and the organization has room for it. -/
def clear (host : PackageHost) (now : Time) (db : Db) (agent : Agent) (submission : Submission) :
    Except Raised Db := do
  Outcome.ensure (versionByName db agent submission.version).isNone (versionConflict submission.version)
  enforceQuota host now db agent submission

def newVersion (host : PackageHost) (now : Time) (user : User) (submission : Submission) (admission : Admission)
    (agentId id : Nat) : AgentVersion where
  id := id
  agentId := agentId
  version := submission.version
  sortKey := Semver.sortKey submission.version
  manifest := admission.manifest
  sha256 := host.sha256Hex submission.archive
  archiveName := submission.namespaceName ++ "_" ++ submission.name ++ "-" ++ submission.version ++ ".ahb"
  archiveBytes := submission.archive.length
  signature := admission.signature
  publishedById := user.id
  publishedAt := now
  scanRequestedAt := some now

/-- The version row is flushed before the archive is written. -/
def reserve (host : PackageHost) (now : Time) (db : Db) (user : User) (submission : Submission)
    (admission : Admission) (agent : Agent) : Except Raised (Db × AgentVersion) := do
  let (version, agentVersions) ← Db.insertRow db.agentVersions
    (newVersion host now user submission admission agent.id)
  return ({ db with agentVersions }, version)

def storeArchive (files : Archives) (submission : Submission) : Except Raised Archives :=
  reraise .archiveStoreError (⟨.registryError, ·⟩)
    (files.put submission.namespaceName submission.name submission.version submission.archive)

def scanStatus (findings : List String) : SecurityStatus := if findings = [] then .clean else .flagged

def recordScan (db : Db) (versionId : Nat) (findings : List String) : Db :=
  setVersion db versionId fun version =>
    { version with securityStatus := scanStatus findings, securityFindings := findings }

structure PublishResult where
  security : SecurityStatus
  findings : List String
  deriving DecidableEq, Repr

def finish (host : PackageHost) (now : Time) (db : Db) (user : User) (submission : Submission)
    (admission : Admission) (agent : Agent) (version : AgentVersion) : Except Raised (Db × PublishResult) := do
  let findings ← checkArchiveSafety host submission.archive host.settings.maxArchiveBytes
  let db := recordScan db version.id findings
  let db := setVersion db version.id fun row => { row with scanCompletedAt := some now }
  let outboxEvents := db.outboxEvents.push fun id =>
    { id, eventType := "scan.requested"
      payload := .obj [("version_id", .num version.id), ("namespace", .str submission.namespaceName),
        ("name", .str submission.name), ("version", .str submission.version), ("sha256", .str version.sha256)] }
  let db := auditPackage { db with outboxEvents } now user.id "version.published" "agent_version" version.id
    agent.organizationId submission.namespaceName submission.name
    [("version", .str submission.version), ("sha256", .str version.sha256),
      ("visibility", .str (Visibility.name admission.visibility))]
  return (bumpCatalog db now, ⟨scanStatus findings, findings⟩)

end Versions

/-- The database and the archives, which share no transaction. -/
structure Store where
  db : Db
  files : Archives

def publishVersion (host : PackageHost) (now : Time) (store : Store) (user : User) (submission : Submission) :
    Archives × Except Raised (Db × PublishResult) :=
  let reserved : Except Raised (Db × Admission × Agent × AgentVersion) := do
    let (db, admission) ← admitSubmission host now store.db user submission
    let (db, organizationId) ← place host now db user submission admission
    let (db, agent) ← locate db user submission admission organizationId
    let db ← clear host now db agent submission
    let (db, version) ← reserve host now db user submission admission agent
    return (db, admission, agent, version)
  match reserved with
  | .error raised => (store.files, .error raised)
  | .ok (db, admission, agent, version) =>
    match storeArchive store.files submission with
    | .error raised => (store.files, .error raised)
    | .ok files => (files, finish host now db user submission admission agent version)

end Registry.Packages
