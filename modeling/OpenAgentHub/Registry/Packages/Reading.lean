import OpenAgentHub.Registry.Audit.Search
import OpenAgentHub.Registry.Packages.SignedUrls
import OpenAgentHub.Registry.Packages.Versions

namespace Registry.Packages

open Relational Organizations Semver

inductive Trust where
  | unknown | untrusted
  deriving DecidableEq, Repr

def trustOf (version : AgentVersion) : Trust :=
  if version.securityStatus = .flagged then .untrusted else .unknown

structure AgentSummary where
  namespaceName : String
  name : String
  version : String
  author : String
  description : String
  license : String
  framework : Option String
  models : List String
  tags : List String
  downloads : Nat
  trust : Trust
  deriving DecidableEq, Repr

def summary (agent : Agent) (version : AgentVersion) : AgentSummary where
  namespaceName := agent.namespaceName
  name := agent.name
  version := version.version
  author := agent.author
  description := agent.description
  license := agent.license
  framework := agent.framework
  models := agent.models
  tags := agent.tags
  downloads := version.downloadCount
  trust := trustOf version

structure SignerKeyInfo where
  id : Nat
  fingerprint : String
  label : Option String
  revoked : Bool
  expired : Bool
  deriving DecidableEq, Repr

def SignerKeyInfo.fromKey (now : Time) (key : SigningKey) : SignerKeyInfo where
  id := key.id
  fingerprint := key.fingerprint
  label := key.label
  revoked := key.revokedAt.isSome
  expired := key.expiresAt.any (· ≤ now)

structure AgentVersionDetail where
  name : String
  version : String
  author : String
  description : String
  manifest : Json
  publishedAt : Time
  downloadCount : Nat
  trust : Trust
  signature : SignatureFile
  security : SecurityStatus × List String
  yanked : Bool
  signerKey : Option SignerKeyInfo
  reviewStatus : ReviewStatus
  reviewedAt : Option Time
  reviewReason : Option String

def detail (now : Time) (version : AgentVersion) (agent : Agent) (signer : Option SigningKey) :
    AgentVersionDetail where
  name := agent.namespaceName ++ "/" ++ agent.name
  version := version.version
  author := agent.author
  description := agent.description
  manifest := version.manifest
  publishedAt := version.publishedAt
  downloadCount := version.downloadCount
  trust := trustOf version
  signature := version.signature
  security := (version.securityStatus, version.securityFindings)
  yanked := version.yanked
  signerKey := signer.map (SignerKeyInfo.fromKey now)
  reviewStatus := version.reviewStatus
  reviewedAt := version.reviewedAt
  reviewReason := version.reviewReason

section Search

structure Filters where
  q : Option String := none
  framework : Option String := none
  tags : Option String := none
  models : Option String := none

def given (parameter : Option String) : Option String := parameter.filter (· ≠ "")

/-- `[t.strip().lower() for t in text.split(",") if t.strip()]`. -/
def wanted (host : PackageHost) (text : String) : List String :=
  ((Text.split ',' text).filter fun item => Text.strip item ≠ "").map fun item => host.lower (Text.strip item)

def Filters.matches (host : PackageHost) (filters : Filters) (agent : Agent) : Bool :=
  (given filters.q).all (fun q =>
    let pattern := "%" ++ host.lower q ++ "%"
    host.like pattern (host.sqlLower agent.name) || host.like pattern (host.sqlLower agent.namespaceName) ||
      host.like pattern (host.sqlLower agent.description)) &&
  (given filters.framework).all (fun framework => agent.framework == some framework) &&
  (given filters.tags).all (fun tags => host.jsonContains agent.tags (wanted host tags)) &&
  (given filters.models).all fun models => host.jsonContains agent.models (wanted host models)

/-- `AgentRepository.search`, which `search_agents` never calls with `include_internal`. -/
def agentsMatching (host : PackageHost) (db : Db) (filters : Filters) (includeAll : Bool) : List Agent :=
  db.agents.select fun agent => (includeAll || agent.visibility == .public) && filters.matches host agent

inductive SearchSort where
  | newest | trending | downloads
  deriving DecidableEq, Repr

/-- `items.sort(key=..., reverse=True)`. -/
def SearchSort.order : SearchSort → AgentSummary → AgentSummary → Ordering
  | .newest, first, second => compareText first.version second.version
  | .trending, first, second =>
    (compare first.downloads second.downloads).then (compareText first.version second.version)
  | .downloads, first, second => compare first.downloads second.downloads

/-- `max(low, min(value, high))`. -/
def clamp (low high : Int) (value : Int) : Nat := (max low (min value high)).toNat

def searchAgents (host : PackageHost) (db : Db) (filters : Filters) (sort : SearchSort) (limit offset : Int)
    (subject : Option Subject) : List AgentSummary :=
  let shown := (agentsMatching host db filters subject.isSome).filter fun agent => canView db agent subject
  let items := shown.filterMap fun agent => (latestVisible db agent.id).map (summary agent)
  ((Selection.descending sort.order items).drop (max 0 offset).toNat).take (clamp 1 100 limit)

end Search

def viewableAgent (db : Db) (namespaceName name : String) (subject : Option Subject) : Except Raised Agent :=
  Outcome.demand ((agentByName db namespaceName name).filter fun agent => canView db agent subject) agentNotFound

def getAgentSummary (db : Db) (namespaceName name : String) (subject : Option Subject) :
    Except Raised AgentSummary := do
  let agent ← viewableAgent db namespaceName name subject
  let version ← Outcome.demand (latest db agent) ⟨.agentNotFound, "agent has no published versions"⟩
  return summary agent version

def listVersions (db : Db) (namespaceName name : String) (subject : Option Subject) :
    Except Raised (List String) := do
  let agent ← viewableAgent db namespaceName name subject
  return (listFor db agent).map AgentVersion.version

def getVersionDetail (now : Time) (db : Db) (namespaceName name version : String) (subject : Option Subject) :
    Except Raised AgentVersionDetail := do
  let agent ← viewableAgent db namespaceName name subject
  let row ← Outcome.demand (resolveVersion db agent version) versionNotFound
  return detail now row agent (signerKey db row)

structure Download where
  data : Bytes
  versionId : Nat
  organizationId : Option Nat
  deriving DecidableEq, Repr

def ensureNotBlocked (version : AgentVersion) : Except Raised Unit :=
  match blockedDownloadReason version with
  | none => .ok ()
  | some reason => .error ⟨.versionBlocked, reason⟩

def serveArchive (files : Archives) (namespaceName name : String) (agent : Agent) (version : AgentVersion) :
    Except Raised Download := do
  ensureNotBlocked version
  let stored ← files.get namespaceName name version.version
  let data ← Outcome.demand stored ⟨.archiveMissing, "archive missing on server"⟩
  return ⟨data, version.id, agent.organizationId⟩

def downloadArchive (db : Db) (files : Archives) (namespaceName name version : String)
    (subject : Option Subject) : Except Raised Download := do
  let agent ← viewableAgent db namespaceName name subject
  let row ← Outcome.demand (resolveVersion db agent version) versionNotFound
  serveArchive files namespaceName name agent row

section SignedUrls

def tokenTarget (namespaceName name : String) (version : AgentVersion) : TokenTarget :=
  ⟨namespaceName, name, version.version, version.id, some version.sha256⟩

def downloadArchiveViaToken (host : PackageHost) (now : Time) (db : Db) (files : Archives)
    (namespaceName name version token : String) : Except Raised Download := do
  let agent ← Outcome.demand (agentByName db namespaceName name) agentNotFound
  let row ← Outcome.demand (resolveVersion db agent version) versionNotFound
  let (ok, _) ← verifyDownloadToken host now token (tokenTarget namespaceName name row)
  Outcome.ensure (ok = true) agentNotFound
  serveArchive files namespaceName name agent row

structure DownloadUrl where
  target : TokenTarget
  expiresEpoch : Nat
  expiresInSeconds : Nat

/-- The URL is given by the claims of its token, which is signed and encoded outside. -/
def issueDownloadUrl (host : PackageHost) (now : Time) (db : Db) (namespaceName name version : String)
    (subject : Option Subject) : Except Raised (Db × DownloadUrl) := do
  let caller ← Outcome.demand subject
    ⟨.downloadUrlError, "authentication required to issue a download URL"⟩
  let agent ← viewableAgent db namespaceName name subject
  let row ← Outcome.demand (resolveVersion db agent version) versionNotFound
  ensureNotBlocked row
  let ttl := host.settings.downloadUrlTtlSeconds
  return (auditPackage db now caller.user.id "package.download_url_issued" "agent_version" row.id
    agent.organizationId namespaceName name
    [("namespace", .str namespaceName), ("name", .str name), ("version", .str row.version)],
    ⟨tokenTarget namespaceName name row, now / seconds 1 + max 1 ttl, ttl⟩)

end SignedUrls

structure RevocationItem where
  namespaceName : String
  name : String
  version : String
  digest : String
  reason : String
  reviewStatus : ReviewStatus
  securityStatus : SecurityStatus
  updatedAt : Time
  deriving DecidableEq, Repr

/-- `ORDER BY reviewed_at DESC`; a null sorts as the greatest value. -/
def reviewedOrder (first second : AgentVersion) : Ordering :=
  match first.reviewedAt, second.reviewedAt with
  | none, none => .eq
  | none, some _ => .gt
  | some _, none => .lt
  | some one, some two => compare one two

def blockedVersions (db : Db) : List AgentVersion :=
  Selection.descending reviewedOrder (db.agentVersions.select fun version =>
    version.reviewStatus.blocked || version.securityStatus == .flagged)

def revocationItem (agent : Agent) (version : AgentVersion) (reason : String) : RevocationItem where
  namespaceName := agent.namespaceName
  name := agent.name
  version := version.version
  digest := version.sha256
  reason
  reviewStatus := version.reviewStatus
  securityStatus := version.securityStatus
  updatedAt := version.reviewedAt.getD version.publishedAt

def getRevocationFeed (db : Db) : List RevocationItem :=
  (blockedVersions db).filterMap fun version => do
    let agent ← db.agents.byId version.agentId
    let reason ← blockedDownloadReason version
    return revocationItem agent version reason

def getPackageAuditLog (settings : Settings) (db : Db) (subject : Option Subject) (namespaceName name : String)
    (limit : Int) (beforeId : Option Nat) (action : Option String) : Except Raised Audit.AuditPage := do
  let _ ← viewableAgent db namespaceName name subject
  let events ← Audit.search settings db { namespaceName := some namespaceName, name := some name, action } limit beforeId
  Audit.auditPage events limit

end Registry.Packages
