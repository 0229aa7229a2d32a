import OpenAgentHub.Registry.Packages.Publishing

namespace Registry.Packages

open Relational Organizations Quotas

def requireNamespaceOrReviewer (db : Db) (user : User) (namespaceName : String) (ownerOnly : Bool) :
    Except Raised Unit :=
  let member := (namespaceByName db namespaceName).bind fun space => isMember db space user.id
  if ownerOnly then
    Outcome.ensure ((member.any (·.role == .owner) || privileged user) = true)
      ⟨.registryError, "only a namespace owner or reviewer/admin can do that"⟩
  else
    Outcome.ensure ((member.isSome || privileged user) = true)
      ⟨.registryError, "you are not a member of this namespace"⟩

section Scans

def cooledDown (settings : Settings) (now : Time) (requested : Option Time) : Prop :=
  settings.rescanCooldownSeconds = 0 ∨ ∀ last ∈ requested, seconds settings.rescanCooldownSeconds ≤ now - last

instance (settings : Settings) (now : Time) (requested : Option Time) :
    Decidable (cooledDown settings now requested) := inferInstanceAs (Decidable (_ ∨ _))

def scanStored (host : PackageHost) (db : Db) (files : Archives) (agent : Agent) (version : AgentVersion) :
    Except Raised (Db × PublishResult) := do
  let stored ← files.get agent.namespaceName agent.name version.version
  let archive ← Outcome.demand stored ⟨.scanTargetMissing, "archive missing on server"⟩
  let findings ← checkArchiveSafety host archive host.settings.maxArchiveBytes
  return (recordScan db version.id findings, ⟨scanStatus findings, findings⟩)

theorem scanned_preserves (now : Time) : Table.Preserves fun row : AgentVersion => { row with scanCompletedAt := some now } :=
  fun _ => ⟨rfl, fun _ => rfl⟩

/-- The target of `rescan_version` is looked up by the version text as given, `latest` included. -/
def triggerRescan (host : PackageHost) (now : Time) (store : Store) (user : User)
    (namespaceName name version : String) : Except Raised (Db × PublishResult) := do
  let agent ← Outcome.demand (agentByName store.db namespaceName name) ⟨.versionNotFound, "agent not found"⟩
  let row ← Outcome.demand (resolveVersion store.db agent version) versionNotFound
  requireNamespaceOrReviewer store.db user namespaceName false
  Outcome.ensure (cooledDown host.settings now row.scanRequestedAt)
    ⟨.scanInProgress, "a scan was requested very recently; retry shortly"⟩
  let db := setVersion store.db row.id fun row => { row with scanRequestedAt := some now }
  let target ← Outcome.demand (versionByName db agent version)
    ⟨.versionNotFound, "agent or version not found"⟩
  let (db, result) ← reraise .scanTargetMissing (⟨.versionNotFound, ·⟩)
    (scanStored host db store.files agent target)
  return (setVersion db row.id (fun row => { row with scanCompletedAt := some now }) (scanned_preserves now), result)

/-- `scan_version_by_id`, as the worker runs it. -/
def scanVersionById (host : PackageHost) (store : Store) (versionId : Nat) : Except Raised (Db × PublishResult) := do
  let version ← Outcome.demand (store.db.agentVersions.byId versionId)
    ⟨.scanTargetMissing, "version " ++ toString versionId ++ " not found"⟩
  let agent ← Outcome.demand (store.db.agents.byId version.agentId)
    ⟨.scanTargetMissing, "version " ++ toString versionId ++ " not found"⟩
  scanStored host store.db store.files agent version

end Scans

section Review

inductive ReviewAction where
  | verify | warning | reject | revoke | request
  deriving DecidableEq, Repr

def ReviewAction.name : ReviewAction → String
  | .verify => "verify"
  | .warning => "warning"
  | .reject => "reject"
  | .revoke => "revoke"
  | .request => "request"

def reviewActions : List ReviewAction := [.verify, .warning, .reject, .revoke, .request]

def ReviewAction.status : ReviewAction → ReviewStatus
  | .verify => .verified
  | .warning => .warning
  | .reject => .rejected
  | .revoke => .revoked
  | .request => .changesRequested

def setReview (db : Db) (now : Time) (version : AgentVersion) (status : ReviewStatus) (reason : String)
    (reviewerId : Nat) : Db :=
  if version.reviewStatus = status ∧ version.reviewReason = some reason then db
  else setVersion db version.id fun row =>
    { row with reviewStatus := status, reviewReason := some reason, reviewedById := some reviewerId
               reviewedAt := some now }

def reviewVersion (_host : PackageHost) (now : Time) (db : Db) (user : User)
    (namespaceName name version action reason : String) (notes : Option String) :
    Except Raised (Db × ReviewStatus × Bool) := do
  let action ← Outcome.demand (reviewActions.find? fun candidate => candidate.name == action)
    ⟨.registryError, "action must be one of " ++ Text.join ", " (reviewActions.map ReviewAction.name)⟩
  Outcome.ensure (reason ≠ "" ∧ reason.length ≤ 2000)
    ⟨.registryError, "a structured reason is required (max 2000 characters)"⟩
  let agent ← Outcome.demand (agentByName db namespaceName name) agentNotFound
  let row ← Outcome.demand (resolveVersion db agent version) versionNotFound
  Outcome.ensure (user.role = .admin ∨ row.publishedById ≠ user.id)
    ⟨.registryError, "you cannot review a version you published"⟩
  let status := action.status
  let changed := !(row.reviewStatus == status && row.reviewReason == some reason)
  let db := setReview db now row status reason user.id
  let versionReviewEvents := db.versionReviewEvents.push fun id =>
    { id, versionId := row.id, action := action.name, reason, notes, digest := row.sha256
      signerFingerprint := (signerKey db row).map SigningKey.fingerprint, reviewerId := user.id }
  let db := auditPackage { db with versionReviewEvents } now user.id "version.reviewed" "agent_version" row.id
    agent.organizationId namespaceName name
    [("namespace", .str namespaceName), ("name", .str name), ("version", .str version),
      ("action", .str action.name), ("status", .str status.name)]
  return (bumpCatalog db now, status, changed)

def yankVersion (_host : PackageHost) (now : Time) (db : Db) (user : User) (namespaceName name version : String)
    (yanked : Bool) : Except Raised (Db × Bool) := do
  let agent ← Outcome.demand (agentByName db namespaceName name) agentNotFound
  let row ← Outcome.demand (resolveVersion db agent version) versionNotFound
  requireNamespaceOrReviewer db user namespaceName true
  if row.yanked = yanked then return (db, false)
  else
    let db := setVersion db row.id fun row => { row with yanked }
    let db := auditPackage db now user.id (if yanked then "version.yanked" else "version.unyanked")
      "agent_version" row.id agent.organizationId namespaceName name
      [("namespace", .str namespaceName), ("name", .str name), ("version", .str version)]
    return (bumpCatalog db now, true)

end Review

section Access

def notAuthorized : Raised := ⟨.registryError, "you are not authorized to manage this package"⟩

def targetOrganization (db : Db) (user : User) (agent : Agent) (visibility : Visibility) (slug : Option String) :
    Except Raised (Option Nat) :=
  if visibility = .public then return none
  else
    match slug.filter (· ≠ "") with
    | some slug => do
      let org ← administeredOrganization db user slug "you are not an owner or administrator of that organization"
      return some org.id
    | none =>
      if visibility = .internal then .error ⟨.registryError, "internal packages must be bound to an organization"⟩
      else return agent.organizationId

/-- A package that moves to another organization counts against that one's quota. -/
def enforceMoveQuota (host : PackageHost) (now : Time) (db : Db) (agent : Agent) (organizationId : Option Nat) :
    Except Raised Db :=
  match organizationId with
  | none => .ok db
  | some target =>
    if agent.organizationId = some target then .ok db
    else reraise .quotaExceeded (⟨.registryError, ·⟩) (enforcePublishQuota host.settings now db target 0 0)

theorem rebound_preserves (visibility : Visibility) (organizationId : Option Nat) :
    Table.Preserves fun row : Agent => { row with visibility, organizationId } := fun _ => ⟨rfl, fun _ => rfl⟩

def setPackageVisibility (host : PackageHost) (now : Time) (db : Db) (subject : Subject)
    (namespaceName name visibility : String) (slug : Option String) : Except Raised (Db × Visibility) := do
  let visibility ← parseVisibility visibility
  let agent ← Outcome.demand (agentByName db namespaceName name) agentNotFound
  Outcome.ensure (canManageAccess db agent (some subject) = true) notAuthorized
  let organizationId ← targetOrganization db subject.user agent visibility slug
  let db := setAgent db agent.id fun row => { row with visibility, organizationId }
  if agent.visibility = visibility then return (db, visibility)
  else
    let db ← enforceMoveQuota host now db agent organizationId
    let db := auditPackage db now subject.user.id "package.visibility_changed" "agent" agent.id organizationId
      namespaceName name
      [("namespace", .str namespaceName), ("name", .str name), ("visibility", .str (Visibility.name visibility))]
    return (bumpCatalog db now, visibility)

/-- A grant names a user or a team; the API refuses both and neither. -/
inductive Grantee where
  | user (username : String)
  | team (teamId : Nat)
  deriving DecidableEq, Repr

def grantee (username : Option String) (teamId : Option Nat) : Except Raised Grantee :=
  match username, teamId with
  | some username, none => .ok (.user username)
  | none, some teamId => .ok (.team teamId)
  | _, _ => .error ⟨.registryError, "provide exactly one of username or teamId"⟩

def granteeDetail (namespaceName name : String) : Grantee → List (String × Json)
  | .user username => [("namespace", .str namespaceName), ("name", .str name), ("username", .str username)]
  | .team teamId => [("namespace", .str namespaceName), ("name", .str name), ("teamId", .num teamId)]

def insertGrant (db : Db) (agent : Agent) (grantedById : Nat) :
    Grantee → Except Raised (AgentGrant × Table AgentGrant)
  | .user username => do
    let target ← Outcome.demand (userByName db username)
      ⟨.registryError, "user '" ++ username ++ "' not found"⟩
    Outcome.ensure (userGrant db agent target.id = none)
      ⟨.registryError, "user '" ++ username ++ "' already has access"⟩
    Db.insertRow db.agentGrants fun id => { id, agentId := agent.id, userId := some target.id, grantedById }
  | .team teamId => do
    Outcome.ensure (teamGrant db agent teamId = none) ⟨.registryError, "team already has access"⟩
    Db.insertRow db.agentGrants fun id => { id, agentId := agent.id, teamId := some teamId, grantedById }

def grantPackageAccess (_host : PackageHost) (now : Time) (db : Db) (subject : Subject)
    (namespaceName name : String) (username : Option String) (teamId : Option Nat) :
    Except Raised (Db × AgentGrant) := do
  let grantee ← grantee username teamId
  let agent ← Outcome.demand (agentByName db namespaceName name) agentNotFound
  Outcome.ensure (agent.visibility = .private)
    ⟨.registryError, "grants are only meaningful for private packages"⟩
  Outcome.ensure (canManageAccess db agent (some subject) = true) notAuthorized
  let (row, agentGrants) ← insertGrant db agent subject.user.id grantee
  return (auditPackage { db with agentGrants } now subject.user.id "package.access_granted" "agent_grant" row.id
    agent.organizationId namespaceName name (granteeDetail namespaceName name grantee), row)

def findGrant (db : Db) (agent : Agent) : Grantee → Except Raised (Option AgentGrant)
  | .user username => do
    let target ← Outcome.demand (userByName db username)
      ⟨.registryError, "user '" ++ username ++ "' not found"⟩
    return userGrant db agent target.id
  | .team teamId => return teamGrant db agent teamId

def revokePackageAccess (_host : PackageHost) (now : Time) (db : Db) (subject : Subject)
    (namespaceName name : String) (username : Option String) (teamId : Option Nat) :
    Except Raised (Db × AgentGrant) := do
  let grantee ← grantee username teamId
  let agent ← Outcome.demand (agentByName db namespaceName name) agentNotFound
  Outcome.ensure (canManageAccess db agent (some subject) = true) notAuthorized
  let found ← findGrant db agent grantee
  let row ← Outcome.demand found ⟨.registryError, "no matching grant to revoke"⟩
  let agentGrants := db.agentGrants.delete (·.id == row.id)
  return (auditPackage { db with agentGrants } now subject.user.id "package.access_revoked" "agent_grant" row.id
    agent.organizationId namespaceName name (granteeDetail namespaceName name grantee), row)

end Access

section Namespaces

/-- `re.match` of `^[a-z0-9](?:[a-z0-9-]*[a-z0-9])?$`, where `$` lets a final newline through, and at most 64
    characters. -/
def validNamespace (name : String) : Bool :=
  let chars := name.toList
  let slug := if chars.getLast? = some '\n' then chars.dropLast else chars
  chars.length ≤ 64 && slug.all (fun char => Text.isLowerOrDigit char || char == '-') &&
    slug.head?.any Text.isLowerOrDigit && slug.getLast?.any Text.isLowerOrDigit

def claimNamespace (host : PackageHost) (now : Time) (db : Db) (user : User) (name : String) :
    Except Raised (Db × Namespace) := do
  Outcome.ensure (validNamespace name = true)
    ⟨.registryError, "namespace must be a lowercase slug of at most 64 characters"⟩
  Outcome.ensure (isReservedNamespace host name = false)
    ⟨.namespaceReserved, "namespace '" ++ name ++ "' is reserved"⟩
  Outcome.ensure (namespaceByName db name = none)
    ⟨.namespaceConflict, "namespace '" ++ name ++ "' already exists"⟩
  createNamespace now db user name

def parseNamespaceRole (role : String) : Except Raised NamespaceRole :=
  if role = "owner" then .ok .owner
  else if role = "maintainer" then .ok .maintainer
  else .error ⟨.registryError, "role must be 'owner' or 'maintainer'"⟩

def addNamespaceMaintainer (_host : PackageHost) (now : Time) (db : Db) (user : User)
    (namespaceName username role : String) : Except Raised (Db × NamespaceMember) := do
  let parsed ← parseNamespaceRole role
  let space ← Outcome.demand (namespaceByName db namespaceName)
    ⟨.namespaceNotFound, "namespace '" ++ namespaceName ++ "' not found"⟩
  Outcome.ensure ((isMember db space user.id).any (·.role == .owner) = true)
    ⟨.namespaceForbidden, "only the owner of '" ++ namespaceName ++ "' can manage maintainers"⟩
  let target ← Outcome.demand (userByName db username)
    ⟨.maintainerNotFound, "user '" ++ username ++ "' not found"⟩
  Outcome.ensure (isMember db space target.id = none)
    ⟨.namespaceConflict, "user '" ++ username ++ "' is already a member"⟩
  let (member, namespaceMembers) ← Db.insertRow db.namespaceMembers fun id =>
    { id, namespaceId := space.id, userId := target.id, role := parsed }
  -- The row is not flushed, so it has no id yet that the event could name.
  return ({ db with namespaceMembers }.recordAudit
    { id := 0, actorId := some user.id, action := "namespace.maintainer.added"
      targetType := some "namespace_member", targetId := none, createdAt := now
      detail := [("namespace", .str namespaceName), ("username", .str username), ("role", .str role)] }, member)

end Namespaces

section Keys

def registerSigningKey (host : PackageHost) (now : Time) (db : Db) (user : User) (pem : String)
    (label : Option String) (expiresAt : Option Time) : Except Raised (Db × SigningKey) := do
  let fingerprint ← reraise .signatureError (⟨.identityError, ·⟩) (publicKeyFingerprint host pem)
  match keyByFingerprint db fingerprint with
  | some existing => do
    Outcome.ensure (existing.userId = user.id)
      ⟨.keyAlreadyRegistered, "public key is already registered to another account"⟩
    return (db, existing)
  | none => do
    let (key, signingKeys) ← Db.insertRow db.signingKeys fun id =>
      { id, userId := user.id, publicKeyPem := pem, fingerprint, label, expiresAt }
    -- Neither has this row an id yet.
    return ({ db with signingKeys }.recordAudit
      { id := 0, actorId := some user.id, action := "key.uploaded", targetType := some "signing_key"
        targetId := none, createdAt := now
        detail := [("fingerprint", .str fingerprint), ("label", (label.map Json.str).getD .null)] }, key)

def revokeSigningKey (_host : PackageHost) (now : Time) (db : Db) (user : User) (keyId : Nat) :
    Except Raised (Db × SigningKey) := do
  let key ← Outcome.demand (db.signingKeys.byId keyId) ⟨.keyNotFound, "signing key not found"⟩
  Outcome.ensure (key.userId = user.id) ⟨.keyNotOwned, "you do not own this signing key"⟩
  if key.revokedAt.isSome then return (db, key)
  else
    let signingKeys := db.signingKeys.modify (·.id == keyId) fun row => { row with revokedAt := some now }
    return ({ db with signingKeys }.recordAudit
      { id := 0, actorId := some user.id, action := "key.revoked", targetType := some "signing_key"
        targetId := some key.id, detail := [("fingerprint", .str key.fingerprint)], createdAt := now },
      { key with revokedAt := some now })

end Keys

def flushDownloadCounts (db : Db) (counts : List (Nat × Nat)) : Db :=
  counts.foldl (fun db (versionId, amount) =>
    setVersion db versionId fun row => { row with downloadCount := row.downloadCount + amount }) db

end Registry.Packages
