import OpenAgentHub.Lib.Selection
import OpenAgentHub.Registry.Packages.Access
import OpenAgentHub.Registry.Packages.Host
import OpenAgentHub.Registry.Packages.Semver

namespace Registry.Packages

open Relational Organizations Semver

def agentByName (db : Db) (namespaceName name : String) : Option Agent :=
  db.agents.one fun agent => agent.namespaceName == namespaceName && agent.name == name

theorem agentByName_eq_some {db : Db} {found : Agent} {namespaceName name : String} :
    agentByName db namespaceName name = some found ↔
      found ∈ db.agents.rows ∧ found.namespaceName = namespaceName ∧ found.name = name := by
  unfold agentByName
  rw [Table.one_eq_some]
  · simp
  · intro first left second right one two
    simp only [Bool.and_eq_true, beq_iff_eq] at one two
    apply Table.eq_of_clash left right
    simp [Row.clash, one, two]

def versionsOf (db : Db) (agent : Agent) : List AgentVersion :=
  db.agentVersions.select (·.agentId == agent.id)

def versionByName (db : Db) (agent : Agent) (version : String) : Option AgentVersion :=
  db.agentVersions.one fun row => row.agentId == agent.id && row.version == version

/-- The order of `(semver_key(v.version), v.published_at)`. -/
def semverOrder (first second : AgentVersion) : Ordering :=
  (compareKeys (semverKey first.version) (semverKey second.version)).then
    (compare first.publishedAt second.publishedAt)

/-- `ORDER BY sort_key, published_at, id`. -/
def sqlOrder (first second : AgentVersion) : Ordering :=
  (compareText first.sortKey second.sortKey).then
    ((compare first.publishedAt second.publishedAt).then (compare first.id second.id))

instance : Std.TransCmp sqlOrder :=
  inferInstanceAs (Std.TransCmp (compareLex (compareOn fun version : AgentVersion => version.sortKey.toList)
    (compareLex (compareOn AgentVersion.publishedAt) (compareOn AgentVersion.id))))

def latest (db : Db) (agent : Agent) : Option AgentVersion := Selection.maxBy semverOrder (versionsOf db agent)

def listFor (db : Db) (agent : Agent) : List AgentVersion := Selection.descending semverOrder (versionsOf db agent)

/-- Neither yanked nor blocked by its review. -/
def visible (version : AgentVersion) : Bool := !version.yanked && !version.reviewStatus.blocked

/-- The row that the window query of `latest_visible_versions` and `_ranked_visible` ranks first. -/
def latestVisible (db : Db) (agentId : Nat) : Option AgentVersion :=
  Selection.maxBy sqlOrder ((db.agentVersions.select visible).filter (·.agentId == agentId))

theorem latestVisible_mem {db : Db} {agentId : Nat} {version : AgentVersion}
    (found : latestVisible db agentId = some version) :
    version ∈ db.agentVersions.rows ∧ visible version = true ∧ version.agentId = agentId := by
  have member := Selection.maxBy_mem found
  simpa [and_assoc] using member

def resolveVersion (db : Db) (agent : Agent) (version : String) : Option AgentVersion :=
  if version = "latest" then latest db agent else versionByName db agent version

def keyByFingerprint (db : Db) (fingerprint : String) : Option SigningKey :=
  db.signingKeys.one (·.fingerprint == fingerprint)

def signerKey (db : Db) (version : AgentVersion) : Option SigningKey :=
  if version.signature.publicKeyId = "" then none else keyByFingerprint db version.signature.publicKeyId

section Errors

def agentNotFound : Raised := ⟨.agentNotFound, "agent not found"⟩

def versionNotFound : Raised := ⟨.versionNotFound, "version not found"⟩

end Errors

def blockedDownloadReason (version : AgentVersion) : Option String :=
  if version.reviewStatus.blocked then
    some ("version is " ++ version.reviewStatus.name ++ ": " ++
      match version.reviewReason with
      | none => "no reason recorded"
      | some reason => if reason = "" then "no reason recorded" else reason)
  else if version.securityStatus = .flagged then some "version was flagged by the security scan"
  else none

def setVersion (db : Db) (id : Nat) (update : AgentVersion → AgentVersion)
    (preserves : Table.Preserves update := by exact fun _ => ⟨rfl, fun _ => rfl⟩) : Db :=
  { db with agentVersions := db.agentVersions.modify (·.id == id) update preserves }

def setAgent (db : Db) (id : Nat) (update : Agent → Agent)
    (preserves : Table.Preserves update := by exact fun _ => ⟨rfl, fun _ => rfl⟩) : Db :=
  { db with agents := db.agents.modify (·.id == id) update preserves }

def bumpCatalog (db : Db) (now : Time) : Db := { db with catalogUpdatedAt := some now }

def auditPackage (db : Db) (now : Time) (actorId : Nat) (action targetType : String) (targetId : Nat)
    (organizationId : Option Nat) (namespaceName name : String) (detail : List (String × Json)) : Db :=
  db.recordAudit
    { id := 0, actorId := some actorId, action, targetType := some targetType, targetId := some targetId
      organizationId, namespaceName := some namespaceName, name := some name, detail, createdAt := now }

end Registry.Packages
