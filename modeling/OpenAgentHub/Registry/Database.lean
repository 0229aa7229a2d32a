import OpenAgentHub.Lib.Outcome
import OpenAgentHub.Registry.Rows

namespace Registry

open Relational

inductive ExceptionClass where
  | organizationError | organizationConflict | organizationNotFound | organizationForbidden
  | invitationError | invitationExpired | tokenError
  | registryError | agentNotFound | versionNotFound | archiveMissing | versionConflict
  | invalidSignatureFile | invalidPayload | archiveTooLarge | signingKeyForbidden
  | namespaceForbidden | namespaceReserved | namespaceConflict | namespaceNotFound
  | maintainerNotFound | versionBlocked | scanInProgress | downloadUrlError
  | catalogQueryError | archiveStoreError
  | quotaExceeded | publishQuotaExceeded | billingBlocked | billingError
  | signatureError | scanTargetMissing | identityError | keyAlreadyRegistered | keyNotFound | keyNotOwned
  | userNotFound | accountDeletionBlocked | tokenNotFound | tokenNotOwned | sessionError | quotaError
  | rateLimitExceeded | httpException (status : Nat)
  | integrityError | databaseError | tarError | osError | eofError | zlibError | attributeError | typeError | valueError
  | keyError | indexError | overflowError | recursionError
  deriving DecidableEq, Repr

structure Raised where
  cls : ExceptionClass
  message : String
  deriving DecidableEq, Repr

/-- `except cls as exc: raise other(str(exc)) from exc`. -/
def reraise {α : Type} (cls : ExceptionClass) (other : String → Raised) (outcome : Except Raised α) :
    Except Raised α :=
  match outcome with
  | .ok value => .ok value
  | .error raised => .error (if raised.cls = cls then other raised.message else raised)

@[simp] theorem reraise_eq_ok {α : Type} {cls : ExceptionClass} {other : String → Raised}
    {outcome : Except Raised α} {value : α} : reraise cls other outcome = .ok value ↔ outcome = .ok value := by
  cases outcome <;> simp [reraise]

structure Settings where
  invitationTtlHours : Nat := 72
  maxArchiveBytes : Nat := 250 * 1024 * 1024
  maxArchiveUncompressedBytes : Nat := 512 * 1024 * 1024
  maxArchiveEntries : Nat := 10000
  publishQuotaNewAccountDaily : Nat := 10
  publishQuotaNewAccountDays : Nat := 7
  reservedNamespacePrefixes : List String :=
    ["openagenthub-", "oah-", "github-", "google-", "microsoft-", "meta-", "anthropic-", "openai-"]
  rescanCooldownSeconds : Nat := 10
  downloadUrlTtlSeconds : Nat := 300
  defaultLimits : Limits := fun
    | .packages => 100
    | .versions => 500
    | .storageBytes => 5 * 1024 * 1024 * 1024
    | .downloadBytesPerMonth => 100 * 1024 * 1024 * 1024
    | .members => 25
    | .serviceAccounts => 10
  orgAuditRetentionDefaultDays : Int := 90
  billingTrialDays : Nat := 14
  billingGraceDays : Nat := 7
  billingPastDueDays : Nat := 14
  billingLaunchablePlans : List String := ["free"]
  tokenMaxLifetimeDays : Nat := 365
  tokenDefaultTtlDays : Nat := 90
  tokenAllowedScopes : String := ""
  tokenMaxPerAccount : Nat := 50
  sessionAbsoluteTtlSeconds : Nat := 7 * 24 * 3600
  sessionIdleTtlSeconds : Nat := 14 * 24 * 3600
  sessionRotateAfterSeconds : Nat := 3600
  deviceLoginTtlSeconds : Nat := 900
  deviceApprovePerIpPerHour : Nat := 60
  accountWritesPerHour : Nat := 600
  publicBaseUrl : String := "http://localhost:8000"
  currentTosVersion : Nat := 1
  currentPrivacyVersion : Nat := 1
  currentPublisherAgreementVersion : Nat := 1
  /-- `database_url` names PostgreSQL; SQLite otherwise. -/
  postgresql : Bool := false

structure Db where
  users : Table User := .empty
  userAgreements : Table UserAgreement := .empty
  sessions : Table Session := .empty
  loginTransactions : Table LoginTransaction := .empty
  organizations : Table Organization := .empty
  organizationMembers : Table OrganizationMember := .empty
  teams : Table Team := .empty
  teamMembers : Table TeamMember := .empty
  invitations : Table Invitation := .empty
  serviceAccounts : Table ServiceAccount := .empty
  apiTokens : Table ApiToken := .empty
  signingKeys : Table SigningKey := .empty
  auditEvents : Table AuditEvent := .empty
  subscriptions : Table OrganizationSubscription := .empty
  billingWebhookEvents : Table BillingWebhookEvent := .empty
  orgQuotas : Table OrgQuota := .empty
  orgMonthlyUsage : Table OrgMonthlyUsage := .empty
  queueJobs : Table QueueJob := .empty
  outboxEvents : Table OutboxEvent := .empty
  namespaces : Table Namespace := .empty
  namespaceMembers : Table NamespaceMember := .empty
  agents : Table Agent := .empty
  agentVersions : Table AgentVersion := .empty
  agentGrants : Table AgentGrant := .empty
  versionReviewEvents : Table VersionReviewEvent := .empty
  catalogUpdatedAt : Option Time := none

def integrityError : Raised := ⟨.integrityError, "unique constraint failed"⟩

def Db.insertRow {α : Type} [Row α] (table : Table α) (make : Nat → α)
    (made : ∀ id, Row.id (make id) = id := by intro; rfl) : Except Raised (α × Table α) :=
  Outcome.demand (table.insert make made) integrityError

theorem Db.insertRow_eq_ok {α : Type} [Row α] {table after : Table α} {make : Nat → α}
    {made : ∀ id, Row.id (make id) = id} {added : α} :
    Db.insertRow table make made = .ok (added, after) ↔ table.insert make made = some (added, after) :=
  Outcome.demand_eq_ok

def Db.updateRow {α : Type} [Row α] (table : Table α) (row : α) : Except Raised (Table α) :=
  Outcome.demand (table.replace row) integrityError

def Db.recordAudit (db : Db) (event : AuditEvent) : Db :=
  { db with auditEvents := db.auditEvents.push fun id => { event with id } }

structure Host where
  settings : Settings := {}
  lower : String → String
  hashToken : String → String

end Registry
