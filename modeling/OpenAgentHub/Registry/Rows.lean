import OpenAgentHub.Lib.Json
import OpenAgentHub.Lib.Table

namespace Registry

open Relational

/-- Instants and spans, in microseconds. -/
abbrev Time := Nat

def seconds (count : Nat) : Time := count * 1000000
def hours (count : Nat) : Time := seconds (count * 3600)
def days (count : Nat) : Time := hours (count * 24)

inductive UserRole where
  | publisher | reviewer | admin
  deriving DecidableEq, Repr

inductive UserStatus where
  | active | suspended | deleted
  deriving DecidableEq, Repr

/-- A column that may be null clashes with another one only where it is given. -/
theorem given_comm {α : Type} [DecidableEq α] (first second : Option α) :
    (first.isSome && first == second) = (second.isSome && second == first) := by
  cases first <;> cases second <;> simp [Bool.beq_comm]

structure User where
  id : Nat
  username : String
  githubId : Option String := none
  avatarUrl : Option String := none
  role : UserRole := .publisher
  status : UserStatus := .active
  createdAt : Time := 0
  tosVersion : Nat := 0
  privacyVersion : Nat := 0
  publisherAgreementVersion : Nat := 0
  deriving DecidableEq, Repr

instance : Row User where
  id := User.id
  clash first second :=
    first.username == second.username || (first.githubId.isSome && first.githubId == second.githubId)
  clash_symm first second := by
    rw [Bool.beq_comm (a := first.username), given_comm]

structure UserAgreement where
  id : Nat
  userId : Nat
  termName : String
  version : Nat := 1
  acceptedAt : Time
  deriving DecidableEq, Repr

instance : Row UserAgreement where
  id := UserAgreement.id
  clash first second := first.userId == second.userId && first.termName == second.termName
  clash_symm first second := by simp only [Bool.beq_comm]

structure Session where
  id : Nat
  userId : Nat
  tokenHash : String
  audience : String := "web"
  deviceLabel : Option String := none
  createdAt : Time
  lastUsedAt : Time
  expiresAt : Time
  idleExpiresAt : Time
  revokedAt : Option Time := none
  rotatedFromId : Option Nat := none
  deriving DecidableEq, Repr

instance : Row Session where
  id := Session.id
  clash first second := first.tokenHash == second.tokenHash
  clash_symm _ _ := Bool.beq_comm

structure LoginTransaction where
  id : Nat
  deviceCodeHash : String
  userCode : String
  nonce : String
  clientName : String := "cli"
  redirectMode : String := "poll"
  requestedScopes : String := "cli"
  registryOrigin : Option String := none
  createdAt : Time
  expiresAt : Time
  completedAt : Option Time := none
  issuedAt : Option Time := none
  userId : Option Nat := none
  deriving DecidableEq, Repr

instance : Row LoginTransaction where
  id := LoginTransaction.id
  clash first second := first.deviceCodeHash == second.deviceCodeHash || first.userCode == second.userCode
  clash_symm first second := by simp only [Bool.beq_comm]

inductive OrgRole where
  | owner | administrator | maintainer | securityReviewer | readOnly | billingManager
  deriving DecidableEq, Repr

def OrgRole.name : OrgRole → String
  | .owner => "owner"
  | .administrator => "administrator"
  | .maintainer => "maintainer"
  | .securityReviewer => "security_reviewer"
  | .readOnly => "read_only"
  | .billingManager => "billing_manager"

def orgRoles : List OrgRole :=
  [.owner, .administrator, .maintainer, .securityReviewer, .readOnly, .billingManager]

def OrgRole.ofName (text : String) : Option OrgRole := orgRoles.find? fun role => role.name == text

inductive OrgStatus where
  | active | suspended
  deriving DecidableEq, Repr

structure Organization where
  id : Nat
  slug : String
  displayName : String
  status : OrgStatus := .active
  deriving DecidableEq, Repr

instance : Row Organization where
  id := Organization.id
  clash first second := first.slug == second.slug
  clash_symm _ _ := Bool.beq_comm

structure OrganizationMember where
  id : Nat
  organizationId : Nat
  userId : Nat
  role : OrgRole := .readOnly
  deriving DecidableEq, Repr

def OrganizationMember.isOwner (member : OrganizationMember) : Bool := member.role == .owner

instance : Row OrganizationMember where
  id := OrganizationMember.id
  clash first second := first.organizationId == second.organizationId && first.userId == second.userId
  clash_symm first second := by simp only [Bool.beq_comm]

structure Team where
  id : Nat
  organizationId : Nat
  name : String
  deriving DecidableEq, Repr

instance : Row Team where
  id := Team.id
  clash first second := first.organizationId == second.organizationId && first.name == second.name
  clash_symm first second := by simp only [Bool.beq_comm]

structure TeamMember where
  id : Nat
  teamId : Nat
  userId : Nat
  deriving DecidableEq, Repr

instance : Row TeamMember where
  id := TeamMember.id
  clash first second := first.teamId == second.teamId && first.userId == second.userId
  clash_symm first second := by simp only [Bool.beq_comm]

structure Invitation where
  id : Nat
  organizationId : Nat
  invitedById : Nat
  role : OrgRole := .readOnly
  teamId : Option Nat := none
  tokenHash : String
  email : String
  expiresAt : Time
  acceptedById : Option Nat := none
  acceptedAt : Option Time := none
  deriving DecidableEq, Repr

instance : Row Invitation where
  id := Invitation.id
  clash first second := first.tokenHash == second.tokenHash
  clash_symm _ _ := Bool.beq_comm

structure ServiceAccount where
  id : Nat
  organizationId : Nat
  userId : Nat
  name : String
  status : OrgStatus := .active
  createdById : Nat
  deriving DecidableEq, Repr

instance : Row ServiceAccount where
  id := ServiceAccount.id
  clash first second :=
    (first.organizationId == second.organizationId && first.name == second.name) ||
      first.userId == second.userId
  clash_symm first second := by simp only [Bool.beq_comm]

structure ApiToken where
  id : Nat
  userId : Nat
  tokenHash : String
  tokenPrefix : String
  label : String := ""
  scopes : String := "packages:read"
  organizationId : Option Nat := none
  isServiceAccount : Bool := false
  lastUsedAt : Option Time := none
  expiresAt : Option Time := none
  revokedAt : Option Time := none
  rotatedFromId : Option Nat := none
  deriving DecidableEq, Repr

instance : Row ApiToken where
  id := ApiToken.id
  clash first second := first.tokenHash == second.tokenHash
  clash_symm _ _ := Bool.beq_comm

structure SigningKey where
  id : Nat
  userId : Nat
  publicKeyPem : String
  fingerprint : String
  label : Option String := none
  expiresAt : Option Time := none
  revokedAt : Option Time := none
  lastUsedAt : Option Time := none
  deriving DecidableEq, Repr

instance : Row SigningKey where
  id := SigningKey.id
  clash first second := first.fingerprint == second.fingerprint
  clash_symm _ _ := Bool.beq_comm

structure AuditEvent where
  id : Nat
  actorId : Option Nat
  organizationId : Option Nat := none
  namespaceName : Option String := none
  name : Option String := none
  action : String
  targetType : Option String := none
  targetId : Option Nat := none
  detail : List (String × Json) := []
  createdAt : Time

instance : Row AuditEvent where
  id := AuditEvent.id
  clash _ _ := false
  clash_symm _ _ := rfl

instance : Unconstrained AuditEvent := ⟨fun _ _ => rfl⟩

inductive Dimension where
  | packages | versions | storageBytes | downloadBytesPerMonth | members | serviceAccounts
  deriving DecidableEq, Repr

def Dimension.name : Dimension → String
  | .packages => "packages"
  | .versions => "versions"
  | .storageBytes => "storageBytes"
  | .downloadBytesPerMonth => "downloadBytesPerMonth"
  | .members => "members"
  | .serviceAccounts => "serviceAccounts"

abbrev Limits := Dimension → Int

inductive Plan where
  | free | pro | enterprise
  deriving DecidableEq, Repr

def Plan.name : Plan → String
  | .free => "free"
  | .pro => "pro"
  | .enterprise => "enterprise"

def Plan.ofName (text : String) : Option Plan := [Plan.free, .pro, .enterprise].find? fun plan => plan.name == text

structure Entitlements where
  limits : Limits
  auditRetentionDays : Int

inductive SubscriptionStatus where
  | trial | active | gracePeriod | pastDue | suspended | canceled
  deriving DecidableEq, Repr

def SubscriptionStatus.name : SubscriptionStatus → String
  | .trial => "trial"
  | .active => "active"
  | .gracePeriod => "grace_period"
  | .pastDue => "past_due"
  | .suspended => "suspended"
  | .canceled => "canceled"

def subscriptionStatuses : List SubscriptionStatus := [.trial, .active, .gracePeriod, .pastDue, .suspended, .canceled]

def SubscriptionStatus.ofName (text : String) : Option SubscriptionStatus :=
  subscriptionStatuses.find? fun status => status.name == text

structure EntitlementSnapshot where
  plan : Plan
  status : SubscriptionStatus
  entitlements : Entitlements

structure OrganizationSubscription where
  id : Nat
  organizationId : Nat
  plan : Plan := .free
  status : SubscriptionStatus := .trial
  entitlementSnapshot : Option EntitlementSnapshot := none
  trialEndsAt : Option Time := none
  graceEndsAt : Option Time := none
  canceledAt : Option Time := none
  updatedAt : Time

instance : Row OrganizationSubscription where
  id := OrganizationSubscription.id
  clash first second := first.organizationId == second.organizationId
  clash_symm _ _ := Bool.beq_comm

structure BillingWebhookEvent where
  id : Nat
  organizationId : Nat
  provider : String
  eventId : String
  eventType : String
  payload : Json
  status : String
  receivedAt : Time
  processedAt : Option Time

instance : Row BillingWebhookEvent where
  id := BillingWebhookEvent.id
  clash first second := first.provider == second.provider && first.eventId == second.eventId
  clash_symm first second := by simp only [Bool.beq_comm]

structure OrgQuota where
  id : Nat
  organizationId : Nat
  overrides : Dimension → Option Int
  overridesExpireAt : Option Time := none
  createdById : Nat := 0

instance : Row OrgQuota where
  id := OrgQuota.id
  clash first second := first.organizationId == second.organizationId
  clash_symm _ _ := Bool.beq_comm

/-- `period` is the UTC month, as `%Y-%m`. -/
structure OrgMonthlyUsage where
  id : Nat
  organizationId : Nat
  period : String
  downloadBytes : Nat := 0
  downloadCount : Nat := 0
  deriving DecidableEq, Repr

instance : Row OrgMonthlyUsage where
  id := OrgMonthlyUsage.id
  clash first second := first.organizationId == second.organizationId && first.period == second.period
  clash_symm first second := by simp only [Bool.beq_comm]

inductive JobStatus where
  | queued | running | succeeded | dead
  deriving DecidableEq, Repr

structure QueueJob where
  id : Nat
  jobType : String
  payload : Json
  schemaVersion : Nat := 1
  dedupeKey : String
  status : JobStatus := .queued
  attempts : Nat := 0
  maxAttempts : Nat
  nextAttemptAt : Time
  leasedUntil : Option Time := none
  leaseOwner : Option String := none
  lastError : Option String := none
  updatedAt : Time

instance : Row QueueJob where
  id := QueueJob.id
  clash _ _ := false
  clash_symm _ _ := rfl

instance : Unconstrained QueueJob := ⟨fun _ _ => rfl⟩

structure OutboxEvent where
  id : Nat
  eventType : String
  payload : Json
  schemaVersion : Nat := 1
  publishedAt : Option Time := none

instance : Row OutboxEvent where
  id := OutboxEvent.id
  clash _ _ := false
  clash_symm _ _ := rfl

instance : Unconstrained OutboxEvent := ⟨fun _ _ => rfl⟩

structure Namespace where
  id : Nat
  name : String
  deriving DecidableEq, Repr

instance : Row Namespace where
  id := Namespace.id
  clash first second := first.name == second.name
  clash_symm _ _ := Bool.beq_comm

inductive NamespaceRole where
  | owner | maintainer
  deriving DecidableEq, Repr

structure NamespaceMember where
  id : Nat
  namespaceId : Nat
  userId : Nat
  role : NamespaceRole := .maintainer
  deriving DecidableEq, Repr

instance : Row NamespaceMember where
  id := NamespaceMember.id
  clash first second := first.namespaceId == second.namespaceId && first.userId == second.userId
  clash_symm first second := by simp only [Bool.beq_comm]

inductive Visibility where
  | «public» | «private» | internal
  deriving DecidableEq, Repr

structure Agent where
  id : Nat
  namespaceName : String
  name : String
  ownerId : Nat
  visibility : Visibility := .public
  organizationId : Option Nat := none
  author : String
  description : String := ""
  license : String := ""
  framework : Option String := none
  models : List String := []
  tags : List String := []
  deriving DecidableEq, Repr

instance : Row Agent where
  id := Agent.id
  clash first second := first.namespaceName == second.namespaceName && first.name == second.name
  clash_symm first second := by simp only [Bool.beq_comm]

structure AgentGrant where
  id : Nat
  agentId : Nat
  userId : Option Nat := none
  teamId : Option Nat := none
  grantedById : Nat
  deriving DecidableEq, Repr

instance : Row AgentGrant where
  id := AgentGrant.id
  clash first second :=
    first.agentId == second.agentId &&
      ((first.userId.isSome && first.userId == second.userId) ||
        (first.teamId.isSome && first.teamId == second.teamId))
  clash_symm first second := by
    rw [Bool.beq_comm (a := first.agentId), given_comm first.userId, given_comm first.teamId]

/-- `SignatureFile`, with the one algorithm its type admits. -/
structure SignatureFile where
  schemaVersion : Int
  name : String
  version : String
  publicKey : String
  publicKeyId : String
  sha256 : String
  signature : String
  deriving DecidableEq, Repr

inductive SecurityStatus where
  | pending | clean | flagged
  deriving DecidableEq, Repr

inductive ReviewStatus where
  | pending | verified | warning | rejected | revoked | changesRequested
  deriving DecidableEq, Repr

def ReviewStatus.name : ReviewStatus → String
  | .pending => "pending"
  | .verified => "verified"
  | .warning => "warning"
  | .rejected => "rejected"
  | .revoked => "revoked"
  | .changesRequested => "changes_requested"

def ReviewStatus.blocked : ReviewStatus → Bool
  | .rejected | .revoked => true
  | _ => false

structure AgentVersion where
  id : Nat
  agentId : Nat
  version : String
  sortKey : String
  manifest : Json
  sha256 : String
  archiveName : String
  archiveBytes : Nat := 0
  signature : SignatureFile
  publishedById : Nat
  publishedAt : Time
  downloadCount : Nat := 0
  securityStatus : SecurityStatus := .pending
  securityFindings : List String := []
  yanked : Bool := false
  reviewStatus : ReviewStatus := .pending
  reviewReason : Option String := none
  reviewedById : Option Nat := none
  reviewedAt : Option Time := none
  scanRequestedAt : Option Time := none
  scanCompletedAt : Option Time := none

instance : Row AgentVersion where
  id := AgentVersion.id
  clash first second := first.agentId == second.agentId && first.version == second.version
  clash_symm first second := by simp only [Bool.beq_comm]

structure VersionReviewEvent where
  id : Nat
  versionId : Nat
  action : String
  reason : String
  notes : Option String
  digest : String
  signerFingerprint : Option String
  reviewerId : Nat

instance : Row VersionReviewEvent where
  id := VersionReviewEvent.id
  clash _ _ := false
  clash_symm _ _ := rfl

instance : Unconstrained VersionReviewEvent := ⟨fun _ _ => rfl⟩

end Registry
