import OpenAgentHub.Registry.Identity.ApiTokens
import OpenAgentHub.Registry.Quotas

namespace Registry.Organizations

open Relational Quotas

/-- `SLUG_RE`, matched against a stripped text. -/
def slugMatches (slug : String) : Bool :=
  let chars := slug.toList
  3 ≤ chars.length && chars.length ≤ 64 &&
    chars.all (fun char => Text.isLowerOrDigit char || char == '-') &&
    chars.head?.any Text.isLowerOrDigit && chars.getLast?.any Text.isLowerOrDigit

def orgRank : OrgRole → Nat
  | .owner => 5
  | .administrator => 4
  | .maintainer => 3
  | .securityReviewer => 2
  | .billingManager => 1
  | .readOnly => 1

def orgBySlug (db : Db) (slug : String) : Option Organization :=
  db.organizations.one (·.slug == slug)

def membership (db : Db) (organizationId userId : Nat) : Option OrganizationMember :=
  db.organizationMembers.one fun member =>
    member.organizationId == organizationId && member.userId == userId

/-- Members of the organization; the order by role and user is never observed here. -/
def members (db : Db) (organizationId : Nat) : List OrganizationMember :=
  db.organizationMembers.select (·.organizationId == organizationId)

def owners (db : Db) (organizationId : Nat) : List OrganizationMember :=
  (members db organizationId).filter OrganizationMember.isOwner

def userByName (db : Db) (username : String) : Option User := db.users.one (·.username == username)

def teamMembership (db : Db) (teamId userId : Nat) : Option TeamMember :=
  db.teamMembers.one fun row => row.teamId == teamId && row.userId == userId

def serviceAccountIn (db : Db) (organizationId : Nat) (name : String) : Option ServiceAccount :=
  db.serviceAccounts.one fun account => account.organizationId == organizationId && account.name == name

def teamIn (db : Db) (organizationId : Nat) (name : String) : Option Team :=
  db.teams.one fun team => team.organizationId == organizationId && team.name == name

section Errors

def organizationNotFound (slug : String) : Raised :=
  ⟨.organizationNotFound, "organization '" ++ slug ++ "' not found"⟩

def notAMember (org : Organization) : Raised :=
  ⟨.organizationForbidden, "not a member of '" ++ org.slug ++ "'"⟩

def unknownUser (username : String) : Raised :=
  ⟨.organizationError, "user '" ++ username ++ "' not found"⟩

def alreadyMember (username : String) : Raised :=
  ⟨.organizationConflict, "user '" ++ username ++ "' is already a member"⟩

def requiresMaintainer : Raised :=
  ⟨.organizationForbidden, "requires owner, administrator, or maintainer role"⟩

def requiresAdministrator : Raised :=
  ⟨.organizationForbidden, "requires owner or administrator role"⟩

end Errors

def asOrganizationError (outcome : Except Raised Db) : Except Raised Db :=
  reraise .quotaExceeded (⟨.organizationError, ·⟩) outcome

def parseRole (allowed : List OrgRole) (role : String) : Except Raised OrgRole :=
  Outcome.demand (allowed.find? fun candidate => candidate.name == role)
    ⟨.organizationError, "role must be one of " ++ Text.join ", " (allowed.map OrgRole.name)⟩

def actingMember (db : Db) (actor : User) (slug : String) :
    Except Raised (Organization × OrganizationMember) := do
  let org ← Outcome.demand (orgBySlug db slug) (organizationNotFound slug)
  let member ← Outcome.demand (membership db org.id actor.id) (notAMember org)
  return (org, member)

def canMaintain (member : OrganizationMember) : Bool :=
  member.isOwner || member.role == .administrator || member.role == .maintainer

def canAdminister (member : OrganizationMember) : Bool :=
  member.isOwner || member.role == .administrator

def canGrant (actor : OrganizationMember) (role : OrgRole) : Except Raised Unit := do
  Outcome.ensure (orgRank role ≤ orgRank actor.role)
    ⟨.organizationForbidden, "cannot grant a role higher than your own"⟩
  Outcome.ensure (canMaintain actor = true) requiresMaintainer

def audit (db : Db) (now : Time) (actorId : Nat) (action : String) (targetType : String) (targetId : Option Nat)
    (organizationId : Nat) (detail : List (String × Json)) : Db :=
  db.recordAudit
    { id := 0, actorId := some actorId, organizationId := some organizationId, action
      targetType := some targetType, targetId, detail, createdAt := now }

def createOrganization (host : Host) (now : Time) (db : Db) (user : User) (slug displayName : String) :
    Except Raised (Db × Organization) := do
  let slug := host.lower (Text.strip slug)
  Outcome.ensure (slugMatches slug = true)
    ⟨.organizationError, "slug must be 3-64 chars, lowercase alphanumeric and hyphens"⟩
  Outcome.ensure (Text.strip displayName ≠ "") ⟨.organizationError, "display name is required"⟩
  Outcome.ensure (orgBySlug db slug = none)
    ⟨.organizationConflict, "organization '" ++ slug ++ "' already exists"⟩
  let (org, organizations) ← Db.insertRow db.organizations fun id =>
    { id, slug, displayName := Text.strip displayName }
  let (_, organizationMembers) ← Db.insertRow db.organizationMembers fun id =>
    { id, organizationId := org.id, userId := user.id, role := .owner }
  let (db, _) ← Billing.ensureSubscription host.settings now { db with organizations, organizationMembers } org.id
  return (audit db now user.id "organization.created" "organization" org.id org.id [("slug", .str slug)], org)

structure MemberResult where
  slug : String
  username : String
  role : OrgRole
  deriving DecidableEq, Repr

def addMember (host : Host) (now : Time) (db : Db) (actor : User) (slug username role : String) :
    Except Raised (Db × MemberResult) := do
  let role ← parseRole orgRoles role
  let (org, member) ← actingMember db actor slug
  canGrant member role
  let target ← Outcome.demand (userByName db username) (unknownUser username)
  Outcome.ensure (membership db org.id target.id = none) (alreadyMember username)
  let db ← asOrganizationError (enforceOrgMemberQuota host.settings now db org.id)
  let (_, organizationMembers) ← Db.insertRow db.organizationMembers fun id =>
    { id, organizationId := org.id, userId := target.id, role }
  -- The row is not flushed, so it has no id yet that the event could name.
  return (audit { db with organizationMembers } now actor.id "organization.member.added"
    "organization_member" none org.id
    [("slug", .str slug), ("username", .str username), ("role", .str role.name)], ⟨slug, username, role⟩)

def setRole (db : Db) (memberId : Nat) (role : OrgRole) : Db :=
  { db with organizationMembers :=
      db.organizationMembers.modify (·.id == memberId) fun member => { member with role } }

/-- Ownership is handed over, the actor staying on as administrator; other roles are just set. -/
def reassign (db : Db) (actor target : OrganizationMember) (role : OrgRole) : Except Raised Db :=
  if role = .owner then do
    Outcome.ensure (actor.isOwner = true) ⟨.organizationForbidden, "only the owner can grant ownership"⟩
    return setRole (setRole db target.id .owner) actor.id .administrator
  else do
    Outcome.ensure (canAdminister actor = true) requiresAdministrator
    return setRole db target.id role

def changeMemberRole (_host : Host) (now : Time) (db : Db) (actor : User) (slug username role : String) :
    Except Raised (Db × MemberResult) := do
  let role ← parseRole orgRoles role
  let (org, actorMember) ← actingMember db actor slug
  let target ← Outcome.demand (userByName db username) (unknownUser username)
  let targetMember ← Outcome.demand (membership db org.id target.id)
    ⟨.organizationError, "user '" ++ username ++ "' is not a member"⟩
  Outcome.ensure (targetMember.isOwner = false)
    ⟨.organizationForbidden, "cannot change the role of the organization owner"⟩
  let db ← reassign db actorMember targetMember role
  return (audit db now actor.id "organization.member.role_changed" "organization_member" targetMember.id
    org.id [("slug", .str slug), ("username", .str username), ("role", .str role.name)],
    ⟨slug, username, role⟩)

def deleteMember (db : Db) (memberId : Nat) : Db :=
  { db with organizationMembers := db.organizationMembers.delete (·.id == memberId) }

def removeMember (_host : Host) (now : Time) (db : Db) (actor : User) (slug username : String) :
    Except Raised (Db × String × String) := do
  let (org, actorMember) ← actingMember db actor slug
  let target ← Outcome.demand (userByName db username) (unknownUser username)
  let targetMember ← Outcome.demand (membership db org.id target.id)
    ⟨.organizationError, "user '" ++ username ++ "' is not a member"⟩
  Outcome.ensure (targetMember.isOwner = false)
    ⟨.organizationForbidden, "cannot remove the organization owner"⟩
  Outcome.ensure ((canAdminister actorMember || actorMember.id == targetMember.id) = true)
    requiresAdministrator
  return (audit (deleteMember db targetMember.id) now actor.id "organization.member.removed"
    "organization_member" targetMember.id org.id [("slug", .str slug), ("username", .str username)],
    slug, username)

/-- `OrganizationRepository.for_user`: the user's organizations, ordered by slug. -/
def organizationsOf (db : Db) (userId : Nat) : List Organization :=
  (db.organizations.select fun org => (membership db org.id userId).isSome).mergeSort
    fun first second => decide (first.slug ≤ second.slug)

def soleOwner (db : Db) (organizationId userId : Nat) : Bool :=
  (membership db organizationId userId).any OrganizationMember.isOwner &&
    decide ((owners db organizationId).length ≤ 1)

def removeMembership (now : Time) (user : User) (db : Db) (org : Organization) : Db :=
  match membership db org.id user.id with
  | none => db
  | some member =>
    audit (deleteMember db member.id) now user.id "organization.member.removed" "organization_member"
      member.id org.id [("slug", .str org.slug), ("reason", .str "account deleted")]

/-- The sole-owner condition is checked for every organization before anything is deleted. -/
def removeUserMemberships (_host : Host) (now : Time) (db : Db) (user : User) : Except Raised (Db × Unit) := do
  let memberships := organizationsOf db user.id
  Outcome.each (fun org => Outcome.ensure (soleOwner db org.id user.id = false)
    ⟨.organizationForbidden, "transfer ownership of '" ++ org.slug ++ "' before deleting your account"⟩)
    memberships
  let db := memberships.foldl (removeMembership now user) db
  return ({ db with teamMembers := db.teamMembers.delete (·.userId == user.id) }, ())

def leaveOrganization (_host : Host) (now : Time) (db : Db) (user : User) (slug : String) :
    Except Raised (Db × String) := do
  let (org, member) ← actingMember db user slug
  Outcome.ensure (soleOwner db org.id user.id = false)
    ⟨.organizationForbidden, "transfer ownership before leaving; an organization needs at least one owner"⟩
  return (audit (deleteMember db member.id) now user.id "organization.member.left" "organization_member"
    member.id org.id [("slug", .str slug)], slug)

structure InviteResult where
  slug : String
  username : String
  role : OrgRole
  token : String
  expiresInHours : Nat
  deriving DecidableEq, Repr

/-- `ttl_hours or settings.invitation_ttl_hours`. -/
def invitationTtl (settings : Settings) : Option Nat → Nat
  | none => settings.invitationTtlHours
  | some requested => if requested = 0 then settings.invitationTtlHours else requested

/-- `token` is the random token that the invitee receives; only its hash is stored. -/
def inviteMember (host : Host) (now : Time) (db : Db) (actor : User) (slug username role : String)
    (ttlHours : Option Nat) (token : String) : Except Raised (Db × InviteResult) := do
  let role ← parseRole orgRoles role
  let (org, member) ← actingMember db actor slug
  canGrant member role
  let target ← Outcome.demand (userByName db username) (unknownUser username)
  Outcome.ensure (membership db org.id target.id = none) (alreadyMember username)
  let db ← asOrganizationError (enforceOrgMemberQuota host.settings now db org.id)
  let ttl := invitationTtl host.settings ttlHours
  let (row, invitations) ← Db.insertRow db.invitations fun id =>
    { id, organizationId := org.id, invitedById := actor.id, role, tokenHash := host.hashToken token
      email := target.username, expiresAt := now + hours ttl }
  return (audit { db with invitations } now actor.id "organization.invitation.created" "invitation" row.id
    org.id [("slug", .str slug), ("username", .str username), ("role", .str role.name)],
    ⟨slug, username, role, token, ttl⟩)

def acceptInvitation (host : Host) (now : Time) (db : Db) (user : User) (token : String) :
    Except Raised (Db × String × OrgRole) := do
  let invitation ← Outcome.demand (db.invitations.one (·.tokenHash == host.hashToken token))
    ⟨.invitationError, "invitation not found"⟩
  Outcome.ensure (invitation.acceptedAt = none) ⟨.invitationError, "invitation already used"⟩
  Outcome.ensure (now ≤ invitation.expiresAt) ⟨.invitationExpired, "invitation expired"⟩
  let org ← Outcome.demand
    ((db.organizations.byId invitation.organizationId).filter fun org => org.status == .active)
    ⟨.invitationError, "organization is not accepting members"⟩
  Outcome.ensure (membership db org.id user.id = none)
    ⟨.organizationConflict, "you are already a member"⟩
  let db ← asOrganizationError (enforceOrgMemberQuota host.settings now db org.id)
  let (_, organizationMembers) ← Db.insertRow db.organizationMembers fun id =>
    { id, organizationId := org.id, userId := user.id, role := invitation.role }
  let invitations := db.invitations.modify (·.id == invitation.id) fun row =>
    { row with acceptedById := some user.id, acceptedAt := some now }
  return (audit { db with organizationMembers, invitations } now user.id "organization.invitation.accepted"
    "invitation" invitation.id org.id [("slug", .str org.slug), ("role", .str invitation.role.name)],
    org.slug, invitation.role)

def updateOrganization (_host : Host) (now : Time) (db : Db) (user : User) (slug : String)
    (displayName : Option String) : Except Raised (Db × Unit) := do
  let (org, member) ← actingMember db user slug
  Outcome.ensure (canAdminister member = true)
    ⟨.organizationForbidden, "requires role owner, administrator in organization"⟩
  Outcome.ensure (∀ name ∈ displayName, Text.strip name ≠ "")
    ⟨.organizationError, "display name is required"⟩
  let organizations := match displayName with
    | none => db.organizations
    | some name => db.organizations.modify (·.id == org.id) fun row =>
        { row with displayName := Text.strip name }
  return (audit { db with organizations } now user.id "organization.updated" "organization" org.id org.id
    [("slug", .str slug)], ())

def actingMaintainer (db : Db) (user : User) (slug : String) : Except Raised Organization := do
  let (org, member) ← actingMember db user slug
  Outcome.ensure (canMaintain member = true) requiresMaintainer
  return org

def createTeam (_host : Host) (now : Time) (db : Db) (user : User) (slug name : String) :
    Except Raised (Db × Team) := do
  Outcome.ensure (Text.strip name ≠ "" ∧ (Text.strip name).length ≤ 64)
    ⟨.organizationError, "team name is required (max 64 chars)"⟩
  let org ← actingMaintainer db user slug
  Outcome.ensure (teamIn db org.id (Text.strip name) = none)
    ⟨.organizationConflict, "team '" ++ name ++ "' already exists"⟩
  let (team, teams) ← Db.insertRow db.teams fun id =>
    { id, organizationId := org.id, name := Text.strip name }
  return (audit { db with teams } now user.id "organization.team.created" "team" team.id org.id
    [("slug", .str slug), ("name", .str team.name)], team)

def teamAndTarget (db : Db) (org : Organization) (teamId : Nat) (username : String) :
    Except Raised (Team × User) := do
  let team ← Outcome.demand ((db.teams.byId teamId).filter fun team => team.organizationId == org.id)
    ⟨.organizationNotFound, "team not found"⟩
  let target ← Outcome.demand (userByName db username) (unknownUser username)
  return (team, target)

def addTeamMember (_host : Host) (now : Time) (db : Db) (user : User) (slug : String) (teamId : Nat)
    (username : String) : Except Raised (Db × TeamMember) := do
  let org ← actingMaintainer db user slug
  let (team, target) ← teamAndTarget db org teamId username
  Outcome.ensure (membership db org.id target.id ≠ none)
    ⟨.organizationError, "user '" ++ username ++ "' is not a member of '" ++ slug ++ "'"⟩
  Outcome.ensure (teamMembership db team.id target.id = none)
    ⟨.organizationConflict, "user '" ++ username ++ "' is already on team '" ++ team.name ++ "'"⟩
  let (row, teamMembers) ← Db.insertRow db.teamMembers fun id =>
    { id, teamId := team.id, userId := target.id }
  return (audit { db with teamMembers } now user.id "organization.team.member.added" "team_member" team.id
    org.id [("slug", .str slug), ("team", .str team.name), ("username", .str username)], row)

def removeTeamMember (_host : Host) (now : Time) (db : Db) (user : User) (slug : String) (teamId : Nat)
    (username : String) : Except Raised (Db × TeamMember) := do
  let org ← actingMaintainer db user slug
  let (team, target) ← teamAndTarget db org teamId username
  let row ← Outcome.demand (teamMembership db team.id target.id)
    ⟨.organizationError, "user '" ++ username ++ "' is not on team '" ++ team.name ++ "'"⟩
  let teamMembers := db.teamMembers.delete (·.id == row.id)
  return (audit { db with teamMembers } now user.id "organization.team.member.removed" "team_member" team.id
    org.id [("slug", .str slug), ("team", .str team.name), ("username", .str username)], row)

def serviceAccountRoles : List OrgRole := orgRoles.filter (· ≠ .owner)

def serviceAccountUsername (host : Host) (slug name : String) : String :=
  "svc-" ++ slug ++ "-" ++ Text.replace (host.lower (Text.strip name)) ' ' '-'

structure ServiceAccountResult where
  id : Nat
  slug : String
  name : String
  role : OrgRole
  deriving DecidableEq, Repr

def createServiceAccount (host : Host) (now : Time) (db : Db) (actor : User) (slug name role : String) :
    Except Raised (Db × ServiceAccountResult) := do
  Outcome.ensure (Text.strip name ≠ "" ∧ (Text.strip name).length ≤ 64)
    ⟨.organizationError, "service account name is required (max 64 chars)"⟩
  let role ← parseRole serviceAccountRoles role
  let org ← actingMaintainer db actor slug
  Outcome.ensure (serviceAccountIn db org.id (Text.strip name) = none)
    ⟨.organizationConflict, "service account '" ++ name ++ "' already exists"⟩
  let db ← asOrganizationError (enforceServiceAccountQuota host.settings now db org.id)
  let username := serviceAccountUsername host slug name
  Outcome.ensure (userByName db username = none)
    ⟨.organizationConflict, "a user for service account '" ++ name ++ "' already exists"⟩
  let (identity, users) ← Db.insertRow db.users fun id => { id, username, createdAt := now }
  let (_, organizationMembers) ← Db.insertRow db.organizationMembers fun id =>
    { id, organizationId := org.id, userId := identity.id, role }
  let (row, serviceAccounts) ← Db.insertRow db.serviceAccounts fun id =>
    { id, organizationId := org.id, userId := identity.id, name := Text.strip name, createdById := actor.id }
  return (audit { db with users, organizationMembers, serviceAccounts } now actor.id
    "organization.service_account.created" "service_account" row.id org.id
    [("slug", .str slug), ("name", .str row.name), ("role", .str role.name)],
    ⟨row.id, slug, row.name, role⟩)

def serviceAccountOf (db : Db) (org : Organization) (accountId : Nat) : Except Raised ServiceAccount :=
  Outcome.demand ((db.serviceAccounts.byId accountId).filter fun account => account.organizationId == org.id)
    ⟨.organizationNotFound, "service account not found"⟩

/-- Deletes the membership whatever its role, and no team membership. -/
def deleteServiceAccount (_host : Host) (now : Time) (db : Db) (actor : User) (slug : String)
    (accountId : Nat) : Except Raised (Db × String) := do
  let org ← actingMaintainer db actor slug
  let account ← serviceAccountOf db org accountId
  let db := match membership db org.id account.userId with
    | some member => deleteMember db member.id
    | none => db
  let apiTokens := db.apiTokens.modify (fun token => token.userId == account.userId && token.revokedAt.isNone)
    fun token => { token with revokedAt := some now }
  let users := db.users.modify (·.id == account.userId) fun user => { user with status := .suspended }
  let serviceAccounts := db.serviceAccounts.delete (·.id == account.id)
  return (audit { db with apiTokens, users, serviceAccounts } now actor.id
    "organization.service_account.deleted" "service_account" account.id org.id
    [("slug", .str slug), ("name", .str account.name)], account.name)

def issueServiceAccountToken (host : Host) (now : Time) (db : Db) (actor : User) (slug : String)
    (accountId : Nat) (raw label : String) (scopes : List String) (expiresInDays : Option Int) :
    Except Raised (Db × ApiToken) := do
  let org ← actingMaintainer db actor slug
  let account ← serviceAccountOf db org accountId
  Outcome.ensure (account.status = .active) ⟨.organizationError, "service account is not active"⟩
  let identity ← Outcome.demand ((db.users.byId account.userId).filter fun user => user.status == .active)
    ⟨.organizationError, "service account identity is not active"⟩
  let (db, row) ← reraise .tokenError (⟨.organizationError, ·⟩)
    (Identity.createApiToken host now db identity raw
      { label, scopes, organizationId := some org.id, isServiceAccount := true, expiresInDays })
  return (audit db now actor.id "organization.service_account.token_issued" "api_token" row.id org.id
    [("slug", .str slug), ("name", .str account.name), ("prefix", .str row.tokenPrefix),
      ("scopes", .str row.scopes)], row)

end Registry.Organizations
