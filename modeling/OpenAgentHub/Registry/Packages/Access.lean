import OpenAgentHub.Registry.Organizations.Operations

namespace Registry.Packages

open Relational Organizations

/-- An authenticated user, with the organization that the API token is bound to. -/
structure Subject where
  user : User
  tokenOrganization : Option Nat := none
  deriving DecidableEq, Repr

def privileged (user : User) : Bool := user.role == .reviewer || user.role == .admin

/-- A token of one organization does not reach the packages of another. -/
def tokenExcludes (subject : Subject) (agent : Agent) : Bool :=
  match subject.tokenOrganization, agent.organizationId with
  | some tokenOrganization, some organizationId => !privileged subject.user && organizationId != tokenOrganization
  | _, _ => false

/-- `active_membership`: the membership only when the organization itself is active. -/
def activeMembership (db : Db) (organizationId userId : Nat) : Option OrganizationMember :=
  (membership db organizationId userId).filter fun member =>
    (db.organizations.byId member.organizationId).any (·.status == .active)

def userGrant (db : Db) (agent : Agent) (userId : Nat) : Option AgentGrant :=
  db.agentGrants.one fun grant => grant.agentId == agent.id && grant.userId == some userId

def teamGrant (db : Db) (agent : Agent) (teamId : Nat) : Option AgentGrant :=
  db.agentGrants.one fun grant => grant.agentId == agent.id && grant.teamId == some teamId

def teamIdsForUser (db : Db) (userId : Nat) : List Nat :=
  (db.teamMembers.select (·.userId == userId)).map TeamMember.teamId

def canView (db : Db) (agent : Agent) (subject : Option Subject) : Bool :=
  if agent.visibility = .public then true
  else match subject with
    | none => false
    | some subject =>
      if subject.user.status ≠ .active then false
      else if tokenExcludes subject agent then false
      else if agent.ownerId = subject.user.id then true
      else if privileged subject.user then true
      else match agent.visibility with
        | .internal =>
          match agent.organizationId with
          | none => false
          | some organizationId => (activeMembership db organizationId subject.user.id).isSome
        | .private =>
          (userGrant db agent subject.user.id).isSome ||
            (teamIdsForUser db subject.user.id).any fun teamId => (teamGrant db agent teamId).isSome
        | .public => false

def namespaceByName (db : Db) (name : String) : Option Namespace := db.namespaces.one (·.name == name)

def isMember (db : Db) (space : Namespace) (userId : Nat) : Option NamespaceMember :=
  db.namespaceMembers.one fun member => member.namespaceId == space.id && member.userId == userId

def administersPackage (db : Db) (agent : Agent) (user : User) : Bool :=
  agent.organizationId.any fun organizationId =>
    (db.organizations.byId organizationId).any fun org =>
      (membership db org.id user.id).any canAdminister

def holdsNamespaceRole (db : Db) (agent : Agent) (user : User) (roles : List NamespaceRole) : Bool :=
  (namespaceByName db agent.namespaceName).any fun space =>
    (isMember db space user.id).any fun member => roles.contains member.role

/-- `can_manage` and `can_manage_access`, which differ in the namespace roles they accept. -/
def controls (roles : List NamespaceRole) (db : Db) (agent : Agent) (subject : Option Subject) : Bool :=
  match subject with
  | none => false
  | some subject =>
    if subject.user.status ≠ .active then false
    else if tokenExcludes subject agent then false
    else if agent.ownerId = subject.user.id then true
    else if privileged subject.user then true
    else administersPackage db agent subject.user || holdsNamespaceRole db agent subject.user roles

def canManage (db : Db) (agent : Agent) (subject : Option Subject) : Bool :=
  controls [.owner, .maintainer] db agent subject

/-- Separation of duty: a namespace maintainer publishes but does not decide on access. -/
def canManageAccess (db : Db) (agent : Agent) (subject : Option Subject) : Bool :=
  controls [.owner] db agent subject

end Registry.Packages
