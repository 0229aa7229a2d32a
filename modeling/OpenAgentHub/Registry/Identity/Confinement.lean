import OpenAgentHub.Registry.Identity.Routes
import OpenAgentHub.Registry.Organizations.Estates
import OpenAgentHub.Registry.Packages.Duty

namespace Registry.Identity

open Relational Packages Organizations

/-- `_api_token_org_id` is set by an API token only. -/
def Caller.subject (caller : Caller) : Subject where
  user := caller.user
  tokenOrganization := match caller.credential with
    | .apiToken row => row.organizationId
    | _ => none

inductive Affair where
  | publishVersion (submission : Submission)
  | setPackageVisibility (namespaceName name visibility : String) (slug : Option String)
  | grantPackageAccess (namespaceName name : String) (username : Option String) (teamId : Option Nat)
  | revokePackageAccess (namespaceName name : String) (username : Option String) (teamId : Option Nat)
  | addMember (slug username role : String)
  | changeMemberRole (slug username role : String)
  | removeMember (slug username : String)
  | leaveOrganization (slug : String)
  | inviteMember (slug username role : String) (ttlHours : Option Nat) (token : String)
  | acceptInvitation (token : String)
  | createTeam (slug name : String)
  | addTeamMember (slug : String) (teamId : Nat) (username : String)
  | removeTeamMember (slug : String) (teamId : Nat) (username : String)
  | createServiceAccount (slug name role : String)
  | deleteServiceAccount (slug : String) (accountId : Nat)
  | issueServiceAccountToken (slug : String) (accountId : Nat) (raw label : String) (scopes : List String)
      (expiresInDays : Option Int)

def conduct (host : PackageHost) (now : Time) (store : Store) (caller : Caller) : Affair → Except Raised Db
  | .publishVersion submission => (publishVersion host now store caller.user submission).2.map Prod.fst
  | .setPackageVisibility namespaceName name visibility slug =>
    (setPackageVisibility host now store.db caller.subject namespaceName name visibility slug).map Prod.fst
  | .grantPackageAccess namespaceName name username teamId =>
    (grantPackageAccess host now store.db caller.subject namespaceName name username teamId).map Prod.fst
  | .revokePackageAccess namespaceName name username teamId =>
    (revokePackageAccess host now store.db caller.subject namespaceName name username teamId).map Prod.fst
  | .addMember slug username role => (addMember host.toHost now store.db caller.user slug username role).map Prod.fst
  | .changeMemberRole slug username role =>
    (changeMemberRole host.toHost now store.db caller.user slug username role).map Prod.fst
  | .removeMember slug username => (removeMember host.toHost now store.db caller.user slug username).map Prod.fst
  | .leaveOrganization slug => (leaveOrganization host.toHost now store.db caller.user slug).map Prod.fst
  | .inviteMember slug username role ttlHours token =>
    (inviteMember host.toHost now store.db caller.user slug username role ttlHours token).map Prod.fst
  | .acceptInvitation token => (acceptInvitation host.toHost now store.db caller.user token).map Prod.fst
  | .createTeam slug name => (createTeam host.toHost now store.db caller.user slug name).map Prod.fst
  | .addTeamMember slug teamId username =>
    (addTeamMember host.toHost now store.db caller.user slug teamId username).map Prod.fst
  | .removeTeamMember slug teamId username =>
    (removeTeamMember host.toHost now store.db caller.user slug teamId username).map Prod.fst
  | .createServiceAccount slug name role =>
    (createServiceAccount host.toHost now store.db caller.user slug name role).map Prod.fst
  | .deleteServiceAccount slug accountId =>
    (deleteServiceAccount host.toHost now store.db caller.user slug accountId).map Prod.fst
  | .issueServiceAccountToken slug accountId raw label scopes expiresInDays =>
    (Organizations.issueServiceAccountToken host.toHost now store.db caller.user slug accountId raw label scopes
      expiresInDays).map Prod.fst

structure Confined (organizationId : Nat) (db after : Db) : Prop where
  untouched : ∀ other, other ≠ organizationId → estate after other = estate db other
  unbound : ∀ agent ∈ after.agents.rows, ∀ other, other ≠ organizationId → agent.organizationId = some other →
    agent ∈ db.agents.rows

def Homely (host : PackageHost) (db : Db) (organizationId : Nat) : Affair → Prop
  | .publishVersion submission =>
    (∀ agent, agentByName db submission.namespaceName submission.name = some agent →
        ∀ bound ∈ agent.organizationId, bound = organizationId) ∧
      (submission.visibility = "internal" →
        ∀ org, submission.organizationSlug.bind (orgBySlug db) = some org → org.id = organizationId)
  | .setPackageVisibility _ _ visibility slug => visibility ≠ "public" →
      ∀ org, (slug.filter (· ≠ "")).bind (orgBySlug db) = some org → org.id = organizationId
  | .changeMemberRole slug username role => ∀ org user member, orgBySlug db slug = some org →
      userByName db username = some user → membership db org.id user.id = some member →
      org.id = organizationId ∨ member.role.name = role
  | .acceptInvitation token => ∀ invitation, db.invitations.one (·.tokenHash == host.hashToken token) = some invitation →
      invitation.organizationId = organizationId
  | .addMember slug _ _ | .removeMember slug _ | .leaveOrganization slug | .createTeam slug _ | .addTeamMember slug _ _
  | .removeTeamMember slug _ _ | .createServiceAccount slug _ _ | .deleteServiceAccount slug _ =>
    ∀ org, orgBySlug db slug = some org → org.id = organizationId
  | .grantPackageAccess .. | .revokePackageAccess .. | .inviteMember .. | .issueServiceAccountToken .. => True

section Organizations

variable {db after : Db} {organizationId : Nat}

/-- Unbound packages follow from the packages of every other organization being the same. -/
theorem Confined.of_estates (untouched : ∀ other, other ≠ organizationId → estate after other = estate db other) :
    Confined organizationId db after := by
  refine ⟨untouched, fun agent present other apart bound => ?_⟩
  have listed : agent ∈ (estate after other).packages := Table.mem_select.mpr ⟨present, beq_iff_eq.mpr bound⟩
  rw [untouched other apart] at listed
  exact (Table.mem_select.mp listed).1

theorem confined_iff : Confined organizationId db after ↔
    ∀ other, other ≠ organizationId → estate after other = estate db other :=
  ⟨Confined.untouched, .of_estates⟩

theorem WritesIn.confined_iff {written : Nat} {idle : Prop} (writes : WritesIn db after written idle) :
    Confined organizationId db after ↔ written = organizationId ∨ idle := by
  rw [Identity.confined_iff]
  constructor
  · intro untouched
    by_cases same : written = organizationId
    · exact .inl same
    · exact .inr (writes.here.mp (untouched written same))
  · intro allowed other apart
    by_cases isWritten : other = written
    · rw [isWritten]
      rcases allowed with same | idle
      · exact absurd (isWritten.trans same) apart
      · exact writes.here.mpr idle
    · exact writes.elsewhere other isWritten

/-- The operations that always write rows of the organization they name. -/
theorem confined_named_iff {slug : String}
    (writes : ∃ org, orgBySlug db slug = some org ∧ WritesIn db after org.id False) :
    Confined organizationId db after ↔ ∀ org, orgBySlug db slug = some org → org.id = organizationId := by
  obtain ⟨org, found, writes⟩ := writes
  rw [WritesIn.confined_iff writes, or_false]
  constructor
  · intro same other isOther
    cases found.symm.trans isOther
    exact same
  · exact fun all => all org found

end Organizations

section Packages

variable {db after : Db} {organizationId other : Nat} {agent : Agent}

theorem packageIn_stored (stored : agent ∈ db.agents.rows) : packageIn db other agent.id = (agent.organizationId == some other) := by
  have found : db.agents.byId agent.id = some agent := Table.byId_eq_some.mpr ⟨stored, rfl⟩
  unfold packageIn
  rw [found]
  rfl

/-- Where a package is bound to before and after matters only to those two organizations. -/
theorem packageIn_setAgent {update : Agent → Agent} (preserves : Table.Preserves update) (stored : agent ∈ db.agents.rows)
    (before : agent.organizationId ≠ some other) (now : (update agent).organizationId ≠ some other) (agentId : Nat) :
    packageIn (setAgent db agent.id update preserves) other agentId = packageIn db other agentId := by
  have lookup : (setAgent db agent.id update preserves).agents.byId agentId = _ := Table.byId_modify preserves agentId
  unfold packageIn
  rw [lookup]
  cases found : db.agents.byId agentId with
  | none => rfl
  | some row =>
    rw [Option.map_some, Option.any_some, Option.any_some]
    split
    · rename_i same
      rw [Table.eq_of_id (Table.byId_eq_some.mp found).1 stored (beq_iff_eq.mp same), beq_eq_false_iff_ne.mpr before,
        beq_eq_false_iff_ne.mpr now]
    · rfl

theorem packageIn_append (rows : after.agents.rows = db.agents.rows ++ [agent]) (apart : agent.organizationId ≠ some other)
    (agentId : Nat) : packageIn after other agentId = packageIn db other agentId := by
  have lookup : after.agents.byId agentId = (db.agents.byId agentId).or (if agent.id == agentId then some agent else none) :=
    Table.one_append rows
  unfold packageIn
  rw [lookup]
  cases db.agents.byId agentId with
  | some found => rfl
  | none =>
    rw [Option.none_or]
    split
    · exact beq_eq_false_iff_ne.mpr apart
    · rfl

theorem estate_of_packages (packages : after.agents.select (·.organizationId == some other) =
      db.agents.select (·.organizationId == some other))
    (inside : ∀ agentId, packageIn after other agentId = packageIn db other agentId)
    (versions : after.agentVersions.select (fun version => packageIn db other version.agentId) =
      db.agentVersions.select (fun version => packageIn db other version.agentId))
    (grants : after.agentGrants = db.agentGrants) (members : after.organizationMembers = db.organizationMembers)
    (teams : after.teams = db.teams) (teamMembers : after.teamMembers = db.teamMembers)
    (accounts : after.serviceAccounts = db.serviceAccounts) : estate after other = estate db other := by
  unfold estate teamOf
  simp only [inside]
  rw [packages, versions, grants, members, teams, teamMembers, accounts]

theorem estate_setAgent {update : Agent → Agent} (preserves : Table.Preserves update) (stored : agent ∈ db.agents.rows)
    (before : agent.organizationId ≠ some other) (now : (update agent).organizationId ≠ some other) :
    estate (setAgent db agent.id update preserves) other = estate db other := by
  refine estate_of_packages ?_ (packageIn_setAgent preserves stored before now) rfl rfl rfl rfl rfl rfl
  apply Table.select_modify preserves
  intro row present same
  rw [Table.eq_of_id present stored (beq_iff_eq.mp same)]
  exact ⟨beq_eq_false_iff_ne.mpr before, beq_eq_false_iff_ne.mpr now⟩

theorem estate_setAgent_bound {update : Agent → Agent} (preserves : Table.Preserves update) (stored : agent ∈ db.agents.rows)
    (before : agent.organizationId ≠ some other) (now : (update agent).organizationId = some other) :
    estate (setAgent db agent.id update preserves) other ≠ estate db other := by
  intro same
  have listed : update agent ∈ (estate (setAgent db agent.id update preserves) other).packages := by
    refine Table.mem_select.mpr ⟨?_, beq_iff_eq.mpr now⟩
    exact (Table.mem_modify preserves).mpr ⟨agent, stored, if_pos (beq_self_eq_true _)⟩
  rw [same] at listed
  have fixed := Table.eq_of_id (Table.mem_select.mp listed).1 stored (preserves agent).1
  exact before (by rw [← fixed]; exact now)

/-- A token of one organization decides on packages of that one or of none. -/
theorem canManageAccess_home {subject : Subject} (unprivileged : privileged subject.user = false)
    (narrowed : subject.tokenOrganization = some organizationId) (allowed : canManageAccess db agent (some subject) = true)
    (apart : other ≠ organizationId) : agent.organizationId ≠ some other := by
  intro bound
  have excluded : tokenExcludes subject agent = true := by
    unfold tokenExcludes
    rw [narrowed, bound]
    simp [unprivileged, apart]
  unfold canManageAccess controls at allowed
  simp only [excluded, if_true, ite_self] at allowed
  cases allowed

section Access

variable {host : PackageHost} {now : Time} {subject : Subject} {namespaceName name : String}

theorem setPackageVisibility_estate {visibility : String} {slug : Option String} {result : Visibility}
    (done : setPackageVisibility host now db subject namespaceName name visibility slug = .ok (after, result)) :
    ∃ agent target, agentByName db namespaceName name = some agent ∧ canManageAccess db agent (some subject) = true ∧
      Visibility.name result = visibility ∧ targetOrganization db subject.user agent result slug = .ok target ∧
      ∀ other, estate after other =
        estate (setAgent db agent.id (fun row => { row with visibility := result, organizationId := target })) other := by
  obtain ⟨agent, target, found, parsed, allowed, aimed, ⟨_, rfl⟩ | ⟨_, _, _, charges, rfl⟩⟩ := setPackageVisibility_cases done
  · exact ⟨agent, target, found, allowed, parseVisibility_ok parsed, aimed, fun _ => rfl⟩
  · have same := estate_billingOnly charges
    exact ⟨agent, target, found, allowed, parseVisibility_ok parsed, aimed, same⟩

theorem targetOrganization_ok {user : User} {visibility : Visibility} {slug : Option String} {target : Option Nat}
    (aimed : targetOrganization db user agent visibility slug = .ok target) :
    (visibility = .public ∧ target = none) ∨
      (visibility ≠ .public ∧ ∃ org, (slug.filter (· ≠ "")).bind (orgBySlug db) = some org ∧ target = some org.id) ∨
      (visibility ≠ .public ∧ slug.filter (· ≠ "") = none ∧ target = agent.organizationId) := by
  unfold targetOrganization at aimed
  split at aimed
  · rename_i isPublic
    cases aimed
    exact .inl ⟨isPublic, rfl⟩
  · rename_i hidden
    split at aimed
    · rename_i text given
      simp only [administeredOrganization, Outcome.bind_eq_ok, Outcome.demand_eq_ok, Outcome.pure_eq_ok] at aimed
      obtain ⟨_, ⟨org, found, _, _, rfl⟩, rfl⟩ := aimed
      exact .inr (.inl ⟨hidden, org, by rw [given]; exact found, rfl⟩)
    · rename_i missing
      split at aimed
      · cases aimed
      · cases aimed
        exact .inr (.inr ⟨hidden, missing, rfl⟩)

theorem setPackageVisibility_confined_iff {visibility : String} {slug : Option String} {result : Visibility}
    (unprivileged : privileged subject.user = false) (narrowed : subject.tokenOrganization = some organizationId)
    (done : setPackageVisibility host now db subject namespaceName name visibility slug = .ok (after, result)) :
    Confined organizationId db after ↔
      Homely host db organizationId (.setPackageVisibility namespaceName name visibility slug) := by
  obtain ⟨agent, target, found, allowed, named, aimed, estates⟩ := setPackageVisibility_estate done
  have stored : agent ∈ db.agents.rows := Table.one_mem found
  have home : ∀ other, other ≠ organizationId → agent.organizationId ≠ some other :=
    fun other apart => canManageAccess_home unprivileged narrowed allowed apart
  have hidden : visibility ≠ "public" ↔ result ≠ .public := by
    rw [← named]
    cases result <;> decide
  rw [confined_iff]
  show _ ↔ (visibility ≠ "public" → _)
  rw [hidden]
  constructor
  · intro untouched private_ org isOrg
    by_contra apart
    rcases targetOrganization_ok aimed with ⟨isPublic, _⟩ | ⟨_, aimedAt, isAimed, rfl⟩ | ⟨_, missing, _⟩
    · exact private_ isPublic
    · cases isOrg.symm.trans isAimed
      have same := untouched org.id apart
      rw [estates] at same
      exact estate_setAgent_bound (rebound_preserves _ _) stored (home org.id apart) rfl same
    · rw [missing] at isOrg
      cases isOrg
  · intro homely other apart
    rw [estates]
    refine estate_setAgent (rebound_preserves _ _) stored (home other apart) ?_
    rcases targetOrganization_ok aimed with ⟨_, rfl⟩ | ⟨private_, org, isOrg, rfl⟩ | ⟨_, _, rfl⟩
    · exact nofun
    · rw [homely private_ org isOrg]
      exact fun same => apart (Option.some.inj same).symm
    · exact home other apart

theorem grants_confined {grants : Table AgentGrant} (same : ∀ other, other ≠ organizationId →
      grants.select (fun grant => packageIn db other grant.agentId) = db.agentGrants.select (fun grant => packageIn db other grant.agentId)) :
    Confined organizationId db { db with agentGrants := grants } := by
  refine .of_estates fun other apart => ?_
  have granted : estate { db with agentGrants := grants } other =
      { estate db other with grants := grants.select fun grant => packageIn db other grant.agentId } := rfl
  rw [granted, same other apart]
  rfl

theorem insertGrant_ok {grantedById : Nat} {whom : Grantee} {row : AgentGrant} {grants : Table AgentGrant}
    (done : insertGrant db agent grantedById whom = .ok (row, grants)) :
    grants.rows = db.agentGrants.rows ++ [row] ∧ row.agentId = agent.id := by
  cases whom with
  | user username =>
    simp only [insertGrant, Outcome.bind_eq_ok, Db.insertRow_eq_ok, Table.insert_eq_some] at done
    obtain ⟨_, _, _, _, _, rfl, rows, _⟩ := done
    exact ⟨rows, rfl⟩
  | team teamId =>
    simp only [insertGrant, Outcome.bind_eq_ok, Db.insertRow_eq_ok, Table.insert_eq_some] at done
    obtain ⟨_, _, _, rfl, rows, _⟩ := done
    exact ⟨rows, rfl⟩

theorem grantPackageAccess_confined {username : Option String} {teamId : Option Nat} {row : AgentGrant}
    (unprivileged : privileged subject.user = false) (narrowed : subject.tokenOrganization = some organizationId)
    (done : grantPackageAccess host now db subject namespaceName name username teamId = .ok (after, row)) :
    Confined organizationId db after := by
  simp only [grantPackageAccess, Outcome.bind_eq_ok, Outcome.demand_eq_ok, Outcome.ensure_eq_ok, Outcome.pure_eq_ok,
    Prod.mk.injEq, Prod.exists] at done
  obtain ⟨_, _, agent, found, _, _, _, allowed, _, grants, inserted, rfl, _⟩ := done
  obtain ⟨rows, granted⟩ := insertGrant_ok inserted
  have same : ∀ other, other ≠ organizationId → grants.select (fun grant => packageIn db other grant.agentId) =
      db.agentGrants.select (fun grant => packageIn db other grant.agentId) := by
    intro other apart
    apply Table.select_append rows
    rw [granted, packageIn_stored (Table.one_mem found)]
    exact beq_eq_false_iff_ne.mpr (canManageAccess_home unprivileged narrowed allowed apart)
  exact .of_estates (grants_confined same).untouched

theorem findGrant_ok {whom : Grantee} {row : AgentGrant} (done : findGrant db agent whom = .ok (some row)) :
    row ∈ db.agentGrants.rows ∧ row.agentId = agent.id := by
  have ofLookup : ∀ condition : AgentGrant → Bool,
      db.agentGrants.one (fun grant => grant.agentId == agent.id && condition grant) = some row →
        row ∈ db.agentGrants.rows ∧ row.agentId = agent.id := by
    intro condition found
    have holds := Table.one_holds found
    simp only [Bool.and_eq_true, beq_iff_eq] at holds
    exact ⟨Table.one_mem found, holds.1⟩
  cases whom with
  | user username =>
    simp only [findGrant, Outcome.bind_eq_ok, Outcome.pure_eq_ok] at done
    obtain ⟨_, _, found⟩ := done
    exact ofLookup _ found
  | team teamId => exact ofLookup _ (Outcome.pure_eq_ok.mp done)

theorem revokePackageAccess_confined {username : Option String} {teamId : Option Nat} {row : AgentGrant}
    (unprivileged : privileged subject.user = false) (narrowed : subject.tokenOrganization = some organizationId)
    (done : revokePackageAccess host now db subject namespaceName name username teamId = .ok (after, row)) :
    Confined organizationId db after := by
  simp only [revokePackageAccess, Outcome.bind_eq_ok, Outcome.demand_eq_ok, Outcome.ensure_eq_ok, Outcome.pure_eq_ok,
    Prod.mk.injEq] at done
  obtain ⟨_, _, agent, found, _, allowed, _, looked, grant, rfl, rfl, _⟩ := done
  obtain ⟨stored, granted⟩ := findGrant_ok looked
  have same : ∀ other, other ≠ organizationId →
      (db.agentGrants.delete (·.id == grant.id)).select (fun row => packageIn db other row.agentId) =
        db.agentGrants.select (fun row => packageIn db other row.agentId) := by
    intro other apart
    apply Table.select_delete
    intro candidate present theirs
    apply beq_eq_false_iff_ne.mpr
    intro isGrant
    rw [Table.eq_of_id present stored isGrant, granted, packageIn_stored (Table.one_mem found)] at theirs
    exact canManageAccess_home unprivileged narrowed allowed apart (beq_iff_eq.mp theirs)
  exact .of_estates (grants_confined same).untouched

end Access

section Publishing

variable {host : PackageHost} {now : Time} {store : Store} {user : User} {submission : Submission} {files : Archives}
  {result : PublishResult}

def holdings (db : Db) :
    Table AgentGrant × Table OrganizationMember × Table Team × Table TeamMember × Table ServiceAccount :=
  (db.agentGrants, db.organizationMembers, db.teams, db.teamMembers, db.serviceAccounts)

def VersionAdded (before after : Table AgentVersion) (agentId : Nat) : Prop :=
  ∃ version : AgentVersion, after.rows = before.rows ++ [version] ∧ version.id = before.next ∧ version.agentId = agentId

theorem VersionAdded.updated {before : Table AgentVersion} {agentId : Nat} {update : AgentVersion → AgentVersion}
    (preserves : Table.Preserves update) (kept : ∀ version, (update version).agentId = version.agentId)
    (added : VersionAdded before db.agentVersions agentId) :
    VersionAdded before (setVersion db before.next update preserves).agentVersions agentId := by
  obtain ⟨version, rows, fresh, theirs⟩ := added
  refine ⟨update version, ?_, (preserves version).1.trans fresh, (kept version).trans theirs⟩
  show db.agentVersions.rows.map _ = _
  rw [rows, List.map_append]
  have old : before.rows.map (fun row => if row.id == before.next then update row else row) = before.rows := by
    refine (List.map_congr_left fun row stored => ?_).trans (List.map_id _)
    have below : row.id < before.next := before.ids_below row stored
    show (if row.id == before.next then update row else row) = row
    rw [if_neg (by simpa using Nat.ne_of_lt below)]
  rw [old, List.map_singleton, if_pos (beq_iff_eq.mpr fresh)]

theorem finish_writes {admission : Admission} {version : AgentVersion} {before : Table AgentVersion} {agentId : Nat}
    (added : VersionAdded before db.agentVersions agentId) (fresh : version.id = before.next)
    (done : finish host now db user submission admission agent version = .ok (after, result)) :
    VersionAdded before after.agentVersions agentId ∧ holdings after = holdings db := by
  unfold finish at done
  simp only [Outcome.bind_eq_ok, Outcome.pure_eq_ok, Prod.mk.injEq] at done
  obtain ⟨findings, _, rfl, _⟩ := done
  have scanned : VersionAdded before (recordScan db before.next findings).agentVersions agentId := by
    unfold recordScan
    exact added.updated _ fun _ => rfl
  have stamped : VersionAdded before (setVersion (recordScan db before.next findings) before.next
      fun row => { row with scanCompletedAt := some now }).agentVersions agentId :=
    scanned.updated _ fun _ => rfl
  refine ⟨?_, rfl⟩
  rw [fresh]
  exact stamped

theorem place_holdings {admission : Admission} {target : Option Nat}
    (done : place host now db user submission admission = .ok (after, target)) : holdings after = holdings db := by
  unfold place at done
  simp only [Outcome.bind_eq_ok, Outcome.pure_eq_ok, Prod.mk.injEq] at done
  obtain ⟨_, _, _, resolved, _, _, _, _, rfl, _⟩ := done
  obtain ⟨_, _, _, rfl⟩ := resolvePublishNamespace_frame resolved
  rfl

theorem clear_holdings (done : clear host now db agent submission = .ok after) : holdings after = holdings db := by
  unfold clear at done
  simp only [Outcome.bind_eq_ok, Outcome.ensure_eq_ok] at done
  obtain ⟨_, _, enforced⟩ := done
  unfold enforceQuota at enforced
  split at enforced
  · cases enforced
    rfl
  · obtain ⟨_, _, rfl⟩ := Quotas.enforcePublishQuota_billingOnly (reraise_eq_ok.mp enforced)
    rfl

theorem locate_writes {admission : Admission} {target : Option Nat}
    (done : locate db user submission admission target = .ok (after, agent)) :
    agent.id = (agentByName db submission.namespaceName submission.name).elim db.agents.next Agent.id ∧
      after.agentVersions = db.agentVersions ∧ holdings after = holdings db := by
  unfold locate at done
  split at done
  · rename_i missing
    simp only [Outcome.bind_eq_ok, Outcome.pure_eq_ok, Prod.mk.injEq, Prod.exists] at done
    obtain ⟨row, agents, inserted, rfl, rfl⟩ := done
    rw [(Table.insert_eq_some.mp (Db.insertRow_eq_ok.mp inserted)).2.1, missing]
    exact ⟨rfl, rfl, rfl⟩
  · rename_i existing found
    cases done
    rw [found]
    exact ⟨rfl, rfl, rfl⟩

theorem reserve_writes {admission : Admission} {version : AgentVersion}
    (done : reserve host now db user submission admission agent = .ok (after, version)) :
    VersionAdded db.agentVersions after.agentVersions agent.id ∧ version.id = db.agentVersions.next ∧
      holdings after = holdings db := by
  unfold reserve at done
  simp only [Outcome.bind_eq_ok, Outcome.pure_eq_ok, Prod.mk.injEq, Prod.exists] at done
  obtain ⟨row, agentVersions, inserted, rfl, rfl⟩ := done
  obtain ⟨_, made, rows, _⟩ := Table.insert_eq_some.mp (Db.insertRow_eq_ok.mp inserted)
  rw [made]
  exact ⟨⟨_, rows, rfl, rfl⟩, rfl, rfl⟩

/-- Besides the package row, a publish writes one version of it and nothing else of an estate. -/
theorem publishVersion_writes (done : publishVersion host now store user submission = (files, .ok (after, result))) :
    VersionAdded store.db.agentVersions after.agentVersions
        ((agentByName store.db submission.namespaceName submission.name).elim store.db.agents.next Agent.id) ∧
      holdings after = holdings store.db := by
  obtain ⟨admitted, admission, placed, target, located, agent, cleared, reserved, version, admits, places, locates,
    clears, reserves, _, finishes⟩ := publishVersion_ok done
  obtain ⟨_, _, signingKeys, rfl⟩ := admitSubmission_ok admits
  have placedSame := (place_ok places).1
  have placedAgents : placed.agents = store.db.agents := congrArg Prod.fst placedSame
  have placedVersions : placed.agentVersions = store.db.agentVersions := congrArg Prod.snd placedSame
  have clearedVersions : cleared.agentVersions = located.agentVersions := congrArg Prod.snd (clear_ok clears).2
  have placedHoldings : holdings placed = holdings store.db := (place_holdings places).trans rfl
  obtain ⟨agentId, locatedVersions, locatedHoldings⟩ := locate_writes locates
  have versions : cleared.agentVersions = store.db.agentVersions := by
    rw [clearedVersions, locatedVersions, placedVersions]
  obtain ⟨added, fresh, reservedHoldings⟩ := reserve_writes reserves
  rw [versions] at added fresh
  have lookup : agentByName placed submission.namespaceName submission.name =
      agentByName store.db submission.namespaceName submission.name := by
    unfold agentByName
    rw [placedAgents]
  rw [lookup, placedAgents] at agentId
  rw [← agentId, ← placedHoldings, ← locatedHoldings, ← clear_holdings clears, ← reservedHoldings]
  exact finish_writes added fresh finishes

theorem VersionAdded.select {before versions : Table AgentVersion} {agentId : Nat} {inside : Nat → Bool}
    (added : VersionAdded before versions agentId) (outside : inside agentId = false) :
    versions.select (fun version => inside version.agentId) = before.select (fun version => inside version.agentId) := by
  obtain ⟨version, rows, _, rfl⟩ := added
  exact Table.select_append rows outside

theorem VersionAdded.select_ne {before versions : Table AgentVersion} {agentId : Nat} {inside before_ : Nat → Bool}
    (added : VersionAdded before versions agentId) (here : inside agentId = true) :
    versions.select (fun version => inside version.agentId) ≠ before.select (fun version => before_ version.agentId) := by
  obtain ⟨version, rows, fresh, rfl⟩ := added
  intro same
  have listed : version ∈ versions.select (fun version => inside version.agentId) :=
    Table.mem_select.mpr ⟨by rw [rows]; exact List.mem_append_right _ (List.mem_singleton_self _), here⟩
  rw [same] at listed
  have below : version.id < before.next := before.ids_below version (Table.mem_select.mp listed).1
  omega

theorem packageIn_congr (same : after.agents = db.agents) : packageIn after other = packageIn db other := by
  funext agentId
  unfold packageIn
  rw [same]

theorem estate_published (packages : after.agents.select (·.organizationId == some other) =
      db.agents.select (·.organizationId == some other))
    (inside : ∀ agentId, packageIn after other agentId = packageIn db other agentId)
    {agentId : Nat} (added : VersionAdded db.agentVersions after.agentVersions agentId)
    (outside : packageIn db other agentId = false) (held : holdings after = holdings db) :
    estate after other = estate db other := by
  simp only [holdings, Prod.mk.injEq] at held
  obtain ⟨grants, members, teams, teamMembers, accounts⟩ := held
  exact estate_of_packages packages inside (added.select outside) grants members teams teamMembers accounts

theorem publish_new_confined_iff (rows : after.agents.rows = db.agents.rows ++ [agent]) (fresh : agent.id = db.agents.next)
    (added : VersionAdded db.agentVersions after.agentVersions agent.id) (held : holdings after = holdings db) :
    Confined organizationId db after ↔ ∀ bound ∈ agent.organizationId, bound = organizationId := by
  have present : agent ∈ after.agents.rows := by
    rw [rows]
    exact List.mem_append_right _ (List.mem_singleton_self _)
  rw [confined_iff]
  constructor
  · intro untouched bound isBound
    by_contra apart
    refine added.select_ne ?_ (congrArg Estate.versions (untouched bound apart))
    rw [packageIn_stored present]
    exact beq_iff_eq.mpr isBound
  · intro home other apart
    have elsewhere : agent.organizationId ≠ some other := fun same => apart (home other same)
    refine estate_published ?_ (packageIn_append rows elsewhere) added ?_ held
    · exact Table.select_append rows (beq_eq_false_iff_ne.mpr elsewhere)
    · -- the new package has no row yet
      have unknown : db.agents.byId agent.id = none := by
        refine Table.one_none.mpr fun row stored => ?_
        have below : row.id < db.agents.next := db.agents.ids_below row stored
        exact beq_eq_false_iff_ne.mpr (by show row.id ≠ agent.id; omega)
      unfold packageIn
      rw [unknown]
      rfl

theorem publish_again_confined_iff {update : Agent → Agent} (preserves : Table.Preserves update)
    (stored : agent ∈ db.agents.rows) (placed : after.agents = (setAgent db agent.id update preserves).agents)
    (added : VersionAdded db.agentVersions after.agentVersions agent.id) (held : holdings after = holdings db) :
    Confined organizationId db after ↔ (∀ bound ∈ agent.organizationId, bound = organizationId) ∧
      ∀ bound ∈ (update agent).organizationId, bound = organizationId := by
  have present : update agent ∈ after.agents.rows := by
    rw [placed]
    exact (Table.mem_modify preserves).mpr ⟨agent, stored, if_pos (beq_self_eq_true _)⟩
  have sameId : (update agent).id = agent.id := (preserves agent).1
  rw [confined_iff]
  constructor
  · intro untouched
    have boundNow : ∀ bound ∈ (update agent).organizationId, bound = organizationId := by
      intro bound isBound
      by_contra apart
      refine added.select_ne ?_ (congrArg Estate.versions (untouched bound apart))
      rw [← sameId, packageIn_stored present]
      exact beq_iff_eq.mpr isBound
    refine ⟨fun bound isBound => ?_, boundNow⟩
    by_contra apart
    -- a package that left the organization is missing there
    have listed : agent ∈ (estate db bound).packages := Table.mem_select.mpr ⟨stored, beq_iff_eq.mpr isBound⟩
    rw [← untouched bound apart] at listed
    obtain ⟨kept, theirs⟩ := Table.mem_select.mp listed
    rw [Table.eq_of_id kept present sameId.symm] at theirs
    exact apart (boundNow bound (beq_iff_eq.mp theirs))
  · rintro ⟨before, now⟩ other apart
    have notBefore : agent.organizationId ≠ some other := fun same => apart (before other same)
    have notNow : (update agent).organizationId ≠ some other := fun same => apart (now other same)
    refine estate_published ?_ (fun agentId => ?_) added ?_ held
    · rw [placed]
      exact congrArg Estate.packages (estate_setAgent preserves stored notBefore notNow)
    · rw [← packageIn_setAgent preserves stored notBefore notNow agentId, packageIn_congr placed]
    · rw [packageIn_stored stored]
      exact beq_eq_false_iff_ne.mpr notBefore

theorem publishVersion_confined_iff (done : publishVersion host now store user submission = (files, .ok (after, result))) :
    Confined organizationId store.db after ↔ Homely host store.db organizationId (.publishVersion submission) := by
  obtain ⟨admission, target, admitted, chosen, located⟩ := publishVersion_agents done
  obtain ⟨added, held⟩ := publishVersion_writes done
  have internal := visibility_internal admitted.visibility
  -- what the submission binds is the organization of its slug, when it is internal
  have bindings : (∀ bound ∈ target, bound = organizationId) ↔ (submission.visibility = "internal" →
      ∀ org, submission.organizationSlug.bind (orgBySlug store.db) = some org → org.id = organizationId) := by
    rw [internal]
    rcases publishOrganization_ok chosen with ⟨open_, rfl⟩ | ⟨isInternal, org, named, rfl⟩
    · simp [open_]
    · simp [isInternal, named]
  show _ ↔ _ ∧ _
  rw [← bindings]
  rcases located with ⟨missing, rows⟩ | ⟨agent, found, placed⟩
  · rw [missing] at added ⊢
    rw [publish_new_confined_iff rows rfl added held]
    simp [newAgent]
  · rw [found] at added ⊢
    rw [publish_again_confined_iff _ (Table.one_mem found) placed added held]
    cases target with
    | none => simp [republished]
    | some bound => simp [republished]

end Publishing

end Packages

section Affairs

variable {host : PackageHost} {now : Time} {store : Store} {caller : Caller} {after : Db} {organizationId : Nat}

theorem confined_role_iff {db : Db} {slug username role : String} (writes : ∃ org user member, orgBySlug db slug = some org ∧
      userByName db username = some user ∧ membership db org.id user.id = some member ∧
      WritesIn db after org.id (member.role.name = role)) :
    Confined organizationId db after ↔ Homely host db organizationId (.changeMemberRole slug username role) := by
  obtain ⟨org, user, member, found, named, joined, writes⟩ := writes
  rw [WritesIn.confined_iff writes]
  constructor
  · intro allowed other someone row isOther isSomeone isRow
    cases found.symm.trans isOther
    cases named.symm.trans isSomeone
    cases joined.symm.trans isRow
    exact allowed
  · exact fun homely => homely org user member found named joined

theorem confined_invitation_iff {db : Db} {token : String}
    (writes : ∃ invitation, db.invitations.one (·.tokenHash == host.hashToken token) = some invitation ∧
      WritesIn db after invitation.organizationId False) :
    Confined organizationId db after ↔ Homely host db organizationId (.acceptInvitation token) := by
  obtain ⟨invitation, found, writes⟩ := writes
  rw [WritesIn.confined_iff writes, or_false]
  constructor
  · intro same other isOther
    cases found.symm.trans isOther
    exact same
  · exact fun homely => homely invitation found

/-- A token of one organization keeps to it exactly when the request addresses no other. -/
theorem token_confined_iff {row : ApiToken} {affair : Affair} (presented : caller.credential = .apiToken row)
    (narrowed : row.organizationId = some organizationId) (unprivileged : privileged caller.user = false)
    (done : conduct host now store caller affair = .ok after) :
    Confined organizationId store.db after ↔ Homely host store.db organizationId affair := by
  have tokenNarrowed : caller.subject.tokenOrganization = some organizationId := by
    unfold Caller.subject
    rw [presented]
    exact narrowed
  have unchanged : (∀ other, estate after other = estate store.db other) → Confined organizationId store.db after :=
    fun same => .of_estates fun other _ => same other
  cases affair with
  | publishVersion submission =>
    obtain ⟨result, published⟩ := Outcome.map_fst_ok.mp done
    cases outcome : publishVersion host now store caller.user submission with
    | mk files answer =>
      rw [outcome] at published
      cases published
      exact publishVersion_confined_iff outcome
  | setPackageVisibility namespaceName name visibility slug =>
    obtain ⟨result, performed⟩ := Outcome.map_fst_ok.mp done
    exact setPackageVisibility_confined_iff unprivileged tokenNarrowed performed
  | grantPackageAccess namespaceName name username teamId =>
    obtain ⟨result, performed⟩ := Outcome.map_fst_ok.mp done
    exact iff_of_true (grantPackageAccess_confined unprivileged tokenNarrowed performed) trivial
  | revokePackageAccess namespaceName name username teamId =>
    obtain ⟨result, performed⟩ := Outcome.map_fst_ok.mp done
    exact iff_of_true (revokePackageAccess_confined unprivileged tokenNarrowed performed) trivial
  | addMember slug username role =>
    obtain ⟨result, performed⟩ := Outcome.map_fst_ok.mp done
    exact confined_named_iff (addMember_writes performed)
  | changeMemberRole slug username role =>
    obtain ⟨result, performed⟩ := Outcome.map_fst_ok.mp done
    exact confined_role_iff (changeMemberRole_writes performed)
  | removeMember slug username =>
    obtain ⟨result, performed⟩ := Outcome.map_fst_ok.mp done
    exact confined_named_iff (removeMember_writes performed)
  | leaveOrganization slug =>
    obtain ⟨result, performed⟩ := Outcome.map_fst_ok.mp done
    exact confined_named_iff (leaveOrganization_writes performed)
  | inviteMember slug username role ttlHours token =>
    obtain ⟨result, performed⟩ := Outcome.map_fst_ok.mp done
    exact iff_of_true (unchanged (inviteMember_estate performed)) trivial
  | acceptInvitation token =>
    obtain ⟨result, performed⟩ := Outcome.map_fst_ok.mp done
    exact confined_invitation_iff (acceptInvitation_writes performed)
  | createTeam slug name =>
    obtain ⟨result, performed⟩ := Outcome.map_fst_ok.mp done
    exact confined_named_iff (createTeam_writes performed)
  | addTeamMember slug teamId username =>
    obtain ⟨result, performed⟩ := Outcome.map_fst_ok.mp done
    exact confined_named_iff (addTeamMember_writes performed)
  | removeTeamMember slug teamId username =>
    obtain ⟨result, performed⟩ := Outcome.map_fst_ok.mp done
    exact confined_named_iff (removeTeamMember_writes performed)
  | createServiceAccount slug name role =>
    obtain ⟨result, performed⟩ := Outcome.map_fst_ok.mp done
    exact confined_named_iff (createServiceAccount_writes performed)
  | deleteServiceAccount slug accountId =>
    obtain ⟨result, performed⟩ := Outcome.map_fst_ok.mp done
    exact confined_named_iff (deleteServiceAccount_writes performed)
  | issueServiceAccountToken slug accountId raw label scopes expiresInDays =>
    obtain ⟨result, performed⟩ := Outcome.map_fst_ok.mp done
    exact iff_of_true (unchanged (issueServiceAccountToken_estate performed)) trivial

section Desk

def acmeRow : ApiToken where
  id := 1
  userId := 1
  tokenHash := keeperToken.digest
  tokenPrefix := "oah_EChqRqZd"
  label := "acme"
  scopes := "members:manage"
  organizationId := some 1
  expiresAt := some (days 90)

def alliance : Db where
  users := signedUp
  organizations := ⟨[{ id := 1, slug := "acme", displayName := "Acme" }, { id := 2, slug := "rival", displayName := "Rival" }],
    3, by decide, by decide⟩
  organizationMembers := ⟨[{ id := 1, organizationId := 1, userId := 1, role := .owner },
    { id := 2, organizationId := 2, userId := 1, role := .owner }], 3, by decide, by decide⟩
  apiTokens := ⟨[acmeRow], 2, by decide, by decide⟩

theorem acme_recognised : requireCookieScope deskHost 1 alliance (bearing keeperToken.raw) ["members:manage"] =
    .ok (touchApiToken alliance 1 1, ⟨founder, .apiToken acmeRow⟩) := by
  have presented : bearerToken (bearing keeperToken.raw).authorization = some keeperToken.raw :=
    bearerToken_bearing (by decide +kernel)
  have undecodable : deskHost.decodeToken 1 keeperToken.raw = none := by decide +kernel
  have hashed : deskHost.hashToken keeperToken.raw = keeperToken.digest := by decide +kernel
  have found : userFromBearer deskHost 1 alliance keeperToken.raw =
      some (touchApiToken alliance 1 1, ⟨founder, .apiToken acmeRow⟩) := by
    unfold userFromBearer interactiveUser jwtUser userFromApiToken
    rw [undecodable, hashed]
    rfl
  have absent : (bearing keeperToken.raw).cookie.filter (· ≠ "") = none := rfl
  unfold requireCookieScope resolveCookieActiveUser resolveCookieUser resolveCookieWith apiTokenScopes
  rw [absent, presented]
  dsimp only [Option.bind_some]
  rw [found]
  rfl

def acmeCaller : Caller := ⟨founder, .apiToken acmeRow⟩

theorem acme_token_confined : ∃ after,
    conduct deskHost.toPackageHost 1 ⟨touchApiToken alliance 1 1, fun _ => none⟩ acmeCaller (.createTeam "acme" "ops") = .ok after ∧
      Confined 1 (touchApiToken alliance 1 1) after := by
  have performed : ∃ after, conduct deskHost.toPackageHost 1 ⟨touchApiToken alliance 1 1, fun _ => none⟩ acmeCaller
      (.createTeam "acme" "ops") = .ok after := ⟨_, rfl⟩
  obtain ⟨after, performed⟩ := performed
  refine ⟨after, performed, (token_confined_iff rfl rfl (by decide) performed).mpr ?_⟩
  intro org found
  cases found
  rfl

/-- The token of one organization creates a team in the other. -/
theorem acme_token_founds_rival_team : ∃ after,
    requireCookieScope deskHost 1 alliance (bearing keeperToken.raw) ["members:manage"] =
      .ok (touchApiToken alliance 1 1, acmeCaller) ∧ privileged acmeCaller.user = false ∧
    conduct deskHost.toPackageHost 1 ⟨touchApiToken alliance 1 1, fun _ => none⟩ acmeCaller (.createTeam "rival" "ops") = .ok after ∧
      ¬ Confined 1 (touchApiToken alliance 1 1) after := by
  have performed : ∃ after team, createTeam deskHost.toHost 1 (touchApiToken alliance 1 1) founder "rival" "ops" =
      .ok (after, team) := ⟨_, _, rfl⟩
  obtain ⟨after, team, performed⟩ := performed
  refine ⟨after, acme_recognised, by decide, Outcome.map_fst_ok.mpr ⟨team, performed⟩, fun confined => ?_⟩
  have home := (confined_named_iff (createTeam_writes performed)).mp confined _ rfl
  exact absurd home (by decide)

end Desk

end Affairs

end Registry.Identity
