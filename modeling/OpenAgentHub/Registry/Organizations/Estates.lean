import OpenAgentHub.Registry.Organizations.Effects

namespace Registry.Organizations

open Relational Quotas

structure Estate where
  packages : List Agent
  versions : List AgentVersion
  grants : List AgentGrant
  members : List OrganizationMember
  teams : List Team
  teamMembers : List TeamMember
  serviceAccounts : List ServiceAccount

def packageIn (db : Db) (organizationId agentId : Nat) : Bool :=
  (db.agents.byId agentId).any (·.organizationId == some organizationId)

def teamOf (db : Db) (organizationId teamId : Nat) : Bool :=
  (db.teams.byId teamId).any (·.organizationId == organizationId)

def estate (db : Db) (organizationId : Nat) : Estate where
  packages := db.agents.select (·.organizationId == some organizationId)
  versions := db.agentVersions.select fun version => packageIn db organizationId version.agentId
  grants := db.agentGrants.select fun grant => packageIn db organizationId grant.agentId
  members := db.organizationMembers.select (·.organizationId == organizationId)
  teams := db.teams.select (·.organizationId == organizationId)
  teamMembers := db.teamMembers.select fun row => teamOf db organizationId row.teamId
  serviceAccounts := db.serviceAccounts.select (·.organizationId == organizationId)

structure WritesIn (db after : Db) (organizationId : Nat) (idle : Prop) : Prop where
  elsewhere : ∀ other, other ≠ organizationId → estate after other = estate db other
  here : estate after organizationId = estate db organizationId ↔ idle

section Writes

variable {db : Db} {organizationId : Nat}

theorem estate_billingOnly {after : Db} (frame : Billing.BillingOnly db after) (organizationId : Nat) :
    estate after organizationId = estate db organizationId := by
  obtain ⟨_, _, rfl⟩ := frame
  rfl

theorem WritesIn.of_estates {after final : Db} {idle : Prop} (writes : WritesIn db after organizationId idle)
    (same : ∀ other, estate final other = estate after other) : WritesIn db final organizationId idle := by
  refine ⟨fun other apart => ?_, ?_⟩
  · rw [same]
    exact writes.elsewhere other apart
  · rw [same]
    exact writes.here

theorem WritesIn.idle_congr {after : Db} {idle idle' : Prop} (writes : WritesIn db after organizationId idle)
    (same : idle ↔ idle') : WritesIn db after organizationId idle' :=
  ⟨writes.elsewhere, writes.here.trans same⟩

theorem WritesIn.audit {after : Db} {idle : Prop} {now : Time} {actorId about : Nat} {targetId : Option Nat} {action targetType : String}
    {detail : List (String × Json)} (writes : WritesIn db after organizationId idle) :
    WritesIn db (audit after now actorId action targetType targetId about detail) organizationId idle :=
  writes.of_estates fun _ => rfl

theorem WritesIn.from_estates {start after : Db} {idle : Prop} (writes : WritesIn start after organizationId idle)
    (same : ∀ other, estate start other = estate db other) : WritesIn db after organizationId idle := by
  refine ⟨fun other apart => ?_, ?_⟩
  · rw [← same]
    exact writes.elsewhere other apart
  · rw [← same]
    exact writes.here

theorem writes_members {organizationMembers : Table OrganizationMember} {idle : Prop}
    (elsewhere : ∀ other, other ≠ organizationId →
      organizationMembers.select (·.organizationId == other) = db.organizationMembers.select (·.organizationId == other))
    (here : organizationMembers.select (·.organizationId == organizationId) =
      db.organizationMembers.select (·.organizationId == organizationId) ↔ idle) :
    WritesIn db { db with organizationMembers } organizationId idle := by
  have members : ∀ other, estate { db with organizationMembers } other =
      { estate db other with members := organizationMembers.select (·.organizationId == other) } := fun _ => rfl
  refine ⟨fun other apart => ?_, ?_⟩
  · rw [members, elsewhere other apart]
    rfl
  · rw [members, ← here]
    constructor
    · exact congrArg Estate.members
    · intro same
      rw [same]
      rfl

theorem writes_member_added {organizationMembers : Table OrganizationMember} {new : OrganizationMember}
    (rows : organizationMembers.rows = db.organizationMembers.rows ++ [new]) :
    WritesIn db { db with organizationMembers } new.organizationId False := by
  apply writes_members
  · intro other apart
    exact Table.select_append rows (beq_eq_false_iff_ne.mpr (Ne.symm apart))
  · exact iff_false_intro (Table.select_append_ne rows (beq_self_eq_true _))

theorem writes_member_deleted {member : OrganizationMember} (stored : member ∈ db.organizationMembers.rows) :
    WritesIn db (deleteMember db member.id) member.organizationId False := by
  apply writes_members
  · intro other apart
    apply Table.select_delete
    intro row present theirs
    apply beq_eq_false_iff_ne.mpr
    intro same
    rw [Table.eq_of_id present stored same] at theirs
    exact apart (beq_iff_eq.mp theirs).symm
  · exact iff_false_intro (Table.select_delete_ne stored (beq_self_eq_true _) (beq_self_eq_true _))

theorem OrgRole.name_injective : Function.Injective OrgRole.name := by
  intro first second
  cases first <;> cases second <;> decide

theorem role_preserves (role : OrgRole) : Table.Preserves fun member : OrganizationMember => { member with role } :=
  fun _ => ⟨rfl, fun _ => rfl⟩

theorem writes_role {member : OrganizationMember} (role : OrgRole) (stored : member ∈ db.organizationMembers.rows) :
    WritesIn db (setRole db member.id role) member.organizationId (member.role = role) := by
  have isMember : ∀ row ∈ db.organizationMembers.rows, (row.id == member.id) = true → row = member :=
    fun row present same => Table.eq_of_id present stored (beq_iff_eq.mp same)
  apply writes_members
  · intro other apart
    apply Table.select_modify (role_preserves role)
    intro row present same
    have outside : (member.organizationId == other) = false := beq_eq_false_iff_ne.mpr (Ne.symm apart)
    rw [isMember row present same]
    exact ⟨outside, outside⟩
  · constructor
    · intro same
      by_contra changes
      refine absurd same (Table.select_modify_ne (role_preserves role) stored ?_ ?_ ?_)
      · exact beq_self_eq_true _
      · exact beq_self_eq_true _
      · intro fixed
        exact changes (congrArg OrganizationMember.role fixed).symm
    · intro keeps
      have unchanged := Table.modify_rows (role_preserves role) fun row present same => by
        rw [isMember row present same, ← keeps]
      unfold Table.select
      rw [unchanged]

theorem writes_handover {member acting : OrganizationMember} {role : OrgRole} (stored : member ∈ db.organizationMembers.rows)
    (actingStored : acting ∈ db.organizationMembers.rows) (together : acting.organizationId = member.organizationId)
    (apart : acting.id ≠ member.id) (promoted : role = .owner) (demotable : member.isOwner = false) :
    WritesIn db (setRole (setRole db member.id .owner) acting.id .administrator) member.organizationId
      (member.role.name = role.name) := by
  have kept : acting ∈ (setRole db member.id .owner).organizationMembers.rows := by
    refine (Table.mem_modify (role_preserves .owner)).mpr ⟨acting, actingStored, if_neg ?_⟩
    exact fun same => apart (beq_iff_eq.mp same)
  have first := writes_role .owner stored
  have second := writes_role .administrator kept
  rw [together] at second
  refine ⟨fun other outside => (second.elsewhere other outside).trans (first.elsewhere other outside), ?_⟩
  rw [promoted]
  have notOwner : member.role ≠ .owner := fun isOwner => by
    rw [OrganizationMember.isOwner, isOwner] at demotable
    cases demotable
  refine iff_of_false ?_ fun named => notOwner (OrgRole.name_injective named)
  intro same
  have listed : member ∈ (estate db member.organizationId).members :=
    Table.mem_select.mpr ⟨stored, beq_self_eq_true _⟩
  rw [← same] at listed
  -- in the end the row of the member says owner
  obtain ⟨present, _⟩ := Table.mem_select.mp listed
  obtain ⟨middle, inMiddle, isMember⟩ := (Table.mem_modify (role_preserves .administrator)).mp present
  have middleId : middle.id = member.id := by
    rw [← isMember]
    exact ((role_preserves .administrator).guarded (·.id == acting.id) middle).1.symm
  rw [if_neg fun isActing => apart ((beq_iff_eq.mp isActing).symm.trans middleId)] at isMember
  rw [isMember] at inMiddle
  obtain ⟨old, _, isOld⟩ := (Table.mem_modify (role_preserves .owner)).mp inMiddle
  have oldId : old.id = member.id := by
    rw [← isOld]
    exact ((role_preserves .owner).guarded (·.id == member.id) old).1.symm
  rw [if_pos (beq_iff_eq.mpr oldId)] at isOld
  exact notOwner (congrArg OrganizationMember.role isOld).symm

theorem teamOf_append {teams : Table Team} {team : Team} (rows : teams.rows = db.teams.rows ++ [team]) {other : Nat}
    (apart : other ≠ team.organizationId) (teamId : Nat) : teamOf { db with teams } other teamId = teamOf db other teamId := by
  have outside : (team.organizationId == other) = false := beq_eq_false_iff_ne.mpr (Ne.symm apart)
  have lookup : teams.byId teamId = (db.teams.byId teamId).or (if team.id == teamId then some team else none) :=
    Table.one_append rows
  unfold teamOf
  dsimp only
  rw [lookup]
  cases db.teams.byId teamId with
  | some found => rfl
  | none =>
    rw [Option.none_or]
    split
    · exact outside
    · rfl

theorem writes_team_added {teams : Table Team} {team : Team} (rows : teams.rows = db.teams.rows ++ [team]) :
    WritesIn db { db with teams } team.organizationId False := by
  have changed : ∀ other, estate { db with teams } other = { estate db other with
      teams := teams.select (·.organizationId == other)
      teamMembers := db.teamMembers.select fun row => teamOf { db with teams } other row.teamId } := fun _ => rfl
  refine ⟨fun other apart => ?_, iff_false_intro fun same => ?_⟩
  · have outside : (team.organizationId == other) = false := beq_eq_false_iff_ne.mpr (Ne.symm apart)
    rw [changed, Table.select_append rows outside]
    simp only [teamOf_append rows apart]
    rfl
  · have kept : teams.select (·.organizationId == team.organizationId) =
        db.teams.select (·.organizationId == team.organizationId) := congrArg Estate.teams same
    exact absurd kept (Table.select_append_ne rows (beq_self_eq_true _))

theorem teamOf_stored {team : Team} (stored : team ∈ db.teams.rows) (other : Nat) :
    teamOf db other team.id = (team.organizationId == other) := by
  have found : db.teams.byId team.id = some team := Table.byId_eq_some.mpr ⟨stored, rfl⟩
  unfold teamOf
  rw [found]
  rfl

theorem writes_teamMembers {teamMembers : Table TeamMember}
    (elsewhere : ∀ other, other ≠ organizationId → teamMembers.select (fun row => teamOf db other row.teamId) =
      db.teamMembers.select (fun row => teamOf db other row.teamId))
    (changed : teamMembers.select (fun row => teamOf db organizationId row.teamId) ≠
      db.teamMembers.select (fun row => teamOf db organizationId row.teamId)) :
    WritesIn db { db with teamMembers } organizationId False := by
  have others : ∀ other, estate { db with teamMembers } other =
      { estate db other with teamMembers := teamMembers.select fun row => teamOf db other row.teamId } := fun _ => rfl
  refine ⟨fun other apart => ?_, iff_false_intro fun same => ?_⟩
  · rw [others, elsewhere other apart]
    rfl
  · exact changed (congrArg Estate.teamMembers same)

theorem writes_teamMember_added {teamMembers : Table TeamMember} {row : TeamMember} {team : Team}
    (stored : team ∈ db.teams.rows) (onTeam : row.teamId = team.id)
    (rows : teamMembers.rows = db.teamMembers.rows ++ [row]) :
    WritesIn db { db with teamMembers } team.organizationId False := by
  apply writes_teamMembers
  · intro other apart
    refine Table.select_append rows ?_
    rw [onTeam, teamOf_stored stored]
    exact beq_eq_false_iff_ne.mpr (Ne.symm apart)
  · refine Table.select_append_ne rows ?_
    rw [onTeam, teamOf_stored stored]
    exact beq_self_eq_true _

theorem writes_teamMember_deleted {row : TeamMember} {team : Team} (stored : team ∈ db.teams.rows)
    (present : row ∈ db.teamMembers.rows) (onTeam : row.teamId = team.id) :
    WritesIn db { db with teamMembers := db.teamMembers.delete (·.id == row.id) } team.organizationId False := by
  apply writes_teamMembers
  · intro other apart
    apply Table.select_delete
    intro candidate isStored theirs
    apply beq_eq_false_iff_ne.mpr
    intro same
    rw [Table.eq_of_id isStored present same, onTeam, teamOf_stored stored] at theirs
    exact apart (beq_iff_eq.mp theirs).symm
  · refine Table.select_delete_ne present ?_ (beq_self_eq_true _)
    rw [onTeam, teamOf_stored stored]
    exact beq_self_eq_true _

theorem writes_staff {organizationMembers : Table OrganizationMember} {serviceAccounts : Table ServiceAccount}
    (members : ∀ other, other ≠ organizationId →
      organizationMembers.select (·.organizationId == other) = db.organizationMembers.select (·.organizationId == other))
    (accounts : ∀ other, other ≠ organizationId →
      serviceAccounts.select (·.organizationId == other) = db.serviceAccounts.select (·.organizationId == other))
    (changed : serviceAccounts.select (·.organizationId == organizationId) ≠
      db.serviceAccounts.select (·.organizationId == organizationId)) :
    WritesIn db { db with organizationMembers, serviceAccounts } organizationId False := by
  have both : ∀ other, estate { db with organizationMembers, serviceAccounts } other = { estate db other with
      members := organizationMembers.select (·.organizationId == other)
      serviceAccounts := serviceAccounts.select (·.organizationId == other) } := fun _ => rfl
  refine ⟨fun other apart => ?_, iff_false_intro fun same => ?_⟩
  · rw [both, members other apart, accounts other apart]
    rfl
  · exact changed (congrArg Estate.serviceAccounts same)

end Writes

section Operations

variable {host : Host} {now : Time} {db after : Db} {actor : User} {slug username role : String}

theorem addMember_writes {result : MemberResult}
    (done : addMember host now db actor slug username role = .ok (after, result)) :
    ∃ org, orgBySlug db slug = some org ∧ WritesIn db after org.id False := by
  simp only [addMember, Outcome.bind_eq_ok, Outcome.demand_eq_ok, actingMember_ok, asOrganizationError_ok,
    Db.insertRow_eq_ok, Table.insert_eq_some, Prod.exists, Outcome.pure_eq_ok, Prod.mk.injEq] at done
  obtain ⟨_, _, org, _, ⟨found, _⟩, _, _, _, _, _, _, checked, quota, _, organizationMembers, ⟨_, rfl, rows, _⟩, rfl, _⟩ :=
    done
  have writes : WritesIn checked { checked with organizationMembers } org.id False := writes_member_added rows
  exact ⟨org, found, writes.audit.from_estates (estate_billingOnly (enforceCount_billingOnly quota))⟩

theorem changeMemberRole_writes {result : MemberResult}
    (done : changeMemberRole host now db actor slug username role = .ok (after, result)) :
    ∃ org user member, orgBySlug db slug = some org ∧ userByName db username = some user ∧
      membership db org.id user.id = some member ∧ WritesIn db after org.id (member.role.name = role) := by
  simp only [changeMemberRole, parseRole, Outcome.bind_eq_ok, Outcome.ensure_eq_ok, Outcome.demand_eq_ok,
    actingMember_ok, Prod.exists, Outcome.pure_eq_ok, Prod.mk.injEq] at done
  obtain ⟨granted, listed, org, acting, ⟨found, isActing⟩, user, named, member, joined, _, demotable, changed, assigned,
    rfl, _⟩ := done
  obtain ⟨stored, inOrg, _⟩ := membership_mem.mp joined
  have spelled : granted.name = role := by simpa using List.find?_some listed
  refine ⟨org, user, member, found, named, joined, ?_⟩
  rw [← spelled, ← inOrg]
  unfold reassign at assigned
  split at assigned
  · rename_i promotes
    simp only [Outcome.bind_eq_ok, Outcome.ensure_eq_ok, Outcome.pure_eq_ok] at assigned
    obtain ⟨_, owns, rfl⟩ := assigned
    obtain ⟨actingStored, actingIn, _⟩ := membership_mem.mp isActing
    have apart : acting.id ≠ member.id := fun same => by
      rw [Table.eq_of_id actingStored stored same, demotable] at owns
      cases owns
    exact (writes_handover stored actingStored (actingIn.trans inOrg.symm) apart promotes demotable).audit
  · simp only [Outcome.bind_eq_ok, Outcome.ensure_eq_ok, Outcome.pure_eq_ok] at assigned
    obtain ⟨_, _, rfl⟩ := assigned
    exact ((writes_role granted stored).idle_congr OrgRole.name_injective.eq_iff.symm).audit

theorem removeMember_writes {result : String × String}
    (done : removeMember host now db actor slug username = .ok (after, result)) :
    ∃ org, orgBySlug db slug = some org ∧ WritesIn db after org.id False := by
  simp only [removeMember, Outcome.bind_eq_ok, Outcome.demand_eq_ok, actingMember_ok, Prod.exists,
    Outcome.pure_eq_ok, Prod.mk.injEq] at done
  obtain ⟨org, _, ⟨found, _⟩, _, _, member, joined, _, _, _, _, rfl, _⟩ := done
  obtain ⟨stored, inOrg, _⟩ := membership_mem.mp joined
  rw [← inOrg]
  exact ⟨org, found, by rw [← inOrg]; exact (writes_member_deleted stored).audit⟩

theorem leaveOrganization_writes {result : String}
    (done : leaveOrganization host now db actor slug = .ok (after, result)) :
    ∃ org, orgBySlug db slug = some org ∧ WritesIn db after org.id False := by
  simp only [leaveOrganization, Outcome.bind_eq_ok, actingMember_ok, Prod.exists, Outcome.pure_eq_ok,
    Prod.mk.injEq] at done
  obtain ⟨org, member, ⟨found, joined⟩, _, _, rfl, _⟩ := done
  obtain ⟨stored, inOrg, _⟩ := membership_mem.mp joined
  exact ⟨org, found, by rw [← inOrg]; exact (writes_member_deleted stored).audit⟩

theorem inviteMember_estate {ttlHours : Option Nat} {token : String} {result : InviteResult}
    (done : inviteMember host now db actor slug username role ttlHours token = .ok (after, result))
    (organizationId : Nat) : estate after organizationId = estate db organizationId := by
  simp only [inviteMember, Outcome.bind_eq_ok, asOrganizationError_ok, Prod.exists, Outcome.pure_eq_ok,
    Prod.mk.injEq] at done
  obtain ⟨_, _, _, _, _, _, _, _, _, _, _, checked, quota, _, _, _, rfl, _⟩ := done
  exact estate_billingOnly (enforceCount_billingOnly quota) organizationId

theorem acceptInvitation_writes {token : String} {result : String × OrgRole}
    (done : acceptInvitation host now db actor token = .ok (after, result)) :
    ∃ invitation, db.invitations.one (·.tokenHash == host.hashToken token) = some invitation ∧
      WritesIn db after invitation.organizationId False := by
  simp only [acceptInvitation, Outcome.bind_eq_ok, Outcome.demand_eq_ok, asOrganizationError_ok, Db.insertRow_eq_ok,
    Table.insert_eq_some, Option.filter_eq_some_iff, Prod.exists, Outcome.pure_eq_ok, Prod.mk.injEq] at done
  obtain ⟨invitation, found, _, _, _, _, org, ⟨known, _⟩, _, _, checked, quota, _, organizationMembers,
    ⟨_, rfl, rows, _⟩, rfl, _⟩ := done
  have isOrg : org.id = invitation.organizationId := (Table.byId_eq_some.mp known).2
  have writes : WritesIn checked { checked with organizationMembers } org.id False := writes_member_added rows
  rw [isOrg] at writes
  have marked : ∀ invitations,
      WritesIn checked { checked with organizationMembers, invitations } invitation.organizationId False :=
    fun _ => writes.of_estates fun _ => rfl
  exact ⟨invitation, found, (marked _).audit.from_estates (estate_billingOnly (enforceCount_billingOnly quota))⟩

theorem createTeam_writes {name : String} {team : Team} (done : createTeam host now db actor slug name = .ok (after, team)) :
    ∃ org, orgBySlug db slug = some org ∧ WritesIn db after org.id False := by
  simp only [createTeam, Outcome.bind_eq_ok, actingMaintainer_ok, Db.insertRow_eq_ok, Table.insert_eq_some,
    Prod.exists, Outcome.pure_eq_ok, Prod.mk.injEq] at done
  obtain ⟨_, _, org, ⟨_, found, _⟩, _, _, _, teams, ⟨_, rfl, rows, _⟩, rfl, _⟩ := done
  have writes : WritesIn db { db with teams } org.id False := writes_team_added rows
  exact ⟨org, found, writes.audit⟩

theorem addTeamMember_writes {teamId : Nat} {row : TeamMember}
    (done : addTeamMember host now db actor slug teamId username = .ok (after, row)) :
    ∃ org, orgBySlug db slug = some org ∧ WritesIn db after org.id False := by
  simp only [addTeamMember, teamAndTarget, Outcome.bind_eq_ok, Outcome.demand_eq_ok, actingMaintainer_ok,
    Db.insertRow_eq_ok, Table.insert_eq_some, Option.filter_eq_some_iff, Prod.exists, Outcome.pure_eq_ok,
    Prod.mk.injEq] at done
  obtain ⟨org, ⟨_, found, _⟩, team, _, ⟨_, ⟨known, inOrg⟩, _, _, rfl, rfl⟩, _, _, _, _, _, teamMembers,
    ⟨_, rfl, rows, _⟩, rfl, _⟩ := done
  have writes := writes_teamMember_added (Table.byId_eq_some.mp known).1 rfl rows
  rw [beq_iff_eq.mp inOrg] at writes
  exact ⟨org, found, writes.audit⟩

theorem removeTeamMember_writes {teamId : Nat} {row : TeamMember}
    (done : removeTeamMember host now db actor slug teamId username = .ok (after, row)) :
    ∃ org, orgBySlug db slug = some org ∧ WritesIn db after org.id False := by
  simp only [removeTeamMember, teamAndTarget, teamMembership, Outcome.bind_eq_ok, Outcome.demand_eq_ok,
    actingMaintainer_ok, Option.filter_eq_some_iff, Prod.exists, Outcome.pure_eq_ok, Prod.mk.injEq] at done
  obtain ⟨org, ⟨_, found, _⟩, team, _, ⟨_, ⟨known, inOrg⟩, _, _, rfl, rfl⟩, member, joined, rfl, _⟩ := done
  have named := Table.one_holds joined
  simp only [Bool.and_eq_true, beq_iff_eq] at named
  have writes := writes_teamMember_deleted (Table.byId_eq_some.mp known).1 (Table.one_mem joined) named.1
  rw [beq_iff_eq.mp inOrg] at writes
  exact ⟨org, found, writes.audit⟩

theorem createServiceAccount_writes {name : String} {result : ServiceAccountResult}
    (done : createServiceAccount host now db actor slug name role = .ok (after, result)) :
    ∃ org, orgBySlug db slug = some org ∧ WritesIn db after org.id False := by
  simp only [createServiceAccount, Outcome.bind_eq_ok, actingMaintainer_ok, asOrganizationError_ok,
    Db.insertRow_eq_ok, Table.insert_eq_some, Prod.exists, Outcome.pure_eq_ok, Prod.mk.injEq] at done
  obtain ⟨_, _, _, _, org, ⟨_, found, _⟩, _, _, checked, quota, _, _, _, users, _, _, organizationMembers,
    ⟨_, rfl, members, _⟩, _, serviceAccounts, ⟨_, rfl, accounts, _⟩, rfl, _⟩ := done
  have writes : WritesIn checked { checked with organizationMembers, serviceAccounts } org.id False := by
    apply writes_staff
    · intro other apart
      exact Table.select_append members (beq_eq_false_iff_ne.mpr (Ne.symm apart))
    · intro other apart
      exact Table.select_append accounts (beq_eq_false_iff_ne.mpr (Ne.symm apart))
    · exact Table.select_append_ne accounts (beq_self_eq_true _)
  have enrolled : WritesIn checked { checked with users, organizationMembers, serviceAccounts } org.id False :=
    writes.of_estates fun _ => rfl
  exact ⟨org, found, enrolled.audit.from_estates (estate_billingOnly (enforceCount_billingOnly quota))⟩

theorem deleteServiceAccount_writes {accountId : Nat} {result : String}
    (done : deleteServiceAccount host now db actor slug accountId = .ok (after, result)) :
    ∃ org, orgBySlug db slug = some org ∧ WritesIn db after org.id False := by
  simp only [deleteServiceAccount, serviceAccountOf, Outcome.bind_eq_ok, actingMaintainer_ok,
    Outcome.demand_eq_ok, Option.filter_eq_some_iff, Outcome.pure_eq_ok, Prod.mk.injEq] at done
  obtain ⟨org, ⟨_, found, _⟩, account, ⟨known, inOrg⟩, rfl, _⟩ := done
  have stored := (Table.byId_eq_some.mp known).1
  have isOrg : account.organizationId = org.id := beq_iff_eq.mp inOrg
  have writes : ∀ organizationMembers : Table OrganizationMember, (∀ other, other ≠ org.id →
      organizationMembers.select (·.organizationId == other) = db.organizationMembers.select (·.organizationId == other)) →
      WritesIn db { db with organizationMembers, serviceAccounts := db.serviceAccounts.delete (·.id == account.id) }
        org.id False := by
    intro organizationMembers members
    apply writes_staff members
    · intro other apart
      apply Table.select_delete
      intro row present theirs
      apply beq_eq_false_iff_ne.mpr
      intro same
      rw [Table.eq_of_id present stored same, isOrg] at theirs
      exact apart (beq_iff_eq.mp theirs).symm
    · exact Table.select_delete_ne stored (beq_iff_eq.mpr isOrg) (beq_self_eq_true _)
  refine ⟨org, found, WritesIn.audit ?_⟩
  cases joined : membership db org.id account.userId with
  | none => exact (writes db.organizationMembers fun _ _ => rfl).of_estates fun _ => rfl
  | some member =>
    obtain ⟨memberStored, memberIn, _⟩ := membership_mem.mp joined
    have dismissed := writes_member_deleted memberStored
    rw [memberIn] at dismissed
    refine (writes (db.organizationMembers.delete (·.id == member.id)) fun other apart => ?_).of_estates fun _ => rfl
    exact congrArg Estate.members (dismissed.elsewhere other apart)

theorem issueServiceAccountToken_estate {accountId : Nat} {raw label : String} {scopes : List String}
    {expiresInDays : Option Int} {row : ApiToken}
    (done : issueServiceAccountToken host now db actor slug accountId raw label scopes expiresInDays = .ok (after, row))
    (organizationId : Nat) : estate after organizationId = estate db organizationId := by
  simp only [issueServiceAccountToken, Identity.createApiToken, Outcome.bind_eq_ok, reraise_eq_ok, Prod.exists,
    Outcome.pure_eq_ok, Prod.mk.injEq] at done
  obtain ⟨_, _, _, _, _, _, _, _, _, _, ⟨_, _, _, _, _, _, _, _, _, _, _, _, _, _, _, _, _, apiTokens, _, rfl, _⟩,
    rfl, _⟩ := done
  rfl

end Operations

end Registry.Organizations
