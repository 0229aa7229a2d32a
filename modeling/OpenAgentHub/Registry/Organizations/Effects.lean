import OpenAgentHub.Registry.Organizations.Operations

namespace Registry.Organizations

open Relational Quotas

structure Roster where
  organizations : List Organization
  members : List OrganizationMember
  teams : List Team
  teamMembers : List TeamMember
  invitations : List Invitation

def roster (db : Db) : Roster :=
  ⟨db.organizations.rows, db.organizationMembers.rows, db.teams.rows, db.teamMembers.rows, db.invitations.rows⟩

theorem roster_billingOnly {before after : Db} (frame : Billing.BillingOnly before after) :
    roster after = roster before := by
  obtain ⟨_, _, rfl⟩ := frame
  rfl

theorem roster_audit (db : Db) (now : Time) (actorId : Nat) (action targetType : String)
    (targetId : Option Nat) (organizationId : Nat) (detail : List (String × Json)) :
    roster (audit db now actorId action targetType targetId organizationId detail) = roster db := rfl

theorem asOrganizationError_ok {outcome : Except Raised Db} {db : Db} :
    asOrganizationError outcome = .ok db ↔ outcome = .ok db :=
  reraise_eq_ok

theorem actingMember_ok {db : Db} {actor : User} {slug : String} {org : Organization}
    {member : OrganizationMember} :
    actingMember db actor slug = .ok (org, member) ↔
      orgBySlug db slug = some org ∧ membership db org.id actor.id = some member := by
  simp only [actingMember, Outcome.bind_eq_ok, Outcome.demand_eq_ok, Outcome.pure_eq_ok, Prod.mk.injEq]
  constructor
  · rintro ⟨_, found, _, acting, rfl, rfl⟩
    exact ⟨found, acting⟩
  · rintro ⟨found, acting⟩
    exact ⟨org, found, member, acting, rfl, rfl⟩

theorem actingMaintainer_ok {db : Db} {actor : User} {slug : String} {org : Organization} :
    actingMaintainer db actor slug = .ok org ↔
      ∃ member, orgBySlug db slug = some org ∧ membership db org.id actor.id = some member ∧
        canMaintain member = true := by
  simp only [actingMaintainer, Outcome.bind_eq_ok, Prod.exists, actingMember_ok, Outcome.ensure_eq_ok,
    Outcome.pure_eq_ok]
  constructor
  · rintro ⟨_, member, ⟨found, acting⟩, _, allowed, rfl⟩
    exact ⟨member, found, acting, allowed⟩
  · rintro ⟨member, found, acting, allowed⟩
    exact ⟨org, member, ⟨found, acting⟩, (), allowed, rfl⟩

theorem canGrant_ok {actor : OrganizationMember} {role : OrgRole} {done : Unit} :
    canGrant actor role = .ok done ↔ orgRank role ≤ orgRank actor.role ∧ canMaintain actor = true := by
  simp only [canGrant, Outcome.bind_eq_ok, Outcome.ensure_eq_ok]
  constructor
  · rintro ⟨_, rank, allowed⟩
    exact ⟨rank, allowed⟩
  · rintro ⟨rank, allowed⟩
    exact ⟨(), rank, allowed⟩

theorem membership_mem {db : Db} {organizationId userId : Nat} {member : OrganizationMember} :
    membership db organizationId userId = some member ↔
      member ∈ db.organizationMembers.rows ∧ member.organizationId = organizationId ∧
        member.userId = userId := by
  unfold membership
  rw [Table.one_eq_some]
  · simp
  · intro first left second right one two
    apply Table.eq_of_clash left right
    simp only [Bool.and_eq_true, beq_iff_eq] at one two
    simp [Row.clash, one, two]

theorem membership_none {db : Db} {organizationId userId : Nat} :
    membership db organizationId userId = none ↔
      ∀ member ∈ db.organizationMembers.rows, member.organizationId = organizationId →
        member.userId ≠ userId := by
  unfold membership
  rw [Table.one_none]
  simp

variable {host : Host} {now : Time} {db after : Db} {actor : User} {slug username role : String}

theorem createOrganization_ok {displayName : String} {org : Organization}
    (done : createOrganization host now db actor slug displayName = .ok (after, org)) :
    org.id = db.organizations.next ∧
      roster after = { roster db with
        organizations := (roster db).organizations ++ [org]
        members := (roster db).members ++ [⟨db.organizationMembers.next, org.id, actor.id, .owner⟩] } := by
  simp only [createOrganization, Outcome.bind_eq_ok, Outcome.ensure_eq_ok, Db.insertRow_eq_ok,
    Table.insert_eq_some, Prod.exists, Outcome.pure_eq_ok, Prod.mk.injEq] at done
  obtain ⟨_, _, _, _, _, _, _, organizations, ⟨_, rfl, grown, _⟩, _, memberRows, ⟨_, rfl, enrolled, _⟩,
    ensured, sub, subscribed, rfl, rfl⟩ := done
  refine ⟨rfl, ?_⟩
  have frame := roster_billingOnly (Billing.ensureSubscription_billingOnly subscribed)
  calc
    _ = roster ensured := rfl
    _ = _ := by rw [frame]; simp [roster, grown, enrolled]

theorem addMember_ok {result : MemberResult}
    (done : addMember host now db actor slug username role = .ok (after, result)) :
    ∃ org member target, orgBySlug db slug = some org ∧ membership db org.id actor.id = some member ∧
      orgRank result.role ≤ orgRank member.role ∧ membership db org.id target = none ∧
      roster after = { roster db with
        members := (roster db).members ++ [⟨db.organizationMembers.next, org.id, target, result.role⟩] } := by
  simp only [addMember, Outcome.bind_eq_ok, Outcome.ensure_eq_ok, Outcome.demand_eq_ok, actingMember_ok,
    canGrant_ok, asOrganizationError_ok, Db.insertRow_eq_ok,
    Table.insert_eq_some, Prod.exists, Outcome.pure_eq_ok, Prod.mk.injEq] at done
  obtain ⟨granted, _, org, member, ⟨found, acting⟩, _, ⟨rank, _⟩, target, _, _, fresh, checked, quota,
    row, memberRows, ⟨_, rfl, grown, _⟩, rfl, rfl⟩ := done
  refine ⟨org, member, target.id, found, acting, rank, fresh, ?_⟩
  obtain ⟨_, _, rfl⟩ := enforceCount_billingOnly quota
  simp only [roster, audit, Db.recordAudit, grown]

def assign (memberId : Nat) (role : OrgRole) (members : List OrganizationMember) : List OrganizationMember :=
  members.map fun member => if member.id == memberId then { member with role } else member

def dismiss (memberId : Nat) (members : List OrganizationMember) : List OrganizationMember :=
  members.filter fun member => !(member.id == memberId)

theorem changeMemberRole_ok {result : MemberResult}
    (done : changeMemberRole host now db actor slug username role = .ok (after, result)) :
    ∃ org acting target, orgBySlug db slug = some org ∧ membership db org.id actor.id = some acting ∧
      target ∈ db.organizationMembers.rows ∧ target.organizationId = org.id ∧ target.isOwner = false ∧
      ((result.role = .owner ∧ acting.isOwner = true ∧
          roster after = { roster db with
            members := assign acting.id .administrator (assign target.id .owner (roster db).members) }) ∨
        (result.role ≠ .owner ∧ canAdminister acting = true ∧
          roster after = { roster db with members := assign target.id result.role (roster db).members })) := by
  simp only [changeMemberRole, Outcome.bind_eq_ok, Outcome.ensure_eq_ok, Outcome.demand_eq_ok,
    actingMember_ok, Prod.exists, Outcome.pure_eq_ok, Prod.mk.injEq] at done
  obtain ⟨granted, _, org, acting, ⟨found, member⟩, target, _, targetMember, stored, _, demotable,
    changed, assigned, rfl, rfl⟩ := done
  obtain ⟨inTable, inOrg, _⟩ := membership_mem.mp stored
  refine ⟨org, acting, targetMember, found, member, inTable, inOrg, demotable, ?_⟩
  unfold reassign at assigned
  split at assigned
  · rename_i promotes
    simp only [Outcome.bind_eq_ok, Outcome.ensure_eq_ok, Outcome.pure_eq_ok] at assigned
    obtain ⟨_, owner, rfl⟩ := assigned
    exact .inl ⟨promotes, owner, rfl⟩
  · rename_i keeps
    simp only [Outcome.bind_eq_ok, Outcome.ensure_eq_ok, Outcome.pure_eq_ok] at assigned
    obtain ⟨_, allowed, rfl⟩ := assigned
    exact .inr ⟨keeps, allowed, rfl⟩

theorem removeMember_ok {result : String × String}
    (done : removeMember host now db actor slug username = .ok (after, result)) :
    ∃ org target, orgBySlug db slug = some org ∧ target ∈ db.organizationMembers.rows ∧
      target.organizationId = org.id ∧ target.isOwner = false ∧
      (∃ user, userByName db username = some user ∧ target.userId = user.id) ∧
      roster after = { roster db with members := dismiss target.id (roster db).members } := by
  simp only [removeMember, Outcome.bind_eq_ok, Outcome.ensure_eq_ok, Outcome.demand_eq_ok,
    actingMember_ok, Prod.exists, Outcome.pure_eq_ok, Prod.mk.injEq] at done
  obtain ⟨org, _, ⟨found, _⟩, target, named, targetMember, stored, _, removable, _, _, rfl, _⟩ := done
  obtain ⟨inTable, inOrg, theirs⟩ := membership_mem.mp stored
  exact ⟨org, targetMember, found, inTable, inOrg, removable, ⟨target, named, theirs⟩, rfl⟩

theorem leaveOrganization_ok {result : String}
    (done : leaveOrganization host now db actor slug = .ok (after, result)) :
    ∃ org member, orgBySlug db slug = some org ∧ membership db org.id actor.id = some member ∧
      soleOwner db org.id actor.id = false ∧
      roster after = { roster db with members := dismiss member.id (roster db).members } := by
  simp only [leaveOrganization, Outcome.bind_eq_ok, Outcome.ensure_eq_ok, actingMember_ok, Prod.exists,
    Outcome.pure_eq_ok, Prod.mk.injEq] at done
  obtain ⟨org, member, ⟨found, acting⟩, _, shared, rfl, _⟩ := done
  exact ⟨org, member, found, acting, shared, rfl⟩

theorem removeMembership_rows (now : Time) (user : User) (db : Db) (org : Organization)
    (row : OrganizationMember) :
    row ∈ (roster (removeMembership now user db org)).members ↔
      row ∈ (roster db).members ∧ ¬ (row.organizationId = org.id ∧ row.userId = user.id) := by
  unfold removeMembership
  split
  · rename_i absent
    have others := membership_none.mp absent
    constructor
    · intro stored
      exact ⟨stored, fun both => others row stored both.1 both.2⟩
    · exact And.left
  · rename_i member stored
    obtain ⟨inTable, inOrg, theirs⟩ := membership_mem.mp stored
    have same : ∀ other ∈ db.organizationMembers.rows,
        other.id = member.id ↔ other.organizationId = org.id ∧ other.userId = user.id := by
      intro other present
      constructor
      · intro equal
        rw [Table.eq_of_id present inTable equal]
        exact ⟨inOrg, theirs⟩
      · rintro ⟨left, right⟩
        have both := membership_mem.mpr ⟨present, left, right⟩
        rw [stored] at both
        rw [Option.some.inj both]
    change row ∈ (db.organizationMembers.delete (·.id == member.id)).rows ↔ _
    rw [Table.mem_delete]
    simp only [beq_eq_false_iff_ne, ne_eq]
    exact and_congr_right fun present => not_congr (same row present)

theorem removeMembership_frame (now : Time) (user : User) (db : Db) (org : Organization) :
    ∃ organizationMembers auditEvents, removeMembership now user db org = { db with organizationMembers, auditEvents } ∧
      organizationMembers.select (·.userId != user.id) = db.organizationMembers.select (·.userId != user.id) := by
  unfold removeMembership
  split
  · exact ⟨_, _, rfl, rfl⟩
  · rename_i member joined
    refine ⟨_, _, rfl, Table.select_delete fun row stored others => ?_⟩
    obtain ⟨present, _, theirs⟩ := membership_mem.mp joined
    rw [beq_eq_false_iff_ne]
    intro same
    rw [Table.eq_of_id stored present same, theirs] at others
    simp at others

theorem removeMemberships_frame (now : Time) (user : User) (orgs : List Organization) (db : Db) :
    ∃ organizationMembers auditEvents,
      orgs.foldl (removeMembership now user) db = { db with organizationMembers, auditEvents } ∧
        organizationMembers.select (·.userId != user.id) = db.organizationMembers.select (·.userId != user.id) := by
  induction orgs generalizing db with
  | nil => exact ⟨_, _, rfl, rfl⟩
  | cons org rest ih =>
    obtain ⟨first, events, removed, others⟩ := removeMembership_frame now user db org
    obtain ⟨members, auditEvents, frame, same⟩ := ih (removeMembership now user db org)
    refine ⟨members, auditEvents, ?_, ?_⟩
    · rw [List.foldl_cons, frame, removed]
    · rw [same, removed, others]

theorem removeMemberships_rows (now : Time) (user : User) (orgs : List Organization) (db : Db) (row : OrganizationMember) :
    row ∈ (roster (orgs.foldl (removeMembership now user) db)).members ↔
      row ∈ (roster db).members ∧ ¬ (row.userId = user.id ∧ ∃ org ∈ orgs, row.organizationId = org.id) := by
  induction orgs generalizing db with
  | nil => simp
  | cons org rest ih =>
    rw [List.foldl_cons, ih, removeMembership_rows]
    simp only [List.mem_cons]
    grind

theorem organizationsOf_mem {db : Db} {userId : Nat} {org : Organization} :
    org ∈ organizationsOf db userId ↔ org ∈ db.organizations.rows ∧ ∃ member, membership db org.id userId = some member := by
  unfold organizationsOf
  rw [List.mem_mergeSort, Table.mem_select, Option.isSome_iff_exists]

theorem removeUserMemberships_ok {result : Unit}
    (done : removeUserMemberships host now db actor = .ok (after, result)) :
    (∀ org ∈ db.organizations.rows, soleOwner db org.id actor.id = false) ∧
      (roster after).organizations = (roster db).organizations ∧ (roster after).teams = (roster db).teams ∧
      (∀ row, row ∈ (roster after).members ↔ row ∈ (roster db).members ∧
        ¬ (row.userId = actor.id ∧ ∃ org ∈ db.organizations.rows, row.organizationId = org.id)) ∧
      (∀ row, row ∈ (roster after).teamMembers ↔ row ∈ (roster db).teamMembers ∧ row.userId ≠ actor.id) := by
  simp only [removeUserMemberships, Outcome.bind_eq_ok, Outcome.each_eq_ok, Outcome.ensure_eq_ok,
    Outcome.pure_eq_ok, Prod.mk.injEq] at done
  obtain ⟨_, transferred, rfl, _⟩ := done
  have rows := removeMemberships_rows now actor (organizationsOf db actor.id) db
  obtain ⟨members, events, frame, _⟩ := removeMemberships_frame now actor (organizationsOf db actor.id) db
  rw [frame] at rows ⊢
  refine ⟨?_, rfl, rfl, ?_, ?_⟩
  · intro org known
    cases joined : membership db org.id actor.id with
    | none => simp [soleOwner, joined]
    | some member => exact transferred org (organizationsOf_mem.mpr ⟨known, member, joined⟩)
  · intro row
    refine (rows row).trans (and_congr_right fun stored => not_congr (and_congr_right fun theirs => ?_))
    constructor
    · rintro ⟨org, listed, inOrg⟩
      exact ⟨org, (organizationsOf_mem.mp listed).1, inOrg⟩
    · rintro ⟨org, known, inOrg⟩
      exact ⟨org, organizationsOf_mem.mpr ⟨known, row, membership_mem.mpr ⟨stored, inOrg, theirs⟩⟩, inOrg⟩
  · intro row
    change row ∈ (db.teamMembers.delete (·.userId == actor.id)).rows ↔ row ∈ db.teamMembers.rows ∧ row.userId ≠ actor.id
    rw [Table.mem_delete, beq_eq_false_iff_ne]

theorem removeUserMemberships_frame {result : Unit}
    (done : removeUserMemberships host now db actor = .ok (after, result)) :
    ∃ organizationMembers teamMembers auditEvents, after = { db with organizationMembers, teamMembers, auditEvents } ∧
      organizationMembers.select (·.userId != actor.id) = db.organizationMembers.select (·.userId != actor.id) ∧
      teamMembers.select (·.userId != actor.id) = db.teamMembers.select (·.userId != actor.id) := by
  simp only [removeUserMemberships, Outcome.bind_eq_ok, Outcome.pure_eq_ok, Prod.mk.injEq] at done
  obtain ⟨_, _, rfl, _⟩ := done
  obtain ⟨members, events, frame, others⟩ := removeMemberships_frame now actor (organizationsOf db actor.id) db
  refine ⟨members, db.teamMembers.delete (·.userId == actor.id), events, ?_, others, ?_⟩
  · rw [frame]
  · apply Table.select_delete
    intro row _ elsewhere
    simpa using elsewhere

theorem inviteMember_ok {ttlHours : Option Nat} {token : String} {result : InviteResult}
    (done : inviteMember host now db actor slug username role ttlHours token = .ok (after, result)) :
    ∃ org member invitation, orgBySlug db slug = some org ∧ membership db org.id actor.id = some member ∧
      orgRank result.role ≤ orgRank member.role ∧ invitation.role = result.role ∧
      roster after = { roster db with invitations := (roster db).invitations ++ [invitation] } := by
  simp only [inviteMember, Outcome.bind_eq_ok, Outcome.ensure_eq_ok, Outcome.demand_eq_ok, actingMember_ok,
    canGrant_ok, asOrganizationError_ok, Db.insertRow_eq_ok, Table.insert_eq_some, Prod.exists,
    Outcome.pure_eq_ok, Prod.mk.injEq] at done
  obtain ⟨granted, _, org, member, ⟨found, acting⟩, _, ⟨rank, _⟩, _, _, _, _, checked, quota,
    invitation, _, ⟨_, made, grown, _⟩, rfl, rfl⟩ := done
  rw [← made] at grown
  refine ⟨org, member, invitation, found, acting, rank, by rw [made], ?_⟩
  obtain ⟨_, _, rfl⟩ := enforceCount_billingOnly quota
  simp only [roster, audit, Db.recordAudit, grown]

theorem acceptInvitation_ok {token : String} {result : String × OrgRole}
    (done : acceptInvitation host now db actor token = .ok (after, result)) :
    ∃ org ∈ db.organizations.rows, ∃ invitations, membership db org.id actor.id = none ∧
      roster after = { roster db with
        members := (roster db).members ++ [⟨db.organizationMembers.next, org.id, actor.id, result.2⟩]
        invitations } := by
  simp only [acceptInvitation, Outcome.bind_eq_ok, Outcome.ensure_eq_ok, Outcome.demand_eq_ok,
    asOrganizationError_ok, Db.insertRow_eq_ok, Table.insert_eq_some, Option.filter_eq_some_iff, Prod.exists,
    Outcome.pure_eq_ok, Prod.mk.injEq] at done
  obtain ⟨invitation, _, _, _, _, _, org, ⟨found, _⟩, _, fresh, checked, quota, row, memberRows,
    ⟨_, rfl, grown, _⟩, accepted, rfl⟩ := done
  refine ⟨org, (Table.byId_eq_some.mp found).1, (roster after).invitations, fresh, ?_⟩
  subst accepted
  obtain ⟨_, _, rfl⟩ := enforceCount_billingOnly quota
  simp only [roster, audit, Db.recordAudit, grown]

theorem updateOrganization_ok {displayName : Option String} {result : Unit}
    (done : updateOrganization host now db actor slug displayName = .ok (after, result)) :
    ∃ organizations, roster after = { roster db with organizations } ∧
      organizations.map Organization.id = (roster db).organizations.map Organization.id := by
  simp only [updateOrganization, Outcome.bind_eq_ok, Outcome.ensure_eq_ok, Prod.exists, Outcome.pure_eq_ok,
    Prod.mk.injEq] at done
  obtain ⟨org, member, _, _, _, _, _, rfl, _⟩ := done
  refine ⟨_, rfl, ?_⟩
  cases displayName with
  | none => rfl
  | some name =>
    change List.map Organization.id (List.map _ _) = _
    rw [List.map_map]
    refine List.map_congr_left fun row _ => ?_
    simp only [Function.comp_apply]
    split <;> rfl

theorem createTeam_ok {name : String} {team : Team}
    (done : createTeam host now db actor slug name = .ok (after, team)) :
    team.id = db.teams.next ∧ roster after = { roster db with teams := (roster db).teams ++ [team] } := by
  simp only [createTeam, Outcome.bind_eq_ok, Outcome.ensure_eq_ok, Db.insertRow_eq_ok, Table.insert_eq_some,
    Prod.exists, Outcome.pure_eq_ok, Prod.mk.injEq] at done
  obtain ⟨_, _, org, _, _, _, _, teams, ⟨_, rfl, grown, _⟩, rfl, rfl⟩ := done
  exact ⟨rfl, by simp only [roster, audit, Db.recordAudit, grown]⟩

theorem addTeamMember_ok {teamId : Nat} {row : TeamMember}
    (done : addTeamMember host now db actor slug teamId username = .ok (after, row)) :
    ∃ team member, team ∈ db.teams.rows ∧ team.id = row.teamId ∧
      membership db team.organizationId row.userId = some member ∧
      roster after = { roster db with teamMembers := (roster db).teamMembers ++ [row] } := by
  simp only [addTeamMember, teamAndTarget, Outcome.bind_eq_ok, Outcome.ensure_eq_ok, Outcome.demand_eq_ok,
    Db.insertRow_eq_ok, Table.insert_eq_some, Option.filter_eq_some_iff, Prod.exists, Outcome.pure_eq_ok,
    Prod.mk.injEq] at done
  obtain ⟨org, _, team, target, ⟨_, ⟨found, inOrg⟩, _, _, rfl, rfl⟩, _, joined, _, _, _, teamMembers,
    ⟨_, rfl, grown, _⟩, rfl, rfl⟩ := done
  obtain ⟨member, acting⟩ := Option.ne_none_iff_exists'.mp joined
  rw [← beq_iff_eq.mp inOrg] at acting
  exact ⟨_, member, (Table.byId_eq_some.mp found).1, rfl, acting,
    by simp only [roster, audit, Db.recordAudit, grown]⟩

theorem removeTeamMember_ok {teamId : Nat} {row : TeamMember}
    (done : removeTeamMember host now db actor slug teamId username = .ok (after, row)) :
    roster after = { roster db with
      teamMembers := (roster db).teamMembers.filter fun other => !(other.id == row.id) } := by
  simp only [removeTeamMember, Outcome.bind_eq_ok, Prod.exists, Outcome.pure_eq_ok, Prod.mk.injEq] at done
  obtain ⟨org, _, team, target, _, _, _, rfl, rfl⟩ := done
  rfl

theorem createServiceAccount_ok {name : String} {result : ServiceAccountResult}
    (done : createServiceAccount host now db actor slug name role = .ok (after, result)) :
    ∃ org member, orgBySlug db slug = some org ∧ membership db org.id actor.id = some member ∧
      canMaintain member = true ∧ result.role ≠ .owner ∧ role = result.role.name ∧
      roster after = { roster db with
        members := (roster db).members ++
          [⟨db.organizationMembers.next, org.id, db.users.next, result.role⟩] } := by
  simp only [createServiceAccount, parseRole, Outcome.bind_eq_ok, Outcome.ensure_eq_ok, Outcome.demand_eq_ok,
    actingMaintainer_ok, asOrganizationError_ok, Db.insertRow_eq_ok, Table.insert_eq_some, Prod.exists,
    Outcome.pure_eq_ok, Prod.mk.injEq] at done
  obtain ⟨_, _, granted, listed, org, ⟨member, found, acting, allowed⟩, _, _, checked, quota, _, _, _, users,
    ⟨_, rfl, _, _⟩, _, memberRows, ⟨_, rfl, grown, _⟩, _, accounts, ⟨_, rfl, _, _⟩, rfl, rfl⟩ := done
  have employable : granted ≠ .owner := by
    have inRoles := List.mem_of_find?_eq_some listed
    simpa [serviceAccountRoles] using (List.mem_filter.mp inRoles).2
  have named : granted.name = role := by simpa using List.find?_some listed
  refine ⟨org, member, found, acting, allowed, employable, named.symm, ?_⟩
  obtain ⟨_, _, rfl⟩ := enforceCount_billingOnly quota
  simp only [roster, audit, Db.recordAudit, grown]

theorem createServiceAccount_frame {name : String} {result : ServiceAccountResult}
    (done : createServiceAccount host now db actor slug name role = .ok (after, result)) :
    ∃ charged identity users organizationMembers serviceAccounts auditEvents, Billing.BillingOnly db charged ∧
      users.rows = charged.users.rows ++ [identity] ∧
      after = { charged with users, organizationMembers, serviceAccounts, auditEvents } := by
  simp only [createServiceAccount, Outcome.bind_eq_ok, asOrganizationError_ok, Db.insertRow_eq_ok, Table.insert_eq_some,
    Prod.exists, Outcome.pure_eq_ok, Prod.mk.injEq] at done
  obtain ⟨_, _, _, _, _, _, _, _, charged, quota, _, _, _, users, ⟨_, rfl, grown, _⟩, _, _, _, _, _, _, rfl, _⟩ := done
  exact ⟨charged, _, users, _, _, _, enforceCount_billingOnly quota, grown, rfl⟩

theorem deleteServiceAccount_ok {accountId : Nat} {result : String}
    (done : deleteServiceAccount host now db actor slug accountId = .ok (after, result)) :
    ∃ org account, orgBySlug db slug = some org ∧ db.serviceAccounts.byId accountId = some account ∧
      account.organizationId = org.id ∧
      roster after = { roster db with
        members := match membership db org.id account.userId with
          | some member => dismiss member.id (roster db).members
          | none => (roster db).members } := by
  simp only [deleteServiceAccount, serviceAccountOf, Outcome.bind_eq_ok, actingMaintainer_ok,
    Outcome.demand_eq_ok, Option.filter_eq_some_iff, Outcome.pure_eq_ok, Prod.mk.injEq] at done
  obtain ⟨org, ⟨_, found, _, _⟩, account, ⟨stored, inOrg⟩, rfl, _⟩ := done
  refine ⟨org, account, found, stored, beq_iff_eq.mp inOrg, ?_⟩
  cases membership db org.id account.userId with
  | none => rfl
  | some member => rfl

theorem createApiToken_roster {user : User} {raw : String} {request : Identity.TokenRequest} {row : ApiToken}
    (done : Identity.createApiToken host now db user raw request = .ok (after, row)) :
    roster after = roster db := by
  simp only [Identity.createApiToken, Outcome.bind_eq_ok, Prod.exists, Outcome.pure_eq_ok,
    Prod.mk.injEq] at done
  obtain ⟨_, _, _, _, _, _, _, _, _, _, _, _, _, _, _, _, _, apiTokens, _, rfl, _⟩ := done
  rfl

theorem issueServiceAccountToken_ok {accountId : Nat} {raw label : String} {scopes : List String}
    {expiresInDays : Option Int} {row : ApiToken}
    (done : issueServiceAccountToken host now db actor slug accountId raw label scopes expiresInDays =
      .ok (after, row)) : roster after = roster db := by
  simp only [issueServiceAccountToken, Outcome.bind_eq_ok, reraise_eq_ok, Prod.exists,
    Outcome.pure_eq_ok, Prod.mk.injEq] at done
  obtain ⟨org, _, _, _, _, _, _, _, issued, _, created, rfl, _⟩ := done
  rw [roster_audit]
  exact createApiToken_roster created

end Registry.Organizations
