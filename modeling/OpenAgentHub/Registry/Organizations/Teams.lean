import OpenAgentHub.Registry.Organizations.Requests
import OpenAgentHub.Registry.Packages.Access

namespace Registry.Organizations

open Relational Packages

def Enrolled (members : List OrganizationMember) (organizationId userId : Nat) : Prop :=
  ∃ member ∈ members, member.organizationId = organizationId ∧ member.userId = userId

def Contained (roster : Roster) : Prop :=
  ∀ row ∈ roster.teamMembers, ∃ team ∈ roster.teams,
    team.id = row.teamId ∧ Enrolled roster.members team.organizationId row.userId

instance (roster : Roster) : Decidable (Contained roster) := by
  unfold Contained Enrolled
  infer_instance

def onTeamOf (db : Db) (organizationId userId : Nat) : Bool :=
  db.teams.rows.any fun team =>
    team.organizationId == organizationId && (teamMembership db team.id userId).isSome

def strandsTeamMember (db : Db) (request : Request) : Bool :=
  match request.operation with
  | .removeMember slug username =>
    (orgBySlug db slug).any fun org => (userByName db username).any fun user => onTeamOf db org.id user.id
  | .leaveOrganization slug => (orgBySlug db slug).any fun org => onTeamOf db org.id request.actor.id
  | .deleteServiceAccount slug accountId =>
    (orgBySlug db slug).any fun org =>
      (db.serviceAccounts.byId accountId).any fun account =>
        account.organizationId == org.id && onTeamOf db org.id account.userId
  | _ => false

theorem Enrolled.append {members : List OrganizationMember} {organizationId userId : Nat}
    (enrolled : Enrolled members organizationId userId) (more : List OrganizationMember) :
    Enrolled (members ++ more) organizationId userId := by
  obtain ⟨member, stored, theirs⟩ := enrolled
  exact ⟨member, List.mem_append_left _ stored, theirs⟩

theorem Enrolled.assign {members : List OrganizationMember} {organizationId userId memberId : Nat} {role : OrgRole}
    (enrolled : Enrolled members organizationId userId) :
    Enrolled (assign memberId role members) organizationId userId := by
  obtain ⟨member, stored, inOrg, theirs⟩ := enrolled
  refine ⟨_, List.mem_map_of_mem stored, ?_⟩
  split
  · exact ⟨inOrg, theirs⟩
  · exact ⟨inOrg, theirs⟩

theorem Contained.members {before : Roster} {members : List OrganizationMember} (contained : Contained before)
    (kept : ∀ organizationId userId, Enrolled before.members organizationId userId →
      Enrolled members organizationId userId) : Contained { before with members } := by
  intro row present
  obtain ⟨team, known, same, enrolled⟩ := contained row present
  exact ⟨team, known, same, kept _ _ enrolled⟩

theorem teamMembership_mem {db : Db} {row : TeamMember} (stored : row ∈ db.teamMembers.rows) :
    (teamMembership db row.teamId row.userId).isSome = true := by
  cases found : teamMembership db row.teamId row.userId with
  | some _ => rfl
  | none =>
    have absent := Table.one_none.mp found row stored
    simp at absent

theorem Contained.dismiss {db : Db} {member : OrganizationMember} (contained : Contained (roster db))
    (stored : member ∈ db.organizationMembers.rows)
    (offTeams : onTeamOf db member.organizationId member.userId = false) :
    Contained { roster db with members := dismiss member.id (roster db).members } := by
  intro row present
  obtain ⟨team, known, same, other, inTable, inOrg, theirs⟩ := contained row present
  refine ⟨team, known, same, other, List.mem_filter.mpr ⟨inTable, ?_⟩, inOrg, theirs⟩
  by_contra dropped
  have sameRow : other.id = member.id := by simpa using dropped
  obtain rfl := Table.eq_of_id inTable stored sameRow
  have onTeam : onTeamOf db other.organizationId other.userId = true := by
    refine List.any_eq_true.mpr ⟨team, known, ?_⟩
    rw [same, theirs, teamMembership_mem present]
    simp [inOrg]
  rw [onTeam] at offTeams
  cases offTeams

theorem removeUserMemberships_contained {host : Host} {now : Time} {db after : Db} {actor : User} {result : Unit}
    (contained : Contained (roster db))
    (done : removeUserMemberships host now db actor = .ok (after, result)) : Contained (roster after) := by
  obtain ⟨_, _, teams, rows, teamRows⟩ := removeUserMemberships_ok done
  intro row present
  obtain ⟨old, notTheirs⟩ := (teamRows row).mp present
  obtain ⟨team, known, same, member, inTable, inOrg, theirs⟩ := contained row old
  rw [teams]
  refine ⟨team, known, same, member, (rows member).mpr ⟨inTable, fun both => ?_⟩, inOrg, theirs⟩
  exact notTheirs (theirs.symm.trans both.1)

theorem handle_contained {host : Host} {db after : Db} {request : Request} (contained : Contained (roster db))
    (spared : strandsTeamMember db request = false) (done : handle host db request = .ok after) :
    Contained (roster after) := by
  obtain ⟨actor, now, operation⟩ := request
  cases operation with
  | createOrganization slug name =>
    obtain ⟨_, created⟩ := Outcome.map_fst_ok.mp done
    rw [(createOrganization_ok created).2]
    exact contained.members fun _ _ enrolled => enrolled.append _
  | updateOrganization slug name =>
    obtain ⟨_, updated⟩ := Outcome.map_fst_ok.mp done
    obtain ⟨_, equal, _⟩ := updateOrganization_ok updated
    rw [equal]
    exact contained
  | addMember slug username role =>
    obtain ⟨_, added⟩ := Outcome.map_fst_ok.mp done
    obtain ⟨_, _, _, _, _, _, _, equal⟩ := addMember_ok added
    rw [equal]
    exact contained.members fun _ _ enrolled => enrolled.append _
  | changeMemberRole slug username role =>
    obtain ⟨_, changed⟩ := Outcome.map_fst_ok.mp done
    obtain ⟨_, _, _, _, _, _, _, _, assigned⟩ := changeMemberRole_ok changed
    rcases assigned with ⟨_, _, equal⟩ | ⟨_, _, equal⟩
    · rw [equal]
      exact contained.members fun _ _ enrolled => enrolled.assign.assign
    · rw [equal]
      exact contained.members fun _ _ enrolled => enrolled.assign
  | removeMember slug username =>
    obtain ⟨_, removed⟩ := Outcome.map_fst_ok.mp done
    obtain ⟨org, target, found, stored, inOrg, _, ⟨user, named, theirs⟩, equal⟩ := removeMember_ok removed
    rw [equal]
    refine contained.dismiss stored ?_
    simpa [strandsTeamMember, found, named, inOrg, theirs] using spared
  | leaveOrganization slug =>
    obtain ⟨_, left⟩ := Outcome.map_fst_ok.mp done
    obtain ⟨org, member, found, joined, _, equal⟩ := leaveOrganization_ok left
    obtain ⟨stored, inOrg, theirs⟩ := membership_mem.mp joined
    rw [equal]
    refine contained.dismiss stored ?_
    simpa [strandsTeamMember, found, inOrg, theirs] using spared
  | removeUserMemberships =>
    obtain ⟨_, removed⟩ := Outcome.map_fst_ok.mp done
    exact removeUserMemberships_contained contained removed
  | inviteMember slug username role ttlHours token =>
    obtain ⟨_, invited⟩ := Outcome.map_fst_ok.mp done
    obtain ⟨_, _, _, _, _, _, _, equal⟩ := inviteMember_ok invited
    rw [equal]
    exact contained
  | acceptInvitation token =>
    obtain ⟨_, accepted⟩ := Outcome.map_fst_ok.mp done
    obtain ⟨_, _, _, _, equal⟩ := acceptInvitation_ok accepted
    rw [equal]
    exact contained.members fun _ _ enrolled => enrolled.append _
  | createTeam slug name =>
    obtain ⟨_, created⟩ := Outcome.map_fst_ok.mp done
    rw [(createTeam_ok created).2]
    intro row present
    obtain ⟨team, known, rest⟩ := contained row present
    exact ⟨team, List.mem_append_left _ known, rest⟩
  | addTeamMember slug teamId username =>
    obtain ⟨added, joined⟩ := Outcome.map_fst_ok.mp done
    obtain ⟨team, member, known, same, enrolled, equal⟩ := addTeamMember_ok joined
    rw [equal]
    intro row present
    rcases List.mem_append.mp present with old | new
    · exact contained row old
    · rw [List.mem_singleton.mp new]
      exact ⟨team, known, same, member, membership_mem.mp enrolled⟩
  | removeTeamMember slug teamId username =>
    obtain ⟨_, removed⟩ := Outcome.map_fst_ok.mp done
    rw [removeTeamMember_ok removed]
    exact fun row present => contained row (List.mem_of_mem_filter present)
  | createServiceAccount slug name role =>
    obtain ⟨_, created⟩ := Outcome.map_fst_ok.mp done
    obtain ⟨_, _, _, _, _, _, _, equal⟩ := createServiceAccount_ok created
    rw [equal]
    exact contained.members fun _ _ enrolled => enrolled.append _
  | deleteServiceAccount slug accountId =>
    obtain ⟨_, deleted⟩ := Outcome.map_fst_ok.mp done
    obtain ⟨org, account, found, stored, inOrg, equal⟩ := deleteServiceAccount_ok deleted
    rw [equal]
    cases joined : membership db org.id account.userId with
    | none => exact contained
    | some member =>
      obtain ⟨memberStored, memberOrg, theirs⟩ := membership_mem.mp joined
      refine contained.dismiss memberStored ?_
      simpa [strandsTeamMember, found, stored, inOrg, memberOrg, theirs] using spared
  | issueServiceAccountToken slug accountId raw label scopes expiresInDays =>
    obtain ⟨_, issued⟩ := Outcome.map_fst_ok.mp done
    rw [issueServiceAccountToken_ok issued]
    exact contained

/-- Besides owners, reviewers and users with a grant of their own, a private package is seen
    only by current members of an organization one of whose teams has a grant. -/
def TeamViewersEnrolled (db : Db) : Prop :=
  ∀ agent subject, agent.visibility = .private → canView db agent (some subject) = true →
    agent.ownerId = subject.user.id ∨ privileged subject.user = true ∨
      (userGrant db agent subject.user.id).isSome = true ∨
      ∃ team ∈ db.teams.rows, (teamGrant db agent team.id).isSome = true ∧
        Enrolled db.organizationMembers.rows team.organizationId subject.user.id

theorem Contained.viewers {db : Db} (contained : Contained (roster db)) : TeamViewersEnrolled db := by
  intro agent subject hidden seen
  simp only [canView, hidden, reduceCtorEq, if_false] at seen
  split at seen
  · cases seen
  split at seen
  · cases seen
  split at seen
  · exact .inl ‹_›
  split at seen
  · exact .inr (.inl ‹_›)
  rcases Bool.or_eq_true_iff.mp seen with direct | viaTeam
  · exact .inr (.inr (.inl direct))
  · obtain ⟨teamId, listed, granted⟩ := List.any_eq_true.mp viaTeam
    obtain ⟨row, selected, rfl⟩ := List.mem_map.mp listed
    obtain ⟨stored, theirs⟩ := Table.mem_select.mp selected
    obtain ⟨team, known, same, enrolled⟩ := contained row stored
    rw [beq_iff_eq.mp theirs] at enrolled
    exact .inr (.inr (.inr ⟨team, known, by rw [same]; exact granted, enrolled⟩))

/-- In every run in which no departing member is still on a team, team members belong to the
    team's organization, whatever packages and grants there are. -/
theorem team_members_stay_members (host : Host) (users : Table User) (db : Db)
    (reached : Runs.Reaches (Runs.guarded (serve host) fun db request => strandsTeamMember db request = false)
      (emptyStore users) db) :
    Contained (roster db) ∧ ∀ agents agentGrants, TeamViewersEnrolled { db with agents, agentGrants } := by
  have contained : Contained (roster db) := by
    refine reached.invariant (fun db => Contained (roster db)) ?_ ?_
    · intro row present
      cases present
    · rintro before request _ - contained ⟨spared, rfl⟩
      exact serve_keeps (fun db => Contained (roster db)) contained fun after done =>
        handle_contained contained spared done
  exact ⟨contained, fun agents agentGrants =>
    Contained.viewers (show Contained (roster { db with agents, agentGrants }) from contained)⟩

theorem team_members_stay_members_leave :
    Contained (roster ([⟨founder, 0, .createOrganization "acme" "Acme"⟩,
      ⟨founder, 1, .addMember "acme" "colleague" "maintainer"⟩,
      ⟨founder, 2, .createTeam "acme" "core"⟩,
      ⟨founder, 3, .addTeamMember "acme" 1 "founder"⟩,
      ⟨colleague, 4, .leaveOrganization "acme"⟩].foldl (serve asciiHost) (emptyStore signedUp))) := by
  refine (team_members_stay_members asciiHost signedUp _ (Runs.reaches_guarded ?_)).1
  exact ⟨by decide +kernel, by decide +kernel, by decide +kernel, by decide +kernel, by decide +kernel, trivial⟩

/-- A member who leaves stays on the team, and sees what the team is granted. -/
theorem departed_member_stays_on_team :
    ∃ db, Runs.Reaches (Runs.steps (serve asciiHost)) (emptyStore signedUp) db ∧ ¬ Contained (roster db) ∧
      ∃ agentGrants agent, agent.visibility = .private ∧
        membership db 1 colleague.id = none ∧
        canView { db with agentGrants } agent (some ⟨colleague, none⟩) = true := by
  refine ⟨_, Runs.reaches_foldl (serve asciiHost)
    [⟨founder, 0, .createOrganization "acme" "Acme"⟩,
      ⟨founder, 1, .addMember "acme" "colleague" "maintainer"⟩,
      ⟨founder, 2, .createTeam "acme" "core"⟩,
      ⟨founder, 3, .addTeamMember "acme" 1 "colleague"⟩,
      ⟨colleague, 4, .leaveOrganization "acme"⟩] (emptyStore signedUp), by decide +kernel, ?_⟩
  refine ⟨⟨[{ id := 1, agentId := 1, teamId := some 1, grantedById := 1 }], 2, by decide, by decide⟩,
    { id := 1, namespaceName := "acme", name := "tool", ownerId := 1, visibility := .private, author := "founder" },
    rfl, by decide +kernel, by decide +kernel⟩

end Registry.Organizations
