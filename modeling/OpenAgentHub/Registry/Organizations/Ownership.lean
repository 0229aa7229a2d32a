import OpenAgentHub.Registry.Organizations.Requests

namespace Registry.Organizations

open Relational

def HasOwner (members : List OrganizationMember) (organizationId : Nat) : Prop :=
  ∃ member ∈ members, member.organizationId = organizationId ∧ member.role = .owner

def Owned (roster : Roster) : Prop :=
  ∀ org ∈ roster.organizations, HasOwner roster.members org.id

instance (roster : Roster) : Decidable (Owned roster) := by
  unfold Owned HasOwner
  infer_instance

theorem HasOwner.append {members : List OrganizationMember} {organizationId : Nat}
    (owned : HasOwner members organizationId) (more : List OrganizationMember) :
    HasOwner (members ++ more) organizationId := by
  obtain ⟨member, stored, owns⟩ := owned
  exact ⟨member, List.mem_append_left _ stored, owns⟩

theorem HasOwner.assign {members : List OrganizationMember} {organizationId memberId : Nat} {role : OrgRole}
    (owned : ∃ member ∈ members, member.organizationId = organizationId ∧ member.role = .owner ∧
      member.id ≠ memberId) : HasOwner (assign memberId role members) organizationId := by
  obtain ⟨member, stored, inOrg, owns, other⟩ := owned
  refine ⟨member, List.mem_map.mpr ⟨member, stored, ?_⟩, inOrg, owns⟩
  simp [other]

theorem HasOwner.dismiss {members : List OrganizationMember} {organizationId memberId : Nat}
    (owned : ∃ member ∈ members, member.organizationId = organizationId ∧ member.role = .owner ∧
      member.id ≠ memberId) : HasOwner (dismiss memberId members) organizationId := by
  obtain ⟨member, stored, inOrg, owns, other⟩ := owned
  exact ⟨member, List.mem_filter.mpr ⟨stored, by simp [other]⟩, inOrg, owns⟩

theorem other_owner {db : Db} {organizationId userId : Nat} {member : OrganizationMember}
    (stored : membership db organizationId userId = some member)
    (shared : soleOwner db organizationId userId = false)
    (owned : HasOwner db.organizationMembers.rows organizationId) :
    ∃ other ∈ db.organizationMembers.rows, other.organizationId = organizationId ∧ other.role = .owner ∧
      other.id ≠ member.id := by
  by_cases owns : member.isOwner = true
  · have several : ¬ (owners db organizationId).length ≤ 1 := by
      simpa [soleOwner, stored, owns] using shared
    have listed : ∀ other ∈ owners db organizationId, other ∈ db.organizationMembers.rows ∧
        other.organizationId = organizationId ∧ other.role = .owner := by
      intro other present
      simpa [owners, members, OrganizationMember.isOwner, and_assoc] using present
    have distinct : (owners db organizationId).Pairwise Apart :=
      (db.organizationMembers.distinct.filter _).filter _
    rcases found : owners db organizationId with _ | ⟨first, _ | ⟨second, rest⟩⟩
    · simp [found] at several
    · simp [found] at several
    · rw [found] at listed distinct
      have apart : first.id ≠ second.id :=
        ((List.pairwise_cons.mp distinct).1 second (by simp)).1
      by_cases same : first.id = member.id
      · obtain ⟨inTable, inOrg, role⟩ := listed second (by simp)
        exact ⟨second, inTable, inOrg, role, fun equal => apart (same.trans equal.symm)⟩
      · obtain ⟨inTable, inOrg, role⟩ := listed first (by simp)
        exact ⟨first, inTable, inOrg, role, same⟩
  · obtain ⟨other, inTable, inOrg, role⟩ := owned
    refine ⟨other, inTable, inOrg, role, fun equal => owns ?_⟩
    obtain ⟨present, _, _⟩ := membership_mem.mp stored
    rw [← Table.eq_of_id inTable present equal]
    simp [OrganizationMember.isOwner, role]

theorem apart_from {db : Db} {organizationId : Nat} {target : OrganizationMember}
    (stored : target ∈ db.organizationMembers.rows)
    (spared : target.organizationId ≠ organizationId ∨ target.isOwner = false)
    (owned : HasOwner db.organizationMembers.rows organizationId) :
    ∃ other ∈ db.organizationMembers.rows, other.organizationId = organizationId ∧ other.role = .owner ∧
      other.id ≠ target.id := by
  obtain ⟨other, inTable, inOrg, role⟩ := owned
  refine ⟨other, inTable, inOrg, role, fun equal => ?_⟩
  have same := Table.eq_of_id inTable stored equal
  subst same
  rcases spared with elsewhere | ordinary
  · exact elsewhere inOrg
  · simp [OrganizationMember.isOwner, role] at ordinary

/-- A request that deletes a service account whose membership is the only ownership. -/
def dismissesSoleOwner (db : Db) (request : Request) : Bool :=
  match request.operation with
  | .deleteServiceAccount slug accountId =>
    (orgBySlug db slug).any fun org =>
      (db.serviceAccounts.byId accountId).any fun account =>
        account.organizationId == org.id && soleOwner db org.id account.userId
  | _ => false

section Steps

variable {host : Host} {now : Time} {db after : Db} {actor : User} {slug username role : String}

theorem changeMemberRole_owned {result : MemberResult} (owned : Owned (roster db))
    (done : changeMemberRole host now db actor slug username role = .ok (after, result)) :
    Owned (roster after) := by
  obtain ⟨org, acting, target, _, member, stored, inOrg, ordinary, changed⟩ := changeMemberRole_ok done
  obtain ⟨actingStored, actingOrg, _⟩ := membership_mem.mp member
  rcases changed with ⟨_, owns, equal⟩ | ⟨_, _, equal⟩
  · rw [equal]
    intro other known
    -- the target's row differs from the actor's, which is the one that gives ownership up
    have different : target.id ≠ acting.id := by
      intro same
      rw [Table.eq_of_id stored actingStored same, owns] at ordinary
      cases ordinary
    by_cases here : other.id = org.id
    · refine HasOwner.assign ⟨{ target with role := .owner }, ?_, inOrg.trans here.symm, rfl, different⟩
      exact List.mem_map.mpr ⟨target, stored, by simp⟩
    · obtain ⟨kept, inTable, keptOrg, role, apart⟩ :=
        apart_from actingStored (.inl fun same => here (same.symm.trans actingOrg)) (owned other known)
      have untouched : kept.id ≠ target.id := by
        intro same
        rw [Table.eq_of_id inTable stored same] at keptOrg
        exact here (keptOrg.symm.trans inOrg)
      refine HasOwner.assign ⟨kept, ?_, keptOrg, role, apart⟩
      exact List.mem_map.mpr ⟨kept, inTable, by simp [untouched]⟩
  · rw [equal]
    intro other known
    exact HasOwner.assign (apart_from stored (.inr ordinary) (owned other known))

theorem removeMember_owned {result : String × String} (owned : Owned (roster db))
    (done : removeMember host now db actor slug username = .ok (after, result)) : Owned (roster after) := by
  obtain ⟨org, target, _, stored, _, ordinary, _, equal⟩ := removeMember_ok done
  rw [equal]
  intro other known
  exact HasOwner.dismiss (apart_from stored (.inr ordinary) (owned other known))

theorem dismiss_owned {organizationId userId : Nat} {member : OrganizationMember} (owned : Owned (roster db))
    (stored : membership db organizationId userId = some member)
    (shared : soleOwner db organizationId userId = false) :
    Owned { roster db with members := dismiss member.id (roster db).members } := by
  obtain ⟨inTable, inOrg, _⟩ := membership_mem.mp stored
  intro other known
  by_cases here : other.id = organizationId
  · refine HasOwner.dismiss ?_
    rw [here]
    exact other_owner stored shared (here ▸ owned other known)
  · exact HasOwner.dismiss
      (apart_from inTable (.inl fun same => here (same.symm.trans inOrg)) (owned other known))

theorem removeUserMemberships_owned {result : Unit} (owned : Owned (roster db))
    (done : removeUserMemberships host now db actor = .ok (after, result)) : Owned (roster after) := by
  obtain ⟨shared, organizations, _, rows, _⟩ := removeUserMemberships_ok done
  intro org known
  rw [organizations] at known
  suffices kept : ∃ other ∈ (roster db).members, other.organizationId = org.id ∧ other.role = .owner ∧
      other.userId ≠ actor.id by
    obtain ⟨other, inTable, inOrg, role, notTheirs⟩ := kept
    exact ⟨other, (rows other).mpr ⟨inTable, fun both => notTheirs both.1⟩, inOrg, role⟩
  cases joined : membership db org.id actor.id with
  | none =>
    obtain ⟨other, inTable, inOrg, role⟩ := owned org known
    exact ⟨other, inTable, inOrg, role, membership_none.mp joined other inTable inOrg⟩
  | some member =>
    obtain ⟨other, inTable, inOrg, role, apart⟩ := other_owner joined (shared org known) (owned org known)
    refine ⟨other, inTable, inOrg, role, fun theirs => apart ?_⟩
    rw [membership_mem.mpr ⟨inTable, inOrg, theirs⟩] at joined
    rw [Option.some.inj joined]

theorem deleteServiceAccount_owned {accountId : Nat} {result : String} (owned : Owned (roster db))
    (spared : dismissesSoleOwner db ⟨actor, now, .deleteServiceAccount slug accountId⟩ = false)
    (done : deleteServiceAccount host now db actor slug accountId = .ok (after, result)) :
    Owned (roster after) := by
  obtain ⟨org, account, found, stored, inOrg, equal⟩ := deleteServiceAccount_ok done
  have shared : soleOwner db org.id account.userId = false := by
    simpa [dismissesSoleOwner, found, stored, inOrg] using spared
  rw [equal]
  cases joined : membership db org.id account.userId with
  | none => exact owned
  | some member => exact dismiss_owned owned joined shared

end Steps

theorem handle_owned {host : Host} {db after : Db} {request : Request} (owned : Owned (roster db))
    (spared : dismissesSoleOwner db request = false) (done : handle host db request = .ok after) :
    Owned (roster after) := by
  obtain ⟨actor, now, operation⟩ := request
  cases operation with
  | createOrganization slug name =>
    obtain ⟨org, created⟩ := Outcome.map_fst_ok.mp done
    obtain ⟨_, equal⟩ := createOrganization_ok created
    rw [equal]
    intro other known
    rcases List.mem_append.mp known with old | new
    · exact (owned other old).append _
    · rw [List.mem_singleton.mp new]
      exact ⟨_, List.mem_append_right _ (List.mem_singleton_self _), rfl, rfl⟩
  | updateOrganization slug name =>
    obtain ⟨_, updated⟩ := Outcome.map_fst_ok.mp done
    obtain ⟨organizations, equal, ids⟩ := updateOrganization_ok updated
    rw [equal]
    intro other known
    have listed : other.id ∈ (roster db).organizations.map Organization.id := by
      rw [← ids]
      exact List.mem_map_of_mem known
    obtain ⟨old, present, same⟩ := List.mem_map.mp listed
    rw [← same]
    exact owned old present
  | addMember slug username role =>
    obtain ⟨_, added⟩ := Outcome.map_fst_ok.mp done
    obtain ⟨_, _, _, _, _, _, _, equal⟩ := addMember_ok added
    rw [equal]
    exact fun org known => (owned org known).append _
  | changeMemberRole slug username role =>
    obtain ⟨_, changed⟩ := Outcome.map_fst_ok.mp done
    exact changeMemberRole_owned owned changed
  | removeMember slug username =>
    obtain ⟨_, removed⟩ := Outcome.map_fst_ok.mp done
    exact removeMember_owned owned removed
  | leaveOrganization slug =>
    obtain ⟨_, left⟩ := Outcome.map_fst_ok.mp done
    obtain ⟨org, member, _, stored, shared, equal⟩ := leaveOrganization_ok left
    rw [equal]
    exact dismiss_owned owned stored shared
  | removeUserMemberships =>
    obtain ⟨_, removed⟩ := Outcome.map_fst_ok.mp done
    exact removeUserMemberships_owned owned removed
  | inviteMember slug username role ttlHours token =>
    obtain ⟨_, invited⟩ := Outcome.map_fst_ok.mp done
    obtain ⟨_, _, _, _, _, _, _, equal⟩ := inviteMember_ok invited
    rw [equal]
    exact owned
  | acceptInvitation token =>
    obtain ⟨_, accepted⟩ := Outcome.map_fst_ok.mp done
    obtain ⟨_, _, _, _, equal⟩ := acceptInvitation_ok accepted
    rw [equal]
    exact fun org known => (owned org known).append _
  | createTeam slug name =>
    obtain ⟨_, created⟩ := Outcome.map_fst_ok.mp done
    rw [(createTeam_ok created).2]
    exact owned
  | addTeamMember slug teamId username =>
    obtain ⟨_, added⟩ := Outcome.map_fst_ok.mp done
    obtain ⟨_, _, _, _, _, equal⟩ := addTeamMember_ok added
    rw [equal]
    exact owned
  | removeTeamMember slug teamId username =>
    obtain ⟨_, removed⟩ := Outcome.map_fst_ok.mp done
    rw [removeTeamMember_ok removed]
    exact owned
  | createServiceAccount slug name role =>
    obtain ⟨_, created⟩ := Outcome.map_fst_ok.mp done
    obtain ⟨_, _, _, _, _, _, _, equal⟩ := createServiceAccount_ok created
    rw [equal]
    exact fun org known => (owned org known).append _
  | deleteServiceAccount slug accountId =>
    obtain ⟨_, deleted⟩ := Outcome.map_fst_ok.mp done
    exact deleteServiceAccount_owned owned spared deleted
  | issueServiceAccountToken slug accountId raw label scopes expiresInDays =>
    obtain ⟨_, issued⟩ := Outcome.map_fst_ok.mp done
    rw [issueServiceAccountToken_ok issued]
    exact owned

/-- In every run that never deletes the service account of a sole owner, every
    organization has an owner in every state. -/
theorem organizations_stay_owned (host : Host) (users : Table User) (db : Db)
    (reached : Runs.Reaches (Runs.guarded (serve host) fun db request => dismissesSoleOwner db request = false)
      (emptyStore users) db) : Owned (roster db) := by
  refine reached.invariant (fun db => Owned (roster db)) ?_ ?_
  · intro org known
    cases known
  · rintro before request _ - owned ⟨spared, rfl⟩
    exact serve_keeps (fun db => Owned (roster db)) owned fun after done => handle_owned owned spared done

theorem organizations_stay_owned_founder :
    Owned (roster ([⟨founder, 0, .createOrganization "acme" "Acme"⟩,
        ⟨founder, 1, .createServiceAccount "acme" "bot" "maintainer"⟩,
        ⟨founder, 2, .deleteServiceAccount "acme" 1⟩].foldl (serve asciiHost) (emptyStore signedUp))) :=
  organizations_stay_owned asciiHost signedUp _
    (Runs.reaches_guarded ⟨by decide +kernel, by decide +kernel, by decide +kernel, trivial⟩)

/-- Ownership handed to a service account goes with it. -/
theorem deleted_service_account_was_sole_owner :
    ∃ db, Runs.Reaches (Runs.steps (serve asciiHost)) (emptyStore signedUp) db ∧ ¬ Owned (roster db) :=
  ⟨_, Runs.reaches_foldl (serve asciiHost)
    [⟨founder, 0, .createOrganization "acme" "Acme"⟩,
      ⟨founder, 1, .createServiceAccount "acme" "bot" "maintainer"⟩,
      ⟨founder, 2, .changeMemberRole "acme" "svc-acme-bot" "owner"⟩,
      ⟨founder, 3, .deleteServiceAccount "acme" 1⟩] (emptyStore signedUp), by decide +kernel⟩

end Registry.Organizations
