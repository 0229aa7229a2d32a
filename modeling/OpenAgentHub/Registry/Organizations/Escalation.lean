import OpenAgentHub.Registry.Organizations.Requests

namespace Registry.Organizations

open Relational

def grantSlug : Operation → Option String
  | .addMember slug _ _ => some slug
  | .inviteMember slug _ _ _ _ => some slug
  | .changeMemberRole slug _ _ => some slug
  | .createServiceAccount slug _ _ => some slug
  | _ => none

def rolesGiven (before after : Roster) : List OrgRole :=
  (after.members.filter (· ∉ before.members)).map OrganizationMember.role ++
    (after.invitations.filter (· ∉ before.invitations)).map Invitation.role

def WithinRank (before after : Db) (actor : User) (slug : String) : Prop :=
  ∀ org acting, actingMember before actor slug = .ok (org, acting) →
    ∀ role ∈ rolesGiven (roster before) (roster after), orgRank role ≤ orgRank acting.role

def maintainerMakesAdministrator (db : Db) (request : Request) : Bool :=
  match request.operation with
  | .createServiceAccount slug _ role =>
    role == "administrator" &&
      (orgBySlug db slug).any fun org =>
        (membership db org.id request.actor.id).any fun acting => acting.role == .maintainer
  | _ => false

theorem mem_rolesGiven {before after : Roster} {role : OrgRole} :
    role ∈ rolesGiven before after ↔
      (∃ member ∈ after.members, member ∉ before.members ∧ member.role = role) ∨
        ∃ invitation ∈ after.invitations, invitation ∉ before.invitations ∧ invitation.role = role := by
  simp [rolesGiven, and_assoc]

theorem mem_assign {memberId : Nat} {role : OrgRole} {members : List OrganizationMember}
    {member : OrganizationMember} (present : member ∈ assign memberId role members) :
    member ∈ members ∨ member.role = role := by
  obtain ⟨old, stored, equal⟩ := List.mem_map.mp present
  split at equal
  · exact .inr (by rw [← equal])
  · exact .inl (equal ▸ stored)

theorem rolesGiven_enroll {db after : Db} {member : OrganizationMember}
    (fresh : member.id = db.organizationMembers.next)
    (enrolled : roster after = { roster db with members := (roster db).members ++ [member] }) (role : OrgRole) :
    role ∈ rolesGiven (roster db) (roster after) ↔ role = member.role := by
  have absent : member ∉ db.organizationMembers.rows := by
    intro stored
    have below := db.organizationMembers.ids_below member stored
    exact absurd (show member.id < _ from below) (by omega)
  rw [mem_rolesGiven, enrolled]
  constructor
  · rintro (⟨given, present, new, rfl⟩ | ⟨invitation, present, new, -⟩)
    · rcases List.mem_append.mp present with old | added
      · exact absurd old new
      · rw [List.mem_singleton.mp added]
    · exact absurd present new
  · rintro rfl
    exact .inl ⟨member, by simp, absent, rfl⟩

section Steps

variable {host : Host} {now : Time} {db after : Db} {actor : User} {slug username role : String}

theorem addMember_withinRank {result : MemberResult}
    (done : addMember host now db actor slug username role = .ok (after, result)) :
    WithinRank db after actor slug := by
  obtain ⟨org, member, target, found, acting, rank, _, equal⟩ := addMember_ok done
  intro org' acting' known given listed
  obtain ⟨found', joined⟩ := actingMember_ok.mp known
  obtain rfl := Option.some.inj (found.symm.trans found')
  obtain rfl := Option.some.inj (acting.symm.trans joined)
  obtain rfl := (rolesGiven_enroll rfl equal given).mp listed
  exact rank

theorem inviteMember_withinRank {ttlHours : Option Nat} {token : String} {result : InviteResult}
    (done : inviteMember host now db actor slug username role ttlHours token = .ok (after, result)) :
    WithinRank db after actor slug := by
  obtain ⟨org, member, invitation, found, acting, rank, invited, equal⟩ := inviteMember_ok done
  intro org' acting' known given listed
  obtain ⟨found', joined⟩ := actingMember_ok.mp known
  obtain rfl := Option.some.inj (found.symm.trans found')
  obtain rfl := Option.some.inj (acting.symm.trans joined)
  rw [mem_rolesGiven, equal] at listed
  rcases listed with ⟨_, present, new, -⟩ | ⟨_, present, new, rfl⟩
  · exact absurd present new
  · rcases List.mem_append.mp present with old | added
    · exact absurd old new
    · rw [List.mem_singleton.mp added, invited]
      exact rank

theorem changeMemberRole_withinRank {result : MemberResult}
    (done : changeMemberRole host now db actor slug username role = .ok (after, result)) :
    WithinRank db after actor slug := by
  obtain ⟨org, acting, target, found, member, _, _, _, changed⟩ := changeMemberRole_ok done
  intro org' acting' known given listed
  obtain ⟨found', joined⟩ := actingMember_ok.mp known
  obtain rfl := Option.some.inj (found.symm.trans found')
  obtain rfl := Option.some.inj (member.symm.trans joined)
  rw [mem_rolesGiven] at listed
  rcases changed with ⟨_, owns, equal⟩ | ⟨lower, allowed, equal⟩
  · -- an owner outranks every role
    have top : acting.role = .owner := by simpa [OrganizationMember.isOwner] using owns
    rw [top]
    cases given <;> decide
  · rw [equal] at listed
    rcases listed with ⟨row, present, new, rfl⟩ | ⟨_, present, new, -⟩
    · rcases mem_assign present with old | assigned
      · exact absurd old new
      · rw [assigned]
        have ranks : acting.role = .owner ∨ acting.role = .administrator := by
          simpa [canAdminister, OrganizationMember.isOwner] using allowed
        rcases ranks with top | top <;> rw [top] <;> revert lower <;> cases result.role <;> decide
    · exact absurd present new

theorem createServiceAccount_withinRank {name : String} {result : ServiceAccountResult}
    (done : createServiceAccount host now db actor slug name role = .ok (after, result)) :
    WithinRank db after actor slug ↔
      maintainerMakesAdministrator db ⟨actor, now, .createServiceAccount slug name role⟩ = false := by
  obtain ⟨org, member, found, acting, allowed, employable, named, equal⟩ := createServiceAccount_ok done
  have given := rolesGiven_enroll rfl equal
  have rank : WithinRank db after actor slug ↔ orgRank result.role ≤ orgRank member.role := by
    constructor
    · intro within
      exact within org member (actingMember_ok.mpr ⟨found, acting⟩) _ ((given _).mpr rfl)
    · intro below org' acting' known role' listed
      obtain ⟨found', joined⟩ := actingMember_ok.mp known
      obtain rfl := Option.some.inj (found.symm.trans found')
      obtain rfl := Option.some.inj (acting.symm.trans joined)
      rw [(given role').mp listed]
      exact below
  have condition : maintainerMakesAdministrator db ⟨actor, now, .createServiceAccount slug name role⟩ =
      (result.role.name == "administrator" && member.role == .maintainer) := by
    simp [maintainerMakesAdministrator, found, acting, named]
  rw [rank, condition]
  simp only [canMaintain, OrganizationMember.isOwner] at allowed
  revert allowed employable
  cases result.role <;> cases member.role <;> decide

end Steps

/-- A successful grant stays within the acting member's rank exactly when it is not a
    maintainer making an administrator out of a service account. -/
theorem grant_within_rank_iff (host : Host) (db after : Db) (request : Request) (slug : String)
    (grants : grantSlug request.operation = some slug) (done : handle host db request = .ok after) :
    WithinRank db after request.actor slug ↔ maintainerMakesAdministrator db request = false := by
  obtain ⟨actor, now, operation⟩ := request
  cases operation with
  | addMember slug' username role =>
    obtain rfl := Option.some.inj grants
    obtain ⟨_, added⟩ := Outcome.map_fst_ok.mp done
    exact iff_of_true (addMember_withinRank added) rfl
  | inviteMember slug' username role ttlHours token =>
    obtain rfl := Option.some.inj grants
    obtain ⟨_, invited⟩ := Outcome.map_fst_ok.mp done
    exact iff_of_true (inviteMember_withinRank invited) rfl
  | changeMemberRole slug' username role =>
    obtain rfl := Option.some.inj grants
    obtain ⟨_, changed⟩ := Outcome.map_fst_ok.mp done
    exact iff_of_true (changeMemberRole_withinRank changed) rfl
  | createServiceAccount slug' name role =>
    obtain rfl := Option.some.inj grants
    obtain ⟨_, created⟩ := Outcome.map_fst_ok.mp done
    exact createServiceAccount_withinRank created
  | _ => cases grants

def maintained : Db :=
  [⟨founder, 0, .createOrganization "acme" "Acme"⟩,
    ⟨founder, 1, .addMember "acme" "colleague" "maintainer"⟩].foldl (serve asciiHost) (emptyStore signedUp)

theorem grant_within_rank_maintainer :
    WithinRank maintained (serve asciiHost maintained ⟨colleague, 2, .createServiceAccount "acme" "bot" "read_only"⟩)
      colleague "acme" :=
  (grant_within_rank_iff asciiHost maintained _ ⟨colleague, 2, .createServiceAccount "acme" "bot" "read_only"⟩ "acme"
    rfl (handle_eq_serve (by decide +kernel))).mpr (by decide +kernel)

/-- A maintainer may create an identity that outranks them. -/
theorem maintainer_makes_administrator :
    ∃ db after, Runs.Reaches (Runs.steps (serve asciiHost)) (emptyStore signedUp) db ∧
      handle asciiHost db ⟨colleague, 2, .createServiceAccount "acme" "bot" "administrator"⟩ = .ok after ∧
      ¬ WithinRank db after colleague "acme" := by
  refine ⟨maintained, _, Runs.reaches_foldl _ _ _, handle_eq_serve (by decide +kernel), fun within => ?_⟩
  have below := within ⟨1, "acme", "Acme", .active⟩ ⟨2, 1, 2, .maintainer⟩ (by decide +kernel) .administrator
    (by decide +kernel)
  revert below
  decide

end Registry.Organizations
