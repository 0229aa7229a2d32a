import OpenAgentHub.Registry.Audit.Trail

namespace Registry.Audit

open Relational

section Organizations

open Organizations

variable {host : Host} {now : Time} {db after : Db} {actor : User} {slug username role : String}

theorem asOrganizationError_grows {dimension : Dimension} {count : Db → Nat → Nat} {organizationId : Nat}
    (done : asOrganizationError (Quotas.enforceCount dimension count host.settings now db organizationId) = .ok after) :
    Grows db after :=
  .of_billingOnly (Quotas.enforceCount_billingOnly (asOrganizationError_ok.mp done))

theorem createOrganization_appended {displayName : String} {org : Organization}
    (done : createOrganization host now db actor slug displayName = .ok (after, org)) : Appended db after := by
  simp only [createOrganization, Outcome.bind_eq_ok, Prod.exists, Outcome.pure_eq_ok, Prod.mk.injEq] at done
  obtain ⟨_, _, _, _, _, _, _, organizations, _, _, members, _, ensured, _, subscribed, rfl, _⟩ := done
  have grows : Grows { db with organizations, organizationMembers := members } ensured :=
    .of_billingOnly (Billing.ensureSubscription_billingOnly subscribed)
  exact Grows.recordAudit grows

theorem updateOrganization_appended {displayName : Option String} {result : Unit}
    (done : updateOrganization host now db actor slug displayName = .ok (after, result)) : Appended db after := by
  simp only [updateOrganization, Outcome.bind_eq_ok, Prod.exists, Outcome.pure_eq_ok, Prod.mk.injEq] at done
  obtain ⟨_, _, _, _, _, _, _, rfl, _⟩ := done
  exact Grows.recordAudit (.refl db)

theorem addMember_appended {result : MemberResult}
    (done : addMember host now db actor slug username role = .ok (after, result)) : Appended db after := by
  simp only [addMember, Outcome.bind_eq_ok, Prod.exists, Outcome.pure_eq_ok, Prod.mk.injEq] at done
  obtain ⟨_, _, _, _, _, _, _, _, _, _, _, _, quota, _, _, _, rfl, _⟩ := done
  exact (asOrganizationError_grows quota).recordAudit

theorem changeMemberRole_appended {result : MemberResult}
    (done : changeMemberRole host now db actor slug username role = .ok (after, result)) : Appended db after := by
  simp only [changeMemberRole, Outcome.bind_eq_ok, Prod.exists, Outcome.pure_eq_ok, Prod.mk.injEq] at done
  obtain ⟨_, _, _, _, _, _, _, _, _, _, _, assigned, reassigned, rfl, _⟩ := done
  have grows : Grows db assigned := by
    unfold reassign at reassigned
    split at reassigned
    · simp only [Outcome.bind_eq_ok, Outcome.pure_eq_ok] at reassigned
      obtain ⟨_, _, rfl⟩ := reassigned
      exact .refl db
    · simp only [Outcome.bind_eq_ok, Outcome.pure_eq_ok] at reassigned
      obtain ⟨_, _, rfl⟩ := reassigned
      exact .refl db
  exact grows.recordAudit

theorem removeMember_appended {result : String × String}
    (done : removeMember host now db actor slug username = .ok (after, result)) : Appended db after := by
  simp only [removeMember, Outcome.bind_eq_ok, Prod.exists, Outcome.pure_eq_ok, Prod.mk.injEq] at done
  obtain ⟨_, _, _, _, _, _, _, _, _, _, _, rfl, _⟩ := done
  exact Grows.recordAudit (.refl db)

theorem leaveOrganization_appended {result : String}
    (done : leaveOrganization host now db actor slug = .ok (after, result)) : Appended db after := by
  simp only [leaveOrganization, Outcome.bind_eq_ok, Prod.exists, Outcome.pure_eq_ok, Prod.mk.injEq] at done
  obtain ⟨_, _, _, _, _, rfl, _⟩ := done
  exact Grows.recordAudit (.refl db)

theorem inviteMember_appended {ttlHours : Option Nat} {token : String} {result : InviteResult}
    (done : inviteMember host now db actor slug username role ttlHours token = .ok (after, result)) :
    Appended db after := by
  simp only [inviteMember, Outcome.bind_eq_ok, Prod.exists, Outcome.pure_eq_ok, Prod.mk.injEq] at done
  obtain ⟨_, _, _, _, _, _, _, _, _, _, _, _, quota, _, _, _, rfl, _⟩ := done
  exact (asOrganizationError_grows quota).recordAudit

theorem acceptInvitation_appended {token : String} {result : String × OrgRole}
    (done : acceptInvitation host now db actor token = .ok (after, result)) : Appended db after := by
  simp only [acceptInvitation, Outcome.bind_eq_ok, Prod.exists, Outcome.pure_eq_ok, Prod.mk.injEq] at done
  obtain ⟨_, _, _, _, _, _, _, _, _, _, _, quota, _, _, _, rfl, _⟩ := done
  exact (asOrganizationError_grows quota).recordAudit

theorem createTeam_appended {name : String} {team : Team}
    (done : createTeam host now db actor slug name = .ok (after, team)) : Appended db after := by
  simp only [createTeam, Outcome.bind_eq_ok, Prod.exists, Outcome.pure_eq_ok, Prod.mk.injEq] at done
  obtain ⟨_, _, _, _, _, _, _, _, _, rfl, _⟩ := done
  exact Grows.recordAudit (.refl db)

theorem addTeamMember_appended {teamId : Nat} {row : TeamMember}
    (done : addTeamMember host now db actor slug teamId username = .ok (after, row)) : Appended db after := by
  simp only [addTeamMember, Outcome.bind_eq_ok, Prod.exists, Outcome.pure_eq_ok, Prod.mk.injEq] at done
  obtain ⟨_, _, _, _, _, _, _, _, _, _, _, _, rfl, _⟩ := done
  exact Grows.recordAudit (.refl db)

theorem removeTeamMember_appended {teamId : Nat} {row : TeamMember}
    (done : removeTeamMember host now db actor slug teamId username = .ok (after, row)) : Appended db after := by
  simp only [removeTeamMember, Outcome.bind_eq_ok, Prod.exists, Outcome.pure_eq_ok, Prod.mk.injEq] at done
  obtain ⟨_, _, _, _, _, _, _, rfl, _⟩ := done
  exact Grows.recordAudit (.refl db)

theorem createServiceAccount_appended {name : String} {result : ServiceAccountResult}
    (done : createServiceAccount host now db actor slug name role = .ok (after, result)) : Appended db after := by
  simp only [createServiceAccount, Outcome.bind_eq_ok, Prod.exists, Outcome.pure_eq_ok, Prod.mk.injEq] at done
  obtain ⟨_, _, _, _, _, _, _, _, _, quota, _, _, _, _, _, _, _, _, _, _, _, rfl, _⟩ := done
  exact (asOrganizationError_grows quota).recordAudit

theorem deleteServiceAccount_appended {accountId : Nat} {result : String}
    (done : deleteServiceAccount host now db actor slug accountId = .ok (after, result)) : Appended db after := by
  simp only [deleteServiceAccount, Outcome.bind_eq_ok, Outcome.pure_eq_ok, Prod.mk.injEq] at done
  obtain ⟨org, _, account, _, rfl, _⟩ := done
  apply Grows.recordAudit
  cases membership db org.id account.userId with
  | none => exact .refl db
  | some member => exact .refl db

theorem createApiToken_appended {user : User} {raw : String} {request : Identity.TokenRequest} {row : ApiToken}
    (done : Identity.createApiToken host now db user raw request = .ok (after, row)) : Appended db after := by
  simp only [Identity.createApiToken, Outcome.bind_eq_ok, Prod.exists, Outcome.pure_eq_ok, Prod.mk.injEq] at done
  obtain ⟨_, _, _, _, _, _, _, _, _, _, _, _, _, _, _, _, _, _, _, rfl, _⟩ := done
  exact Grows.recordAudit (.refl db)

theorem issueServiceAccountToken_appended {accountId : Nat} {raw label : String} {scopes : List String}
    {expiresInDays : Option Int} {row : ApiToken}
    (done : issueServiceAccountToken host now db actor slug accountId raw label scopes expiresInDays =
      .ok (after, row)) : Appended db after := by
  simp only [issueServiceAccountToken, Outcome.bind_eq_ok, reraise_eq_ok, Prod.exists, Outcome.pure_eq_ok,
    Prod.mk.injEq] at done
  obtain ⟨_, _, _, _, _, _, _, _, _, _, created, rfl, _⟩ := done
  exact (createApiToken_appended created).recordAudit

theorem removeMembership_grows (user : User) (org : Organization) : Grows db (removeMembership now user db org) := by
  unfold removeMembership
  split
  · exact .refl db
  · rename_i member _
    have deleted : Grows db (deleteMember db member.id) := .refl db
    exact deleted.recordAudit.grows

theorem removeMemberships_grows (user : User) (orgs : List Organization) :
    Grows db (orgs.foldl (removeMembership now user) db) := by
  induction orgs generalizing db with
  | nil => exact .refl db
  | cons org rest ih => exact (removeMembership_grows user org).trans ih

theorem removeUserMemberships_grows {result : Unit}
    (done : removeUserMemberships host now db actor = .ok (after, result)) : Grows db after := by
  simp only [removeUserMemberships, Outcome.bind_eq_ok, Outcome.pure_eq_ok, Prod.mk.injEq] at done
  obtain ⟨_, _, rfl, _⟩ := done
  exact removeMemberships_grows actor (organizationsOf db actor.id)

theorem deleteAccount_appended (done : Identity.deleteAccount host now db actor = .ok after) : Appended db after := by
  simp only [Identity.deleteAccount, Outcome.bind_eq_ok, Prod.exists, Outcome.pure_eq_ok] at done
  obtain ⟨_, _, left, _, removed, rfl⟩ := done
  have revoked : Grows db (Identity.revokeSigningKeys now (Identity.revokeApiTokens now
      (Identity.revokeSessions now db actor.id) actor.id) actor.id) := .refl db
  have grows : Grows db left := revoked.trans (removeUserMemberships_grows removed)
  exact grows.recordAudit

/-- The requests on organizations; memberships go with the account only in the transaction that closes it. -/
theorem organization_appended {operation : Organizations.Operation} (alone : operation ≠ .removeUserMemberships)
    (done : Organizations.handle host db ⟨actor, now, operation⟩ = .ok after) : Appended db after := by
  cases operation with
  | removeUserMemberships => exact absurd rfl alone
  | createOrganization slug displayName =>
    obtain ⟨_, done⟩ := Outcome.map_fst_ok.mp done
    exact createOrganization_appended done
  | updateOrganization slug displayName =>
    obtain ⟨_, done⟩ := Outcome.map_fst_ok.mp done
    exact updateOrganization_appended done
  | addMember slug username role =>
    obtain ⟨_, done⟩ := Outcome.map_fst_ok.mp done
    exact addMember_appended done
  | changeMemberRole slug username role =>
    obtain ⟨_, done⟩ := Outcome.map_fst_ok.mp done
    exact changeMemberRole_appended done
  | removeMember slug username =>
    obtain ⟨_, done⟩ := Outcome.map_fst_ok.mp done
    exact removeMember_appended done
  | leaveOrganization slug =>
    obtain ⟨_, done⟩ := Outcome.map_fst_ok.mp done
    exact leaveOrganization_appended done
  | inviteMember slug username role ttlHours token =>
    obtain ⟨_, done⟩ := Outcome.map_fst_ok.mp done
    exact inviteMember_appended done
  | acceptInvitation token =>
    obtain ⟨_, done⟩ := Outcome.map_fst_ok.mp done
    exact acceptInvitation_appended done
  | createTeam slug name =>
    obtain ⟨_, done⟩ := Outcome.map_fst_ok.mp done
    exact createTeam_appended done
  | addTeamMember slug teamId username =>
    obtain ⟨_, done⟩ := Outcome.map_fst_ok.mp done
    exact addTeamMember_appended done
  | removeTeamMember slug teamId username =>
    obtain ⟨_, done⟩ := Outcome.map_fst_ok.mp done
    exact removeTeamMember_appended done
  | createServiceAccount slug name role =>
    obtain ⟨_, done⟩ := Outcome.map_fst_ok.mp done
    exact createServiceAccount_appended done
  | deleteServiceAccount slug accountId =>
    obtain ⟨_, done⟩ := Outcome.map_fst_ok.mp done
    exact deleteServiceAccount_appended done
  | issueServiceAccountToken slug accountId raw label scopes expiresInDays =>
    obtain ⟨_, done⟩ := Outcome.map_fst_ok.mp done
    exact issueServiceAccountToken_appended done

end Organizations

section Billing

open Billing

variable {settings : Settings} {now : Time} {db after : Db} {sub result : OrganizationSubscription}

theorem transitionStatus_appended {newStatus : String} {change : Change} (moves : newStatus ≠ sub.status.name)
    (done : transitionStatus settings now db sub newStatus change = .ok (after, result)) : Appended db after := by
  unfold transitionStatus at done
  rw [if_neg moves] at done
  simp only [Outcome.bind_eq_ok, Outcome.pure_eq_ok, Prod.mk.injEq] at done
  obtain ⟨status, _, rfl, _⟩ := done
  have scheduled : Grows db (scheduleTimed settings now db (moved settings now sub status)) :=
    .of_billingOnly (scheduleTimed_billingOnly ..)
  exact Grows.recordAudit scheduled

theorem changePlan_appended {newPlan : String} {actorId : Option Nat}
    (done : changePlan settings now db sub newPlan actorId = .ok (after, result)) : Appended db after := by
  unfold changePlan at done
  simp only [Outcome.bind_eq_ok, Outcome.pure_eq_ok, Prod.mk.injEq] at done
  obtain ⟨_, _, _, _, rfl, _⟩ := done
  exact Grows.recordAudit (.refl db)

theorem applyWebhook_appended {delivery : Delivery} {status : SubscriptionStatus}
    (done : applyWebhook settings now db sub delivery = .ok (some (after, status))) : Appended db after := by
  unfold applyWebhook at done
  simp only [Outcome.bind_eq_ok, Prod.exists] at done
  obtain ⟨target, _, moved, _, transitioned, rest⟩ := done
  have grows : Grows db moved := by
    by_cases moves : target.name = sub.status.name
    · unfold transitionStatus at transitioned
      rw [if_pos moves] at transitioned
      cases transitioned
      exact .refl db
    · exact (transitionStatus_appended moves transitioned).grows
  split at rest
  · split at rest <;> cases rest
  · cases rest
    exact grows.recordAudit

theorem processWebhook_complete {delivery : Delivery} {outcome : WebhookResult}
    (done : processWebhook settings now db delivery = .ok (after, outcome)) : Appended db after ∨ after = db := by
  unfold processWebhook at done
  split at done
  · cases done
    exact .inr rfl
  · simp only [Outcome.bind_eq_ok, Prod.exists] at done
    obtain ⟨opened, sub, read, applied, received, rest⟩ := done
    have grows : Grows db opened := .of_billingOnly (ensureSubscription_billingOnly read)
    cases applied with
    | none =>
      cases rest
      exact .inr rfl
    | some written =>
      cases rest
      exact .inl (grows.appended (applyWebhook_appended received))

end Billing

section Packages

open Packages

variable {host : PackageHost} {now : Time} {db after : Db} {user : User} {subject : Subject}
  {namespaceName name version : String}

theorem reviewVersion_appended {action reason : String} {notes : Option String} {result : ReviewStatus × Bool}
    (done : reviewVersion host now db user namespaceName name version action reason notes = .ok (after, result)) :
    Appended db after := by
  unfold reviewVersion at done
  simp only [Outcome.bind_eq_ok, Outcome.pure_eq_ok, Prod.mk.injEq] at done
  obtain ⟨action, _, _, _, _, _, row, _, _, _, rfl, _⟩ := done
  have reviewed : Grows db (setReview db now row action.status reason user.id) := by
    unfold setReview
    split
    · exact .refl db
    · exact .refl db
  exact Grows.recordAudit reviewed

theorem yankVersion_complete {yanked result : Bool}
    (done : yankVersion host now db user namespaceName name version yanked = .ok (after, result)) :
    Appended db after ∨ after = db := by
  obtain same | ⟨_, _, rfl⟩ := yankVersion_cases done
  · exact .inr same
  · exact .inl (Grows.recordAudit (.refl db))

theorem grantPackageAccess_appended {username : Option String} {teamId : Option Nat} {result : AgentGrant}
    (done : grantPackageAccess host now db subject namespaceName name username teamId = .ok (after, result)) :
    Appended db after := by
  obtain ⟨_, _, rfl⟩ := grantPackageAccess_frame done
  exact Grows.recordAudit (.refl db)

theorem revokePackageAccess_appended {username : Option String} {teamId : Option Nat} {result : AgentGrant}
    (done : revokePackageAccess host now db subject namespaceName name username teamId = .ok (after, result)) :
    Appended db after := by
  obtain ⟨_, _, rfl⟩ := revokePackageAccess_frame done
  exact Grows.recordAudit (.refl db)

theorem claimNamespace_appended {result : Namespace}
    (done : claimNamespace host now db user name = .ok (after, result)) : Appended db after := by
  obtain ⟨_, _, _, rfl⟩ := claimNamespace_frame done
  exact Grows.recordAudit (.refl db)

theorem addNamespaceMaintainer_appended {username role : String} {result : NamespaceMember}
    (done : addNamespaceMaintainer host now db user namespaceName username role = .ok (after, result)) :
    Appended db after := by
  obtain ⟨_, _, rfl⟩ := addNamespaceMaintainer_frame done
  exact Grows.recordAudit (.refl db)

theorem complete_of_keysOnly (only : KeysOnly db after) : Appended db after ∨ after = db := by
  obtain same | ⟨_, _, rfl⟩ := only
  · exact .inr same
  · exact .inl (Grows.recordAudit (.refl db))

theorem issueDownloadUrl_appended {caller : Option Subject} {result : DownloadUrl}
    (done : issueDownloadUrl host now db namespaceName name version caller = .ok (after, result)) :
    Appended db after := by
  obtain ⟨_, rfl⟩ := issueDownloadUrl_frame done
  exact Grows.recordAudit (.refl db)

theorem resolvePublishNamespace_grows (done : resolvePublishNamespace host now db user name = .ok after) :
    Grows db after := by
  obtain same | ⟨_, _, _, rfl⟩ := resolvePublishNamespace_cases done
  · rw [same]
    exact .refl db
  · have kept : Grows db _ := .refl db
    exact kept.recordAudit.grows

theorem publishVersion_appended {store : Store} {submission : Submission} {files : Archives} {result : PublishResult}
    (done : publishVersion host now store user submission = (files, .ok (after, result))) :
    Appended store.db after := by
  obtain ⟨admitted, admission, placed, organizationId, located, agent, cleared, reserved, version, admits, places, locates,
    clears, reserves, _, finishes⟩ := publishVersion_ok done
  obtain ⟨_, _, signingKeys, rfl⟩ := admitSubmission_ok admits
  have first : Grows store.db placed := by
    unfold place at places
    simp only [Outcome.bind_eq_ok, Outcome.pure_eq_ok, Prod.mk.injEq] at places
    obtain ⟨_, _, claimed, resolved, _, _, _, _, rfl, _⟩ := places
    have grows : Grows { store.db with signingKeys } claimed := resolvePublishNamespace_grows resolved
    exact grows
  have second : Grows placed located := by
    unfold locate at locates
    split at locates
    · simp only [Outcome.bind_eq_ok, Outcome.pure_eq_ok, Prod.mk.injEq, Prod.exists] at locates
      obtain ⟨_, _, _, rfl, _⟩ := locates
      exact .refl placed
    · cases locates
      exact .refl placed
  have third : Grows located cleared := by
    unfold clear at clears
    simp only [Outcome.bind_eq_ok] at clears
    obtain ⟨_, _, enforced⟩ := clears
    unfold enforceQuota at enforced
    split at enforced
    · cases enforced
      exact .refl located
    · exact .of_billingOnly (Quotas.enforcePublishQuota_billingOnly (reraise_eq_ok.mp enforced))
  have fourth : Grows cleared reserved := by
    unfold reserve at reserves
    simp only [Outcome.bind_eq_ok, Outcome.pure_eq_ok, Prod.mk.injEq, Prod.exists] at reserves
    obtain ⟨_, _, _, rfl, _⟩ := reserves
    exact .refl cleared
  have last : Appended reserved after := by
    unfold finish at finishes
    simp only [Outcome.bind_eq_ok, Outcome.pure_eq_ok, Prod.mk.injEq] at finishes
    obtain ⟨findings, _, rfl, _⟩ := finishes
    exact Grows.recordAudit (.refl reserved)
  exact (first.trans (second.trans (third.trans fourth))).appended last

end Packages

end Registry.Audit
