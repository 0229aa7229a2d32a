import OpenAgentHub.Registry.Billing.Subscriptions
import OpenAgentHub.Registry.Identity.Effects
import OpenAgentHub.Registry.Quotas.Overrides

namespace Registry.Billing

open Relational Organizations Identity Quotas

def manageRoles : List OrgRole := [.owner, .administrator, .billingManager]

def quotaManageRoles : List OrgRole := [.owner, .administrator]

def notInOrganization : Raised := ⟨.organizationForbidden, "not a member of this organization"⟩

def orgAndMember (db : Db) (slug : String) (user : User) (roles : List OrgRole) : Except Raised Organization := do
  let org ← Outcome.demand (orgBySlug db slug) (organizationNotFound slug)
  let member ← Outcome.demand (membership db org.id user.id) notInOrganization
  Outcome.ensure (roles = [] ∨ member.role ∈ roles)
    ⟨.organizationForbidden, "requires role " ++ Text.join ", " (roles.map OrgRole.name) ++ " in organization"⟩
  return org

/-- The billing and quota routes that commit something on behalf of a user. -/
inductive Call where
  | getOrgBilling (slug : String)
  | transitionBilling (slug status : String) (reason : Option String)
  | changeOrgPlan (slug plan : String)
  | updateOrgQuota (slug : String) (limits : Option (List (String × Int))) (ttlDays : Int)

def updateOrgQuota (settings : Settings) (now : Time) (db : Db) (user : User) (slug : String)
    (limits : Option (List (String × Int))) (ttlDays : Int) : Except Raised Db := do
  let org ← Outcome.demand (orgBySlug db slug) (organizationNotFound slug)
  let member ← Outcome.demand (membership db org.id user.id) notInOrganization
  Outcome.ensure (member.role ∈ quotaManageRoles)
    ⟨.organizationForbidden, "requires owner or administrator role for quota overrides"⟩
  let (db, _) ← setOrgQuotaOverrides settings now db org user limits ttlDays
  return db

/-- What a route commits; what it reads afterwards for its response is not committed. -/
def performCall (settings : Settings) (now : Time) (db : Db) (user : User) : Call → Except Raised Db
  | .getOrgBilling slug => do
    let org ← orgAndMember db slug user []
    reconcileSubscription settings now db org.id
  | .transitionBilling slug status reason => do
    let org ← orgAndMember db slug user manageRoles
    perform settings now db (.transitionStatus org.id status (some user.id) reason)
  | .changeOrgPlan slug plan => do
    let org ← orgAndMember db slug user manageRoles
    perform settings now db (.changePlan org.id plan (some user.id))
  | .updateOrgQuota slug limits ttlDays => updateOrgQuota settings now db user slug limits ttlDays

def handleCall (host : IdentityHost) (now : Time) (db : Db) (headers : Headers) (throttled : Bool) (call : Call) :
    Except Raised (Db × Caller) := do
  let (db, caller) ← resolveCookieActiveUser host now db headers
  Outcome.ensure (throttled = false) (rateLimitExceeded host.settings.accountWritesPerHour)
  let after ← performCall host.settings now db caller.user call
  return (after, caller)

def holdings (db : Db) : Table User × Table ApiToken × Table SigningKey × Table OrgQuota :=
  (db.users, db.apiTokens, db.signingKeys, db.orgQuotas)

section Effects

variable {settings : Settings} {now : Time} {db after : Db} {sub result : OrganizationSubscription} {organizationId : Nat}

theorem handleCall_ok {host : IdentityHost} {headers : Headers} {throttled : Bool} {call : Call} {caller : Caller}
    (done : handleCall host now db headers throttled call = .ok (after, caller)) :
    ∃ resolved, resolveCookieActiveUser host now db headers = .ok (resolved, caller) ∧
      performCall host.settings now resolved caller.user call = .ok after := by
  simp only [handleCall, Outcome.bind_eq_ok, Outcome.pure_eq_ok, Prod.exists, Prod.mk.injEq] at done
  obtain ⟨resolved, _, authenticated, _, _, _, performed, rfl, rfl⟩ := done
  exact ⟨resolved, authenticated, performed⟩

theorem orgAndMember_ok {slug : String} {user : User} {roles : List OrgRole} {org : Organization}
    (done : orgAndMember db slug user roles = .ok org) : orgBySlug db slug = some org := by
  simp only [orgAndMember, Outcome.bind_eq_ok, Outcome.demand_eq_ok, Outcome.pure_eq_ok] at done
  obtain ⟨_, found, _, _, _, _, rfl⟩ := done
  exact found

theorem updateOrgQuota_ok {user : User} {slug : String} {limits : Option (List (String × Int))} {ttlDays : Int}
    (done : updateOrgQuota settings now db user slug limits ttlDays = .ok after) :
    ∃ org result, orgBySlug db slug = some org ∧
      setOrgQuotaOverrides settings now db org user limits ttlDays = .ok (after, result) := by
  simp only [updateOrgQuota, Outcome.bind_eq_ok, Outcome.demand_eq_ok, Outcome.pure_eq_ok, Prod.exists] at done
  obtain ⟨org, found, _, _, _, _, _, result, set, rfl⟩ := done
  exact ⟨org, result, found, set⟩

theorem BillingOnly.holdings (only : BillingOnly db after) : holdings after = holdings db := by
  obtain ⟨_, _, rfl⟩ := only
  rfl

theorem transitionStatus_holdings {newStatus : String} {change : Change}
    (done : transitionStatus settings now db sub newStatus change = .ok (after, result)) :
    holdings after = holdings db := by
  unfold transitionStatus at done
  split at done
  · cases done
    rfl
  · simp only [Outcome.bind_eq_ok, Outcome.pure_eq_ok, Prod.mk.injEq] at done
    obtain ⟨status, _, rfl, _⟩ := done
    exact (scheduleTimed_billingOnly settings now db (moved settings now sub status)).holdings

theorem changePlan_holdings {newPlan : String} {actorId : Option Nat}
    (done : changePlan settings now db sub newPlan actorId = .ok (after, result)) : holdings after = holdings db := by
  simp only [changePlan, Outcome.bind_eq_ok, Outcome.pure_eq_ok, Prod.mk.injEq] at done
  obtain ⟨_, _, _, _, rfl, _⟩ := done
  rfl

theorem perform_transition_holdings {newStatus : String} {actorId : Option Nat} {reason : Option String}
    (done : perform settings now db (.transitionStatus organizationId newStatus actorId reason) = .ok after) :
    holdings after = holdings db := by
  simp only [perform, Outcome.bind_eq_ok, Prod.exists] at done
  obtain ⟨read, sub, found, moving⟩ := done
  obtain ⟨result, transition⟩ := Outcome.map_fst_ok.mp moving
  exact (transitionStatus_holdings transition).trans (ensureSubscription_billingOnly found).holdings

theorem perform_plan_holdings {newPlan : String} {actorId : Option Nat}
    (done : perform settings now db (.changePlan organizationId newPlan actorId) = .ok after) :
    holdings after = holdings db := by
  simp only [perform, Outcome.bind_eq_ok, Prod.exists] at done
  obtain ⟨read, sub, found, moving⟩ := done
  obtain ⟨result, changing⟩ := Outcome.map_fst_ok.mp moving
  exact (changePlan_holdings changing).trans (ensureSubscription_billingOnly found).holdings

theorem reconcileSubscription_holdings (done : reconcileSubscription settings now db organizationId = .ok after) :
    holdings after = holdings db := by
  simp only [reconcileSubscription, Outcome.bind_eq_ok, Outcome.pure_eq_ok, Prod.exists] at done
  obtain ⟨read, sub, found, advanced, result, transition, rfl⟩ := done
  have moved : holdings advanced = holdings read := by
    unfold advanceDue at transition
    split at transition
    · exact transitionStatus_holdings transition
    · cases transition
      rfl
  calc
    holdings (scheduleTimed settings now advanced result) = holdings advanced :=
      (scheduleTimed_billingOnly ..).holdings
    _ = holdings read := moved
    _ = holdings db := (ensureSubscription_billingOnly found).holdings

end Effects

end Registry.Billing
