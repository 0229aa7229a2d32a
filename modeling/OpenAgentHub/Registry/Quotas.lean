import OpenAgentHub.Registry.Billing

namespace Registry.Quotas

open Relational Billing

def quotaExceeded (dimension : Dimension) (used limit : Int) : Raised :=
  ⟨.quotaExceeded, "organization quota exceeded for " ++ dimension.name ++ ": " ++ toString used ++
    " of " ++ toString limit ++ " used"⟩

/-- The plan's entitlements, with the overrides that have not expired on top.
    A read may create the subscription row it looks for. -/
def effectiveLimits (settings : Settings) (now : Time) (db : Db) (organizationId : Nat) : Db × Limits :=
  let (db, limits) :=
    match subscriptionFor settings now db organizationId with
    | .ok (db, sub) => (db, (effectiveEntitlements settings sub).limits)
    | .error _ => (db, settings.defaultLimits)
  match db.orgQuotas.one (·.organizationId == organizationId) with
  | none => (db, limits)
  | some row =>
    match row.overridesExpireAt with
    | none => (db, limits)
    | some expiry =>
      if expiry ≤ now then (db, limits)
      else (db, fun dimension => (row.overrides dimension).getD (limits dimension))

def inOrganization (db : Db) (organizationId : Nat) (version : AgentVersion) : Bool :=
  (db.agents.byId version.agentId).any (·.organizationId == some organizationId)

def orgVersions (db : Db) (organizationId : Nat) : List AgentVersion :=
  db.agentVersions.select (inOrganization db organizationId)

def orgStorageBytes (db : Db) (organizationId : Nat) : Nat :=
  ((orgVersions db organizationId).map AgentVersion.archiveBytes).sum

def orgVersionCount (db : Db) (organizationId : Nat) : Nat := (orgVersions db organizationId).length

def orgPackageCount (db : Db) (organizationId : Nat) : Nat :=
  (db.agents.select (·.organizationId == some organizationId)).length

def orgMemberCount (db : Db) (organizationId : Nat) : Nat :=
  (db.organizationMembers.select (·.organizationId == organizationId)).length

def orgServiceAccountCount (db : Db) (organizationId : Nat) : Nat :=
  (db.serviceAccounts.select fun account =>
    account.organizationId == organizationId && account.status == .active).length

def enforcePublishQuota (settings : Settings) (now : Time) (db : Db) (organizationId : Nat)
    (newVersions newBytes : Nat) : Except Raised Db := do
  let db ← enforceWriteAllowed settings now db organizationId
  let (db, limits) := effectiveLimits settings now db organizationId
  let versions := orgVersionCount db organizationId
  Outcome.ensure ((versions + newVersions : Int) ≤ limits .versions)
    (quotaExceeded .versions versions (limits .versions))
  let storage := orgStorageBytes db organizationId + newBytes
  Outcome.ensure ((storage : Int) ≤ limits .storageBytes)
    (quotaExceeded .storageBytes storage (limits .storageBytes))
  let packages := orgPackageCount db organizationId
  Outcome.ensure ((packages : Int) ≤ limits .packages)
    (quotaExceeded .packages packages (limits .packages))
  return db

/-- `enforce_org_member_quota` and `enforce_service_account_quota`: the count
    has to be below the limit before the row is added. -/
def enforceCount (dimension : Dimension) (count : Db → Nat → Nat) (settings : Settings) (now : Time)
    (db : Db) (organizationId : Nat) : Except Raised Db := do
  let (db, limits) := effectiveLimits settings now db organizationId
  let used := count db organizationId
  Outcome.ensure ((used : Int) < limits dimension) (quotaExceeded dimension used (limits dimension))
  return db

def enforceOrgMemberQuota := enforceCount .members orgMemberCount

def enforceServiceAccountQuota := enforceCount .serviceAccounts orgServiceAccountCount

theorem effectiveLimits_billingOnly (settings : Settings) (now : Time) (db : Db) (organizationId : Nat) :
    BillingOnly db (effectiveLimits settings now db organizationId).1 := by
  have ensured : BillingOnly db
      (match subscriptionFor settings now db organizationId with
        | .ok (db, sub) => (db, (effectiveEntitlements settings sub).limits)
        | .error _ => (db, settings.defaultLimits)).1 := by
    split
    · rename_i found
      exact ensureSubscription_billingOnly found
    · exact .refl db
  unfold effectiveLimits
  dsimp only
  split
  · exact ensured
  · split
    · exact ensured
    · split <;> exact ensured

theorem enforceCount_billingOnly {dimension : Dimension} {count : Db → Nat → Nat} {settings : Settings}
    {now : Time} {db after : Db} {organizationId : Nat}
    (done : enforceCount dimension count settings now db organizationId = .ok after) :
    BillingOnly db after := by
  simp only [enforceCount, Outcome.bind_eq_ok, Outcome.pure_eq_ok] at done
  obtain ⟨_, _, rfl⟩ := done
  exact effectiveLimits_billingOnly ..

theorem enforcePublishQuota_billingOnly {settings : Settings} {now : Time} {db after : Db}
    {organizationId newVersions newBytes : Nat}
    (done : enforcePublishQuota settings now db organizationId newVersions newBytes = .ok after) :
    BillingOnly db after := by
  simp only [enforcePublishQuota, Outcome.bind_eq_ok, Outcome.pure_eq_ok] at done
  obtain ⟨allowed, permitted, _, _, _, _, _, _, rfl⟩ := done
  exact (enforceWriteAllowed_billingOnly permitted).trans (effectiveLimits_billingOnly ..)

end Registry.Quotas
