import OpenAgentHub.Registry.Outbox.Queue

namespace Registry.Billing

open Relational

def giga : Int := 1024 * 1024 * 1024

/-- The catalogue of `plans.py`; the free plan serves the registry defaults. -/
def entitlements (settings : Settings) : Plan → Entitlements
  | .free => ⟨settings.defaultLimits, settings.orgAuditRetentionDefaultDays⟩
  | .pro => ⟨fun
      | .packages => 500
      | .versions => 2500
      | .storageBytes => 25 * giga
      | .downloadBytesPerMonth => 500 * giga
      | .members => 150
      | .serviceAccounts => 50, 365⟩
  | .enterprise => ⟨fun
      | .packages => 5000
      | .versions => 25000
      | .storageBytes => 250 * giga
      | .downloadBytesPerMonth => 5000 * giga
      | .members => 1000
      | .serviceAccounts => 500, 365 * 2⟩

def snapshotFor (settings : Settings) (plan : Plan) (status : SubscriptionStatus) : EntitlementSnapshot :=
  ⟨plan, status, entitlements settings plan⟩

def writeBlocked : SubscriptionStatus → Bool
  | .pastDue | .suspended | .canceled => true
  | _ => false

def timed : SubscriptionStatus → Bool
  | .trial | .gracePeriod | .pastDue => true
  | _ => false

def enqueueReconcile (now : Time) (db : Db) (organizationId : Nat) (deadline : Time) : Db :=
  let (queueJobs, _) := Outbox.DurableQueue.enqueue {} now db.queueJobs "billing.reconcile"
    (.obj [("organizationId", .num organizationId)])
    ("billing:" ++ toString organizationId ++ ":" ++ toString deadline) 1 (some deadline)
  { db with queueJobs }

def scheduleNextPending (settings : Settings) (now : Time) (db : Db) (sub : OrganizationSubscription) : Db :=
  match sub.status, sub.trialEndsAt, sub.graceEndsAt with
  | .trial, some deadline, _ | .gracePeriod, _, some deadline =>
    if now < deadline then enqueueReconcile now db sub.organizationId deadline else db
  | .pastDue, _, _ =>
    enqueueReconcile now db sub.organizationId (max (sub.updatedAt + days settings.billingPastDueDays) now)
  | _, _, _ => db

/-- `if sub.status in _TIMED_STATUSES: await _schedule_next_pending(session, sub)`. -/
def scheduleTimed (settings : Settings) (now : Time) (db : Db) (sub : OrganizationSubscription) : Db :=
  if timed sub.status then scheduleNextPending settings now db sub else db

def ensureSubscription (settings : Settings) (now : Time) (db : Db) (organizationId : Nat) :
    Except Raised (Db × OrganizationSubscription) :=
  match db.subscriptions.one (·.organizationId == organizationId) with
  | some sub => .ok (db, sub)
  | none => do
    let (sub, subscriptions) ← Db.insertRow db.subscriptions fun id =>
      { id, organizationId, plan := .free, status := .trial
        trialEndsAt := some (now + days settings.billingTrialDays)
        entitlementSnapshot := some (snapshotFor settings .free .trial)
        updatedAt := now }
    return (scheduleTimed settings now { db with subscriptions } sub, sub)

def subscriptionFor := ensureSubscription

/-- The frozen snapshot wins over the live catalogue. -/
def effectiveEntitlements (settings : Settings) (sub : OrganizationSubscription) : Entitlements :=
  match sub.entitlementSnapshot with
  | some snapshot => snapshot.entitlements
  | none => entitlements settings sub.plan

def billingBlocked (status : SubscriptionStatus) : Raised :=
  ⟨.billingBlocked, "organization billing status '" ++ status.name ++
    "' blocks publishing; existing packages and downloads are unaffected"⟩

def enforceWriteAllowed (settings : Settings) (now : Time) (db : Db) (organizationId : Nat) :
    Except Raised Db := do
  let (db, sub) ← subscriptionFor settings now db organizationId
  Outcome.ensure (writeBlocked sub.status = false) (billingBlocked sub.status)
  return db

def BillingOnly (before after : Db) : Prop :=
  ∃ subscriptions queueJobs, after = { before with subscriptions, queueJobs }

theorem BillingOnly.refl (db : Db) : BillingOnly db db := ⟨_, _, rfl⟩

theorem BillingOnly.trans {first second third : Db} (left : BillingOnly first second)
    (right : BillingOnly second third) : BillingOnly first third := by
  obtain ⟨_, _, rfl⟩ := left
  obtain ⟨subscriptions, queueJobs, rfl⟩ := right
  exact ⟨subscriptions, queueJobs, rfl⟩

theorem enqueueReconcile_billingOnly (now : Time) (db : Db) (organizationId : Nat) (deadline : Time) :
    BillingOnly db (enqueueReconcile now db organizationId deadline) := ⟨_, _, rfl⟩

theorem scheduleNextPending_billingOnly (settings : Settings) (now : Time) (db : Db)
    (sub : OrganizationSubscription) : BillingOnly db (scheduleNextPending settings now db sub) := by
  unfold scheduleNextPending
  split
  · split
    · exact enqueueReconcile_billingOnly ..
    · exact .refl db
  · split
    · exact enqueueReconcile_billingOnly ..
    · exact .refl db
  · exact enqueueReconcile_billingOnly ..
  · exact .refl db

theorem scheduleTimed_billingOnly (settings : Settings) (now : Time) (db : Db) (sub : OrganizationSubscription) :
    BillingOnly db (scheduleTimed settings now db sub) := by
  unfold scheduleTimed
  split
  · exact scheduleNextPending_billingOnly ..
  · exact .refl db

theorem ensureSubscription_billingOnly {settings : Settings} {now : Time} {db after : Db}
    {organizationId : Nat} {sub : OrganizationSubscription}
    (done : ensureSubscription settings now db organizationId = .ok (after, sub)) :
    BillingOnly db after := by
  unfold ensureSubscription at done
  split at done
  · cases done
    exact .refl db
  · simp only [Outcome.bind_eq_ok, Prod.exists, Outcome.pure_eq_ok, Prod.mk.injEq] at done
    obtain ⟨row, subscriptions, -, rfl, rfl⟩ := done
    have inserted : BillingOnly db { db with subscriptions } := ⟨_, _, rfl⟩
    exact inserted.trans (scheduleTimed_billingOnly ..)

theorem enforceWriteAllowed_billingOnly {settings : Settings} {now : Time} {db after : Db}
    {organizationId : Nat} (done : enforceWriteAllowed settings now db organizationId = .ok after) :
    BillingOnly db after := by
  simp only [enforceWriteAllowed, subscriptionFor, Outcome.bind_eq_ok, Prod.exists,
    Outcome.pure_eq_ok] at done
  obtain ⟨_, sub, ensured, _, _, rfl⟩ := done
  exact ensureSubscription_billingOnly ensured

end Registry.Billing
