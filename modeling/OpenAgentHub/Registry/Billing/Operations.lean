import OpenAgentHub.Registry.Billing

namespace Registry.Billing

open Relational

def billingError (message : String) : Raised := ⟨.billingError, message⟩

def webhookStatuses : List (String × SubscriptionStatus) :=
  [("subscription.created", .trial), ("subscription.activated", .active), ("invoice.payment_succeeded", .active),
    ("subscription.reactivated", .active), ("subscription.grace_period", .gracePeriod),
    ("invoice.payment_failed", .gracePeriod), ("subscription.past_due", .pastDue),
    ("subscription.suspended", .suspended), ("subscription.canceled", .canceled)]

def webhookStatus (eventType : String) : Option SubscriptionStatus := webhookStatuses.lookup eventType

def allowedTransitions : SubscriptionStatus → List SubscriptionStatus
  | .trial => [.active, .gracePeriod, .pastDue, .canceled]
  | .active => [.gracePeriod, .canceled]
  | .gracePeriod => [.active, .pastDue, .canceled]
  | .pastDue => [.active, .suspended, .canceled]
  | .suspended => [.active, .canceled]
  | .canceled => [.active]

def moved (settings : Settings) (now : Time) (sub : OrganizationSubscription) (status : SubscriptionStatus) :
    OrganizationSubscription :=
  { sub with
    status
    graceEndsAt :=
      if status = .gracePeriod then some (now + days settings.billingGraceDays)
      else if status = .active then none
      else sub.graceEndsAt
    canceledAt := if status = .canceled then some now else if status = .active then none else sub.canceledAt
    entitlementSnapshot := some (snapshotFor settings sub.plan status) }

/-- `onupdate=utcnow`. -/
def stamped (now : Time) (sub : OrganizationSubscription) : OrganizationSubscription := { sub with updatedAt := now }

def written (sub row : OrganizationSubscription) : OrganizationSubscription :=
  { row with
    plan := sub.plan, status := sub.status, entitlementSnapshot := sub.entitlementSnapshot
    graceEndsAt := sub.graceEndsAt, canceledAt := sub.canceledAt, updatedAt := sub.updatedAt }

def saveSubscription (db : Db) (sub : OrganizationSubscription) : Db :=
  { db with subscriptions := db.subscriptions.modify (·.id == sub.id) (written sub) }

def statusChanged : String := "organization.billing.status_changed"

def optionalText : Option String → Json
  | some text => .str text
  | none => .null

structure Change where
  actorId : Option Nat := none
  reason : Option String := none
  via : String := "manual"

def auditTransition (now : Time) (db : Db) (sub : OrganizationSubscription) (status : SubscriptionStatus)
    (change : Change) : Db :=
  db.recordAudit
    { id := 0, actorId := change.actorId, organizationId := some sub.organizationId, action := statusChanged
      targetType := some "organization", targetId := some sub.organizationId
      detail := [("from", .str sub.status.name), ("to", .str status.name), ("via", .str change.via),
        ("reason", optionalText change.reason), ("plan", .str sub.plan.name)]
      createdAt := now }

def invalidTransition (sub : OrganizationSubscription) (newStatus : String) : Raised :=
  billingError ("invalid transition '" ++ sub.status.name ++ "' -> '" ++ newStatus ++ "'")

/-- The next deadline is computed from the row as it was read: `updated_at` is stamped by the flush,
    which comes later. -/
def transitionStatus (settings : Settings) (now : Time) (db : Db) (sub : OrganizationSubscription)
    (newStatus : String) (change : Change) : Except Raised (Db × OrganizationSubscription) :=
  if newStatus = sub.status.name then .ok (db, sub)
  else do
    let status ← Outcome.demand
      ((SubscriptionStatus.ofName newStatus).filter fun status => (allowedTransitions sub.status).contains status)
      (invalidTransition sub newStatus)
    let target := moved settings now sub status
    let db := saveSubscription (scheduleTimed settings now db target) (stamped now target)
    return (auditTransition now db sub status change, stamped now target)

structure Delivery where
  organizationId : Nat
  provider : String
  eventId : String
  eventType : String
  payload : Json := .obj []

inductive WebhookResult where
  | duplicate
  | processed (status : SubscriptionStatus)
  deriving DecidableEq

def webhookEvent (db : Db) (delivery : Delivery) : Option BillingWebhookEvent :=
  db.billingWebhookEvents.one fun event => event.provider == delivery.provider && event.eventId == delivery.eventId

def unhandledEvent (eventType : String) : Raised :=
  billingError ("unhandled webhook event type '" ++ eventType ++ "'")

/-- What a delivery does once it has the subscription row. The event is flushed with the first write:
    inside the `try` when the status changes, and else with the audit record behind it. -/
def applyWebhook (settings : Settings) (now : Time) (db : Db) (sub : OrganizationSubscription) (delivery : Delivery) :
    Except Raised (Option (Db × SubscriptionStatus)) := do
  let status ← Outcome.demand (webhookStatus delivery.eventType) (unhandledEvent delivery.eventType)
  let (db, _) ← transitionStatus settings now db sub status.name ⟨none, some delivery.eventType, "webhook"⟩
  match db.billingWebhookEvents.insert fun id =>
      { id, organizationId := delivery.organizationId, provider := delivery.provider, eventId := delivery.eventId
        eventType := delivery.eventType, payload := delivery.payload, status := "processed", receivedAt := now
        processedAt := some now } with
  | none => if status = sub.status then .error integrityError else .ok none
  | some (_, billingWebhookEvents) =>
    return some ({ db with billingWebhookEvents }.recordAudit
      { id := 0, actorId := none, organizationId := some delivery.organizationId
        action := "organization.billing.webhook_processed", targetType := some "organization"
        targetId := some delivery.organizationId
        detail := [("provider", .str delivery.provider), ("eventId", .str delivery.eventId),
          ("eventType", .str delivery.eventType)]
        createdAt := now }, status)

def processWebhook (settings : Settings) (now : Time) (db : Db) (delivery : Delivery) :
    Except Raised (Db × WebhookResult) :=
  match webhookEvent db delivery with
  | some _ => .ok (db, .duplicate)
  | none => do
    let (read, sub) ← subscriptionFor settings now db delivery.organizationId
    match ← applyWebhook settings now read sub delivery with
    | none => return (db, .duplicate)
    | some (after, status) => return (after, .processed status)

def Entitlements.same (first second : Entitlements) : Bool :=
  [Dimension.packages, .versions, .storageBytes, .downloadBytesPerMonth, .members, .serviceAccounts].all
    (fun dimension => first.limits dimension == second.limits dimension) &&
      first.auditRetentionDays == second.auditRetentionDays

def EntitlementSnapshot.same (first second : EntitlementSnapshot) : Bool :=
  first.plan == second.plan && first.status == second.status && Entitlements.same first.entitlements second.entitlements

/-- A row whose columns keep their values is not written, and not stamped either. -/
def changePlan (settings : Settings) (now : Time) (db : Db) (sub : OrganizationSubscription) (newPlan : String)
    (actorId : Option Nat) : Except Raised (Db × OrganizationSubscription) := do
  let plan ← Outcome.demand (Plan.ofName newPlan) (billingError ("unknown plan '" ++ newPlan ++ "'"))
  Outcome.ensure (newPlan ∈ settings.billingLaunchablePlans)
    (billingError ("plan '" ++ newPlan ++ "' is not launchable yet"))
  let snapshot := snapshotFor settings plan sub.status
  let kept := plan == sub.plan && sub.entitlementSnapshot.any fun frozen => EntitlementSnapshot.same frozen snapshot
  let changed := { sub with plan, entitlementSnapshot := some snapshot, updatedAt := if kept then sub.updatedAt else now }
  return ((saveSubscription db changed).recordAudit
    { id := 0, actorId, organizationId := some sub.organizationId, action := "organization.billing.plan_changed"
      targetType := some "organization", targetId := some sub.organizationId
      detail := [("from", .str sub.plan.name), ("to", .str plan.name)], createdAt := now }, changed)

def dueTransition (settings : Settings) (now : Time) (sub : OrganizationSubscription) :
    Option (SubscriptionStatus × String) :=
  match sub.status with
  | .trial => if sub.trialEndsAt.any (· ≤ now) then some (.pastDue, "trial expired") else none
  | .gracePeriod => if sub.graceEndsAt.any (· ≤ now) then some (.pastDue, "grace expired") else none
  | .pastDue =>
    if sub.updatedAt + days settings.billingPastDueDays ≤ now then some (.suspended, "past due") else none
  | _ => none

def advanceDue (settings : Settings) (now : Time) (db : Db) (sub : OrganizationSubscription) :
    Except Raised (Db × OrganizationSubscription) :=
  match dueTransition settings now sub with
  | some (status, reason) => transitionStatus settings now db sub status.name ⟨none, some reason, "reconcile"⟩
  | none => .ok (db, sub)

def reconcileSubscription (settings : Settings) (now : Time) (db : Db) (organizationId : Nat) : Except Raised Db := do
  let (db, sub) ← subscriptionFor settings now db organizationId
  let (db, sub) ← advanceDue settings now db sub
  return scheduleTimed settings now db sub

/-- `BillingWorker.handle`: a job that names no organization is for all of them. -/
def reconcileTargets (db : Db) (payload : Json) : List Nat :=
  match payload.get "organizationId" with
  | some (.num id) => if id = 0 then db.subscriptions.rows.map (·.organizationId) else [id.toNat]
  | _ => db.subscriptions.rows.map (·.organizationId)

def handleReconcile (settings : Settings) (now : Time) (db : Db) (payload : Json) : Except Raised Db :=
  (reconcileTargets db payload).foldlM (reconcileSubscription settings now) db

/-- `JobWorker.run_once` with a handler that does not raise: claim, handle and complete in one transaction. -/
def runReconcileJob (settings : Settings) (now : Time) (db : Db) (owner : String) : Except Raised Db :=
  match Outbox.DurableQueue.claim {} now db.queueJobs "billing.reconcile" owner with
  | (_, none) => .ok db
  | (queueJobs, some job) => do
    let db ← handleReconcile settings now { db with queueJobs } job.payload
    return { db with queueJobs := Outbox.DurableQueue.complete now db.queueJobs job.id }

end Registry.Billing
