import OpenAgentHub.Registry.Billing.Subscriptions

namespace Registry.Billing

open Relational

inductive Write where
  | subscription (row : OrganizationSubscription)
  | transition (read target : OrganizationSubscription)
  | job (row : QueueJob)
  | event (row : BillingWebhookEvent)
  | audit (record : AuditEvent)

/-- `UPDATE` of the columns that a transition changes in the row as it was read; the others keep what the
    stored row has by then. -/
def retouched (read target row : OrganizationSubscription) : OrganizationSubscription :=
  { row with
    status := target.status
    graceEndsAt := if target.graceEndsAt = read.graceEndsAt then row.graceEndsAt else target.graceEndsAt
    canceledAt := if target.canceledAt = read.canceledAt then row.canceledAt else target.canceledAt
    entitlementSnapshot := target.entitlementSnapshot
    updatedAt := target.updatedAt }

def Write.apply (db : Db) : Write → Option Db
  | .subscription row => do
    let (_, subscriptions) ← db.subscriptions.insert fun id => { row with id }
    return { db with subscriptions }
  | .transition read target =>
    some { db with
      subscriptions := db.subscriptions.modify (·.organizationId == target.organizationId) (retouched read target) }
  | .job row => some { db with queueJobs := db.queueJobs.push fun id => { row with id } }
  | .event row => do
    let (_, billingWebhookEvents) ← db.billingWebhookEvents.insert fun id => { row with id }
    return { db with billingWebhookEvents }
  | .audit record => some (db.recordAudit record)

/-- The state as a transaction with these writes sees it, and as its commit leaves it. -/
def replay (db : Db) (writes : List Write) : Option Db := writes.foldlM Write.apply db

def Write.organization : Write → Option Nat
  | .subscription row => some row.organizationId
  | _ => none

def Write.pair : Write → Option (String × String)
  | .event row => some (row.provider, row.eventId)
  | _ => none

inductive Stage where
  | entered
  | checked
  | missing
  | opened (sub : OrganizationSubscription)
  | subscribed (sub : OrganizationSubscription)
  | moving (sub : OrganizationSubscription) (status : SubscriptionStatus)
  | settled (status : SubscriptionStatus)
  | returned (result : WebhookResult)
  | raised (error : Raised)

structure Session where
  ticket : Nat
  now : Time
  delivery : Delivery
  stage : Stage
  writes : List Write

def Delivery.pair (delivery : Delivery) : String × String := (delivery.provider, delivery.eventId)

namespace Session

variable (session : Session)

def organizations : List Nat := session.writes.filterMap Write.organization

def pairs : List (String × String) := session.writes.filterMap Write.pair

def goto (stage : Stage) : Session := { session with stage }

def flush (stage : Stage) (writes : List Write) : Session := { session with stage, writes := session.writes ++ writes }

def event : Write :=
  .event
    { id := 0, organizationId := session.delivery.organizationId, provider := session.delivery.provider
      eventId := session.delivery.eventId, eventType := session.delivery.eventType, payload := session.delivery.payload
      status := "processed", receivedAt := session.now, processedAt := some session.now }

def statusRecord (sub : OrganizationSubscription) (status : SubscriptionStatus) : Write :=
  .audit
    { id := 0, actorId := none, organizationId := some sub.organizationId, action := statusChanged
      targetType := some "organization", targetId := some sub.organizationId
      detail := [("from", .str sub.status.name), ("to", .str status.name), ("via", .str "webhook"),
        ("reason", .str session.delivery.eventType), ("plan", .str sub.plan.name)]
      createdAt := session.now }

def receiptRecord : Write :=
  .audit
    { id := 0, actorId := none, organizationId := some session.delivery.organizationId
      action := "organization.billing.webhook_processed", targetType := some "organization"
      targetId := some session.delivery.organizationId
      detail := [("provider", .str session.delivery.provider), ("eventId", .str session.delivery.eventId),
        ("eventType", .str session.delivery.eventType)]
      createdAt := session.now }

end Session

def overlap {α : Type} [BEq α] (first second : List α) : Bool := first.any second.contains

theorem overlap_eq_false {α : Type} [BEq α] [LawfulBEq α] {first second : List α} :
    overlap first second = false ↔ first.Disjoint second := by
  simp [overlap, List.disjoint_left]

theorem overlap_symm {α : Type} [BEq α] [LawfulBEq α] (first second : List α) :
    overlap first second = overlap second first := by
  rw [Bool.eq_iff_iff]
  simp only [overlap, List.any_eq_true, List.contains_iff_mem]
  exact ⟨fun ⟨item, left, right⟩ => ⟨item, right, left⟩, fun ⟨item, left, right⟩ => ⟨item, right, left⟩⟩

/-- Of two open transactions only one can have flushed a row under a unique key. -/
instance : Row Session where
  id := Session.ticket
  clash first second := overlap first.organizations second.organizations || overlap first.pairs second.pairs
  clash_symm first second := by rw [overlap_symm, overlap_symm first.pairs]

def scheduled (settings : Settings) (now : Time) (view : Db) (sub : OrganizationSubscription) : List Write :=
  ((scheduleTimed settings now view sub).queueJobs.rows.drop view.queueJobs.rows.length).map .job

/-- The next statements of `process_webhook`, up to a flush. The event is flushed with the first write after
    `session.add`: inside the `try` when the status changes, and else with the last audit record. -/
def proceed (settings : Settings) (db : Db) (session : Session) : Option Session :=
  let delivery := session.delivery
  match session.stage with
  | .entered => some (session.goto (if (webhookEvent db delivery).isSome then .returned .duplicate else .checked))
  | .checked =>
    match subscription db delivery.organizationId with
    | some sub => some (session.goto (.subscribed sub))
    | none => some (session.goto .missing)
  | .missing =>
    if (subscription db delivery.organizationId).isSome then some (session.goto (.raised integrityError))
    else
      let row := newSubscription settings session.now delivery.organizationId 0
      some (session.flush (.opened row) [.subscription row])
  | .opened sub => do
    let view ← replay db session.writes
    return session.flush (.subscribed sub) (scheduled settings session.now view sub)
  | .subscribed sub =>
    match webhookStatus delivery.eventType with
    | none => some (session.goto (.raised (unhandledEvent delivery.eventType)))
    | some status =>
      if status = sub.status then some (session.goto (.settled status))
      else if status ∉ allowedTransitions sub.status then
        some (session.goto (.raised (invalidTransition sub status.name)))
      else if (webhookEvent db delivery).isSome then
        -- `except IntegrityError: await session.rollback()`
        some { session with stage := .returned .duplicate, writes := [] }
      else some (session.flush (.moving sub status)
        [session.event, .transition sub (stamped session.now (moved settings session.now sub status))])
  | .moving sub status => do
    let view ← replay db session.writes
    return session.flush (.settled status)
      (scheduled settings session.now view (moved settings session.now sub status) ++ [session.statusRecord sub status])
  | .settled status =>
    if session.pairs ≠ [] then some (session.flush (.returned (.processed status)) [session.receiptRecord])
    else if (webhookEvent db delivery).isSome then some (session.goto (.raised integrityError))
    else some (session.flush (.returned (.processed status)) [session.event, session.receiptRecord])
  | .returned _ | .raised _ => none

structure Intake where
  db : Db
  sessions : Table Session

inductive Notice where
  | returned (delivery : Delivery) (result : WebhookResult)
  | raised (delivery : Delivery)

inductive Label where
  | enter (now : Time) (delivery : Delivery)
  | proceed (ticket : Nat)
  | commit (ticket : Nat)
  | rollback (ticket : Nat)
  | elsewhere (db : Db)

namespace Intake

def without (intake : Intake) (ticket : Nat) : Table Session := intake.sessions.delete (·.ticket == ticket)

def admits (intake : Intake) (db : Db) : Bool :=
  intake.sessions.rows.all fun session => session.organizations.all fun organization =>
    (subscription db organization).isNone

end Intake

/-- One step of one transaction; nothing when it has to wait. The route commits whatever `process_webhook`
    returns, and a session that is closed without a commit is rolled back, whatever came over it. -/
def step (settings : Settings) (run : Intake × List Notice) (label : Label) : Option (Intake × List Notice) :=
  let (intake, notices) := run
  match label with
  | .enter now delivery => do
    let (_, sessions) ← intake.sessions.insert fun ticket => ⟨ticket, now, delivery, .entered, []⟩
    return ({ intake with sessions }, notices)
  | .proceed ticket => do
    let session ← intake.sessions.byId ticket
    let next ← proceed settings intake.db session
    let sessions ← (intake.without ticket).adopt next
    return ({ intake with sessions }, notices)
  | .commit ticket => do
    let session ← intake.sessions.byId ticket
    match session.stage with
    | .returned result => do
      let db ← replay intake.db session.writes
      return (⟨db, intake.without ticket⟩, notices ++ [.returned session.delivery result])
    | _ => none
  | .rollback ticket => do
    let session ← intake.sessions.byId ticket
    return ({ intake with sessions := intake.without ticket }, notices ++ [.raised session.delivery])
  | .elsewhere db =>
    if intake.admits db then
      some (⟨{ db with billingWebhookEvents := intake.db.billingWebhookEvents }, intake.sessions⟩, notices)
    else none

end Registry.Billing
