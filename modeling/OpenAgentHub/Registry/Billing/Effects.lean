import OpenAgentHub.Lib.Runs
import OpenAgentHub.Registry.Billing.Operations

namespace Registry.Billing

open Relational Relation

inductive Operation where
  | ensureSubscription (organizationId : Nat)
  | processWebhook (delivery : Delivery)
  | transitionStatus (organizationId : Nat) (newStatus : String) (actorId : Option Nat) (reason : Option String)
  | changePlan (organizationId : Nat) (newPlan : String) (actorId : Option Nat)
  | reconcileSubscription (organizationId : Nat)
  | runReconcileJob (owner : String)

def perform (settings : Settings) (now : Time) (db : Db) : Operation → Except Raised Db
  | .ensureSubscription organizationId => (ensureSubscription settings now db organizationId).map Prod.fst
  | .processWebhook delivery => (processWebhook settings now db delivery).map Prod.fst
  | .transitionStatus organizationId newStatus actorId reason => do
    let (db, sub) ← subscriptionFor settings now db organizationId
    (transitionStatus settings now db sub newStatus ⟨actorId, reason, "manual"⟩).map Prod.fst
  | .changePlan organizationId newPlan actorId => do
    let (db, sub) ← subscriptionFor settings now db organizationId
    (changePlan settings now db sub newPlan actorId).map Prod.fst
  | .reconcileSubscription organizationId => reconcileSubscription settings now db organizationId
  | .runReconcileJob owner => runReconcileJob settings now db owner

structure Request where
  now : Time
  operation : Operation

structure Ledger where
  db : Db
  clock : Time

/-- A request that raises is rolled back. -/
def serve (settings : Settings) (ledger : Ledger) (request : Request) : Ledger where
  db := match perform settings request.now ledger.db request.operation with
    | .ok db => db
    | .error _ => ledger.db
  clock := request.now

section Serve

variable {settings : Settings} {ledger : Ledger} {request : Request}

theorem serve_ok {after : Db} (done : perform settings request.now ledger.db request.operation = .ok after) :
    serve settings ledger request = ⟨after, request.now⟩ := by
  unfold serve
  rw [done]

theorem serve_error {raised : Raised}
    (failed : perform settings request.now ledger.db request.operation = .error raised) :
    serve settings ledger request = ⟨ledger.db, request.now⟩ := by
  unfold serve
  rw [failed]

end Serve

def newSubscription (settings : Settings) (now : Time) (organizationId id : Nat) : OrganizationSubscription where
  id := id
  organizationId := organizationId
  plan := .free
  status := .trial
  trialEndsAt := some (now + days settings.billingTrialDays)
  entitlementSnapshot := some (snapshotFor settings .free .trial)
  updatedAt := now

def replanned (settings : Settings) (now : Time) (sub : OrganizationSubscription) (plan : Plan) :
    OrganizationSubscription :=
  let snapshot := snapshotFor settings plan sub.status
  let kept := plan == sub.plan && sub.entitlementSnapshot.any fun frozen => EntitlementSnapshot.same frozen snapshot
  { sub with plan, entitlementSnapshot := some snapshot, updatedAt := if kept then sub.updatedAt else now }

inductive Effect (settings : Settings) (now : Time) (before : Db) : Db → Prop where
  | created (organizationId : Nat) (subscriptions : Table OrganizationSubscription)
    (absent : ∀ row ∈ before.subscriptions.rows, row.organizationId ≠ organizationId)
    (rows : subscriptions.rows = before.subscriptions.rows ++
      [newSubscription settings now organizationId before.subscriptions.next]) :
    Effect settings now before (scheduleTimed settings now { before with subscriptions }
      (newSubscription settings now organizationId before.subscriptions.next))
  | scheduled (sub : OrganizationSubscription) (stored : sub ∈ before.subscriptions.rows) :
    Effect settings now before (scheduleTimed settings now before sub)
  | transitioned (sub : OrganizationSubscription) (stored : sub ∈ before.subscriptions.rows)
    (status : SubscriptionStatus) (allowed : status ∈ allowedTransitions sub.status) (change : Change) :
    Effect settings now before (auditTransition now
      (saveSubscription (scheduleTimed settings now before (moved settings now sub status))
        (stamped now (moved settings now sub status))) sub status change)
  | planned (sub : OrganizationSubscription) (stored : sub ∈ before.subscriptions.rows) (plan : Plan) (event : AuditEvent)
    (other : event.action ≠ statusChanged) :
    Effect settings now before ((saveSubscription before (replanned settings now sub plan)).recordAudit event)
  | received (billingWebhookEvents : Table BillingWebhookEvent) (event : AuditEvent)
    (other : event.action ≠ statusChanged) :
    Effect settings now before ({ before with billingWebhookEvents }.recordAudit event)

abbrev Effects (settings : Settings) (now : Time) : Db → Db → Prop := ReflTransGen (Effect settings now)

section Operations

variable {settings : Settings} {now : Time} {db after : Db} {sub result : OrganizationSubscription} {organizationId : Nat}

theorem scheduleTimed_subscriptions (settings : Settings) (now : Time) (db : Db) (sub : OrganizationSubscription) :
    (scheduleTimed settings now db sub).subscriptions = db.subscriptions := by
  unfold scheduleTimed scheduleNextPending
  repeat' split
  all_goals rfl

theorem scheduleTimed_auditEvents (settings : Settings) (now : Time) (db : Db) (sub : OrganizationSubscription) :
    (scheduleTimed settings now db sub).auditEvents = db.auditEvents := by
  unfold scheduleTimed scheduleNextPending
  repeat' split
  all_goals rfl

theorem mem_saveSubscription {changed row : OrganizationSubscription} (stored : sub ∈ db.subscriptions.rows)
    (same : written changed sub = changed) :
    row ∈ (saveSubscription db changed).subscriptions.rows ↔
      row = changed ∨ (row ∈ db.subscriptions.rows ∧ row.id ≠ changed.id) := by
  have sameId : changed.id = sub.id := by rw [← same]; rfl
  have preserves : Table.Preserves (written changed) := fun _ => ⟨rfl, fun _ => rfl⟩
  have rows : row ∈ (saveSubscription db changed).subscriptions.rows ↔
      ∃ old ∈ db.subscriptions.rows, (if old.id == changed.id then written changed old else old) = row :=
    Table.mem_modify preserves
  rw [rows]
  constructor
  · rintro ⟨old, present, rfl⟩
    by_cases isSub : old.id = changed.id
    · have equal : old = sub := Table.eq_of_id present stored (isSub.trans sameId)
      rw [equal, if_pos (by simp [sameId]), same]
      exact .inl rfl
    · rw [if_neg (by simpa using isSub)]
      exact .inr ⟨present, isSub⟩
  · rintro (rfl | ⟨present, other⟩)
    · exact ⟨sub, stored, by rw [if_pos (by simp [sameId]), same]⟩
    · exact ⟨row, present, by rw [if_neg (by simpa using other)]⟩

theorem subscriptionFor_effects (done : subscriptionFor settings now db organizationId = .ok (after, sub)) :
    Effects settings now db after ∧ sub ∈ after.subscriptions.rows ∧ sub.organizationId = organizationId := by
  unfold subscriptionFor ensureSubscription at done
  split at done
  · rename_i row found
    cases done
    have named := Table.one_holds found
    exact ⟨.refl, Table.one_mem found, beq_iff_eq.mp named⟩
  · rename_i missing
    simp only [Outcome.bind_eq_ok, Prod.exists, Outcome.pure_eq_ok, Prod.mk.injEq] at done
    obtain ⟨row, subscriptions, inserted, made, rfl⟩ := done
    obtain ⟨_, isNew, rows, _⟩ := Table.insert_eq_some.mp (Db.insertRow_eq_ok.mp inserted)
    have absent : ∀ row ∈ db.subscriptions.rows, row.organizationId ≠ organizationId := by
      intro row stored
      simpa using Table.one_none.mp missing row stored
    rw [isNew] at made
    refine ⟨?_, ?_, by rw [isNew]⟩
    · rw [← made]
      exact .single (.created organizationId subscriptions absent rows)
    · rw [← made, scheduleTimed_subscriptions, isNew]
      change _ ∈ subscriptions.rows
      rw [rows]
      simp

theorem transitionStatus_effects {newStatus : String} {change : Change} (stored : sub ∈ db.subscriptions.rows)
    (done : transitionStatus settings now db sub newStatus change = .ok (after, result)) :
    Effects settings now db after ∧ result ∈ after.subscriptions.rows ∧ result.organizationId = sub.organizationId := by
  unfold transitionStatus at done
  split at done
  · cases done
    exact ⟨.refl, stored, rfl⟩
  · simp only [Outcome.bind_eq_ok, Outcome.demand_eq_ok, Option.filter_eq_some_iff, Outcome.pure_eq_ok,
      Prod.mk.injEq, List.contains_iff_mem] at done
    obtain ⟨status, ⟨_, allowed⟩, rfl, rfl⟩ := done
    refine ⟨.single (.transitioned sub stored status allowed change), ?_, rfl⟩
    have present : sub ∈ (scheduleTimed settings now db (moved settings now sub status)).subscriptions.rows := by
      rw [scheduleTimed_subscriptions]
      exact stored
    exact (mem_saveSubscription present rfl).mpr (.inl rfl)

theorem changePlan_effects {newPlan : String} {actorId : Option Nat} (stored : sub ∈ db.subscriptions.rows)
    (done : changePlan settings now db sub newPlan actorId = .ok (after, result)) : Effects settings now db after := by
  unfold changePlan at done
  simp only [Outcome.bind_eq_ok, Outcome.demand_eq_ok, Outcome.ensure_eq_ok, Outcome.pure_eq_ok, Prod.mk.injEq] at done
  obtain ⟨plan, _, _, _, rfl, _⟩ := done
  exact .single (.planned sub stored plan _ (by simp [statusChanged]))

theorem applyWebhook_effects {delivery : Delivery} {status : SubscriptionStatus} (stored : sub ∈ db.subscriptions.rows)
    (done : applyWebhook settings now db sub delivery = .ok (some (after, status))) : Effects settings now db after := by
  unfold applyWebhook at done
  simp only [Outcome.bind_eq_ok, Outcome.demand_eq_ok, Prod.exists] at done
  obtain ⟨target, _, moved, _, transition, rest⟩ := done
  obtain ⟨way, _, _⟩ := transitionStatus_effects stored transition
  split at rest
  · split at rest <;> cases rest
  · rename_i events _
    simp only [Outcome.pure_eq_ok, Option.some.injEq, Prod.mk.injEq] at rest
    obtain ⟨rfl, _⟩ := rest
    exact way.tail (.received events _ (by simp [statusChanged]))

theorem processWebhook_effects {delivery : Delivery} {outcome : WebhookResult}
    (done : processWebhook settings now db delivery = .ok (after, outcome)) : Effects settings now db after := by
  unfold processWebhook at done
  split at done
  · cases done
    exact .refl
  · simp only [Outcome.bind_eq_ok, Prod.exists] at done
    obtain ⟨read, sub, found, applied, rest⟩ := done
    obtain ⟨way, stored, _⟩ := subscriptionFor_effects found
    obtain ⟨applying, rest⟩ := rest
    split at rest
    · cases rest
      exact .refl
    · cases rest
      exact way.trans (applyWebhook_effects stored applying)

theorem reconcileSubscription_effects (done : reconcileSubscription settings now db organizationId = .ok after) :
    Effects settings now db after := by
  unfold reconcileSubscription at done
  simp only [Outcome.bind_eq_ok, Outcome.pure_eq_ok, Prod.exists] at done
  obtain ⟨read, sub, found, moved, result, transition, rfl⟩ := done
  obtain ⟨way, stored, _⟩ := subscriptionFor_effects found
  have next : Effects settings now read moved ∧ result ∈ moved.subscriptions.rows := by
    unfold advanceDue at transition
    split at transition
    · obtain ⟨way, stored, _⟩ := transitionStatus_effects stored transition
      exact ⟨way, stored⟩
    · cases transition
      exact ⟨.refl, stored⟩
  exact (way.trans next.1).tail (.scheduled result next.2)

theorem foldReconcile_effects {targets : List Nat}
    (done : targets.foldlM (reconcileSubscription settings now) db = .ok after) : Effects settings now db after := by
  induction targets generalizing db with
  | nil =>
    cases done
    exact .refl
  | cons organizationId rest ih =>
    rw [List.foldlM_cons] at done
    obtain ⟨middle, first, done⟩ := Outcome.bind_eq_ok.mp done
    exact (reconcileSubscription_effects first).trans (ih done)

end Operations

end Registry.Billing
