import OpenAgentHub.Registry.Billing.Effects

namespace Registry.Billing

open Relational

structure Coherent (settings : Settings) (sub : OrganizationSubscription) : Prop where
  snapshot : sub.entitlementSnapshot = some (snapshotFor settings sub.plan sub.status)
  grace : sub.status = .gracePeriod → sub.graceEndsAt ≠ none
  canceled : sub.status = .canceled ↔ sub.canceledAt ≠ none
  active : sub.status = .active → sub.graceEndsAt = none ∧ sub.canceledAt = none

def detailText (event : AuditEvent) (key : String) : Option String := (event.detail.lookup key).bind Json.asString

def recordsChange (organizationId : Nat) (event : AuditEvent) : Bool :=
  event.action == statusChanged && event.organizationId == some organizationId

def statusChanges (db : Db) (organizationId : Nat) : List (Option String × Option String) :=
  (db.auditEvents.select (recordsChange organizationId)).map fun event =>
    (detailText event "from", detailText event "to")

inductive Path : SubscriptionStatus → List (Option String × Option String) → SubscriptionStatus → Prop where
  | start (status : SubscriptionStatus) : Path status [] status
  | step {first last next : SubscriptionStatus} {changes : List (Option String × Option String)}
    (earlier : Path first changes last) (allowed : next ∈ allowedTransitions last) :
    Path first (changes ++ [(some last.name, some next.name)]) next

structure Lifecycle (settings : Settings) (db : Db) : Prop where
  coherent : ∀ sub ∈ db.subscriptions.rows, Coherent settings sub
  path : ∀ sub ∈ db.subscriptions.rows, Path .trial (statusChanges db sub.organizationId) sub.status
  silent : ∀ organizationId, (∀ sub ∈ db.subscriptions.rows, sub.organizationId ≠ organizationId) →
    statusChanges db organizationId = []

section Rows

variable {settings : Settings} {now : Time} {sub : OrganizationSubscription}

theorem newSubscription_coherent (organizationId id : Nat) :
    Coherent settings (newSubscription settings now organizationId id) :=
  ⟨rfl, (nomatch ·), by simp [newSubscription], (nomatch ·)⟩

theorem moved_coherent {status : SubscriptionStatus} (coherent : Coherent settings sub)
    (allowed : status ∈ allowedTransitions sub.status) :
    Coherent settings (stamped now (moved settings now sub status)) := by
  refine ⟨rfl, ?_, ?_, ?_⟩
  · intro grace
    change status = .gracePeriod at grace
    simp [stamped, moved, grace]
  · change status = .canceled ↔ (moved settings now sub status).canceledAt ≠ none
    unfold moved
    dsimp only
    split
    · rename_i canceled
      simp [canceled]
    · rename_i notCanceled
      split
      · rename_i active
        simp [active]
      · rename_i notActive
        -- nothing but a reactivation leaves the canceled status
        have wasNot : sub.status ≠ .canceled := by
          intro was
          rw [was] at allowed
          exact notActive (List.mem_singleton.mp allowed)
        have kept := coherent.canceled
        simp only [wasNot, false_iff, not_not] at kept
        simp [notCanceled, kept]
  · intro active
    change status = .active at active
    simp [stamped, moved, active]

theorem replanned_coherent {plan : Plan} (coherent : Coherent settings sub) :
    Coherent settings (replanned settings now sub plan) :=
  ⟨rfl, coherent.grace, coherent.canceled, coherent.active⟩

end Rows

section Steps

variable {settings : Settings} {now : Time} {db after : Db} {sub : OrganizationSubscription}

theorem statusChanges_of_same {organizationId : Nat} (audit : after.auditEvents = db.auditEvents) :
    statusChanges after organizationId = statusChanges db organizationId := by
  unfold statusChanges
  rw [audit]

theorem statusChanges_recordAudit (db : Db) (event : AuditEvent) (organizationId : Nat) :
    statusChanges (db.recordAudit event) organizationId = statusChanges db organizationId ++
      if recordsChange organizationId event then [(detailText event "from", detailText event "to")] else [] := by
  have rows : (db.recordAudit event).auditEvents.rows =
      db.auditEvents.rows ++ [{ event with id := db.auditEvents.next }] := rfl
  unfold statusChanges Table.select
  rw [rows, List.filter_append, List.map_append]
  congr 1
  by_cases records : recordsChange organizationId event = true
  · have same : recordsChange organizationId { event with id := db.auditEvents.next } = true := records
    simp [records, same, detailText]
  · have same : ¬ recordsChange organizationId { event with id := db.auditEvents.next } = true := records
    simp [records, same]

theorem Lifecycle.of_same (lifecycle : Lifecycle settings db) (subscriptions : after.subscriptions = db.subscriptions)
    (changes : ∀ organizationId, statusChanges after organizationId = statusChanges db organizationId) :
    Lifecycle settings after := by
  constructor
  · rw [subscriptions]
    exact lifecycle.coherent
  · rw [subscriptions]
    intro sub stored
    rw [changes]
    exact lifecycle.path sub stored
  · rw [subscriptions]
    intro organizationId absent
    rw [changes]
    exact lifecycle.silent organizationId absent

theorem other_organization {row : OrganizationSubscription} (stored : sub ∈ db.subscriptions.rows)
    (present : row ∈ db.subscriptions.rows) (other : row.id ≠ sub.id) : row.organizationId ≠ sub.organizationId := by
  intro same
  have clash : Row.clash row sub = true := beq_iff_eq.mpr same
  rw [Table.eq_of_clash present stored clash] at other
  exact other rfl

theorem Lifecycle.replace (lifecycle : Lifecycle settings db) (stored : sub ∈ db.subscriptions.rows)
    (changed : OrganizationSubscription) (same : written changed sub = changed)
    (saved : after.subscriptions = (saveSubscription db changed).subscriptions) (coherent : Coherent settings changed)
    (path : Path .trial (statusChanges after sub.organizationId) changed.status)
    (others : ∀ organizationId, organizationId ≠ sub.organizationId →
      statusChanges after organizationId = statusChanges db organizationId) : Lifecycle settings after := by
  have sameOrganization : changed.organizationId = sub.organizationId := by rw [← same]; rfl
  have sameId : changed.id = sub.id := by rw [← same]; rfl
  have rows : ∀ row, row ∈ after.subscriptions.rows ↔ row = changed ∨ (row ∈ db.subscriptions.rows ∧ row.id ≠ sub.id) := by
    intro row
    rw [saved, mem_saveSubscription stored same, sameId]
  constructor
  · intro row present
    rcases (rows row).mp present with rfl | ⟨old, _⟩
    · exact coherent
    · exact lifecycle.coherent row old
  · intro row present
    rcases (rows row).mp present with rfl | ⟨old, other⟩
    · rw [sameOrganization]
      exact path
    · rw [others _ (other_organization stored old other)]
      exact lifecycle.path row old
  · intro organizationId absent
    have notSub : organizationId ≠ sub.organizationId := by
      rw [← sameOrganization]
      exact (absent changed ((rows changed).mpr (.inl rfl))).symm
    rw [others organizationId notSub]
    apply lifecycle.silent
    intro row old
    by_cases isSub : row.id = sub.id
    · rw [Table.eq_of_id old stored isSub]
      exact notSub.symm
    · exact absent row ((rows row).mpr (.inr ⟨old, isSub⟩))

theorem Lifecycle.create (lifecycle : Lifecycle settings db) {organizationId : Nat}
    {subscriptions : Table OrganizationSubscription}
    (absent : ∀ row ∈ db.subscriptions.rows, row.organizationId ≠ organizationId)
    (rows : subscriptions.rows = db.subscriptions.rows ++
      [newSubscription settings now organizationId db.subscriptions.next]) :
    Lifecycle settings { db with subscriptions } := by
  constructor
  · intro sub stored
    change sub ∈ subscriptions.rows at stored
    rw [rows] at stored
    rcases List.mem_append.mp stored with old | new
    · exact lifecycle.coherent sub old
    · rw [List.mem_singleton.mp new]
      exact newSubscription_coherent ..
  · intro sub stored
    change sub ∈ subscriptions.rows at stored
    change Path .trial (statusChanges db sub.organizationId) sub.status
    rw [rows] at stored
    rcases List.mem_append.mp stored with old | new
    · exact lifecycle.path sub old
    · rw [List.mem_singleton.mp new]
      change Path .trial (statusChanges db organizationId) .trial
      rw [lifecycle.silent organizationId absent]
      exact .start _
  · intro id absentAfter
    apply lifecycle.silent
    intro row old
    apply absentAfter
    change row ∈ subscriptions.rows
    rw [rows]
    exact List.mem_append_left _ old

theorem Lifecycle.schedule (lifecycle : Lifecycle settings db) : Lifecycle settings (scheduleTimed settings now db sub) :=
  lifecycle.of_same (scheduleTimed_subscriptions ..) fun _ => statusChanges_of_same (scheduleTimed_auditEvents ..)

theorem Lifecycle.transition (lifecycle : Lifecycle settings db) (stored : sub ∈ db.subscriptions.rows)
    {status : SubscriptionStatus} (allowed : status ∈ allowedTransitions sub.status) (change : Change) :
    Lifecycle settings (auditTransition now
      (saveSubscription db (stamped now (moved settings now sub status))) sub status change) := by
  refine lifecycle.replace stored (stamped now (moved settings now sub status)) rfl rfl ?_ ?_ ?_
  · exact moved_coherent (lifecycle.coherent sub stored) allowed
  · unfold auditTransition
    rw [statusChanges_recordAudit, if_pos (by simp [recordsChange])]
    exact .step (lifecycle.path sub stored) allowed
  · intro organizationId other
    unfold auditTransition
    rw [statusChanges_recordAudit, if_neg (by simp [recordsChange, Ne.symm other]), List.append_nil]
    exact statusChanges_of_same rfl

theorem Lifecycle.audit (lifecycle : Lifecycle settings db) {event : AuditEvent} (other : event.action ≠ statusChanged) :
    Lifecycle settings (db.recordAudit event) := by
  have changes : ∀ id, statusChanges (db.recordAudit event) id = statusChanges db id := by
    intro id
    rw [statusChanges_recordAudit, if_neg (by simp [recordsChange, other]), List.append_nil]
  exact lifecycle.of_same rfl changes

theorem Lifecycle.plan (lifecycle : Lifecycle settings db) (stored : sub ∈ db.subscriptions.rows) (plan : Plan) :
    Lifecycle settings (saveSubscription db (replanned settings now sub plan)) := by
  apply lifecycle.replace stored (replanned settings now sub plan) rfl rfl
  · exact replanned_coherent (lifecycle.coherent sub stored)
  · exact lifecycle.path sub stored
  · exact fun _ _ => statusChanges_of_same rfl

theorem Effect.lifecycle (effect : Effect settings now db after) (lifecycle : Lifecycle settings db) :
    Lifecycle settings after := by
  cases effect with
  | created organizationId subscriptions absent rows => exact (lifecycle.create absent rows).schedule
  | scheduled sub stored => exact lifecycle.schedule
  | transitioned sub stored status allowed change =>
    have scheduled : Lifecycle settings (scheduleTimed settings now db (moved settings now sub status)) :=
      lifecycle.schedule
    exact scheduled.transition (by rw [scheduleTimed_subscriptions]; exact stored) allowed change
  | planned sub stored plan event other => exact (lifecycle.plan stored plan).audit other
  | received events event other =>
    have kept : Lifecycle settings { db with billingWebhookEvents := events } :=
      ⟨lifecycle.coherent, lifecycle.path, lifecycle.silent⟩
    exact kept.audit other

theorem lifecycle_of_effects (effects : Effects settings now db after) (lifecycle : Lifecycle settings db) :
    Lifecycle settings after := by
  induction effects with
  | refl => exact lifecycle
  | tail _ effect ih => exact effect.lifecycle ih

theorem perform_lifecycle {operation : Operation} (lifecycle : Lifecycle settings db)
    (done : perform settings now db operation = .ok after) : Lifecycle settings after := by
  cases operation with
  | ensureSubscription organizationId =>
    obtain ⟨_, done⟩ := Outcome.map_fst_ok.mp done
    exact lifecycle_of_effects (subscriptionFor_effects done).1 lifecycle
  | processWebhook delivery =>
    obtain ⟨_, done⟩ := Outcome.map_fst_ok.mp done
    exact lifecycle_of_effects (processWebhook_effects done) lifecycle
  | transitionStatus organizationId newStatus actorId reason =>
    obtain ⟨⟨read, sub⟩, found, done⟩ := Outcome.bind_eq_ok.mp done
    obtain ⟨_, done⟩ := Outcome.map_fst_ok.mp done
    obtain ⟨way, stored, _⟩ := subscriptionFor_effects found
    exact lifecycle_of_effects (way.trans (transitionStatus_effects stored done).1) lifecycle
  | changePlan organizationId newPlan actorId =>
    obtain ⟨⟨read, sub⟩, found, done⟩ := Outcome.bind_eq_ok.mp done
    obtain ⟨_, done⟩ := Outcome.map_fst_ok.mp done
    obtain ⟨way, stored, _⟩ := subscriptionFor_effects found
    exact lifecycle_of_effects (way.trans (changePlan_effects stored done)) lifecycle
  | reconcileSubscription organizationId => exact lifecycle_of_effects (reconcileSubscription_effects done) lifecycle
  | runReconcileJob owner =>
    change runReconcileJob settings now db owner = .ok after at done
    unfold runReconcileJob at done
    split at done
    · cases done
      exact lifecycle
    · rename_i queueJobs job _
      obtain ⟨handled, handling, done⟩ := Outcome.bind_eq_ok.mp done
      have claimed : Lifecycle settings { db with queueJobs } :=
        ⟨lifecycle.coherent, lifecycle.path, lifecycle.silent⟩
      have reconciled := lifecycle_of_effects (foldReconcile_effects handling) claimed
      cases done
      exact ⟨reconciled.coherent, reconciled.path, reconciled.silent⟩

theorem serve_lifecycle {ledger : Ledger} (request : Request) (lifecycle : Lifecycle settings ledger.db) :
    Lifecycle settings (serve settings ledger request).db := by
  cases done : perform settings request.now ledger.db request.operation with
  | ok after =>
    rw [serve_ok done]
    exact perform_lifecycle lifecycle done
  | error raised =>
    rw [serve_error done]
    exact lifecycle

end Steps

structure Unbilled (db : Db) : Prop where
  subscriptions : db.subscriptions.rows = []
  webhooks : db.billingWebhookEvents.rows = []
  audit : ∀ event ∈ db.auditEvents.rows, event.action ≠ statusChanged
  jobs : ∀ job ∈ db.queueJobs.rows, job.jobType ≠ "billing.reconcile"

theorem Unbilled.lifecycle {settings : Settings} {db : Db} (unbilled : Unbilled db) : Lifecycle settings db := by
  constructor
  · rw [unbilled.subscriptions]
    simp
  · rw [unbilled.subscriptions]
    simp
  · intro organizationId _
    unfold statusChanges
    rw [List.map_eq_nil_iff, Table.select, List.filter_eq_nil_iff]
    intro event stored
    simp [recordsChange, unbilled.audit event stored]

/-- In every state of every run, the audited changes of a status are a path of allowed transitions from the
    trial to the present status, and the columns of the row agree with it. -/
theorem subscriptions_follow_lifecycle (settings : Settings) {start ledger : Ledger} (unbilled : Unbilled start.db)
    (reached : Runs.Reaches (Runs.steps (serve settings)) start ledger) :
    ∀ sub ∈ ledger.db.subscriptions.rows,
      Path .trial (statusChanges ledger.db sub.organizationId) sub.status ∧ Coherent settings sub := by
  have lifecycle : Lifecycle settings ledger.db := by
    apply reached.invariant fun ledger => Lifecycle settings ledger.db
    · exact unbilled.lifecycle
    · intro before request after _ lifecycle taken
      rw [taken.2]
      exact serve_lifecycle request lifecycle
  intro sub stored
  exact ⟨lifecycle.path sub stored, lifecycle.coherent sub stored⟩

def defaulting : List Request :=
  [⟨0, .ensureSubscription 1⟩, ⟨days 3, .processWebhook ⟨1, "stripe", "evt_1", "invoice.payment_failed", .obj []⟩⟩,
    ⟨days 10, .runReconcileJob "worker"⟩, ⟨days 20, .changePlan 1 "free" none⟩, ⟨days 24, .runReconcileJob "worker"⟩]

theorem subscriptions_follow_lifecycle_defaulting :
    ∃ sub ∈ (defaulting.foldl (serve {}) ⟨{}, 0⟩).db.subscriptions.rows, sub.status = .suspended ∧
      Path .trial (statusChanges (defaulting.foldl (serve {}) ⟨{}, 0⟩).db sub.organizationId) sub.status ∧
      Coherent {} sub := by
  have suspended : ∃ sub ∈ (defaulting.foldl (serve {}) ⟨{}, 0⟩).db.subscriptions.rows, sub.status = .suspended := by
    decide +kernel
  obtain ⟨sub, stored, status⟩ := suspended
  have unbilled : Unbilled {} := ⟨rfl, rfl, by simp [Table.empty], by simp [Table.empty]⟩
  exact ⟨sub, stored, status,
    subscriptions_follow_lifecycle {} unbilled (Runs.reaches_foldl (serve {}) defaulting ⟨{}, 0⟩) sub stored⟩

end Registry.Billing
