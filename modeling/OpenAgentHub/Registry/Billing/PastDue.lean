import OpenAgentHub.Registry.Billing.Subscriptions

namespace Registry.Billing

open Relational

def statusOf (db : Db) (organizationId : Nat) : Option SubscriptionStatus :=
  (subscription db organizationId).map (·.status)

def inOrder (ledger : Ledger) (request : Request) : Prop := ledger.clock ≤ request.now

def changesPlan (settings : Settings) (db : Db) (organizationId : Nat) (request : Request) : Bool :=
  match request.operation with
  | .changePlan organization newPlan _ =>
    organization == organizationId && settings.billingLaunchablePlans.contains newPlan &&
      (Plan.ofName newPlan).any fun plan => (subscription db organizationId).any fun sub => plan != sub.plan
  | _ => false

section Rows

variable {settings : Settings} {now : Time} {db after : Db} {sub : OrganizationSubscription} {organizationId : Nat}

theorem replanned_updatedAt {plan : Plan} (coherent : Coherent settings sub) :
    (replanned settings now sub plan).updatedAt = if plan = sub.plan then sub.updatedAt else now := by
  unfold replanned
  rw [coherent.snapshot]
  by_cases same : plan = sub.plan
  · simp [same, EntitlementSnapshot.same, Entitlements.same]
  · simp [same]

theorem pastDue_entered {operation : Operation} (done : perform settings now db operation = .ok after)
    (outside : statusOf db organizationId ≠ some .pastDue) (its : subscription after organizationId = some sub)
    (pastDue : sub.status = .pastDue) : sub.updatedAt = now := by
  have opened : ∀ row, Opened settings now db organizationId row → row.status ≠ .pastDue := by
    rintro row (stored | ⟨_, id, rfl⟩)
    · intro isPastDue
      exact outside (by simp [statusOf, stored, isPastDue])
    · exact (nomatch ·)
  rcases perform_lookup done organizationId with same | ⟨row, result, open_, moves, isResult⟩ |
      ⟨row, _, _, plan, open_, _, _, _, isReplanned⟩
  · rw [same] at its
    exact absurd pastDue (opened sub (.inl its))
  · rw [isResult] at its
    cases its
    cases moves with
    | still => exact absurd pastDue (opened _ open_)
    | move status allowed => rfl
  · rw [isReplanned] at its
    cases its
    exact absurd pastDue (opened row open_)

theorem pastDue_kept {request : Request} {row : OrganizationSubscription}
    (done : perform settings request.now db request.operation = .ok after)
    (before : subscription db organizationId = some sub) (pastDue : sub.status = .pastDue)
    (coherent : Coherent settings sub) (its : subscription after organizationId = some row)
    (stays : row.status = .pastDue) :
    row.updatedAt = sub.updatedAt ∨ (changesPlan settings db organizationId request = true ∧ row.updatedAt = request.now) := by
  have opened : ∀ row, Opened settings request.now db organizationId row → row = sub := by
    rintro row (stored | ⟨missing, _⟩)
    · rw [before] at stored
      exact (Option.some.inj stored).symm
    · rw [before] at missing
      cases missing
  rcases perform_lookup done organizationId with same | ⟨_, result, open_, moves, isResult⟩ |
      ⟨_, newPlan, actorId, plan, open_, isChange, isPlan, launchable, isReplanned⟩
  · rw [same, before] at its
    cases its
    exact .inl rfl
  · rw [isResult] at its
    cases its
    cases moves with
    | still =>
      rw [opened _ open_]
      exact .inl rfl
    | move status allowed =>
      rw [opened _ open_, pastDue] at allowed
      change status = .pastDue at stays
      rw [stays] at allowed
      simp [allowedTransitions] at allowed
  · rw [isReplanned] at its
    cases its
    rw [opened _ open_, replanned_updatedAt coherent]
    by_cases same : plan = sub.plan
    · rw [if_pos same]
      exact .inl rfl
    · rw [if_neg same]
      refine .inr ⟨?_, rfl⟩
      simp [changesPlan, isChange, launchable, isPlan, before, same]

theorem changesPlan_stamps {request : Request} (before : subscription db organizationId = some sub)
    (coherent : Coherent settings sub) (changes : changesPlan settings db organizationId request = true) :
    ∃ after plan, perform settings request.now db request.operation = .ok after ∧
      subscription after organizationId = some (replanned settings request.now sub plan) ∧
      (replanned settings request.now sub plan).updatedAt = request.now := by
  obtain ⟨now, operation⟩ := request
  unfold changesPlan at changes
  cases operation with
  | changePlan organization newPlan actorId =>
    simp only [Bool.and_eq_true, beq_iff_eq, List.contains_iff_mem, Option.any_eq_true, bne_iff_ne] at changes
    obtain ⟨⟨rfl, launchable⟩, plan, isPlan, row, stored, other⟩ := changes
    rw [before] at stored
    cases stored
    have named := (subscription_eq_some.mp before).2
    have read : subscriptionFor settings now db organization = .ok (db, sub) := subscriptionFor_stored before
    have granted : ∃ after, changePlan settings now db sub newPlan actorId =
        .ok (after, replanned settings now sub plan) := by
      unfold changePlan
      simp only [isPlan, Outcome.demand_some, Outcome.ok_bind, Outcome.ensure, launchable, if_true]
      exact ⟨_, rfl⟩
    obtain ⟨after, granted⟩ := granted
    obtain ⟨_, afterAll⟩ := changePlan_lookup (subscription_eq_some.mp before).1 granted
    refine ⟨after, plan, ?_, ?_, ?_⟩
    · simp only [perform, read, Outcome.ok_bind, granted]
      rfl
    · rw [afterAll, if_pos named]
    · rw [replanned_updatedAt coherent, if_neg other]
  | ensureSubscription | processWebhook | transitionStatus | reconcileSubscription | runReconcileJob => cases changes

theorem reconcile_pastDue (before : subscription db organizationId = some sub) (pastDue : sub.status = .pastDue) :
    ∃ after, reconcileSubscription settings now db organizationId = .ok after ∧
      (statusOf after organizationId = some .suspended ↔ sub.updatedAt + days settings.billingPastDueDays ≤ now) := by
  obtain ⟨stored, named⟩ := subscription_eq_some.mp before
  by_cases due : sub.updatedAt + days settings.billingPastDueDays ≤ now
  · have isDue : dueTransition settings now sub = some (.suspended, "past due") := by
      simp [dueTransition, pastDue, due]
    have allowed : .suspended ∈ allowedTransitions sub.status := by rw [pastDue]; decide
    obtain ⟨after, advanced⟩ := advanceDue_due isDue allowed (by rw [pastDue]; decide)
    refine ⟨_, reconcileSubscription_stored before advanced, iff_of_true ?_ due⟩
    unfold advanceDue at advanced
    rw [isDue] at advanced
    obtain ⟨_, its, _⟩ := transitionStatus_lookup stored advanced
    unfold statusOf
    rw [subscription_of_same (scheduleTimed_subscriptions ..), ← named, its]
    rfl
  · have notDue : dueTransition settings now sub = none := by simp [dueTransition, pastDue, due]
    have advanced : advanceDue settings now db sub = .ok (db, sub) := by
      unfold advanceDue
      rw [notDue]
    refine ⟨_, reconcileSubscription_stored before advanced, iff_of_false ?_ due⟩
    unfold statusOf
    rw [subscription_of_same (scheduleTimed_subscriptions ..), before, Option.map_some, pastDue]
    simp

end Rows

def sparesClock (settings : Settings) (organizationId : Nat) (due : Time) (ledger : Ledger) (request : Request) : Prop :=
  changesPlan settings ledger.db organizationId request = true →
    request.now + days settings.billingPastDueDays ≤ due

abbrev StaysPastDue (settings : Settings) (organizationId : Nat) : Ledger → List Request → Prop :=
  Runs.EachStep (serve settings) fun _ _ after => statusOf after.db organizationId = some .pastDue

section Clock

variable {settings : Settings} {ledger : Ledger} {organizationId : Nat} {sub : OrganizationSubscription}

theorem statusOf_eq_some {db : Db} {status : SubscriptionStatus} : statusOf db organizationId = some status ↔
    ∃ sub, subscription db organizationId = some sub ∧ sub.status = status := by
  unfold statusOf
  rw [Option.map_eq_some_iff]

/-- One request of a past due subscription: a granted change of plan starts the clock again, and nothing
    else touches it. -/
theorem serve_clock {request : Request} (lifecycle : Lifecycle settings ledger.db)
    (before : subscription ledger.db organizationId = some sub) (pastDue : sub.status = .pastDue)
    (stays : statusOf (serve settings ledger request).db organizationId = some .pastDue) :
    ∃ row, subscription (serve settings ledger request).db organizationId = some row ∧ row.status = .pastDue ∧
      row.updatedAt = if changesPlan settings ledger.db organizationId request then request.now else sub.updatedAt := by
  have coherent := lifecycle.coherent sub (subscription_eq_some.mp before).1
  obtain ⟨row, its, rowPastDue⟩ := statusOf_eq_some.mp stays
  refine ⟨row, its, rowPastDue, ?_⟩
  by_cases changes : changesPlan settings ledger.db organizationId request = true
  · obtain ⟨after, plan, done, isReplanned, restarted⟩ := changesPlan_stamps before coherent changes
    rw [serve_ok done, isReplanned] at its
    cases its
    rw [if_pos changes, restarted]
  · rw [if_neg changes]
    cases done : perform settings request.now ledger.db request.operation with
    | ok after =>
      rw [serve_ok done] at its
      rcases pastDue_kept done before pastDue coherent its rowPastDue with kept | ⟨isChange, _⟩
      · exact kept
      · exact absurd isChange changes
    | error raised =>
      rw [serve_error done, before] at its
      cases its
      rfl

/-- The clock of a whole past due period, by induction over its requests. -/
theorem pastDue_clock (due : Time) {requests : List Request} (lifecycle : Lifecycle settings ledger.db)
    (before : subscription ledger.db organizationId = some sub) (pastDue : sub.status = .pastDue)
    (past : sub.updatedAt ≤ ledger.clock) (ordered : Runs.AllMeet (serve settings) inOrder ledger requests)
    (stays : StaysPastDue settings organizationId ledger requests) :
    ∃ row, subscription (requests.foldl (serve settings) ledger).db organizationId = some row ∧
      row.status = .pastDue ∧ (row.updatedAt + days settings.billingPastDueDays ≤ due ↔
        sub.updatedAt + days settings.billingPastDueDays ≤ due ∧
          Runs.AllMeet (serve settings) (sparesClock settings organizationId due) ledger requests) := by
  induction requests generalizing ledger sub with
  | nil => exact ⟨sub, before, pastDue, by simp [Runs.AllMeet]⟩
  | cons request rest ih =>
    obtain ⟨row, its, rowPastDue, stamp⟩ := serve_clock lifecycle before pastDue stays.1
    have later : sub.updatedAt ≤ request.now := past.trans ordered.1
    have rowPast : row.updatedAt ≤ (serve settings ledger request).clock := by
      rw [stamp]
      split
      · exact Nat.le_refl _
      · exact later
    obtain ⟨last, lastIts, lastPastDue, clock⟩ :=
      ih (serve_lifecycle request lifecycle) its rowPastDue rowPast ordered.2 stays.2
    refine ⟨last, lastIts, lastPastDue, clock.trans ?_⟩
    rw [stamp]
    change _ ↔ _ ∧ sparesClock settings organizationId due ledger request ∧ _
    unfold sparesClock
    by_cases changes : changesPlan settings ledger.db organizationId request = true
    · simp only [changes, if_true, true_imp_iff]
      constructor
      · rintro ⟨spared, rest⟩
        exact ⟨(Nat.add_le_add_right later _).trans spared, spared, rest⟩
      · rintro ⟨_, spared, rest⟩
        exact ⟨spared, rest⟩
    · simp [changes]

end Clock

/-- A subscription that went past due and stayed so is suspended by the reconcile that comes when its time to
    pay is over, exactly when no change of plan in between has started that time again. -/
theorem past_due_clock_iff (settings : Settings) {start before : Ledger} (unbilled : Unbilled start.db)
    (reached : Runs.Reaches (Runs.steps (serve settings)) start before) {organizationId : Nat} {entry : Request}
    {during : List Request} {due : Time} (outside : statusOf before.db organizationId ≠ some .pastDue)
    (stays : StaysPastDue settings organizationId before (entry :: during))
    (ordered : Runs.AllMeet (serve settings) inOrder before
      (entry :: during ++ [⟨due, .reconcileSubscription organizationId⟩]))
    (expired : entry.now + days settings.billingPastDueDays ≤ due) :
    statusOf (serve settings ((entry :: during).foldl (serve settings) before)
        ⟨due, .reconcileSubscription organizationId⟩).db organizationId = some .suspended ↔
      Runs.AllMeet (serve settings) (sparesClock settings organizationId due) (serve settings before entry) during := by
  have lifecycle : Lifecycle settings before.db := by
    apply reached.invariant fun ledger => Lifecycle settings ledger.db
    · exact unbilled.lifecycle
    · intro ledger request after _ lifecycle taken
      rw [taken.2]
      exact serve_lifecycle request lifecycle
  obtain ⟨sub, its, pastDue⟩ := statusOf_eq_some.mp stays.1
  have entered : sub.updatedAt = entry.now := by
    cases done : perform settings entry.now before.db entry.operation with
    | ok after =>
      rw [serve_ok done] at its
      exact pastDue_entered done outside its pastDue
    | error raised =>
      rw [serve_error done] at its
      exact absurd (statusOf_eq_some.mpr ⟨sub, its, pastDue⟩) outside
  have orderedDuring : Runs.AllMeet (serve settings) inOrder (serve settings before entry) during :=
    (Runs.allMeet_append.mp ordered.2).1
  obtain ⟨row, rowIts, rowPastDue, clock⟩ := pastDue_clock due (serve_lifecycle entry lifecycle) its pastDue
    (Nat.le_of_eq entered) orderedDuring stays.2
  obtain ⟨after, done, suspended⟩ : ∃ after, perform settings due ((entry :: during).foldl (serve settings) before).db
      (.reconcileSubscription organizationId) = .ok after ∧ _ := reconcile_pastDue rowIts rowPastDue
  rw [serve_ok done, suspended, clock, entered]
  exact and_iff_right expired

def upgrading : Settings := { billingLaunchablePlans := ["free", "pro"] }

def trialEnds : Request := ⟨days 14, .reconcileSubscription 1⟩

theorem past_due_clock_iff_upgrade :
    statusOf (serve upgrading ([trialEnds, ⟨days 20, .changePlan 1 "pro" none⟩].foldl (serve upgrading)
        (serve upgrading ⟨{}, 0⟩ ⟨0, .ensureSubscription 1⟩)) ⟨days 34, .reconcileSubscription 1⟩).db 1 =
      some .suspended := by
  have unbilled : Unbilled {} := ⟨rfl, rfl, by simp [Table.empty], by simp [Table.empty]⟩
  have spared : Runs.AllMeet (serve upgrading) (sparesClock upgrading 1 (days 34))
      (serve upgrading (serve upgrading ⟨{}, 0⟩ ⟨0, .ensureSubscription 1⟩) trialEnds)
      [⟨days 20, .changePlan 1 "pro" none⟩] := by
    simp [Runs.AllMeet, sparesClock, days, hours, seconds, upgrading]
  refine (past_due_clock_iff upgrading unbilled
    (Runs.reaches_foldl (serve upgrading) [⟨0, .ensureSubscription 1⟩] ⟨{}, 0⟩) ?_ ?_ ?_ ?_).mpr spared
  · decide +kernel
  · simp only [StaysPastDue, Runs.EachStep]
    decide +kernel
  · simp [Runs.AllMeet, inOrder, serve, trialEnds, days, hours, seconds]
  · decide +kernel

/-- The plan changes within the time to pay, and the reconcile that ends it does nothing. -/
theorem plan_change_restarts_past_due_clock :
    let before := serve upgrading ⟨{}, 0⟩ ⟨0, .ensureSubscription 1⟩
    let entered := serve upgrading before trialEnds
    let changed := serve upgrading entered ⟨days 20, .changePlan 1 "pro" none⟩
    let reconciled := serve upgrading changed ⟨days 28, .reconcileSubscription 1⟩
    statusOf before.db 1 = some .trial ∧ statusOf entered.db 1 = some .pastDue ∧
      statusOf changed.db 1 = some .pastDue ∧ trialEnds.now + days upgrading.billingPastDueDays ≤ days 28 ∧
      statusOf reconciled.db 1 = some .pastDue := by
  decide +kernel

end Registry.Billing
