import OpenAgentHub.Registry.Billing.Lifecycle

namespace Registry.Billing

open Relational

def subscription (db : Db) (organizationId : Nat) : Option OrganizationSubscription :=
  db.subscriptions.one (·.organizationId == organizationId)

section Lookup

variable {settings : Settings} {now : Time} {db after : Db} {sub result : OrganizationSubscription}
  {organizationId organization : Nat}

theorem subscription_eq_some :
    subscription db organizationId = some sub ↔ sub ∈ db.subscriptions.rows ∧ sub.organizationId = organizationId := by
  unfold subscription
  rw [Table.one_eq_some]
  · simp only [beq_iff_eq]
  · intro first left second right one two
    apply Table.eq_of_clash left right
    exact beq_iff_eq.mpr ((beq_iff_eq.mp one).trans (beq_iff_eq.mp two).symm)

theorem subscription_of_same (same : after.subscriptions = db.subscriptions) (organization : Nat) :
    subscription after organization = subscription db organization := by
  unfold subscription
  rw [same]

theorem subscription_congr (rows : ∀ row, row.organizationId = organization →
      (row ∈ after.subscriptions.rows ↔ row ∈ db.subscriptions.rows)) :
    subscription after organization = subscription db organization := by
  apply Option.ext
  intro row
  rw [subscription_eq_some, subscription_eq_some]
  constructor
  · rintro ⟨present, named⟩
    exact ⟨(rows row named).mp present, named⟩
  · rintro ⟨present, named⟩
    exact ⟨(rows row named).mpr present, named⟩

theorem subscription_save {changed : OrganizationSubscription} (stored : sub ∈ db.subscriptions.rows)
    (same : written changed sub = changed) : subscription (saveSubscription db changed) organization =
      if sub.organizationId = organization then some changed else subscription db organization := by
  have sameOrganization : changed.organizationId = sub.organizationId := by rw [← same]; rfl
  have sameId : changed.id = sub.id := by rw [← same]; rfl
  split
  · rename_i isOwn
    rw [subscription_eq_some]
    exact ⟨(mem_saveSubscription stored same).mpr (.inl rfl), sameOrganization.trans isOwn⟩
  · rename_i isOther
    apply subscription_congr
    intro row named
    rw [mem_saveSubscription stored same, sameId]
    have notChanged : row ≠ changed := by
      rintro rfl
      exact isOther (sameOrganization.symm.trans named)
    constructor
    · rintro (isChanged | ⟨present, _⟩)
      · exact absurd isChanged notChanged
      · exact present
    · intro present
      refine .inr ⟨present, ?_⟩
      intro isSub
      rw [Table.eq_of_id present stored isSub] at named
      exact isOther named

def Opened (settings : Settings) (now : Time) (db : Db) (organizationId : Nat) (sub : OrganizationSubscription) : Prop :=
  subscription db organizationId = some sub ∨
    (subscription db organizationId = none ∧ ∃ id, sub = newSubscription settings now organizationId id)

theorem subscriptionFor_lookup (done : subscriptionFor settings now db organizationId = .ok (after, sub)) :
    Opened settings now db organizationId sub ∧ subscription after organizationId = some sub ∧
      ∀ organization, organization ≠ organizationId →
        subscription after organization = subscription db organization := by
  unfold subscriptionFor ensureSubscription at done
  split at done
  · rename_i row found
    cases done
    exact ⟨.inl found, found, fun _ _ => rfl⟩
  · rename_i missing
    simp only [Outcome.bind_eq_ok, Prod.exists, Outcome.pure_eq_ok, Prod.mk.injEq] at done
    obtain ⟨row, subscriptions, inserted, rfl, rfl⟩ := done
    obtain ⟨_, isNew, rows, _⟩ := Table.insert_eq_some.mp (Db.insertRow_eq_ok.mp inserted)
    have named : row.organizationId = organizationId := by rw [isNew]
    have present : ∀ other, other ∈ subscriptions.rows ↔ other ∈ db.subscriptions.rows ∨ other = row := by
      intro other
      rw [rows, ← isNew]
      simp
    refine ⟨.inr ⟨missing, _, isNew⟩, ?_, ?_⟩
    · rw [subscription_of_same (scheduleTimed_subscriptions ..), subscription_eq_some]
      exact ⟨(present row).mpr (.inr rfl), named⟩
    · intro organization other
      rw [subscription_of_same (scheduleTimed_subscriptions ..)]
      apply subscription_congr
      intro candidate isIts
      constructor
      · intro stored
        rcases (present candidate).mp stored with old | isRow
        · exact old
        · rw [isRow, named] at isIts
          exact absurd isIts.symm other
      · exact fun old => (present candidate).mpr (.inl old)

theorem subscriptionFor_total (settings : Settings) (now : Time) (db : Db) (organizationId : Nat) :
    ∃ after sub, subscriptionFor settings now db organizationId = .ok (after, sub) := by
  unfold subscriptionFor ensureSubscription
  split
  · exact ⟨_, _, rfl⟩
  · rename_i missing
    have free : ∀ row ∈ db.subscriptions.rows,
        Row.clash row (newSubscription settings now organizationId db.subscriptions.next) = false :=
      Table.one_none.mp missing
    have inserted : (db.subscriptions.insert (newSubscription settings now organizationId)).isSome := by
      unfold Table.insert
      rw [dif_pos free]
      rfl
    obtain ⟨⟨row, subscriptions⟩, added⟩ := Option.isSome_iff_exists.mp inserted
    have stored : Db.insertRow db.subscriptions (newSubscription settings now organizationId) = .ok (row, subscriptions) :=
      Db.insertRow_eq_ok.mpr added
    refine ⟨scheduleTimed settings now { db with subscriptions } row, row, ?_⟩
    exact Outcome.bind_eq_ok.mpr ⟨(row, subscriptions), stored, rfl⟩

inductive Moves (settings : Settings) (now : Time) (sub : OrganizationSubscription) : OrganizationSubscription → Prop where
  | still : Moves settings now sub sub
  | move (status : SubscriptionStatus) (allowed : status ∈ allowedTransitions sub.status) :
    Moves settings now sub (stamped now (moved settings now sub status))

theorem transitionStatus_lookup {newStatus : String} {change : Change} (stored : sub ∈ db.subscriptions.rows)
    (done : transitionStatus settings now db sub newStatus change = .ok (after, result)) :
    Moves settings now sub result ∧ subscription after sub.organizationId = some result ∧
      ∀ organization, organization ≠ sub.organizationId →
        subscription after organization = subscription db organization := by
  unfold transitionStatus at done
  split at done
  · cases done
    exact ⟨.still, subscription_eq_some.mpr ⟨stored, rfl⟩, fun _ _ => rfl⟩
  · simp only [Outcome.bind_eq_ok, Outcome.demand_eq_ok, Option.filter_eq_some_iff, Outcome.pure_eq_ok,
      Prod.mk.injEq, List.contains_iff_mem] at done
    obtain ⟨status, ⟨_, allowed⟩, rfl, rfl⟩ := done
    have present : sub ∈ (scheduleTimed settings now db (moved settings now sub status)).subscriptions.rows := by
      rw [scheduleTimed_subscriptions]
      exact stored
    have saved : ∀ organization, subscription (auditTransition now (saveSubscription
        (scheduleTimed settings now db (moved settings now sub status)) (stamped now (moved settings now sub status)))
        sub status change) organization = if sub.organizationId = organization
          then some (stamped now (moved settings now sub status)) else subscription db organization := by
      intro organization
      rw [← subscription_of_same (scheduleTimed_subscriptions settings now db (moved settings now sub status)) organization]
      exact subscription_save present rfl
    refine ⟨.move status allowed, ?_, ?_⟩
    · rw [saved, if_pos rfl]
    · intro organization other
      rw [saved, if_neg (Ne.symm other)]

theorem changePlan_lookup {newPlan : String} {actorId : Option Nat} (stored : sub ∈ db.subscriptions.rows)
    (done : changePlan settings now db sub newPlan actorId = .ok (after, result)) :
    (∃ plan, Plan.ofName newPlan = some plan ∧ newPlan ∈ settings.billingLaunchablePlans ∧
        result = replanned settings now sub plan) ∧
      ∀ organization, subscription after organization =
        if sub.organizationId = organization then some result else subscription db organization := by
  unfold changePlan at done
  simp only [Outcome.bind_eq_ok, Outcome.demand_eq_ok, Outcome.ensure_eq_ok, Outcome.pure_eq_ok, Prod.mk.injEq] at done
  obtain ⟨plan, named, _, launchable, rfl, rfl⟩ := done
  exact ⟨⟨plan, named, launchable, rfl⟩, fun organization => subscription_save stored rfl⟩

theorem applyWebhook_lookup {delivery : Delivery} {status : SubscriptionStatus} (stored : sub ∈ db.subscriptions.rows)
    (done : applyWebhook settings now db sub delivery = .ok (some (after, status))) :
    ∃ result, Moves settings now sub result ∧ subscription after sub.organizationId = some result ∧
      ∀ organization, organization ≠ sub.organizationId →
        subscription after organization = subscription db organization := by
  unfold applyWebhook at done
  simp only [Outcome.bind_eq_ok, Outcome.demand_eq_ok, Prod.exists] at done
  obtain ⟨target, _, middle, result, transition, rest⟩ := done
  split at rest
  · split at rest <;> cases rest
  · simp only [Outcome.pure_eq_ok, Option.some.injEq, Prod.mk.injEq] at rest
    obtain ⟨rfl, _⟩ := rest
    obtain ⟨moves, its, others⟩ := transitionStatus_lookup stored transition
    exact ⟨result, moves, its, others⟩

def Advances (settings : Settings) (now : Time) (db after : Db) (organization : Nat) : Prop :=
  ∃ sub result, Opened settings now db organization sub ∧ Moves settings now sub result ∧
    subscription after organization = some result

theorem reconcileSubscription_lookup (done : reconcileSubscription settings now db organizationId = .ok after) :
    Advances settings now db after organizationId ∧ ∀ organization, organization ≠ organizationId →
      subscription after organization = subscription db organization := by
  unfold reconcileSubscription at done
  simp only [Outcome.bind_eq_ok, Outcome.pure_eq_ok, Prod.exists] at done
  obtain ⟨read, sub, found, moved, result, transition, rfl⟩ := done
  obtain ⟨opened, readIts, readOthers⟩ := subscriptionFor_lookup found
  obtain ⟨stored, named⟩ := subscription_eq_some.mp readIts
  have advanced : Moves settings now sub result ∧ subscription moved sub.organizationId = some result ∧
      ∀ organization, organization ≠ sub.organizationId →
        subscription moved organization = subscription read organization := by
    unfold advanceDue at transition
    split at transition
    · exact transitionStatus_lookup stored transition
    · cases transition
      exact ⟨.still, by rw [named]; exact readIts, fun _ _ => rfl⟩
  obtain ⟨moves, movedIts, movedOthers⟩ := advanced
  rw [named] at movedIts movedOthers
  have scheduled := subscription_of_same (scheduleTimed_subscriptions settings now moved result)
  constructor
  · exact ⟨sub, result, opened, moves, by rw [scheduled]; exact movedIts⟩
  · intro organization other
    rw [scheduled, movedOthers organization other, readOthers organization other]

theorem Opened.of_same (same : subscription after organization = subscription db organization)
    (opened : Opened settings now after organization sub) : Opened settings now db organization sub := by
  unfold Opened at opened ⊢
  rwa [same] at opened

theorem foldReconcile_lookup {targets : List Nat} (distinct : targets.Nodup)
    (done : targets.foldlM (reconcileSubscription settings now) db = .ok after) (organization : Nat) :
    (organization ∉ targets ∧ subscription after organization = subscription db organization) ∨
      (organization ∈ targets ∧ Advances settings now db after organization) := by
  induction targets generalizing db with
  | nil =>
    cases done
    exact .inl ⟨by simp, rfl⟩
  | cons target rest ih =>
    rw [List.foldlM_cons] at done
    obtain ⟨middle, first, done⟩ := Outcome.bind_eq_ok.mp done
    obtain ⟨advances, others⟩ := reconcileSubscription_lookup first
    obtain ⟨fresh, distinct⟩ := List.nodup_cons.mp distinct
    have later := ih distinct done
    by_cases isTarget : organization = target
    · subst isTarget
      rcases later with ⟨_, same⟩ | ⟨again, _⟩
      · obtain ⟨sub, result, opened, moves, its⟩ := advances
        exact .inr ⟨by simp, sub, result, opened, moves, by rw [same]; exact its⟩
      · exact absurd again fresh
    · rcases later with ⟨absent, same⟩ | ⟨present, sub, result, opened, moves, its⟩
      · exact .inl ⟨by simp [isTarget, absent], same.trans (others organization isTarget)⟩
      · exact .inr ⟨by simp [present], sub, result, opened.of_same (others organization isTarget), moves, its⟩

theorem reconcileTargets_nodup (db : Db) (payload : Json) : (reconcileTargets db payload).Nodup := by
  have distinct : (db.subscriptions.rows.map (·.organizationId)).Nodup := by
    apply List.pairwise_map.mpr
    apply db.subscriptions.distinct.imp
    intro first second apart same
    have unequal := apart.2
    rw [show Row.clash first second = (first.organizationId == second.organizationId) from rfl, same] at unequal
    simp at unequal
  unfold reconcileTargets
  split
  · split
    · exact distinct
    · simp
  · exact distinct

theorem runReconcileJob_lookup {owner : String} (done : runReconcileJob settings now db owner = .ok after)
    (organization : Nat) : subscription after organization = subscription db organization ∨
      Advances settings now db after organization := by
  unfold runReconcileJob at done
  split at done
  · cases done
    exact .inl rfl
  · rename_i queueJobs job _
    obtain ⟨handled, handling, done⟩ := Outcome.bind_eq_ok.mp done
    cases done
    rcases foldReconcile_lookup (reconcileTargets_nodup _ _) handling organization with ⟨_, same⟩ | ⟨_, advances⟩
    · exact .inl same
    · exact .inr advances

theorem perform_lookup {operation : Operation} (done : perform settings now db operation = .ok after)
    (organization : Nat) : subscription after organization = subscription db organization ∨
      Advances settings now db after organization ∨
      ∃ sub newPlan actorId plan, Opened settings now db organization sub ∧
        operation = .changePlan organization newPlan actorId ∧ Plan.ofName newPlan = some plan ∧
        newPlan ∈ settings.billingLaunchablePlans ∧
        subscription after organization = some (replanned settings now sub plan) := by
  cases operation with
  | ensureSubscription organizationId =>
    obtain ⟨sub, done⟩ := Outcome.map_fst_ok.mp done
    obtain ⟨opened, its, others⟩ := subscriptionFor_lookup done
    by_cases isIt : organization = organizationId
    · rw [isIt]
      exact .inr (.inl ⟨sub, sub, opened, .still, its⟩)
    · exact .inl (others organization isIt)
  | processWebhook delivery =>
    obtain ⟨outcome, done⟩ := Outcome.map_fst_ok.mp done
    unfold processWebhook at done
    split at done
    · cases done
      exact .inl rfl
    · simp only [Outcome.bind_eq_ok, Prod.exists] at done
      obtain ⟨read, sub, found, applied, applying, rest⟩ := done
      obtain ⟨opened, its, others⟩ := subscriptionFor_lookup found
      obtain ⟨stored, named⟩ := subscription_eq_some.mp its
      split at rest
      · cases rest
        exact .inl rfl
      · cases rest
        obtain ⟨result, moves, after, afterOthers⟩ := applyWebhook_lookup stored applying
        rw [named] at after afterOthers
        by_cases isIt : organization = delivery.organizationId
        · rw [isIt]
          exact .inr (.inl ⟨sub, result, opened, moves, after⟩)
        · exact .inl ((afterOthers organization isIt).trans (others organization isIt))
  | transitionStatus organizationId newStatus actorId reason =>
    obtain ⟨⟨read, sub⟩, found, done⟩ := Outcome.bind_eq_ok.mp done
    obtain ⟨result, done⟩ := Outcome.map_fst_ok.mp done
    obtain ⟨opened, its, others⟩ := subscriptionFor_lookup found
    obtain ⟨stored, named⟩ := subscription_eq_some.mp its
    obtain ⟨moves, after, afterOthers⟩ := transitionStatus_lookup stored done
    rw [named] at after afterOthers
    by_cases isIt : organization = organizationId
    · rw [isIt]
      exact .inr (.inl ⟨sub, result, opened, moves, after⟩)
    · exact .inl ((afterOthers organization isIt).trans (others organization isIt))
  | changePlan organizationId newPlan actorId =>
    obtain ⟨⟨read, sub⟩, found, done⟩ := Outcome.bind_eq_ok.mp done
    obtain ⟨result, done⟩ := Outcome.map_fst_ok.mp done
    obtain ⟨opened, its, others⟩ := subscriptionFor_lookup found
    obtain ⟨stored, named⟩ := subscription_eq_some.mp its
    obtain ⟨⟨plan, isPlan, launchable, rfl⟩, afterAll⟩ := changePlan_lookup stored done
    rw [named] at afterAll
    by_cases isIt : organization = organizationId
    · subst isIt
      refine .inr (.inr ⟨sub, newPlan, actorId, plan, opened, rfl, isPlan, launchable, ?_⟩)
      rw [afterAll, if_pos rfl]
    · refine .inl ?_
      rw [afterAll, if_neg (Ne.symm isIt)]
      exact others organization isIt
  | reconcileSubscription organizationId =>
    obtain ⟨advances, others⟩ := reconcileSubscription_lookup done
    by_cases isIt : organization = organizationId
    · rw [isIt]
      exact .inr (.inl advances)
    · exact .inl (others organization isIt)
  | runReconcileJob owner =>
    rcases runReconcileJob_lookup done organization with same | advances
    · exact .inl same
    · exact .inr (.inl advances)

theorem SubscriptionStatus.ofName_name (status : SubscriptionStatus) :
    SubscriptionStatus.ofName status.name = some status := by
  cases status <;> decide

theorem transitionStatus_allowed {status : SubscriptionStatus} (change : Change)
    (allowed : status ∈ allowedTransitions sub.status) (other : status.name ≠ sub.status.name) :
    ∃ after, transitionStatus settings now db sub status.name change =
      .ok (after, stamped now (moved settings now sub status)) := by
  have found : (SubscriptionStatus.ofName status.name).filter
      (fun status => (allowedTransitions sub.status).contains status) = some status := by
    rw [SubscriptionStatus.ofName_name, Option.filter_some, if_pos (List.contains_iff_mem.mpr allowed)]
  unfold transitionStatus
  rw [if_neg other, found]
  exact ⟨_, rfl⟩

theorem subscriptionFor_stored (stored : subscription db organizationId = some sub) :
    subscriptionFor settings now db organizationId = .ok (db, sub) := by
  have found : db.subscriptions.one (·.organizationId == organizationId) = some sub := stored
  unfold subscriptionFor ensureSubscription
  rw [found]

theorem advanceDue_due {status : SubscriptionStatus} {reason : String}
    (due : dueTransition settings now sub = some (status, reason)) (allowed : status ∈ allowedTransitions sub.status)
    (other : status.name ≠ sub.status.name) :
    ∃ after, advanceDue settings now db sub = .ok (after, stamped now (moved settings now sub status)) := by
  unfold advanceDue
  rw [due]
  exact transitionStatus_allowed _ allowed other

theorem reconcileSubscription_stored (stored : subscription db organizationId = some sub)
    (advanced : advanceDue settings now db sub = .ok (after, result)) :
    reconcileSubscription settings now db organizationId = .ok (scheduleTimed settings now after result) := by
  unfold reconcileSubscription
  rw [subscriptionFor_stored stored, Outcome.ok_bind]
  change (advanceDue settings now db sub >>= _) = _
  rw [advanced]
  rfl

end Lookup

end Registry.Billing
