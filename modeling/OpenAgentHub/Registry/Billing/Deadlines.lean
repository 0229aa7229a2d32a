import OpenAgentHub.Registry.Billing.Subscriptions
import OpenAgentHub.Registry.Outbox.Attempts

namespace Registry.Billing

open Relational Outbox

def dueAt (settings : Settings) (sub : OrganizationSubscription) : Option Time :=
  match sub.status with
  | .trial => sub.trialEndsAt
  | .gracePeriod => sub.graceEndsAt
  | .pastDue => some (sub.updatedAt + days settings.billingPastDueDays)
  | _ => none

structure Reconciles (organizationId : Nat) (job : QueueJob) : Prop where
  jobType : job.jobType = "billing.reconcile"
  payload : job.payload = .obj [("organizationId", .num organizationId)]
  live : job.status = .queued ∨ job.status = .running

def Awaits (jobs : Jobs) (organizationId : Nat) (time : Time → Prop) : Prop :=
  ∃ job ∈ jobs.rows, Reconciles organizationId job ∧ time job.nextAttemptAt

def reconcileKey (organizationId : Nat) (deadline : Time) : String :=
  "billing:" ++ toString organizationId ++ ":" ++ toString deadline

structure Keyed (now : Time) (jobs : Jobs) : Prop where
  keyed : ∀ job ∈ jobs.rows, job.jobType = "billing.reconcile" → ∃ organizationId : Nat,
    job.payload = .obj [("organizationId", .num organizationId)] ∧
      job.dedupeKey = reconcileKey organizationId job.nextAttemptAt
  finished : ∀ job ∈ jobs.rows, job.jobType = "billing.reconcile" → job.status = .succeeded → job.nextAttemptAt < now

structure Punctual (settings : Settings) (now : Time) (db : Db) : Prop where
  jobs : Keyed now db.queueJobs
  past : ∀ sub ∈ db.subscriptions.rows, sub.updatedAt ≤ now
  awaited : ∀ sub ∈ db.subscriptions.rows, timed sub.status = true →
    ∃ deadline, dueAt settings sub = some deadline ∧ Awaits db.queueJobs sub.organizationId (· ≤ deadline)

structure PositiveDays (settings : Settings) : Prop where
  trial : 0 < settings.billingTrialDays
  grace : 0 < settings.billingGraceDays
  pastDue : 0 < settings.billingPastDueDays

theorem days_pos {count : Nat} (positive : 0 < count) : 0 < days count := by
  change 0 < count * 24 * 3600 * 1000000
  omega

section Keys

theorem toDigits_inj {first second : Nat} (same : Nat.toDigits 10 first = Nat.toDigits 10 second) : first = second := by
  have value := congrArg (Nat.ofDigitChars 10 · 0) same
  simpa only [Nat.ofDigitChars_ten_toDigits] using value

theorem colon_not_mem_toDigits (number : Nat) : ':' ∉ Nat.toDigits 10 number := by
  intro present
  have digit := Nat.isDigit_of_mem_toDigits (by omega) (by omega) present
  exact absurd digit (by decide)

theorem reconcileKey_inj {first second : Nat} {deadline other : Time}
    (same : reconcileKey first deadline = reconcileKey second other) : first = second ∧ deadline = other := by
  have chars := congrArg String.toList same
  simp only [reconcileKey, String.toList_append, Nat.toString_eq_ofList_toDigits, String.toList_ofList,
    List.append_assoc, List.append_cancel_left_eq] at chars
  obtain ⟨organization, _, time⟩ := (List.append_cons_inj_of_notMem (colon_not_mem_toDigits second)
    (colon_not_mem_toDigits other)).mp chars.symm
  exact ⟨(toDigits_inj organization).symm, (toDigits_inj time).symm⟩

end Keys

section Jobs

variable {settings : Settings} {now : Time} {db after : Db} {jobs grown : Jobs} {organizationId : Nat}
  {time other : Time → Prop}

theorem Awaits.imp (awaits : Awaits jobs organizationId time) (weaker : ∀ at_, time at_ → other at_) :
    Awaits jobs organizationId other := by
  obtain ⟨job, stored, reconciles, fits⟩ := awaits
  exact ⟨job, stored, reconciles, weaker _ fits⟩

theorem Awaits.grow (awaits : Awaits jobs organizationId time) (kept : jobs.rows ⊆ grown.rows) :
    Awaits grown organizationId time := by
  obtain ⟨job, stored, fits⟩ := awaits
  exact ⟨job, kept stored, fits⟩

theorem Keyed.later {later : Time} (keyed : Keyed now jobs) (passed : now ≤ later) : Keyed later jobs :=
  ⟨keyed.keyed, fun job stored isReconcile done => (keyed.finished job stored isReconcile done).trans_le passed⟩

theorem enqueueReconcile_grows (now : Time) (db : Db) (organizationId : Nat) (deadline : Time) :
    db.queueJobs.rows ⊆ (enqueueReconcile now db organizationId deadline).queueJobs.rows := by
  unfold enqueueReconcile DurableQueue.enqueue
  dsimp only
  split
  · exact List.Subset.refl _
  · exact List.subset_append_left _ _

theorem enqueueReconcile_spec (keyed : Keyed now db.queueJobs) {deadline : Time} (ahead : now ≤ deadline) :
    Keyed now (enqueueReconcile now db organizationId deadline).queueJobs ∧
      Awaits (enqueueReconcile now db organizationId deadline).queueJobs organizationId (· = deadline) := by
  unfold enqueueReconcile DurableQueue.enqueue
  dsimp only
  split
  · rename_i job found
    have stored := Table.one_mem found
    have blocks := Table.one_holds found
    simp only [Bool.and_eq_true, beq_iff_eq] at blocks
    obtain ⟨⟨jobType, key⟩, active⟩ := blocks
    obtain ⟨organization, payload, itsKey⟩ := keyed.keyed job stored jobType
    obtain ⟨rfl, sameTime⟩ := reconcileKey_inj (itsKey.symm.trans key)
    refine ⟨keyed, job, stored, ⟨jobType, payload, ?_⟩, sameTime⟩
    cases status : job.status with
    | queued => exact .inl rfl
    | running => exact .inr rfl
    | succeeded =>
      have passed := keyed.finished job stored jobType status
      rw [sameTime] at passed
      exact absurd passed (Nat.not_lt.mpr ahead)
    | dead =>
      rw [status] at active
      cases active
  · constructor
    · constructor
      · intro job stored isReconcile
        rcases List.mem_append.mp stored with old | new
        · exact keyed.keyed job old isReconcile
        · rw [List.mem_singleton.mp new]
          exact ⟨organizationId, rfl, rfl⟩
      · intro job stored isReconcile done
        rcases List.mem_append.mp stored with old | new
        · exact keyed.finished job old isReconcile done
        · rw [List.mem_singleton.mp new] at done
          cases done
    · exact ⟨_, List.mem_append_right _ (List.mem_singleton_self _), ⟨rfl, rfl, .inl rfl⟩, rfl⟩

variable {sub : OrganizationSubscription}

theorem scheduleTimed_grows (settings : Settings) (now : Time) (db : Db) (sub : OrganizationSubscription) :
    db.queueJobs.rows ⊆ (scheduleTimed settings now db sub).queueJobs.rows := by
  unfold scheduleTimed scheduleNextPending
  repeat' split
  all_goals first | exact enqueueReconcile_grows .. | exact List.Subset.refl _

theorem scheduleTimed_keyed (keyed : Keyed now db.queueJobs) (sub : OrganizationSubscription) :
    Keyed now (scheduleTimed settings now db sub).queueJobs := by
  unfold scheduleTimed scheduleNextPending
  split
  · split
    · split
      · rename_i ahead
        exact (enqueueReconcile_spec keyed ahead.le).1
      · exact keyed
    · split
      · rename_i ahead
        exact (enqueueReconcile_spec keyed ahead.le).1
      · exact keyed
    · exact (enqueueReconcile_spec keyed (Nat.le_max_right _ _)).1
    · exact keyed
  · exact keyed

/-- A deadline ahead is scheduled as it is, one that a past due row has missed at once. -/
theorem scheduleTimed_awaits (keyed : Keyed now db.queueJobs) {deadline : Time}
    (isDue : dueAt settings sub = some deadline) (ahead : now < deadline ∨ sub.status = .pastDue) :
    Awaits (scheduleTimed settings now db sub).queueJobs sub.organizationId (· = max deadline now) := by
  unfold scheduleTimed
  unfold dueAt at isDue
  cases status : sub.status with
  | trial =>
    simp only [status] at isDue
    have ahead : now < deadline := ahead.resolve_right (by simp [status])
    rw [if_pos (show timed .trial = true from rfl), Nat.max_eq_left ahead.le]
    unfold scheduleNextPending
    simp only [status, isDue, ahead, if_true]
    exact (enqueueReconcile_spec keyed ahead.le).2
  | gracePeriod =>
    simp only [status] at isDue
    have ahead : now < deadline := ahead.resolve_right (by simp [status])
    rw [if_pos (show timed .gracePeriod = true from rfl), Nat.max_eq_left ahead.le]
    unfold scheduleNextPending
    simp only [status, isDue, ahead, if_true]
    exact (enqueueReconcile_spec keyed ahead.le).2
  | pastDue =>
    simp only [status, Option.some.injEq] at isDue
    rw [if_pos (show timed .pastDue = true from rfl), ← isDue]
    unfold scheduleNextPending
    simp only [status]
    exact (enqueueReconcile_spec keyed (Nat.le_max_right _ _)).2
  | active | suspended | canceled => simp [status] at isDue

end Jobs

section Writes

variable {settings : Settings} {now : Time} {db after : Db} {sub : OrganizationSubscription}

theorem Punctual.of_same (punctual : Punctual settings now db) (subscriptions : after.subscriptions = db.subscriptions)
    (jobs : after.queueJobs = db.queueJobs) : Punctual settings now after := by
  constructor
  · rw [jobs]
    exact punctual.jobs
  · rw [subscriptions]
    exact punctual.past
  · rw [subscriptions, jobs]
    exact punctual.awaited

theorem Punctual.later {later : Time} (punctual : Punctual settings now db) (passed : now ≤ later) :
    Punctual settings later db :=
  ⟨punctual.jobs.later passed, fun sub stored => (punctual.past sub stored).trans passed, punctual.awaited⟩

theorem Punctual.schedule (punctual : Punctual settings now db) (sub : OrganizationSubscription) :
    Punctual settings now (scheduleTimed settings now db sub) := by
  constructor
  · exact scheduleTimed_keyed punctual.jobs sub
  · rw [scheduleTimed_subscriptions]
    exact punctual.past
  · rw [scheduleTimed_subscriptions]
    intro row stored isTimed
    obtain ⟨deadline, isDue, awaits⟩ := punctual.awaited row stored isTimed
    exact ⟨deadline, isDue, awaits.grow (scheduleTimed_grows ..)⟩

theorem Punctual.replace (punctual : Punctual settings now db) (stored : sub ∈ db.subscriptions.rows)
    {changed : OrganizationSubscription} (same : written changed sub = changed) (past : changed.updatedAt ≤ now)
    (awaited : timed changed.status = true → ∃ deadline, dueAt settings changed = some deadline ∧
      Awaits db.queueJobs changed.organizationId (· ≤ deadline)) :
    Punctual settings now (saveSubscription db changed) := by
  constructor
  · exact punctual.jobs
  · intro row present
    rcases (mem_saveSubscription stored same).mp present with rfl | ⟨old, _⟩
    · exact past
    · exact punctual.past row old
  · intro row present
    rcases (mem_saveSubscription stored same).mp present with rfl | ⟨old, _⟩
    · exact awaited
    · exact punctual.awaited row old

theorem Punctual.create (punctual : Punctual settings now db) (positive : PositiveDays settings) {organizationId : Nat}
    {subscriptions : Table OrganizationSubscription} (rows : subscriptions.rows = db.subscriptions.rows ++
      [newSubscription settings now organizationId db.subscriptions.next]) :
    Punctual settings now (scheduleTimed settings now { db with subscriptions }
      (newSubscription settings now organizationId db.subscriptions.next)) := by
  have cases : ∀ row ∈ subscriptions.rows, row ∈ db.subscriptions.rows ∨
      row = newSubscription settings now organizationId db.subscriptions.next := by
    intro row stored
    rw [rows] at stored
    exact (List.mem_append.mp stored).imp_right List.mem_singleton.mp
  have keyed : Keyed now { db with subscriptions }.queueJobs := punctual.jobs
  constructor
  · exact scheduleTimed_keyed keyed _
  · rw [scheduleTimed_subscriptions]
    intro row stored
    rcases cases row stored with old | rfl
    · exact punctual.past row old
    · exact Nat.le_refl now
  · rw [scheduleTimed_subscriptions]
    intro row stored isTimed
    rcases cases row stored with old | rfl
    · obtain ⟨deadline, isDue, awaits⟩ := punctual.awaited row old isTimed
      exact ⟨deadline, isDue, awaits.grow (scheduleTimed_grows settings now { db with subscriptions } _)⟩
    · have ahead : now < now + days settings.billingTrialDays := Nat.lt_add_of_pos_right (days_pos positive.trial)
      have isDue : dueAt settings (newSubscription settings now organizationId db.subscriptions.next) =
          some (now + days settings.billingTrialDays) := rfl
      refine ⟨_, isDue, (scheduleTimed_awaits keyed isDue (.inl ahead)).imp fun at_ same => ?_⟩
      rw [same, Nat.max_eq_left ahead.le]

theorem Punctual.transition (punctual : Punctual settings now db) (positive : PositiveDays settings)
    (stored : sub ∈ db.subscriptions.rows) {status : SubscriptionStatus} (allowed : status ∈ allowedTransitions sub.status) :
    Punctual settings now (saveSubscription (scheduleTimed settings now db (moved settings now sub status))
      (stamped now (moved settings now sub status))) := by
  have present : sub ∈ (scheduleTimed settings now db (moved settings now sub status)).subscriptions.rows := by
    rw [scheduleTimed_subscriptions]
    exact stored
  refine (punctual.schedule (moved settings now sub status)).replace present rfl (Nat.le_refl now) ?_
  intro isTimed
  cases status with
  | trial => cases was : sub.status <;> simp [was, allowedTransitions] at allowed
  | gracePeriod =>
    have ahead : now < now + days settings.billingGraceDays := Nat.lt_add_of_pos_right (days_pos positive.grace)
    refine ⟨now + days settings.billingGraceDays, by simp [dueAt, stamped, moved], ?_⟩
    refine (scheduleTimed_awaits punctual.jobs (by simp [dueAt, moved]) (.inl ahead)).imp fun at_ same => ?_
    rw [same, Nat.max_eq_left ahead.le]
  | pastDue =>
    refine ⟨now + days settings.billingPastDueDays, rfl, ?_⟩
    refine (scheduleTimed_awaits punctual.jobs rfl (.inr rfl)).imp fun at_ same => ?_
    rw [same]
    exact Nat.max_le.mpr ⟨Nat.add_le_add_right (punctual.past sub stored) _, Nat.le_add_right _ _⟩
  | active | suspended | canceled => cases isTimed

theorem Punctual.plan (punctual : Punctual settings now db) (stored : sub ∈ db.subscriptions.rows) (plan : Plan) :
    Punctual settings now (saveSubscription db (replanned settings now sub plan)) := by
  have past := punctual.past sub stored
  have stamp : sub.updatedAt ≤ (replanned settings now sub plan).updatedAt ∧
      (replanned settings now sub plan).updatedAt ≤ now := by
    unfold replanned
    dsimp only
    split
    · exact ⟨Nat.le_refl _, past⟩
    · exact ⟨past, Nat.le_refl _⟩
  refine punctual.replace stored rfl stamp.2 ?_
  intro isTimed
  obtain ⟨deadline, isDue, awaits⟩ := punctual.awaited sub stored isTimed
  have sameStatus : (replanned settings now sub plan).status = sub.status := rfl
  unfold dueAt at isDue ⊢
  rw [sameStatus]
  cases status : sub.status with
  | trial =>
    simp only [status] at isDue
    exact ⟨deadline, isDue, awaits⟩
  | gracePeriod =>
    simp only [status] at isDue
    exact ⟨deadline, isDue, awaits⟩
  | pastDue =>
    simp only [status, Option.some.injEq] at isDue
    refine ⟨_, rfl, awaits.imp fun at_ early => early.trans ?_⟩
    rw [← isDue]
    exact Nat.add_le_add_right stamp.1 _
  | active | suspended | canceled => simp [status] at isDue

theorem Effect.punctual (effect : Effect settings now db after) (positive : PositiveDays settings)
    (punctual : Punctual settings now db) : Punctual settings now after := by
  cases effect with
  | created organizationId subscriptions absent rows => exact punctual.create positive rows
  | scheduled sub stored => exact punctual.schedule sub
  | transitioned sub stored status allowed change => exact (punctual.transition positive stored allowed).of_same rfl rfl
  | planned sub stored plan event other => exact (punctual.plan stored plan).of_same rfl rfl
  | received events event other => exact punctual.of_same rfl rfl

theorem punctual_of_effects (effects : Effects settings now db after) (positive : PositiveDays settings)
    (punctual : Punctual settings now db) : Punctual settings now after := by
  induction effects with
  | refl => exact punctual
  | tail _ effect ih => exact effect.punctual positive ih

theorem Effect.grows (effect : Effect settings now db after) : db.queueJobs.rows ⊆ after.queueJobs.rows := by
  cases effect with
  | created organizationId subscriptions absent rows => exact scheduleTimed_grows settings now { db with subscriptions } _
  | scheduled sub stored => exact scheduleTimed_grows ..
  | transitioned sub stored status allowed change => exact scheduleTimed_grows settings now db _
  | planned sub stored plan event other => exact List.Subset.refl _
  | received events event other => exact List.Subset.refl _

theorem grows_of_effects (effects : Effects settings now db after) : db.queueJobs.rows ⊆ after.queueJobs.rows := by
  induction effects with
  | refl => exact List.Subset.refl _
  | tail _ effect ih => exact List.Subset.trans ih effect.grows

end Writes

def Ahead (settings : Settings) (now : Time) (db : Db) (organizationId : Nat) : Prop :=
  ∀ sub, subscription db organizationId = some sub → timed sub.status = true →
    ∃ deadline, dueAt settings sub = some deadline ∧
      Awaits db.queueJobs organizationId fun at_ => now < at_ ∧ at_ ≤ deadline

section Reconcile

variable {settings : Settings} {now : Time} {db after : Db} {sub result : OrganizationSubscription} {organizationId : Nat}

theorem dueTransition_cases {status : SubscriptionStatus} {reason : String}
    (due : dueTransition settings now sub = some (status, reason)) :
    status ∈ allowedTransitions sub.status ∧ status.name ≠ sub.status.name ∧
      (status = .pastDue ∨ status = .suspended) := by
  unfold dueTransition at due
  split at due
  · rename_i was
    split at due <;> cases due
    rw [was]
    decide
  · rename_i was
    split at due <;> cases due
    rw [was]
    decide
  · rename_i was
    split at due <;> cases due
    rw [was]
    decide
  · cases due

theorem advanceDue_ahead (positive : PositiveDays settings) (punctual : Punctual settings now db)
    (stored : sub ∈ db.subscriptions.rows) (advanced : advanceDue settings now db sub = .ok (after, result))
    (isTimed : timed result.status = true) : ∃ deadline, dueAt settings result = some deadline ∧ now < deadline := by
  cases due : dueTransition settings now sub with
  | some transition =>
    obtain ⟨status, reason⟩ := transition
    obtain ⟨allowed, other, isTarget⟩ := dueTransition_cases due
    obtain ⟨_, made⟩ : ∃ after, advanceDue settings now db sub = .ok (after, _) := advanceDue_due due allowed other
    rw [made] at advanced
    cases advanced
    rcases isTarget with rfl | rfl
    · exact ⟨_, rfl, Nat.lt_add_of_pos_right (days_pos positive.pastDue)⟩
    · cases isTimed
  | none =>
    unfold advanceDue at advanced
    rw [due] at advanced
    cases advanced
    obtain ⟨deadline, isDue, _⟩ := punctual.awaited sub stored isTimed
    refine ⟨deadline, isDue, Nat.lt_of_not_le fun passed => ?_⟩
    unfold dueAt at isDue
    unfold dueTransition at due
    cases status : sub.status with
    | trial => simp [status] at isDue due; simp [isDue, passed] at due
    | gracePeriod => simp [status] at isDue due; simp [isDue, passed] at due
    | pastDue => simp [status] at isDue due; simp [isDue, Nat.not_lt.mpr passed] at due
    | active | suspended | canceled => simp [status] at isDue

theorem reconcileSubscription_ahead (positive : PositiveDays settings) (punctual : Punctual settings now db)
    (done : reconcileSubscription settings now db organizationId = .ok after) :
    Ahead settings now after organizationId := by
  unfold reconcileSubscription at done
  simp only [Outcome.bind_eq_ok, Outcome.pure_eq_ok, Prod.exists] at done
  obtain ⟨read, sub, found, advanced, result, advancing, rfl⟩ := done
  obtain ⟨way, stored, named⟩ := subscriptionFor_effects found
  have punctualRead := punctual_of_effects way positive punctual
  have next : Effects settings now read advanced ∧ result ∈ advanced.subscriptions.rows ∧
      result.organizationId = sub.organizationId := by
    cases due : dueTransition settings now sub with
    | some transition =>
      have made := advancing
      unfold advanceDue at made
      rw [due] at made
      exact transitionStatus_effects stored made
    | none =>
      have kept := advancing
      unfold advanceDue at kept
      rw [due] at kept
      cases kept
      exact ⟨.refl, stored, rfl⟩
  obtain ⟨way, resultStored, resultNamed⟩ := next
  have punctualAdvanced := punctual_of_effects way positive punctualRead
  have its : subscription (scheduleTimed settings now advanced result) organizationId = some result := by
    rw [subscription_of_same (scheduleTimed_subscriptions ..), subscription_eq_some]
    exact ⟨resultStored, resultNamed.trans named⟩
  intro row isRow isTimed
  rw [its] at isRow
  cases isRow
  obtain ⟨deadline, isDue, ahead⟩ := advanceDue_ahead positive punctualRead stored advancing isTimed
  have awaits := scheduleTimed_awaits punctualAdvanced.jobs isDue (.inl ahead)
  rw [resultNamed.trans named] at awaits
  refine ⟨deadline, isDue, awaits.imp fun at_ same => ?_⟩
  rw [same, Nat.max_eq_left ahead.le]
  exact ⟨ahead, Nat.le_refl _⟩

theorem advanceDue_total (settings : Settings) (now : Time) (db : Db) (sub : OrganizationSubscription) :
    ∃ after result, advanceDue settings now db sub = .ok (after, result) := by
  cases due : dueTransition settings now sub with
  | some transition =>
    obtain ⟨status, reason⟩ := transition
    obtain ⟨allowed, other, _⟩ := dueTransition_cases due
    obtain ⟨after, made⟩ : ∃ after, advanceDue settings now db sub = .ok (after, _) := advanceDue_due due allowed other
    exact ⟨after, _, made⟩
  | none =>
    unfold advanceDue
    rw [due]
    exact ⟨db, sub, rfl⟩

theorem foldReconcile_total (settings : Settings) (now : Time) (db : Db) (targets : List Nat) :
    ∃ after, targets.foldlM (reconcileSubscription settings now) db = .ok after := by
  induction targets generalizing db with
  | nil => exact ⟨db, rfl⟩
  | cons target rest ih =>
    obtain ⟨read, sub, found⟩ := subscriptionFor_total settings now db target
    obtain ⟨advanced, result, advancing⟩ := advanceDue_total settings now read sub
    obtain ⟨after, done⟩ := ih (scheduleTimed settings now advanced result)
    refine ⟨after, ?_⟩
    rw [List.foldlM_cons, Outcome.bind_eq_ok]
    refine ⟨_, ?_, done⟩
    unfold reconcileSubscription
    rw [found, Outcome.ok_bind]
    change (advanceDue settings now read sub >>= _) = _
    rw [advancing]
    rfl

/-- The handler of a reconcile job never raises, so a job that is run is completed. -/
theorem runReconcileJob_total (settings : Settings) (now : Time) (db : Db) (owner : String) :
    ∃ after, runReconcileJob settings now db owner = .ok after := by
  unfold runReconcileJob
  split
  · exact ⟨db, rfl⟩
  · rename_i queueJobs job _
    obtain ⟨handled, handling⟩ := foldReconcile_total settings now { db with queueJobs }
      (reconcileTargets { db with queueJobs } job.payload)
    refine ⟨_, Outcome.bind_eq_ok.mpr ⟨handled, handling, rfl⟩⟩

theorem Ahead.keep (ahead : Ahead settings now db organizationId)
    (same : subscription after organizationId = subscription db organizationId)
    (grows : db.queueJobs.rows ⊆ after.queueJobs.rows) : Ahead settings now after organizationId := by
  intro sub its isTimed
  rw [same] at its
  obtain ⟨deadline, isDue, awaits⟩ := ahead sub its isTimed
  exact ⟨deadline, isDue, awaits.grow grows⟩

theorem foldReconcile_ahead (positive : PositiveDays settings) {targets : List Nat} (distinct : targets.Nodup)
    (punctual : Punctual settings now db) (done : targets.foldlM (reconcileSubscription settings now) db = .ok after) :
    ∀ target ∈ targets, Ahead settings now after target := by
  induction targets generalizing db with
  | nil => exact fun _ present => nomatch present
  | cons first rest ih =>
    rw [List.foldlM_cons] at done
    obtain ⟨middle, reconciled, restDone⟩ := Outcome.bind_eq_ok.mp done
    obtain ⟨fresh, restDistinct⟩ := List.nodup_cons.mp distinct
    have punctualMiddle := punctual_of_effects (reconcileSubscription_effects reconciled) positive punctual
    intro target present
    rcases List.mem_cons.mp present with rfl | later
    · -- the later organizations leave the row of this one alone
      rcases foldReconcile_lookup restDistinct restDone target with ⟨_, same⟩ | ⟨again, _⟩
      · exact (reconcileSubscription_ahead positive punctual reconciled).keep same
          (grows_of_effects (foldReconcile_effects restDone))
      · exact absurd again fresh
    · exact ih restDistinct punctualMiddle restDone target later

end Reconcile

section Runs

variable {settings : Settings} {now : Time} {db after : Db} {organizationId : Nat}

theorem Punctual.lease (punctual : Punctual settings now db) {queueJobs : Jobs} {owner : String}
    {condition : QueueJob → Bool}
    (rewrites : Rewrites condition (DurableQueue.leased {} now owner) db.queueJobs queueJobs) :
    Punctual settings now { db with queueJobs } := by
  constructor
  · constructor
    · intro row stored
      rcases rewrites.cases stored with ⟨job, old, _, rfl⟩ | ⟨old, _⟩
      · exact punctual.jobs.keyed job old
      · exact punctual.jobs.keyed row old
    · intro row stored
      rcases rewrites.cases stored with ⟨job, old, _, rfl⟩ | ⟨old, _⟩
      · exact fun _ => (nomatch ·)
      · exact punctual.jobs.finished row old
  · exact punctual.past
  · intro sub stored isTimed
    obtain ⟨deadline, isDue, job, present, reconciles, early⟩ := punctual.awaited sub stored isTimed
    refine ⟨deadline, isDue, ?_⟩
    cases matched : condition job with
    | false => exact ⟨job, rewrites.kept present matched, reconciles, early⟩
    | true =>
      refine ⟨DurableQueue.leased {} now owner job, ?_, ⟨reconciles.jobType, reconciles.payload, .inr rfl⟩, early⟩
      rw [Rewrites] at rewrites
      change _ ∈ queueJobs.rows
      rw [rewrites]
      exact List.mem_map.mpr ⟨job, present, by simp [matched]⟩

theorem Punctual.complete (punctual : Punctual settings now db) {job : QueueJob} (stored : job ∈ db.queueJobs.rows)
    (arrived : job.nextAttemptAt ≤ now)
    (payload : job.payload = .obj [("organizationId", .num organizationId)])
    (ahead : Ahead settings now db organizationId) :
    Punctual settings (now + 1) { db with queueJobs := DurableQueue.complete now db.queueJobs job.id } := by
  have preserves : Table.Preserves (DurableQueue.completed now) := fun _ => ⟨rfl, fun _ => rfl⟩
  have rows : ∀ row, row ∈ (DurableQueue.complete now db.queueJobs job.id).rows ↔
      row = DurableQueue.completed now job ∨ (row ∈ db.queueJobs.rows ∧ row.id ≠ job.id) := by
    intro row
    have modified : row ∈ (DurableQueue.complete now db.queueJobs job.id).rows ↔
      ∃ old ∈ db.queueJobs.rows, (if old.id == job.id then DurableQueue.completed now old else old) = row :=
        Table.mem_modify preserves
    rw [modified]
    constructor
    · rintro ⟨old, present, rfl⟩
      by_cases isJob : old.id = job.id
      · have equal : old = job := Table.eq_of_id present stored isJob
        rw [equal, if_pos (by simp)]
        exact .inl rfl
      · rw [if_neg (by simpa using isJob)]
        exact .inr ⟨present, isJob⟩
    · rintro (rfl | ⟨present, other⟩)
      · exact ⟨job, stored, by simp⟩
      · exact ⟨row, present, by rw [if_neg (by simpa using other)]⟩
  constructor
  · constructor
    · intro row present
      rcases (rows row).mp present with rfl | ⟨old, _⟩
      · exact punctual.jobs.keyed job stored
      · exact punctual.jobs.keyed row old
    · intro row present isReconcile done
      rcases (rows row).mp present with rfl | ⟨old, _⟩
      · exact Nat.lt_succ_of_le arrived
      · exact Nat.lt_succ_of_lt (punctual.jobs.finished row old isReconcile done)
  · exact fun sub present => (punctual.past sub present).trans (Nat.le_succ now)
  · intro sub present isTimed
    -- the job that stays is another one: for another organization, or for a later time
    by_cases isIts : sub.organizationId = organizationId
    · have its : subscription db organizationId = some sub := subscription_eq_some.mpr ⟨present, isIts⟩
      obtain ⟨deadline, isDue, next, nextStored, reconciles, later, early⟩ := ahead sub its isTimed
      refine ⟨deadline, isDue, next, (rows next).mpr (.inr ⟨nextStored, ?_⟩), by rw [isIts]; exact reconciles, early⟩
      intro same
      rw [Table.eq_of_id nextStored stored same] at later
      exact absurd arrived (Nat.not_le.mpr later)
    · obtain ⟨deadline, isDue, next, nextStored, reconciles, early⟩ := punctual.awaited sub present isTimed
      refine ⟨deadline, isDue, next, (rows next).mpr (.inr ⟨nextStored, ?_⟩), reconciles, early⟩
      intro same
      have samePayload := reconciles.payload
      rw [Table.eq_of_id nextStored stored same, payload] at samePayload
      simp only [Json.obj.injEq, List.cons.injEq, Prod.mk.injEq, Json.num.injEq] at samePayload
      exact isIts (Int.ofNat_inj.mp samePayload.1.2).symm

theorem mem_reconcileTargets {payload : Json} (named : payload = .obj [("organizationId", .num organizationId)])
    (present : organizationId ≠ 0 ∨ ∃ sub, subscription db organizationId = some sub) :
    organizationId ∈ reconcileTargets db payload := by
  have targets : reconcileTargets db payload = if organizationId = 0 then db.subscriptions.rows.map (·.organizationId)
      else [organizationId] := by
    rw [named]
    by_cases zero : organizationId = 0
    · simp [reconcileTargets, Json.get, zero]
    · simp [reconcileTargets, Json.get, zero]
  rw [targets]
  split
  · rename_i zero
    rcases present with nonzero | ⟨sub, its⟩
    · exact absurd zero nonzero
    · obtain ⟨stored, isIts⟩ := subscription_eq_some.mp its
      exact List.mem_map.mpr ⟨sub, stored, isIts⟩
  · exact List.mem_singleton_self _

theorem handleReconcile_ahead (positive : PositiveDays settings) (punctual : Punctual settings now db) {payload : Json}
    (named : payload = .obj [("organizationId", .num organizationId)])
    (done : handleReconcile settings now db payload = .ok after) : Ahead settings now after organizationId := by
  rcases foldReconcile_lookup (reconcileTargets_nodup _ _) done organizationId with ⟨absent, same⟩ | ⟨target, _⟩
  · intro sub its
    rw [same] at its
    exact absurd (mem_reconcileTargets named (.inr ⟨sub, its⟩)) absent
  · exact foldReconcile_ahead positive (reconcileTargets_nodup _ _) punctual done organizationId target

theorem runReconcileJob_punctual (positive : PositiveDays settings) (punctual : Punctual settings now db) {owner : String}
    (done : runReconcileJob settings now db owner = .ok after) : Punctual settings (now + 1) after := by
  unfold runReconcileJob at done
  rcases claim_cases {} now db.queueJobs "billing.reconcile" owner with ⟨_, claimed⟩ |
      ⟨job, queueJobs, stored, ready, claimed, rewrites, _⟩
  · rw [claimed] at done
    cases done
    exact punctual.later (Nat.le_succ now)
  · rw [claimed] at done
    obtain ⟨handled, handling, done⟩ := Outcome.bind_eq_ok.mp done
    cases done
    have punctualClaimed : Punctual settings now { db with queueJobs } := punctual.lease rewrites
    obtain ⟨organizationId, payload, _⟩ := punctual.jobs.keyed job stored ready.jobType
    have leased : DurableQueue.leased {} now owner job ∈ queueJobs.rows := by
      rw [Rewrites] at rewrites
      rw [rewrites]
      exact List.mem_map.mpr ⟨job, stored, by simp [ready.queued]⟩
    have way : Effects settings now { db with queueJobs } handled := foldReconcile_effects handling
    have running : DurableQueue.leased {} now owner job ∈ handled.queueJobs.rows := grows_of_effects way leased
    have completed := (punctual_of_effects way positive punctualClaimed).complete running ready.arrived payload
      (handleReconcile_ahead positive punctualClaimed payload handling)
    exact completed

theorem perform_punctual (positive : PositiveDays settings) (punctual : Punctual settings now db) {operation : Operation}
    (done : perform settings now db operation = .ok after) : Punctual settings (now + 1) after := by
  have of_effects : Effects settings now db after → Punctual settings (now + 1) after := fun effects =>
    (punctual_of_effects effects positive punctual).later (Nat.le_succ now)
  cases operation with
  | ensureSubscription organizationId =>
    obtain ⟨_, done⟩ := Outcome.map_fst_ok.mp done
    exact of_effects (subscriptionFor_effects done).1
  | processWebhook delivery =>
    obtain ⟨_, done⟩ := Outcome.map_fst_ok.mp done
    exact of_effects (processWebhook_effects done)
  | transitionStatus organizationId newStatus actorId reason =>
    obtain ⟨⟨read, sub⟩, found, done⟩ := Outcome.bind_eq_ok.mp done
    obtain ⟨_, done⟩ := Outcome.map_fst_ok.mp done
    obtain ⟨way, stored, _⟩ := subscriptionFor_effects found
    exact of_effects (way.trans (transitionStatus_effects stored done).1)
  | changePlan organizationId newPlan actorId =>
    obtain ⟨⟨read, sub⟩, found, done⟩ := Outcome.bind_eq_ok.mp done
    obtain ⟨_, done⟩ := Outcome.map_fst_ok.mp done
    obtain ⟨way, stored, _⟩ := subscriptionFor_effects found
    exact of_effects (way.trans (changePlan_effects stored done))
  | reconcileSubscription organizationId => exact of_effects (reconcileSubscription_effects done)
  | runReconcileJob owner => exact runReconcileJob_punctual positive punctual done

end Runs

def later (ledger : Ledger) (request : Request) : Prop := ledger.clock < request.now

/-- In every state of every run, the deadline of a timed subscription has a job that does not come too late
    for it. -/
theorem timed_subscriptions_are_awaited (settings : Settings) (positive : PositiveDays settings) {start ledger : Ledger}
    (unbilled : Unbilled start.db) (reached : Runs.Reaches (Runs.guarded (serve settings) later) start ledger) :
    ∀ sub ∈ ledger.db.subscriptions.rows, timed sub.status = true →
      ∃ deadline, dueAt settings sub = some deadline ∧
        Awaits ledger.db.queueJobs sub.organizationId (· ≤ deadline) := by
  have punctual : Punctual settings (ledger.clock + 1) ledger.db := by
    apply reached.invariant fun ledger => Punctual settings (ledger.clock + 1) ledger.db
    · constructor
      · exact ⟨fun job stored isReconcile => absurd isReconcile (unbilled.jobs job stored),
          fun job stored isReconcile => absurd isReconcile (unbilled.jobs job stored)⟩
      · rw [unbilled.subscriptions]
        exact fun _ stored => nomatch stored
      · rw [unbilled.subscriptions]
        exact fun _ stored => nomatch stored
    · rintro before request _ _ punctual ⟨isLater, rfl⟩
      have present := punctual.later isLater
      cases done : perform settings request.now before.db request.operation with
      | ok db =>
        rw [serve_ok done]
        exact perform_punctual positive present done
      | error raised =>
        rw [serve_error done]
        exact present.later (Nat.le_succ _)
  exact punctual.awaited

def lapsing : List Request :=
  [⟨days 1, .ensureSubscription 1⟩, ⟨days 3, .processWebhook ⟨1, "stripe", "evt_1", "invoice.payment_failed", .obj []⟩⟩,
    ⟨days 10, .runReconcileJob "worker"⟩]

theorem timed_subscriptions_are_awaited_lapsing :
    ∃ sub ∈ (lapsing.foldl (serve {}) ⟨{}, 0⟩).db.subscriptions.rows, sub.status = .pastDue ∧
      ∃ deadline, dueAt {} sub = some deadline ∧
        Awaits (lapsing.foldl (serve {}) ⟨{}, 0⟩).db.queueJobs sub.organizationId (· ≤ deadline) := by
  have lapsed : ∃ sub ∈ (lapsing.foldl (serve {}) ⟨{}, 0⟩).db.subscriptions.rows, sub.status = .pastDue := by
    decide +kernel
  obtain ⟨sub, stored, pastDue⟩ := lapsed
  have unbilled : Unbilled {} := ⟨rfl, rfl, by simp [Table.empty], by simp [Table.empty]⟩
  have met : Runs.AllMeet (serve {}) later ⟨{}, 0⟩ lapsing := by
    simp [lapsing, Runs.AllMeet, later, serve, days, hours, seconds]
  refine ⟨sub, stored, pastDue, ?_⟩
  exact timed_subscriptions_are_awaited {} ⟨by decide, by decide, by decide⟩ unbilled (Runs.reaches_guarded met) sub stored
    (by rw [pastDue]; rfl)

end Registry.Billing
