import OpenAgentHub.Registry.Outbox.Dispatch
import Mathlib.Data.List.Nodup

namespace Registry.Outbox

open Relational DurableQueue

def HasJob (jobs : Jobs) (key : JobKey) : Prop := ∃ job ∈ jobs.rows, jobKey job = key

def Free (jobs : Jobs) (key : JobKey) : Prop :=
  ∀ job ∈ jobs.rows, activeJob job.status = true → jobKey job ≠ key

def Unique (jobs : Jobs) : Prop :=
  ∀ first ∈ jobs.rows, ∀ second ∈ jobs.rows, activeJob first.status = true → activeJob second.status = true →
    jobKey first = jobKey second → first.id = second.id

def Published (str : Json → String) (broker : Broker) : Prop :=
  ∀ event ∈ broker.events.rows, event.publishedAt ≠ none → ∀ call, jobFor str event = some call →
    HasJob broker.jobs call.key

def revivesFreely (jobs : Jobs) (jobId : Nat) : Prop :=
  ∀ job ∈ jobs.rows, job.id = jobId → job.status = .dead → Free jobs (jobKey job)

def bringsFreeKeys (broker : Broker) : Move → Prop
  | .commit number => ∀ transaction ∈ broker.transactions number, transaction.errands.isEmpty = true →
      ∀ added ∈ transaction.inserted, Free broker.jobs added.1.key
  | .complete _ jobId => revivesFreely broker.jobs jobId
  | .settle _ seen _ => seen.attempts < seen.maxAttempts → revivesFreely broker.jobs seen.id
  | _ => True

instance (jobs : Jobs) (key : JobKey) : Decidable (Free jobs key) :=
  inferInstanceAs (Decidable (∀ job ∈ jobs.rows, _))

instance (jobs : Jobs) : Decidable (Unique jobs) := inferInstanceAs (Decidable (∀ first ∈ jobs.rows, _))

instance (jobs : Jobs) (jobId : Nat) : Decidable (revivesFreely jobs jobId) :=
  inferInstanceAs (Decidable (∀ job ∈ jobs.rows, _))

instance (broker : Broker) (move : Move) : Decidable (bringsFreeKeys broker move) :=
  match move with
  | .commit number => inferInstanceAs (Decidable (∀ transaction ∈ broker.transactions number, _))
  | .complete _ jobId => inferInstanceAs (Decidable (revivesFreely broker.jobs jobId))
  | .settle _ seen _ => inferInstanceAs (Decidable (seen.attempts < seen.maxAttempts → _))
  | .begin _ | .enter .. | .select .. | .insert .. | .crash _ | .addEvent .. | .lease .. | .reapStaleLeases _ =>
    isTrue trivial

section Uniqueness

variable {jobs : Jobs} {condition : QueueJob → Bool} {key : JobKey}

theorem not_active_iff {status : JobStatus} : activeJob status = false ↔ status = .dead := by
  cases status <;> simp [activeJob]

theorem Unique.push (make : Nat → QueueJob) (made : ∀ id, Row.id (make id) = id)
    (active : activeJob (make jobs.next).status = true) :
    Unique (jobs.push make made) ↔ Unique jobs ∧ Free jobs (jobKey (make jobs.next)) := by
  have rows : (jobs.push make made).rows = jobs.rows ++ [make jobs.next] := rfl
  constructor
  · intro unique
    refine ⟨?_, ?_⟩
    · intro first left second right
      exact unique first (by simp [rows, left]) second (by simp [rows, right])
    · intro job stored isActive same
      have equal := unique job (by simp [rows, stored]) (make jobs.next) (by simp [rows]) isActive active same
      have below := jobs.ids_below job stored
      have new : (make jobs.next).id = jobs.next := made jobs.next
      change job.id < jobs.next at below
      rw [equal, new] at below
      exact absurd below (Nat.lt_irrefl _)
  · rintro ⟨unique, free⟩ first left second right one two same
    rw [rows, List.mem_append, List.mem_singleton] at left right
    rcases left with left | rfl
    · rcases right with right | rfl
      · exact unique first left second right one two same
      · exact absurd same (free first left one)
    · rcases right with right | rfl
      · exact absurd same.symm (free second right two)
      · rfl

theorem Free.push (make : Nat → QueueJob) (made : ∀ id, Row.id (make id) = id)
    (active : activeJob (make jobs.next).status = true) :
    Free (jobs.push make made) key ↔ Free jobs key ∧ jobKey (make jobs.next) ≠ key := by
  have rows : (jobs.push make made).rows = jobs.rows ++ [make jobs.next] := rfl
  simp only [Free, rows, List.mem_append, List.mem_singleton]
  constructor
  · intro free
    exact ⟨fun job stored => free job (.inl stored), free _ (.inr rfl) active⟩
  · rintro ⟨free, apart⟩ job (stored | rfl) isActive
    · exact free job stored isActive
    · exact apart

theorem Unique.modify (unique : Unique jobs) (update : QueueJob → QueueJob) (preserves : Table.Preserves update)
    (keys : ∀ job, jobKey (update job) = jobKey job)
    (shrinks : ∀ job, condition job = true → activeJob (update job).status = true → activeJob job.status = true) :
    Unique (jobs.modify condition update preserves) := by
  have back : ∀ job, jobKey (if condition job then update job else job) = jobKey job ∧
      (if condition job then update job else job).id = job.id ∧
      (activeJob (if condition job then update job else job).status = true → activeJob job.status = true) := by
    intro job
    split
    · rename_i matched
      exact ⟨keys job, (preserves job).1, shrinks job matched⟩
    · exact ⟨rfl, rfl, id⟩
  intro first left second right one two same
  obtain ⟨first, stored, rfl⟩ := (Table.mem_modify preserves).mp left
  obtain ⟨second, present, rfl⟩ := (Table.mem_modify preserves).mp right
  rw [(back first).1, (back second).1] at same
  rw [(back first).2.1, (back second).2.1]
  exact unique first stored second present ((back first).2.2 one) ((back second).2.2 two) same

theorem Unique.revive (unique : Unique jobs) (jobId : Nat) (update : QueueJob → QueueJob) (preserves : Table.Preserves update)
    (keys : ∀ job, jobKey (update job) = jobKey job) (active : ∀ job, activeJob (update job).status = true) :
    Unique (jobs.modify (·.id == jobId) update preserves) ↔ revivesFreely jobs jobId := by
  constructor
  · intro after job stored isJob dead other present isActive same
    have revived : update job ∈ (jobs.modify (·.id == jobId) update preserves).rows :=
      (Table.mem_modify preserves).mpr ⟨job, stored, by simp [isJob]⟩
    have distinct : other.id ≠ job.id := by
      intro equal
      have isSame : other = job := Table.eq_of_id present stored equal
      rw [isSame, dead] at isActive
      cases isActive
    have untouched : other ∈ (jobs.modify (·.id == jobId) update preserves).rows :=
      (Table.mem_modify preserves).mpr ⟨other, present, by simp [← isJob, distinct]⟩
    have equal := after other untouched (update job) revived isActive (active job) (same.trans (keys job).symm)
    rw [show (update job).id = job.id from (preserves job).1] at equal
    exact distinct equal
  · intro freely
    have image : ∀ job ∈ jobs.rows, ∀ other ∈ jobs.rows, job.id = jobId → other.id ≠ jobId →
        activeJob other.status = true → jobKey job ≠ jobKey other := by
      intro job stored other present isJob isOther isActive same
      by_cases dead : job.status = .dead
      · exact freely job stored isJob dead other present isActive same.symm
      · have wasActive : activeJob job.status = true := by
          rw [← Bool.not_eq_false, not_active_iff]
          exact dead
        have equal := unique job stored other present wasActive isActive same
        exact isOther (equal ▸ isJob)
    intro first left second right one two same
    obtain ⟨first, stored, rfl⟩ := (Table.mem_modify preserves).mp left
    obtain ⟨second, present, rfl⟩ := (Table.mem_modify preserves).mp right
    by_cases isFirst : first.id = jobId
    · by_cases isSecond : second.id = jobId
      · rw [Table.eq_of_id stored present (isFirst.trans isSecond.symm)]
      · simp only [isFirst, beq_self_eq_true, if_true, isSecond, beq_iff_eq, if_false, keys] at one two same
        exact absurd same (image first stored second present isFirst isSecond two)
    · by_cases isSecond : second.id = jobId
      · simp only [isFirst, beq_self_eq_true, if_true, isSecond, beq_iff_eq, if_false, keys] at one two same
        exact absurd same.symm (image second present first stored isSecond isFirst one)
      · simp only [isFirst, isSecond, beq_iff_eq, if_false] at one two same ⊢
        exact unique first stored second present one two same

theorem Unique.addJobs (queue : DurableQueue) (inserted : List (EnqueueCall × Time)) :
    Unique (addJobs queue jobs inserted) ↔
      Unique jobs ∧ (∀ added ∈ inserted, Free jobs added.1.key) ∧ (inserted.map (·.1.key)).Nodup := by
  induction inserted generalizing jobs with
  | nil => simp [Outbox.addJobs]
  | cons added rest ih =>
    rw [show Outbox.addJobs queue jobs (added :: rest) =
      Outbox.addJobs queue (jobs.push (newJob queue added.1 added.2)) rest from rfl, ih]
    have key : jobKey (newJob queue added.1 added.2 jobs.next) = added.1.key := rfl
    simp only [Unique.push (newJob queue added.1 added.2) (fun _ => rfl) rfl,
      Free.push (newJob queue added.1 added.2) (fun _ => rfl) rfl, key, List.map_cons, List.nodup_cons,
      List.mem_cons, List.mem_map, forall_eq_or_imp, not_exists, not_and]
    constructor
    · rintro ⟨⟨unique, free⟩, others, distinct⟩
      exact ⟨unique, ⟨free, fun other member => (others other member).1⟩,
        fun other member same => (others other member).2 same.symm, distinct⟩
    · rintro ⟨unique, ⟨free, others⟩, apart, distinct⟩
      exact ⟨⟨unique, free⟩, fun other member => ⟨others other member, fun same => apart other member same.symm⟩,
        distinct⟩

end Uniqueness

section Tracking

variable {str : Json → String} {broker after : Broker} {transaction : Transaction}

def Transaction.keys (transaction : Transaction) : List JobKey := transaction.inserted.map (·.1.key)

def Known (str : Json → String) (events : Table OutboxEvent) (event : OutboxEvent) : Prop :=
  event.id < events.next ∧ ∀ row ∈ events.rows, row.id = event.id → jobFor str row = jobFor str event

def Covered (str : Json → String) (broker : Broker) (keys : List JobKey) (eventId : Nat) : Prop :=
  eventId < broker.events.next ∧ ∀ row ∈ broker.events.rows, row.id = eventId →
    ∀ call, jobFor str row = some call → HasJob broker.jobs call.key ∨ call.key ∈ keys

structure Tracked (str : Json → String) (broker : Broker) (transaction : Transaction) : Prop where
  distinct : transaction.keys.Nodup
  fresh : transaction.passed = true → ∀ errand rest, transaction.errands = errand :: rest →
    ∀ call, errand.wanted str = some call → call.key ∉ transaction.keys
  known : ∀ event, .event event ∈ transaction.errands → Known str broker.events event
  covered : ∀ mark ∈ transaction.published, Covered str broker transaction.keys mark.1

structure Sound (str : Json → String) (broker : Broker) : Prop where
  published : Published str broker
  tracked : ∀ number transaction, broker.transactions number = some transaction → Tracked str broker transaction

structure Grows (str : Json → String) (before after : Broker) : Prop where
  next : before.events.next ≤ after.events.next
  events : ∀ row ∈ after.events.rows, row.id < before.events.next →
    ∃ old ∈ before.events.rows, old.id = row.id ∧ jobFor str old = jobFor str row
  jobs : ∀ key, HasJob before.jobs key → HasJob after.jobs key

theorem Known.grow {event : OutboxEvent} (known : Known str broker.events event) (grows : Grows str broker after) :
    Known str after.events event := by
  refine ⟨Nat.lt_of_lt_of_le known.1 grows.next, ?_⟩
  intro row stored isEvent
  obtain ⟨old, present, same, job⟩ := grows.events row stored (isEvent ▸ known.1)
  rw [← job]
  exact known.2 old present (same.trans isEvent)

theorem Covered.grow {keys : List JobKey} {eventId : Nat} (covered : Covered str broker keys eventId)
    (grows : Grows str broker after) : Covered str after keys eventId := by
  refine ⟨Nat.lt_of_lt_of_le covered.1 grows.next, ?_⟩
  intro row stored isEvent call wanted
  obtain ⟨old, present, same, job⟩ := grows.events row stored (isEvent ▸ covered.1)
  apply (covered.2 old present (same.trans isEvent) call (job.trans wanted)).imp_left
  exact grows.jobs call.key

theorem Tracked.grow (tracked : Tracked str broker transaction) (grows : Grows str broker after) :
    Tracked str after transaction where
  distinct := tracked.distinct
  fresh := tracked.fresh
  known event member := (tracked.known event member).grow grows
  covered mark member := (tracked.covered mark member).grow grows

theorem Sound.grow (sound : Sound str broker) (grows : Grows str broker after) (published : Published str after)
    (same : ∀ number transaction, after.transactions number = some transaction →
      broker.transactions number = some transaction) : Sound str after where
  published := published
  tracked number transaction isOpen := (sound.tracked number transaction (same number transaction isOpen)).grow grows

theorem Sound.set (sound : Sound str broker) (number : Nat) {change : Option Transaction}
    (fits : ∀ transaction, change = some transaction → Tracked str broker transaction) :
    Sound str (broker.set number change) where
  published := sound.published
  tracked other transaction isOpen := by
    have grows : Grows str broker (broker.set number change) :=
      ⟨Nat.le_refl _, fun row stored _ => ⟨row, stored, rfl, rfl⟩, fun _ => id⟩
    change Function.update broker.transactions number change other = some transaction at isOpen
    by_cases isNumber : other = number
    · rw [isNumber, Function.update_self] at isOpen
      exact (fits transaction isOpen).grow grows
    · rw [Function.update_of_ne isNumber] at isOpen
      exact (sound.tracked other transaction isOpen).grow grows

theorem Sound.openWith (sound : Sound str broker) (number : Nat) {errands : List Errand}
    (known : ∀ event, .event event ∈ errands → Known str broker.events event) :
    Sound str (broker.openWith number errands) := by
  unfold Broker.openWith
  split
  · apply sound.set number
    rintro transaction ⟨⟩
    exact ⟨List.nodup_nil, nofun, known, nofun⟩
  · exact sound

theorem Sound.update (sound : Sound str broker) (number : Nat) {change : Transaction → Transaction}
    (fits : ∀ transaction, Tracked str broker transaction → Tracked str broker (change transaction)) :
    Sound str (broker.update number change) := by
  unfold Broker.update
  split
  · exact sound
  · rename_i transaction isOpen
    apply sound.set number
    rintro _ ⟨⟩
    exact fits transaction (sound.tracked number transaction isOpen)

theorem Tracked.finish (tracked : Tracked str broker transaction) {now : Time} {errand : Errand} {rest : List Errand}
    (here : transaction.errands = errand :: rest)
    (job : ∀ call, errand.wanted str = some call → HasJob broker.jobs call.key ∨ call.key ∈ transaction.keys) :
    Tracked str broker (transaction.finish now errand rest) where
  distinct := tracked.distinct
  fresh := nofun
  known event member := by
    apply tracked.known event
    rw [here]
    exact List.mem_cons_of_mem _ member
  covered mark member := by
    rcases List.mem_append.mp member with earlier | new
    · exact tracked.covered mark earlier
    · cases errand with
      | call own => cases new
      | event emitted =>
        rw [List.mem_singleton.mp new]
        have known := tracked.known emitted (by simp [here])
        refine ⟨known.1, ?_⟩
        intro row stored isEvent call wanted
        exact job call ((known.2 row stored isEvent).symm.trans wanted)

theorem finds_iff {call : EnqueueCall} {jobs : Jobs} : transaction.finds jobs call = true ↔
    (∃ job ∈ jobs.rows, jobKey job = call.key ∧ activeJob job.status = true) ∨ call.key ∈ transaction.keys := by
  simp [Transaction.finds, Transaction.keys, -Prod.exists, -Prod.forall]

theorem Tracked.select (tracked : Tracked str broker transaction) (now : Time) :
    Tracked str broker (transaction.select str now broker.jobs) := by
  unfold Transaction.select
  split
  · exact tracked
  · rename_i errand rest here
    split
    · rename_i unmapped
      exact tracked.finish here (by simp [unmapped])
    · rename_i call wanted
      split
      · rename_i found
        apply tracked.finish here
        intro other isOther
        obtain rfl : call = other := by simpa [wanted] using isOther
        rcases finds_iff.mp found with ⟨job, stored, key, _⟩ | own
        · exact .inl ⟨job, stored, key⟩
        · exact .inr own
      · rename_i missing
        refine ⟨tracked.distinct, ?_, tracked.known, tracked.covered⟩
        intro _ errand' rest' here' other isOther own
        change transaction.errands = errand' :: rest' at here'
        rw [here] at here'
        cases here'
        obtain rfl : call = other := by simpa [wanted] using isOther
        exact missing (finds_iff.mpr (.inr own))

theorem Tracked.insert (tracked : Tracked str broker transaction) (now : Time) :
    Tracked str broker (transaction.insert str now) := by
  unfold Transaction.insert
  split
  · rename_i errand rest here passed
    split
    · exact tracked
    · rename_i call wanted
      have keys : { transaction with inserted := transaction.inserted ++ [(call, now)] }.keys =
          transaction.keys ++ [call.key] := by simp [Transaction.keys]
      have extended : Tracked str broker
          { transaction with inserted := transaction.inserted ++ [(call, now)], passed := false } := by
        refine ⟨?_, nofun, tracked.known, ?_⟩
        · show ({ transaction with inserted := transaction.inserted ++ [(call, now)] }.keys).Nodup
          rw [keys, ← List.concat_eq_append, List.nodup_concat]
          exact ⟨tracked.fresh passed errand rest here call wanted, tracked.distinct⟩
        · intro mark member
          refine ⟨(tracked.covered mark member).1, ?_⟩
          intro row stored isEvent other isOther
          apply ((tracked.covered mark member).2 row stored isEvent other isOther).imp_right
          intro own
          show other.key ∈ { transaction with inserted := transaction.inserted ++ [(call, now)] }.keys
          rw [keys]
          exact List.mem_append_left _ own
      apply extended.finish here
      intro other isOther
      obtain rfl : call = other := by simpa [wanted] using isOther
      right
      show call.key ∈ { transaction with inserted := transaction.inserted ++ [(call, now)] }.keys
      rw [keys]
      exact List.mem_append_right _ (List.mem_singleton_self _)
  · exact tracked

end Tracking

section Commits

variable {str : Json → String} {broker : Broker} {jobs : Jobs} {key : JobKey}

theorem HasJob.addJobs {queue : DurableQueue} {inserted : List (EnqueueCall × Time)}
    (has : HasJob jobs key ∨ key ∈ inserted.map (·.1.key)) : HasJob (addJobs queue jobs inserted) key := by
  induction inserted generalizing jobs with
  | nil => simpa [Outbox.addJobs] using has
  | cons added rest ih =>
    show HasJob (Outbox.addJobs queue (jobs.push (newJob queue added.1 added.2)) rest) key
    apply ih
    have rows : (jobs.push (newJob queue added.1 added.2)).rows =
        jobs.rows ++ [newJob queue added.1 added.2 jobs.next] := rfl
    rcases has with ⟨job, stored, same⟩ | member
    · exact .inl ⟨job, by simp [rows, stored], same⟩
    · rcases List.mem_cons.mp member with isAdded | later
      · exact .inl ⟨newJob queue added.1 added.2 jobs.next, by simp [rows], isAdded.symm⟩
      · exact .inr later

theorem HasJob.modify {condition : QueueJob → Bool} (has : HasJob jobs key) (update : QueueJob → QueueJob)
    (preserves : Table.Preserves update) (keys : ∀ job, jobKey (update job) = jobKey job) :
    HasJob (jobs.modify condition update preserves) key := by
  obtain ⟨job, stored, same⟩ := has
  refine ⟨if condition job then update job else job, (Table.mem_modify preserves).mpr ⟨job, stored, rfl⟩, ?_⟩
  split
  · exact (keys job).trans same
  · exact same

theorem mem_markPublished (str : Json → String) {events : Table OutboxEvent} {published : List (Nat × Time)}
    {row : OutboxEvent} (stored : row ∈ (markPublished events published).rows) :
    ∃ old ∈ events.rows, old.id = row.id ∧ jobFor str old = jobFor str row ∧
      (row.publishedAt = old.publishedAt ∨ ∃ mark ∈ published, mark.1 = row.id) := by
  induction published generalizing events with
  | nil => exact ⟨row, stored, rfl, rfl, .inl rfl⟩
  | cons mark rest ih =>
    obtain ⟨middle, present, sameId, sameJob, from_⟩ := ih stored
    obtain ⟨old, here, rfl⟩ := (Table.mem_modify _).mp present
    refine ⟨old, here, ?_⟩
    have later : (∃ mark' ∈ rest, mark'.1 = row.id) → ∃ mark' ∈ mark :: rest, mark'.1 = row.id := by
      rintro ⟨mark', member, isRow⟩
      exact ⟨mark', List.mem_cons_of_mem _ member, isRow⟩
    by_cases marked : old.id = mark.1
    · rw [if_pos (beq_iff_eq.mpr marked)] at sameId sameJob
      exact ⟨sameId, sameJob, .inr ⟨mark, List.mem_cons_self, marked.symm.trans sameId⟩⟩
    · simp only [marked, beq_iff_eq, if_false] at sameId sameJob from_
      exact ⟨sameId, sameJob, from_.imp_right later⟩

theorem markPublished_next (events : Table OutboxEvent) (published : List (Nat × Time)) :
    (markPublished events published).next = events.next := by
  induction published generalizing events with
  | nil => rfl
  | cons mark rest ih => exact ih _

theorem Sound.commit {queue : DurableQueue} {transaction : Transaction} (sound : Sound str broker)
    (tracked : Tracked str broker transaction) : Sound str (broker.commit queue transaction) := by
  have grows : Grows str broker (broker.commit queue transaction) := by
    refine ⟨Nat.le_of_eq (markPublished_next _ _).symm, ?_, fun key has => HasJob.addJobs (.inl has)⟩
    intro row stored _
    obtain ⟨old, present, sameId, sameJob, _⟩ := mem_markPublished str stored
    exact ⟨old, present, sameId, sameJob⟩
  apply sound.grow grows
  · intro row stored isPublished call wanted
    obtain ⟨old, present, sameId, sameJob, earlier | ⟨mark, member, isRow⟩⟩ := mem_markPublished str stored
    · apply grows.jobs
      exact sound.published old present (earlier ▸ isPublished) call (sameJob.trans wanted)
    · apply HasJob.addJobs
      exact (tracked.covered mark member).2 old present (sameId.trans isRow.symm) call (sameJob.trans wanted)
  · exact fun _ _ => id

theorem Sound.addEvent (sound : Sound str broker) (eventType : String) (payload : Json) (schemaVersion : Nat) :
    Sound str { broker with events := broker.events.push fun id => { id, eventType, payload, schemaVersion } } := by
  apply sound.grow
  · refine ⟨Nat.le_succ _, ?_, fun _ => id⟩
    intro row stored below
    rcases List.mem_append.mp stored with old | new
    · exact ⟨row, old, rfl, rfl⟩
    · rw [List.mem_singleton.mp new] at below
      exact absurd below (Nat.lt_irrefl _)
  · intro row stored isPublished
    rcases List.mem_append.mp stored with old | new
    · exact sound.published row old isPublished
    · rw [List.mem_singleton.mp new] at isPublished
      exact absurd rfl isPublished
  · exact fun _ _ => id

theorem Sound.withJobs (sound : Sound str broker) (kept : ∀ key, HasJob broker.jobs key → HasJob jobs key) :
    Sound str (broker.withJobs jobs) := by
  apply sound.grow
  · exact ⟨Nat.le_refl _, fun row stored _ => ⟨row, stored, rfl, rfl⟩, kept⟩
  · intro row stored isPublished call wanted
    exact kept call.key (sound.published row stored isPublished call wanted)
  · exact fun _ _ => id

theorem HasJob.settle {queue : DurableQueue} {now : Time} {seen : QueueJob} {error : String} (has : HasJob jobs key) :
    HasJob (queue.settle now jobs seen error) key := by
  unfold DurableQueue.settle
  split
  · exact has.modify _ _ fun _ => rfl
  · exact has.modify _ _ fun _ => rfl

theorem step_sound (queue : DurableQueue) (broker : Broker) (move : Move) (sound : Sound str broker) :
    Sound str (broker.step queue str move) := by
  cases move with
  | begin number =>
    apply sound.openWith number
    intro event member
    obtain ⟨_, listed, ⟨⟩⟩ := List.mem_map.mp member
    have stored : event ∈ broker.events.rows :=
      (Table.mem_select.mp (List.mem_mergeSort.mp (List.mem_of_mem_take listed))).1
    refine ⟨broker.events.ids_below event stored, ?_⟩
    intro row present same
    rw [Table.eq_of_id present stored same]
  | enter number calls => exact sound.openWith number (by simp)
  | select number now => exact sound.update number fun _ tracked => tracked.select now
  | insert number now => exact sound.update number fun _ tracked => tracked.insert now
  | commit number =>
    dsimp only [Broker.step]
    split
    · exact sound
    · rename_i transaction isOpen
      split
      · exact (sound.commit (sound.tracked number transaction isOpen)).set number nofun
      · exact sound
  | crash number => exact sound.set number nofun
  | addEvent eventType payload schemaVersion => exact sound.addEvent eventType payload schemaVersion
  | lease now owner jobId =>
    apply sound.withJobs
    intro key has
    exact has.modify (queue.leased now owner) (fun _ => ⟨rfl, fun _ => rfl⟩) fun _ => rfl
  | complete now jobId => exact sound.withJobs fun key has => has.modify _ _ fun _ => rfl
  | settle now seen error => exact sound.withJobs fun key has => has.settle
  | reapStaleLeases now => exact sound.withJobs fun key has => has.modify _ _ fun _ => rfl

end Commits

section Runs

variable {str : Json → String} {broker : Broker}

/-- A move keeps the active keys unique exactly when those it brings in are free. -/
theorem step_unique_iff (queue : DurableQueue) (move : Move) (sound : Sound str broker) (unique : Unique broker.jobs) :
    Unique (broker.step queue str move).jobs ↔ bringsFreeKeys broker move := by
  cases move with
  | begin number =>
    apply iff_of_true _ trivial
    dsimp only [Broker.step, Broker.openWith]
    split <;> exact unique
  | enter number calls =>
    apply iff_of_true _ trivial
    dsimp only [Broker.step, Broker.openWith]
    split <;> exact unique
  | select number now =>
    apply iff_of_true _ trivial
    dsimp only [Broker.step, Broker.update]
    split <;> exact unique
  | insert number now =>
    apply iff_of_true _ trivial
    dsimp only [Broker.step, Broker.update]
    split <;> exact unique
  | commit number =>
    dsimp only [Broker.step, bringsFreeKeys]
    split
    · rename_i isNone
      simp [isNone, unique]
    · rename_i transaction isOpen
      split
      · rename_i finished
        have tracked := sound.tracked number transaction isOpen
        show Unique (addJobs queue broker.jobs transaction.inserted) ↔ _
        rw [Unique.addJobs]
        constructor
        · rintro ⟨_, free, _⟩ _ isOther _
          cases isOpen.symm.trans isOther
          exact free
        · intro free
          exact ⟨unique, free transaction isOpen finished, tracked.distinct⟩
      · rename_i unfinished
        apply iff_of_true unique
        intro _ isOther empty
        cases isOpen.symm.trans isOther
        exact absurd empty unfinished
  | crash number => exact iff_of_true unique trivial
  | addEvent eventType payload schemaVersion => exact iff_of_true unique trivial
  | lease now owner jobId =>
    apply iff_of_true _ trivial
    apply unique.modify (queue.leased now owner) (fun _ => ⟨rfl, fun _ => rfl⟩) (fun _ => rfl)
    intro job queued _
    have isQueued : job.status = .queued := (by simpa using queued : job.id = jobId ∧ job.status = .queued).2
    rw [isQueued]
    rfl
  | complete now jobId =>
    exact unique.revive jobId (completed now) (fun _ => ⟨rfl, fun _ => rfl⟩) (fun _ => rfl) fun _ => rfl
  | settle now seen error =>
    show Unique (queue.settle now broker.jobs seen error) ↔ (seen.attempts < seen.maxAttempts → _)
    by_cases exhausted : seen.maxAttempts ≤ seen.attempts
    · rw [DurableQueue.settle, if_pos exhausted]
      apply iff_of_true
      · exact unique.modify (buried now error) _ (fun _ => rfl) nofun
      · intro more
        omega
    · rw [DurableQueue.settle, if_neg exhausted]
      have revived := unique.revive seen.id (retried now error (now + queue.backoff seen.attempts))
        (fun _ => ⟨rfl, fun _ => rfl⟩) (fun _ => rfl) fun _ => rfl
      exact revived.trans ⟨fun freely _ => freely, fun freely => freely (Nat.lt_of_not_le exhausted)⟩
  | reapStaleLeases now =>
    apply iff_of_true _ trivial
    apply unique.modify (released now) (fun _ => ⟨rfl, fun _ => rfl⟩) (fun _ => rfl)
    intro job expired _
    have running : job.status = .running := by
      simp only [stale, Bool.and_eq_true, beq_iff_eq] at expired
      exact expired.1
    rw [running]
    rfl

/-- A published event has its job in every state of a run from a quiet start,
    and the active keys stay unique in all of them exactly when every move
    brings in free keys only. -/
theorem dispatch_without_duplication_iff (queue : DurableQueue) (str : Json → String) (start : Broker)
    (quiet : ∀ number, start.transactions number = none) (published : Published str start) (unique : Unique start.jobs)
    (moves : List Move) :
    Runs.Along (Broker.step queue str) (fun broker => Published str broker ∧ Unique broker.jobs) start moves ↔
      Runs.AllMeet (Broker.step queue str) bringsFreeKeys start moves := by
  apply Runs.along_iff_allMeet (Sound str)
  · exact fun broker move sound _ => step_sound queue broker move sound
  · intro broker move sound both
    rw [← step_unique_iff queue move sound both.2]
    exact and_iff_right (step_sound queue broker move sound).published
  · exact ⟨published, fun number transaction isOpen => nomatch (quiet number).symm.trans isOpen⟩
  · exact ⟨published, unique⟩

def emptyBroker : Broker := ⟨.empty, .empty, fun _ => none⟩

def scanRequested : Move := .addEvent "scan.requested" (.obj [("version_id", .num 7)]) 1

def oneDispatcher : List Move :=
  [scanRequested, .begin 1, .select 1 0, .insert 1 0, .commit 1, .lease 1 "worker" 1, .complete 2 1,
    .enter 2 [⟨"scan.run", .null, "scan:7", 1, none⟩], .select 2 3, .commit 2]

theorem dispatch_without_duplication_one_dispatcher :
    Runs.Along (Broker.step {} Json.toText) (fun broker => Published Json.toText broker ∧ Unique broker.jobs)
      emptyBroker oneDispatcher := by
  rw [dispatch_without_duplication_iff {} Json.toText emptyBroker (fun _ => rfl) nofun nofun]
  decide +kernel

def twoDispatchers : List Move :=
  [scanRequested, .begin 1, .begin 2, .select 1 0, .select 2 0, .insert 1 0, .insert 2 0, .commit 1, .commit 2]

theorem concurrent_dispatchers_duplicate_the_job :
    ¬ Runs.Along (Broker.step {} Json.toText) (fun broker => Published Json.toText broker ∧ Unique broker.jobs)
      emptyBroker twoDispatchers := by
  intro along
  have duplicated : ¬ Unique (twoDispatchers.foldl (Broker.step {} Json.toText) emptyBroker).jobs := by
    decide +kernel
  exact duplicated along.final.2

end Runs

end Registry.Outbox
