import OpenAgentHub.Registry.Billing.Deliveries

namespace Registry.Billing

open Relational

def Honest (session : Session) : Prop :=
  match session.stage with
  | .entered | .checked | .missing | .returned .duplicate => session.writes = []
  | .opened _ | .subscribed _ => session.pairs = [] ∧ session.organizations.Sublist [session.delivery.organizationId]
  | .moving _ _ | .returned (.processed _) =>
    session.pairs = [session.delivery.pair] ∧ session.organizations.Sublist [session.delivery.organizationId]
  | .settled _ | .raised _ =>
    session.pairs.Sublist [session.delivery.pair] ∧ session.organizations.Sublist [session.delivery.organizationId]

def Recorded (db : Db) (pair : String × String) : Prop :=
  ∃ event ∈ db.billingWebhookEvents.rows, (event.provider, event.eventId) = pair

def Enrolled (db : Db) (organization : Nat) : Prop := ∃ row ∈ db.subscriptions.rows, row.organizationId = organization

structure Free (db : Db) (session : Session) : Prop where
  organizations : ∀ organization ∈ session.organizations, ¬ Enrolled db organization
  pairs : ∀ pair ∈ session.pairs, ¬ Recorded db pair

section Writes

variable {settings : Settings} {db after : Db} {session next : Session} {writes : List Write}

theorem webhookEvent_eq_none {delivery : Delivery} : webhookEvent db delivery = none ↔ ¬ Recorded db delivery.pair := by
  unfold webhookEvent Recorded Delivery.pair
  rw [Table.one_none]
  simp

theorem subscription_eq_none {organization : Nat} : subscription db organization = none ↔ ¬ Enrolled db organization := by
  unfold subscription Enrolled
  rw [Table.one_none]
  simp

@[simp] theorem delivery_flush (session : Session) (stage : Stage) (writes : List Write) :
    (session.flush stage writes).delivery = session.delivery := rfl

@[simp] theorem event_pair (session : Session) : session.event.pair = some session.delivery.pair := rfl

@[simp] theorem event_organization (session : Session) : session.event.organization = none := rfl

@[simp] theorem receiptRecord_pair (session : Session) : session.receiptRecord.pair = none := rfl

@[simp] theorem receiptRecord_organization (session : Session) : session.receiptRecord.organization = none := rfl

@[simp] theorem statusRecord_pair (session : Session) (sub : OrganizationSubscription) (status : SubscriptionStatus) :
    (session.statusRecord sub status).pair = none := rfl

@[simp] theorem statusRecord_organization (session : Session) (sub : OrganizationSubscription)
    (status : SubscriptionStatus) : (session.statusRecord sub status).organization = none := rfl

@[simp] theorem transition_pair (read target : OrganizationSubscription) : (Write.transition read target).pair = none := rfl

@[simp] theorem transition_organization (read target : OrganizationSubscription) :
    (Write.transition read target).organization = none := rfl

@[simp] theorem organizations_flush (session : Session) (stage : Stage) (writes : List Write) :
    (session.flush stage writes).organizations = session.organizations ++ writes.filterMap Write.organization :=
  List.filterMap_append

@[simp] theorem pairs_flush (session : Session) (stage : Stage) (writes : List Write) :
    (session.flush stage writes).pairs = session.pairs ++ writes.filterMap Write.pair :=
  List.filterMap_append

@[simp] theorem scheduled_organizations (settings : Settings) (now : Time) (view : Db) (sub : OrganizationSubscription) :
    (scheduled settings now view sub).filterMap Write.organization = [] := by
  rw [scheduled, List.filterMap_eq_nil_iff]
  intro write present
  obtain ⟨job, _, rfl⟩ := List.mem_map.mp present
  rfl

@[simp] theorem scheduled_pairs (settings : Settings) (now : Time) (view : Db) (sub : OrganizationSubscription) :
    (scheduled settings now view sub).filterMap Write.pair = [] := by
  rw [scheduled, List.filterMap_eq_nil_iff]
  intro write present
  obtain ⟨job, _, rfl⟩ := List.mem_map.mp present
  rfl

theorem Honest.sublists (honest : Honest session) :
    session.pairs.Sublist [session.delivery.pair] ∧ session.organizations.Sublist [session.delivery.organizationId] := by
  have none : session.writes = [] → session.pairs = [] ∧ session.organizations = [] := by
    intro unwritten
    simp [Session.pairs, Session.organizations, unwritten]
  unfold Honest at honest
  split at honest
  all_goals first
    | simp [none honest]
    | simp [honest]

theorem Free.goto (free : Free db session) (stage : Stage) : Free db (session.goto stage) :=
  ⟨free.organizations, free.pairs⟩

theorem Free.unwritten (unwritten : next.writes = []) : Free db next := by
  constructor
  · simp [Session.organizations, unwritten]
  · simp [Session.pairs, unwritten]

theorem Free.flush (free : Free db session) (stage : Stage)
    (organizations : ∀ organization ∈ writes.filterMap Write.organization, ¬ Enrolled db organization)
    (pairs : ∀ pair ∈ writes.filterMap Write.pair, pair = session.delivery.pair ∧ webhookEvent db session.delivery = none) :
    Free db (session.flush stage writes) := by
  constructor
  · intro organization present
    rw [organizations_flush] at present
    exact (List.mem_append.mp present).elim (free.organizations organization) (organizations organization)
  · intro pair present
    rw [pairs_flush] at present
    rcases List.mem_append.mp present with old | new
    · exact free.pairs pair old
    · obtain ⟨rfl, absent⟩ := pairs pair new
      exact webhookEvent_eq_none.mp absent

/-- A delivery takes a unique key only when the committed state does not have it, and takes each once. -/
theorem proceed_sound (honest : Honest session) (free : Free db session)
    (done : proceed settings db session = some next) : Honest next ∧ Free db next ∧ next.ticket = session.ticket := by
  have kept := honest.sublists
  unfold proceed at done
  dsimp only at done
  split at done
  · -- the first look at the events
    rename_i stage
    rw [Honest, stage] at honest
    cases done
    refine ⟨?_, free.goto _, rfl⟩
    split
    · exact honest
    · exact honest
  · rename_i stage
    rw [Honest, stage] at honest
    split at done
    · cases done
      refine ⟨?_, free.goto _, rfl⟩
      simp [Honest, Session.goto, Session.pairs, Session.organizations, honest]
    · cases done
      exact ⟨honest, free.goto _, rfl⟩
  · rename_i stage
    rw [Honest, stage] at honest
    split at done
    · cases done
      exact ⟨kept, free.goto _, rfl⟩
    · rename_i absent
      cases done
      have none : session.pairs = [] ∧ session.organizations = [] := by
        simp [Session.pairs, Session.organizations, honest]
      refine ⟨?_, free.flush _ ?_ ?_, rfl⟩
      · change (session.flush _ _).pairs = [] ∧ (session.flush _ _).organizations.Sublist _
        rw [pairs_flush, organizations_flush, none.1, none.2]
        exact ⟨rfl, .refl _⟩
      · intro organization taken
        have isIts : organization = session.delivery.organizationId := by
          simpa [Write.organization, newSubscription] using taken
        rw [isIts, ← subscription_eq_none]
        simpa using absent
      · simp [Write.pair]
  · rename_i sub stage
    rw [Honest, stage] at honest
    obtain ⟨view, _, done⟩ := Option.bind_eq_some_iff.mp done
    cases done
    refine ⟨?_, free.flush _ (by simp) (by simp), rfl⟩
    change (session.flush _ _).pairs = [] ∧ (session.flush _ _).organizations.Sublist _
    simpa using honest
  · rename_i sub stage
    rw [Honest, stage] at honest
    split at done
    · cases done
      exact ⟨kept, free.goto _, rfl⟩
    · split at done
      · cases done
        exact ⟨kept, free.goto _, rfl⟩
      · split at done
        · cases done
          exact ⟨kept, free.goto _, rfl⟩
        · split at done
          · cases done
            exact ⟨rfl, .unwritten rfl, rfl⟩
          · rename_i absent
            cases done
            refine ⟨?_, free.flush _ (by simp [List.filterMap_cons]) ?_, rfl⟩
            · change (session.flush _ _).pairs = [session.delivery.pair] ∧ (session.flush _ _).organizations.Sublist _
              rw [pairs_flush, organizations_flush, honest.1]
              simpa [List.filterMap_cons] using honest.2
            · intro pair taken
              have isIts : pair = session.delivery.pair := by
                simpa [List.filterMap_cons] using taken
              exact ⟨isIts, by simpa using absent⟩
  · rename_i sub status stage
    rw [Honest, stage] at honest
    obtain ⟨view, _, done⟩ := Option.bind_eq_some_iff.mp done
    cases done
    refine ⟨?_, free.flush _ (by simp [List.filterMap_cons]) (by simp [List.filterMap_cons]), rfl⟩
    change (session.flush _ _).pairs.Sublist [session.delivery.pair] ∧ (session.flush _ _).organizations.Sublist _
    simpa [List.filterMap_cons] using kept
  · rename_i status stage
    split at done
    · rename_i flushed
      cases done
      refine ⟨?_, free.flush _ (by simp [List.filterMap_cons]) (by simp [List.filterMap_cons]), rfl⟩
      have pairs : session.pairs = [session.delivery.pair] :=
        (List.sublist_singleton.mp kept.1).resolve_left flushed
      change (session.flush _ _).pairs = [session.delivery.pair] ∧ (session.flush _ _).organizations.Sublist _
      rw [pairs_flush, organizations_flush, pairs]
      simpa [List.filterMap_cons] using kept.2
    · rename_i unflushed
      split at done
      · cases done
        exact ⟨kept, free.goto _, rfl⟩
      · rename_i absent
        cases done
        refine ⟨?_, free.flush _ (by simp [List.filterMap_cons]) ?_, rfl⟩
        · have pairs : session.pairs = [] := by simpa using unflushed
          change (session.flush _ _).pairs = [session.delivery.pair] ∧ (session.flush _ _).organizations.Sublist _
          rw [pairs_flush, organizations_flush, pairs]
          simpa [List.filterMap_cons] using kept.2
        · intro pair taken
          have isIts : pair = session.delivery.pair := by simpa [List.filterMap_cons] using taken
          exact ⟨isIts, by simpa using absent⟩
  · cases done
  · cases done

theorem apply_recorded {write : Write} (applied : write.apply db = some after) (pair : String × String) :
    Recorded after pair ↔ Recorded db pair ∨ write.pair = some pair := by
  cases write with
  | event row =>
    obtain ⟨⟨_, events⟩, inserted, done⟩ := Option.bind_eq_some_iff.mp applied
    cases done
    obtain ⟨_, _, rows, _⟩ := Table.insert_eq_some.mp inserted
    change (∃ event ∈ events.rows, _) ↔ _
    simp [rows, Recorded, Write.pair, or_and_right, exists_or]
  | subscription row =>
    obtain ⟨⟨_, subscriptions⟩, _, done⟩ := Option.bind_eq_some_iff.mp applied
    cases done
    simp [Recorded, Write.pair]
  | transition read target | job row | audit record =>
    cases applied
    simp [Recorded, Write.pair, Db.recordAudit]

theorem apply_enrolled {write : Write} (applied : write.apply db = some after) (organization : Nat) :
    Enrolled after organization ↔ Enrolled db organization ∨ write.organization = some organization := by
  cases write with
  | subscription row =>
    obtain ⟨⟨_, subscriptions⟩, inserted, done⟩ := Option.bind_eq_some_iff.mp applied
    cases done
    obtain ⟨_, _, rows, _⟩ := Table.insert_eq_some.mp inserted
    change (∃ row ∈ subscriptions.rows, _) ↔ _
    simp [rows, Enrolled, Write.organization, or_and_right, exists_or]
  | event row =>
    obtain ⟨⟨_, events⟩, _, done⟩ := Option.bind_eq_some_iff.mp applied
    cases done
    simp [Enrolled, Write.organization]
  | transition read target =>
    cases applied
    have preserves : Table.Preserves (retouched read target) := fun _ => ⟨rfl, fun _ => rfl⟩
    have sameOrganization : ∀ row : OrganizationSubscription, (if row.organizationId == target.organizationId
        then retouched read target row else row).organizationId = row.organizationId := by
      intro row
      split <;> rfl
    simp only [Enrolled, Table.mem_modify preserves, Write.organization, reduceCtorEq, or_false]
    constructor
    · rintro ⟨_, ⟨old, stored, rfl⟩, isIts⟩
      exact ⟨old, stored, (sameOrganization old).symm.trans isIts⟩
    · rintro ⟨old, stored, isIts⟩
      exact ⟨_, ⟨old, stored, rfl⟩, (sameOrganization old).trans isIts⟩
  | job row | audit record =>
    cases applied
    simp [Enrolled, Write.organization, Db.recordAudit]

theorem apply_event_fresh {write : Write} (applied : write.apply db = some after) {pair : String × String}
    (taken : write.pair = some pair) : ¬ Recorded db pair := by
  cases write with
  | event row =>
    obtain ⟨⟨_, events⟩, inserted, _⟩ := Option.bind_eq_some_iff.mp applied
    obtain ⟨unique, _⟩ := Table.insert_eq_some.mp inserted
    cases taken
    rintro ⟨event, stored, same⟩
    have unequal := unique event stored
    simp only [Prod.mk.injEq] at same
    simp [Row.clash, same.1, same.2] at unequal
  | subscription row | transition read target | job row | audit record => cases taken

theorem replay_cons {write : Write} (replayed : replay db (write :: writes) = some after) :
    ∃ middle, write.apply db = some middle ∧ replay middle writes = some after := by
  rw [replay, List.foldlM_cons] at replayed
  exact Option.bind_eq_some_iff.mp replayed

theorem replay_recorded (replayed : replay db writes = some after) (pair : String × String) :
    Recorded after pair ↔ Recorded db pair ∨ pair ∈ writes.filterMap Write.pair := by
  induction writes generalizing db with
  | nil =>
    cases replayed
    simp
  | cons write rest ih =>
    obtain ⟨middle, applied, replayed⟩ := replay_cons replayed
    rw [ih replayed, apply_recorded applied, or_assoc]
    cases taken : write.pair with
    | none => simp [taken]
    | some key => simp [taken, eq_comm]

theorem replay_enrolled (replayed : replay db writes = some after) (organization : Nat) :
    Enrolled after organization ↔ Enrolled db organization ∨ organization ∈ writes.filterMap Write.organization := by
  induction writes generalizing db with
  | nil =>
    cases replayed
    simp
  | cons write rest ih =>
    obtain ⟨middle, applied, replayed⟩ := replay_cons replayed
    rw [ih replayed, apply_enrolled applied, or_assoc]
    cases taken : write.organization with
    | none => simp [taken]
    | some key => simp [taken, eq_comm]

theorem replay_fresh (replayed : replay db writes = some after) {pair : String × String}
    (taken : pair ∈ writes.filterMap Write.pair) : ¬ Recorded db pair := by
  induction writes generalizing db with
  | nil => cases taken
  | cons write rest ih =>
    obtain ⟨middle, applied, replayed⟩ := replay_cons replayed
    obtain ⟨other, present, its⟩ := List.mem_filterMap.mp taken
    rcases List.mem_cons.mp present with rfl | later
    · exact apply_event_fresh applied its
    · intro recorded
      exact ih replayed (List.mem_filterMap.mpr ⟨other, later, its⟩) ((apply_recorded applied pair).mpr (.inl recorded))

theorem apply_some {write : Write} (organization : ∀ key, write.organization = some key → ¬ Enrolled db key)
    (pair : ∀ key, write.pair = some key → ¬ Recorded db key) : ∃ after, write.apply db = some after := by
  cases write with
  | subscription row =>
    have absent := organization row.organizationId rfl
    have free : ∀ other ∈ db.subscriptions.rows, Row.clash other { row with id := db.subscriptions.next } = false := by
      intro other stored
      simp only [Row.clash, beq_eq_false_iff_ne]
      exact fun same => absent ⟨other, stored, same⟩
    unfold Write.apply Table.insert
    dsimp only
    rw [dif_pos free]
    exact ⟨_, rfl⟩
  | event row =>
    have absent := pair (row.provider, row.eventId) rfl
    have free : ∀ other ∈ db.billingWebhookEvents.rows,
        Row.clash other { row with id := db.billingWebhookEvents.next } = false := by
      intro other stored
      by_contra taken
      simp only [Row.clash, Bool.not_eq_false, Bool.and_eq_true, beq_iff_eq] at taken
      exact absent ⟨other, stored, by rw [taken.1, taken.2]⟩
    unfold Write.apply Table.insert
    dsimp only
    rw [dif_pos free]
    exact ⟨_, rfl⟩
  | transition read target | job row | audit record => exact ⟨_, rfl⟩

theorem replay_some (organizations : ∀ key ∈ writes.filterMap Write.organization, ¬ Enrolled db key)
    (pairs : ∀ key ∈ writes.filterMap Write.pair, ¬ Recorded db key)
    (distinct : (writes.filterMap Write.organization).Nodup) (distinctPairs : (writes.filterMap Write.pair).Nodup) :
    ∃ after, replay db writes = some after := by
  induction writes generalizing db with
  | nil => exact ⟨db, rfl⟩
  | cons write rest ih =>
    have ownOrganization : ∀ key, write.organization = some key → ¬ Enrolled db key := fun key its =>
      organizations key (List.mem_filterMap.mpr ⟨write, List.mem_cons_self, its⟩)
    have ownPair : ∀ key, write.pair = some key → ¬ Recorded db key := fun key its =>
      pairs key (List.mem_filterMap.mpr ⟨write, List.mem_cons_self, its⟩)
    obtain ⟨middle, applied⟩ := apply_some ownOrganization ownPair
    have laterOrganizations := (List.sublist_cons_self write rest).filterMap Write.organization
    have laterPairs := (List.sublist_cons_self write rest).filterMap Write.pair
    have restOrganizations : ∀ key ∈ rest.filterMap Write.organization, ¬ Enrolled middle key := by
      intro key later enrolled
      rcases (apply_enrolled applied key).mp enrolled with old | its
      · exact organizations key (laterOrganizations.subset later) old
      · simp [its, later] at distinct
    have restPairs : ∀ key ∈ rest.filterMap Write.pair, ¬ Recorded middle key := by
      intro key later recorded
      rcases (apply_recorded applied key).mp recorded with old | its
      · exact pairs key (laterPairs.subset later) old
      · simp [its, later] at distinctPairs
    obtain ⟨after, replayed⟩ := ih restOrganizations restPairs
      (distinct.sublist laterOrganizations) (distinctPairs.sublist laterPairs)
    refine ⟨after, ?_⟩
    rw [replay, List.foldlM_cons]
    exact Option.bind_eq_some_iff.mpr ⟨middle, applied, replayed⟩

end Writes

def applies (pair : String × String) : Notice → Bool
  | .returned delivery (.processed _) => delivery.pair == pair
  | _ => false

def applications (pair : String × String) (notices : List Notice) : Nat := notices.countP (applies pair)

structure Accounted (run : Intake × List Notice) : Prop where
  honest : ∀ session ∈ run.1.sessions.rows, Honest session
  free : ∀ session ∈ run.1.sessions.rows, Free run.1.db session
  once : ∀ pair, applications pair run.2 ≤ 1
  recorded : ∀ pair, 0 < applications pair run.2 → Recorded run.1.db pair

section Runs

variable {settings : Settings} {intake : Intake} {notices : List Notice} {after : Intake × List Notice}

theorem applications_append (pair : String × String) (notices : List Notice) (notice : Notice) :
    applications pair (notices ++ [notice]) = applications pair notices + if applies pair notice then 1 else 0 := by
  unfold applications
  rw [List.countP_append]
  simp [List.countP_cons]

theorem Accounted.silent (accounted : Accounted (intake, notices)) {sessions : Table Session} {notice : Notice}
    (unapplied : ∀ pair, applies pair notice = false)
    (rows : ∀ session ∈ sessions.rows, session ∈ intake.sessions.rows) :
    Accounted ({ intake with sessions }, notices ++ [notice]) := by
  have counts : ∀ pair, applications pair (notices ++ [notice]) = applications pair notices := by
    intro pair
    rw [applications_append, unapplied pair]
    simp
  refine ⟨fun session present => accounted.honest session (rows session present),
    fun session present => accounted.free session (rows session present), ?_, ?_⟩
  · intro pair
    rw [counts]
    exact accounted.once pair
  · intro pair
    rw [counts]
    exact accounted.recorded pair

theorem disjoint_of_open {first second : Session} (left : first ∈ intake.sessions.rows)
    (right : second ∈ intake.sessions.rows) (other : second.ticket ≠ first.ticket) :
    first.organizations.Disjoint second.organizations ∧ first.pairs.Disjoint second.pairs := by
  have apart : Row.clash first second = false := by
    by_contra clashes
    have same := Table.eq_of_clash left right (by simpa using clashes)
    exact other (by rw [same])
  have split : overlap first.organizations second.organizations = false ∧ overlap first.pairs second.pairs = false := by
    simpa [Row.clash] using apart
  exact ⟨overlap_eq_false.mp split.1, overlap_eq_false.mp split.2⟩

theorem mem_without {ticket : Nat} {session : Session} :
    session ∈ (intake.without ticket).rows ↔ session ∈ intake.sessions.rows ∧ session.ticket ≠ ticket := by
  unfold Intake.without
  rw [Table.mem_delete]
  simp

theorem Accounted.commit (accounted : Accounted (intake, notices)) {session : Session} {result : WebhookResult} {db : Db}
    (stored : session ∈ intake.sessions.rows) (stage : session.stage = .returned result)
    (replayed : replay intake.db session.writes = some db) :
    Accounted (⟨db, intake.without session.ticket⟩, notices ++ [.returned session.delivery result]) := by
  have honest := accounted.honest session stored
  have kept : ∀ pair, Recorded intake.db pair → Recorded db pair := fun pair old =>
    (replay_recorded replayed pair).mpr (.inl old)
  -- a processed event is new to the committed state, and recorded by this commit
  have applied : ∀ pair, applies pair (.returned session.delivery result) = true →
      applications pair notices = 0 ∧ Recorded db pair := by
    intro pair isApplied
    cases result with
    | duplicate => cases isApplied
    | processed status =>
      rw [Honest, stage] at honest
      have isPair : session.delivery.pair = pair := by simpa [applies] using isApplied
      have taken : pair ∈ session.writes.filterMap Write.pair := by
        change pair ∈ session.pairs
        rw [honest.1, isPair]
        exact List.mem_singleton_self _
      have fresh := replay_fresh replayed taken
      refine ⟨?_, (replay_recorded replayed pair).mpr (.inr taken)⟩
      by_contra counted
      exact fresh (accounted.recorded pair (Nat.pos_of_ne_zero counted))
  refine ⟨?_, ?_, ?_, ?_⟩
  · intro other present
    exact accounted.honest other (mem_without.mp present).1
  · intro other present
    obtain ⟨present, apart⟩ := mem_without.mp present
    obtain ⟨organizations, pairs⟩ := disjoint_of_open stored present apart
    have free := accounted.free other present
    constructor
    · intro organization taken enrolled
      rcases (replay_enrolled replayed organization).mp enrolled with old | own
      · exact free.organizations organization taken old
      · exact organizations own taken
    · intro pair taken recorded
      rcases (replay_recorded replayed pair).mp recorded with old | own
      · exact free.pairs pair taken old
      · exact pairs own taken
  · intro pair
    rw [applications_append]
    split
    · rename_i isApplied
      rw [(applied pair isApplied).1]
    · exact accounted.once pair
  · intro pair
    rw [applications_append]
    split
    · rename_i isApplied
      exact fun _ => (applied pair isApplied).2
    · exact fun counted => kept pair (accounted.recorded pair counted)

theorem step_accounted {run : Intake × List Notice} {label : Label} (accounted : Accounted run)
    (taken : step settings run label = some after) : Accounted after := by
  obtain ⟨intake, notices⟩ := run
  cases label with
  | enter now delivery =>
    obtain ⟨⟨_, sessions⟩, inserted, done⟩ := Option.bind_eq_some_iff.mp taken
    cases done
    obtain ⟨_, _, rows, _⟩ := Table.insert_eq_some.mp inserted
    have cases : ∀ session ∈ sessions.rows, session ∈ intake.sessions.rows ∨
        session = ⟨intake.sessions.next, now, delivery, .entered, []⟩ := by
      intro session present
      rw [rows] at present
      exact (List.mem_append.mp present).imp_right List.mem_singleton.mp
    refine ⟨?_, ?_, accounted.once, accounted.recorded⟩
    · intro session present
      rcases cases session present with old | rfl
      · exact accounted.honest session old
      · exact rfl
    · intro session present
      rcases cases session present with old | rfl
      · exact accounted.free session old
      · exact .unwritten rfl
  | proceed ticket =>
    obtain ⟨session, found, taken⟩ := Option.bind_eq_some_iff.mp taken
    obtain ⟨next, proceeded, taken⟩ := Option.bind_eq_some_iff.mp taken
    obtain ⟨sessions, adopted, taken⟩ := Option.bind_eq_some_iff.mp taken
    cases taken
    obtain ⟨_, rows, _⟩ := Table.adopt_eq_some adopted
    have stored := (Table.byId_eq_some.mp found).1
    obtain ⟨honest, free, _⟩ := proceed_sound (accounted.honest session stored) (accounted.free session stored) proceeded
    have cases : ∀ other ∈ sessions.rows, other ∈ intake.sessions.rows ∨ other = next := by
      intro other present
      rw [rows] at present
      rcases List.mem_append.mp present with old | new
      · exact .inl (mem_without.mp old).1
      · exact .inr (List.mem_singleton.mp new)
    refine ⟨?_, ?_, accounted.once, accounted.recorded⟩
    · intro other present
      rcases cases other present with old | rfl
      · exact accounted.honest other old
      · exact honest
    · intro other present
      rcases cases other present with old | rfl
      · exact accounted.free other old
      · exact free
  | commit ticket =>
    obtain ⟨session, found, taken⟩ := Option.bind_eq_some_iff.mp taken
    obtain ⟨stored, rfl⟩ := Table.byId_eq_some.mp found
    split at taken
    · rename_i result stage
      obtain ⟨db, replayed, taken⟩ := Option.bind_eq_some_iff.mp taken
      cases taken
      exact accounted.commit stored stage replayed
    · cases taken
  | rollback ticket =>
    obtain ⟨session, found, taken⟩ := Option.bind_eq_some_iff.mp taken
    cases taken
    exact accounted.silent (fun _ => rfl) fun other present => (mem_without.mp present).1
  | elsewhere db =>
    unfold step at taken
    dsimp only at taken
    split at taken
    · rename_i admits
      cases taken
      refine ⟨accounted.honest, ?_, accounted.once, accounted.recorded⟩
      intro session present
      have free := accounted.free session present
      refine ⟨?_, free.pairs⟩
      intro organization taken
      unfold Intake.admits at admits
      have waits := List.all_eq_true.mp (List.all_eq_true.mp admits session present) organization taken
      exact subscription_eq_none.mp (Option.isNone_iff_eq_none.mp waits)
    · cases taken

theorem accounted_of_reached {db : Db} {run : Intake × List Notice} (reached : Runs.Reaches
      (fun before label after => step settings before label = some after) (⟨db, .empty⟩, []) run) : Accounted run := by
  apply reached.invariant Accounted
  · refine ⟨?_, ?_, fun _ => Nat.zero_le 1, ?_⟩
    · exact fun _ present => nomatch present
    · exact fun _ present => nomatch present
    · exact fun _ counted => nomatch counted
  · exact fun before label after _ accounted taken => step_accounted accounted taken

def SameBilling (before after : Db) : Prop :=
  after.subscriptions = before.subscriptions ∧ after.auditEvents = before.auditEvents ∧
    after.queueJobs = before.queueJobs

theorem step_sameBilling {run : Intake × List Notice} {label : Label} (accounted : Accounted run)
    (own : ∀ db, label ≠ .elsewhere db) (taken : step settings run label = some after)
    (unprocessed : ∀ delivery status, after.2 ≠ run.2 ++ [.returned delivery (.processed status)]) :
    SameBilling run.1.db after.1.db := by
  obtain ⟨intake, notices⟩ := run
  cases label with
  | enter now delivery =>
    obtain ⟨_, _, done⟩ := Option.bind_eq_some_iff.mp taken
    cases done
    exact ⟨rfl, rfl, rfl⟩
  | proceed ticket =>
    obtain ⟨session, _, taken⟩ := Option.bind_eq_some_iff.mp taken
    obtain ⟨next, _, taken⟩ := Option.bind_eq_some_iff.mp taken
    obtain ⟨sessions, _, taken⟩ := Option.bind_eq_some_iff.mp taken
    cases taken
    exact ⟨rfl, rfl, rfl⟩
  | commit ticket =>
    obtain ⟨session, found, taken⟩ := Option.bind_eq_some_iff.mp taken
    have honest := accounted.honest session (Table.byId_eq_some.mp found).1
    split at taken
    · rename_i result stage
      obtain ⟨db, replayed, taken⟩ := Option.bind_eq_some_iff.mp taken
      cases taken
      cases result with
      | processed status => exact absurd rfl (unprocessed session.delivery status)
      | duplicate =>
        -- the session that reports a duplicate has nothing to commit
        rw [Honest, stage] at honest
        rw [show session.writes = [] from honest] at replayed
        cases replayed
        exact ⟨rfl, rfl, rfl⟩
    · cases taken
  | rollback ticket =>
    obtain ⟨session, _, taken⟩ := Option.bind_eq_some_iff.mp taken
    cases taken
    exact ⟨rfl, rfl, rfl⟩
  | elsewhere db => exact absurd rfl (own db)

/-- No transaction that has returned is kept from its commit. -/
theorem returned_commits {db : Db} {run : Intake × List Notice} (reached : Runs.Reaches
      (fun before label after => step settings before label = some after) (⟨db, .empty⟩, []) run)
    {session : Session} {result : WebhookResult} (stored : session ∈ run.1.sessions.rows)
    (stage : session.stage = .returned result) : ∃ after, step settings run (.commit session.ticket) = some after := by
  have accounted := accounted_of_reached reached
  have free := accounted.free session stored
  obtain ⟨pairs, organizations⟩ := (accounted.honest session stored).sublists
  obtain ⟨after, replayed⟩ := replay_some free.organizations free.pairs (List.Nodup.sublist organizations (by simp))
    (List.Nodup.sublist pairs (by simp))
  have found : run.1.sessions.byId session.ticket = some session := Table.byId_eq_some.mpr ⟨stored, rfl⟩
  refine ⟨(⟨after, run.1.without session.ticket⟩, run.2 ++ [.returned session.delivery result]), ?_⟩
  refine Option.bind_eq_some_iff.mpr ⟨session, found, ?_⟩
  rw [stage]
  exact Option.bind_eq_some_iff.mpr ⟨after, replayed, rfl⟩

end Runs

/-- In every interleaving of deliveries an event is applied at most once, and a delivery that reports a
    duplicate or raises leaves the subscriptions, the audit trail and the jobs as they were. -/
theorem webhooks_apply_at_most_once (settings : Settings) {db : Db} {run : Intake × List Notice}
    (reached : Runs.Reaches (fun before label after => step settings before label = some after) (⟨db, .empty⟩, []) run) :
    (∀ pair, applications pair run.2 ≤ 1) ∧
      ∀ label after, (∀ other, label ≠ .elsewhere other) → step settings run label = some after →
        (∀ delivery status, after.2 ≠ run.2 ++ [.returned delivery (.processed status)]) →
        SameBilling run.1.db after.1.db := by
  have accounted := accounted_of_reached reached
  exact ⟨accounted.once, fun label after own taken unprocessed => step_sameBilling accounted own taken unprocessed⟩

def race : List Label :=
  let delivery : Delivery := ⟨1, "stripe", "evt_1", "invoice.payment_failed", .obj []⟩
  [.enter (days 3) delivery, .enter (days 3) delivery, .proceed 1, .proceed 2, .proceed 1, .proceed 2, .proceed 1,
    .proceed 1, .proceed 1, .commit 1, .proceed 2, .commit 2]

theorem webhooks_apply_at_most_once_race :
    ∃ run, race.foldlM (step {}) (⟨(serve {} ⟨{}, 0⟩ ⟨0, .ensureSubscription 1⟩).db, .empty⟩, []) = some run ∧
      run.2.length = 2 ∧ applications ("stripe", "evt_1") run.2 = 1 ∧ ∀ pair, applications pair run.2 ≤ 1 := by
  have ends : (race.foldlM (step {}) (⟨(serve {} ⟨{}, 0⟩ ⟨0, .ensureSubscription 1⟩).db, .empty⟩, [])).any
      (fun run => run.2.length == 2 && applications ("stripe", "evt_1") run.2 == 1) = true := by decide +kernel
  obtain ⟨run, ran, ends⟩ := (Option.any_eq_true _ _).mp ends
  simp only [Bool.and_eq_true, beq_iff_eq] at ends
  exact ⟨run, ran, ends.1, ends.2, (webhooks_apply_at_most_once {} (Runs.reaches_foldlM ran)).1⟩

end Registry.Billing
