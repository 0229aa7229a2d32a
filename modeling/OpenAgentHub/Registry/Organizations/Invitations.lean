import OpenAgentHub.Lib.Board
import OpenAgentHub.Lib.Runs
import OpenAgentHub.Registry.Organizations.Requests

namespace Registry.Organizations

open Relational Quotas Billing Boards

/-- How far a request to accept an invitation has come. The checks are made on the rows
    as they were read. `account` is when the quota check has added a subscription row. -/
inductive Acceptance where
  | invited (invitation : Invitation) (user : User)
  | welcomed (invitation : Invitation) (user : User) (org : Organization)
  | outside (invitation : Invitation) (user : User) (org : Organization)
  | cleared (invitation : Invitation) (user : User) (org : Organization) (account : Option Time)

structure Joining where
  invitation : Invitation
  user : User
  member : OrganizationMember
  now : Time

/-- The statements of the requests. `leave` is a membership that ends meanwhile. -/
inductive AcceptStatement where
  | readInvitation (client : Nat) (now : Time) (user : User) (token : String)
  | readOrganization (client : Nat)
  | readMembership (client : Nat)
  | checkQuota (client : Nat) (now : Time)
  | commitAcceptance (client : Nat) (now : Time)
  | leave (memberId : Nat)

abbrev AcceptBoard := Board Db Acceptance Joining

section Statements

def admitInvitation (host : Host) (now : Time) (db : Db) (token : String) : Except Raised Invitation := do
  let invitation ← Outcome.demand (db.invitations.one (·.tokenHash == host.hashToken token))
    ⟨.invitationError, "invitation not found"⟩
  Outcome.ensure (invitation.acceptedAt = none) ⟨.invitationError, "invitation already used"⟩
  Outcome.ensure (now ≤ invitation.expiresAt) ⟨.invitationExpired, "invitation expired"⟩
  return invitation

def admittingOrganization (db : Db) (organizationId : Nat) : Except Raised Organization :=
  Outcome.demand ((db.organizations.byId organizationId).filter fun org => org.status == .active)
    ⟨.invitationError, "organization is not accepting members"⟩

def subscribed (db : Db) (organizationId : Nat) : Bool :=
  (db.subscriptions.one (·.organizationId == organizationId)).isSome

/-- A subscription row that another transaction has added in the meantime breaks the unique index. -/
def openAccount (settings : Settings) (db : Db) (organizationId : Nat) : Option Time → Option Db
  | none => some db
  | some opened =>
    if subscribed db organizationId then none
    else (ensureSubscription settings opened db organizationId).toOption.map Prod.fst

theorem acceptance_preserves (now : Time) (user : User) : Table.Preserves fun row : Invitation =>
    { row with acceptedById := some user.id, acceptedAt := some now } := fun _ => ⟨rfl, fun _ => rfl⟩

def writeAcceptance (now : Time) (db : Db) (invitation : Invitation) (user : User) (org : Organization) :
    Except Raised (Db × OrganizationMember) := do
  let (member, organizationMembers) ← Db.insertRow db.organizationMembers fun id =>
    { id, organizationId := org.id, userId := user.id, role := invitation.role }
  let invitations := db.invitations.modify (·.id == invitation.id)
    (fun row => { row with acceptedById := some user.id, acceptedAt := some now }) (acceptance_preserves now user)
  return (audit { db with organizationMembers, invitations } now user.id "organization.invitation.accepted"
    "invitation" invitation.id org.id [("slug", .str org.slug), ("role", .str invitation.role.name)], member)

theorem acceptInvitation_eq {host : Host} {now : Time} {db : Db} {user : User} {token : String} :
    acceptInvitation host now db user token = (do
      let invitation ← admitInvitation host now db token
      let org ← admittingOrganization db invitation.organizationId
      Outcome.ensure (membership db org.id user.id = none) ⟨.organizationConflict, "you are already a member"⟩
      let db ← asOrganizationError (enforceOrgMemberQuota host.settings now db org.id)
      let (db, _) ← writeAcceptance now db invitation user org
      return (db, org.slug, invitation.role)) := by
  unfold acceptInvitation admitInvitation admittingOrganization writeAcceptance
  simp only [bind_assoc, pure_bind]

def commitAcceptance (settings : Settings) (now : Time) (db : Db) (invitation : Invitation) (user : User)
    (org : Organization) (account : Option Time) : Option (Db × Joining) := do
  let stored ← db.invitations.byId invitation.id
  let db ← openAccount settings db org.id account
  let (after, member) ← (writeAcceptance now db invitation user org).toOption
  return (after, ⟨stored, user, member, now⟩)

def execute (host : Host) (board : AcceptBoard) : AcceptStatement → AcceptBoard
  | .readInvitation client now user token =>
    board.hold client ((admitInvitation host now board.store token).toOption.map (.invited · user))
  | .readOrganization client =>
    match board.tickets client with
    | some (.invited invitation user) =>
      board.hold client ((admittingOrganization board.store invitation.organizationId).toOption.map
        (.welcomed invitation user))
    | _ => board
  | .readMembership client =>
    match board.tickets client with
    | some (.welcomed invitation user org) =>
      board.hold client (if membership board.store org.id user.id = none then some (.outside invitation user org) else none)
    | _ => board
  | .checkQuota client now =>
    match board.tickets client with
    | some (.outside invitation user org) =>
      board.hold client ((enforceOrgMemberQuota host.settings now board.store org.id).toOption.map fun _ =>
        .cleared invitation user org (if subscribed board.store org.id then none else some now))
    | _ => board
  | .commitAcceptance client now =>
    match board.tickets client with
    | some (.cleared invitation user org account) =>
      board.settle client (commitAcceptance host.settings now board.store invitation user org account)
    | _ => board
  | .leave memberId => { board with store := deleteMember board.store memberId }

end Statements

section Undivided

variable {host : Host} {now : Time} {db : Db} {client : Nat} {board : AcceptBoard} {user : User} {token : String}

@[simp] theorem hold_tickets_self {ticket : Option Acceptance} : (board.hold client ticket).tickets client = ticket :=
  Function.update_self ..

theorem readOrganization_refused (refused : board.tickets client = none) :
    execute host board (.readOrganization client) = board := by
  dsimp only [execute]
  rw [refused]

theorem readMembership_refused (refused : board.tickets client = none) :
    execute host board (.readMembership client) = board := by
  dsimp only [execute]
  rw [refused]

theorem checkQuota_refused (refused : board.tickets client = none) :
    execute host board (.checkQuota client now) = board := by
  dsimp only [execute]
  rw [refused]

theorem commitAcceptance_refused (refused : board.tickets client = none) :
    execute host board (.commitAcceptance client now) = board := by
  dsimp only [execute]
  rw [refused]

theorem ensureSubscription_succeeds {settings : Settings} {organizationId : Nat} (opened : Time) (missing : subscribed db organizationId = false) :
    ∃ done, ensureSubscription settings opened db organizationId = .ok done := by
  have unknown : db.subscriptions.one (·.organizationId == organizationId) = none := by
    simpa [subscribed] using missing
  obtain ⟨subscriptions, inserted⟩ := Table.insert_of_free
    (fun id => ({ id, organizationId, plan := .free, status := .trial
                  trialEndsAt := some (opened + days settings.billingTrialDays)
                  entitlementSnapshot := some (snapshotFor settings .free .trial)
                  updatedAt := opened } : OrganizationSubscription)) (fun _ => rfl) (Table.one_none.mp unknown)
  unfold ensureSubscription
  rw [unknown]
  exact ⟨_, Outcome.bind_eq_ok.mpr ⟨(_, subscriptions), Db.insertRow_eq_ok.mpr inserted, rfl⟩⟩

theorem effectiveLimits_store (settings : Settings) (now : Time) (db : Db) (organizationId : Nat) :
    (effectiveLimits settings now db organizationId).1 =
      ((ensureSubscription settings now db organizationId).toOption.map Prod.fst).getD db := by
  unfold effectiveLimits subscriptionFor
  cases ensureSubscription settings now db organizationId with
  | error raised =>
    dsimp only
    repeat' split
    all_goals rfl
  | ok done =>
    dsimp only
    repeat' split
    all_goals rfl

theorem openAccount_of_quota {settings : Settings} {after : Db} {organizationId : Nat}
    (passed : enforceOrgMemberQuota settings now db organizationId = .ok after) :
    openAccount settings db organizationId (if subscribed db organizationId then none else some now) = some after := by
  simp only [enforceOrgMemberQuota, enforceCount, Outcome.bind_eq_ok, Outcome.pure_eq_ok] at passed
  obtain ⟨_, _, rfl⟩ := passed
  rw [effectiveLimits_store]
  by_cases present : subscribed db organizationId = true
  · rw [if_pos present]
    obtain ⟨sub, found⟩ := Option.isSome_iff_exists.mp present
    unfold ensureSubscription
    rw [found]
    rfl
  · have missing : subscribed db organizationId = false := by simpa using present
    have succeeds : ∃ done, ensureSubscription settings now db organizationId = .ok done :=
      ensureSubscription_succeeds now missing
    obtain ⟨done, ensured⟩ := succeeds
    rw [if_neg present]
    dsimp only [openAccount]
    rw [missing, ensured]
    rfl

theorem commitAcceptance_store {invitation : Invitation} {org : Organization} {account : Option Time} {charged : Db}
    (stored : board.store.invitations.byId invitation.id = some invitation)
    (opened : openAccount host.settings board.store org.id account = some charged) :
    (board.settle client (commitAcceptance host.settings now board.store invitation user org account)).store =
      ((writeAcceptance now charged invitation user org).toOption.map Prod.fst).getD board.store := by
  simp only [commitAcceptance, stored, opened, Option.bind_eq_bind, Option.bind_some]
  cases writeAcceptance now charged invitation user org with
  | error raised => rfl
  | ok done => rfl

section Going

variable {invitation : Invitation} {org : Organization}

theorem readOrganization_invited (held : board.tickets client = some (.invited invitation user)) :
    execute host board (.readOrganization client) = board.hold client
      ((admittingOrganization board.store invitation.organizationId).toOption.map (.welcomed invitation user)) := by
  dsimp only [execute]
  rw [held]

theorem readMembership_welcomed (held : board.tickets client = some (.welcomed invitation user org)) :
    execute host board (.readMembership client) = board.hold client
      (if membership board.store org.id user.id = none then some (.outside invitation user org) else none) := by
  dsimp only [execute]
  rw [held]

theorem checkQuota_outside (held : board.tickets client = some (.outside invitation user org)) :
    execute host board (.checkQuota client now) = board.hold client
      ((enforceOrgMemberQuota host.settings now board.store org.id).toOption.map fun _ =>
        .cleared invitation user org (if subscribed board.store org.id then none else some now)) := by
  dsimp only [execute]
  rw [held]

theorem commitAcceptance_cleared {account : Option Time} (held : board.tickets client = some (.cleared invitation user org account)) :
    execute host board (.commitAcceptance client now) =
      board.settle client (commitAcceptance host.settings now board.store invitation user org account) := by
  dsimp only [execute]
  rw [held]

theorem acceptance_outside (held : board.tickets client = some (.outside invitation user org))
    (stored : board.store.invitations.byId invitation.id = some invitation) :
    (execute host (execute host board (.checkQuota client now)) (.commitAcceptance client now)).store =
      ((enforceOrgMemberQuota host.settings now board.store org.id >>= fun charged =>
        writeAcceptance now charged invitation user org).toOption.map Prod.fst).getD board.store := by
  rw [checkQuota_outside held]
  cases passed : enforceOrgMemberQuota host.settings now board.store org.id with
  | error raised =>
    show (execute host (board.hold client none) (.commitAcceptance client now)).store = board.store
    rw [commitAcceptance_refused hold_tickets_self, Board.hold_store]
  | ok charged =>
    show (execute host (board.hold client (some (.cleared invitation user org _))) (.commitAcceptance client now)).store = _
    rw [commitAcceptance_cleared hold_tickets_self]
    exact commitAcceptance_store stored (openAccount_of_quota passed)

theorem acceptance_welcomed (held : board.tickets client = some (.welcomed invitation user org))
    (stored : board.store.invitations.byId invitation.id = some invitation) :
    (execute host (execute host (execute host board (.readMembership client)) (.checkQuota client now))
      (.commitAcceptance client now)).store = ((do
        Outcome.ensure (membership board.store org.id user.id = none)
          (⟨.organizationConflict, "you are already a member"⟩ : Raised)
        let charged ← enforceOrgMemberQuota host.settings now board.store org.id
        writeAcceptance now charged invitation user org).toOption.map Prod.fst).getD board.store := by
  rw [readMembership_welcomed held]
  by_cases outside : membership board.store org.id user.id = none
  · rw [if_pos outside, acceptance_outside hold_tickets_self stored, outside]
    rfl
  · rw [if_neg outside, checkQuota_refused hold_tickets_self, commitAcceptance_refused hold_tickets_self]
    have refused : Outcome.ensure (membership board.store org.id user.id = none)
        (⟨.organizationConflict, "you are already a member"⟩ : Raised) = .error _ := if_neg outside
    rw [refused]
    rfl

theorem acceptance_invited (held : board.tickets client = some (.invited invitation user))
    (stored : board.store.invitations.byId invitation.id = some invitation) :
    (execute host (execute host (execute host (execute host board (.readOrganization client)) (.readMembership client))
      (.checkQuota client now)) (.commitAcceptance client now)).store = ((do
        let org ← admittingOrganization board.store invitation.organizationId
        Outcome.ensure (membership board.store org.id user.id = none)
          (⟨.organizationConflict, "you are already a member"⟩ : Raised)
        let charged ← enforceOrgMemberQuota host.settings now board.store org.id
        writeAcceptance now charged invitation user org).toOption.map Prod.fst).getD board.store := by
  rw [readOrganization_invited held]
  cases admittingOrganization board.store invitation.organizationId with
  | error raised =>
    show (execute host (execute host (execute host (board.hold client none) (.readMembership client))
      (.checkQuota client now)) (.commitAcceptance client now)).store = board.store
    rw [readMembership_refused hold_tickets_self, checkQuota_refused hold_tickets_self,
      commitAcceptance_refused hold_tickets_self, Board.hold_store]
  | ok org => exact acceptance_welcomed hold_tickets_self stored

end Going

/-- A request whose statements run without interruption does what it does in one go. -/
theorem acceptance_undivided :
    ([AcceptStatement.readInvitation client now user token, .readOrganization client, .readMembership client,
      .checkQuota client now, .commitAcceptance client now].foldl (execute host) (Board.start db)).store =
      ((acceptInvitation host now db user token).toOption.map Prod.fst).getD db := by
  rw [acceptInvitation_eq]
  show (execute host (execute host (execute host (execute host ((Board.start db).hold client
    ((admitInvitation host now db token).toOption.map (.invited · user))) (.readOrganization client))
    (.readMembership client)) (.checkQuota client now)) (.commitAcceptance client now)).store = _
  cases admitted : admitInvitation host now db token with
  | error raised =>
    show (execute host (execute host (execute host (execute host ((Board.start db).hold client none)
      (.readOrganization client)) (.readMembership client)) (.checkQuota client now)) (.commitAcceptance client now)).store = db
    rw [readOrganization_refused hold_tickets_self, readMembership_refused hold_tickets_self,
      checkQuota_refused hold_tickets_self, commitAcceptance_refused hold_tickets_self]
    rfl
  | ok invitation =>
    have stored : db.invitations.byId invitation.id = some invitation := by
      simp only [admitInvitation, Outcome.bind_eq_ok, Outcome.demand_eq_ok, Outcome.pure_eq_ok] at admitted
      obtain ⟨_, found, _, _, _, _, rfl⟩ := admitted
      exact Table.byId_eq_some.mpr ⟨Table.one_mem found, rfl⟩
    have invited : ((Board.start db : AcceptBoard).hold client (some (.invited invitation user))).tickets client =
        some (.invited invitation user) := hold_tickets_self
    refine (acceptance_invited invited stored).trans ?_
    have start : ((Board.start db : AcceptBoard).hold client (some (.invited invitation user))).store = db := rfl
    rw [start, Outcome.ok_bind]
    cases admittingOrganization db invitation.organizationId with
    | error raised => rfl
    | ok org =>
      rw [Outcome.ok_bind, Outcome.ok_bind]
      cases Outcome.ensure (membership db org.id user.id = none)
          (⟨.organizationConflict, "you are already a member"⟩ : Raised) with
      | error raised => rfl
      | ok done =>
        rw [Outcome.ok_bind, Outcome.ok_bind]
        cases enforceOrgMemberQuota host.settings now db org.id with
        | error raised => rfl
        | ok charged =>
          rw [asOrganizationError_ok.mpr rfl, Outcome.ok_bind, Outcome.ok_bind]
          cases writeAcceptance now charged invitation user org with
          | error raised => rfl
          | ok done => rfl

end Undivided

section SingleUse

def Acceptance.invitation : Acceptance → Invitation
  | .invited invitation _ | .welcomed invitation _ _ | .outside invitation _ _ | .cleared invitation _ _ _ => invitation

def uses (invitationId : Nat) (joining : Joining) : Bool := joining.invitation.id == invitationId

/-- The member is the invited user, has the invited role, and joins before the expiry. -/
structure Joining.Lawful (joining : Joining) : Prop where
  invitee : joining.user.username = joining.invitation.email
  role : joining.member.role = joining.invitation.role
  inTime : joining.now ≤ joining.invitation.expiresAt

structure UsedOnce (invitationId : Nat) (events : List Joining) : Prop where
  once : events.countP (uses invitationId) ≤ 1
  lawful : ∀ joining ∈ events, joining.invitation.id = invitationId → joining.Lawful

def Unobstructed (db : Db) (user : User) (org : Organization) (account : Option Time) : Prop :=
  membership db org.id user.id = none ∧ (account.isSome = true → subscribed db org.id = false)

instance (db : Db) (user : User) (org : Organization) (account : Option Time) :
    Decidable (Unobstructed db user org account) := inferInstanceAs (Decidable (_ ∧ _))

def Rightful (invitationId : Nat) (board : AcceptBoard) : AcceptStatement → Prop
  | .commitAcceptance client now =>
    match board.tickets client with
    | some (.cleared invitation user org account) =>
      invitation.id = invitationId → Unobstructed board.store user org account →
        ∀ stored ∈ board.store.invitations.byId invitationId,
          stored.acceptedAt = none ∧ now ≤ stored.expiresAt ∧ user.username = stored.email
    | _ => True
  | _ => True

instance (invitationId : Nat) (board : AcceptBoard) (statement : AcceptStatement) :
    Decidable (Rightful invitationId board statement) := by
  cases statement with
  | commitAcceptance client now =>
    unfold Rightful
    dsimp only
    split <;> infer_instance
  | readInvitation | readOrganization | readMembership | checkQuota | leave => exact inferInstanceAs (Decidable True)

structure Accounted (invitationId : Nat) (board : AcceptBoard) : Prop where
  answered : ∀ row ∈ board.store.invitations.byId invitationId,
    row.acceptedAt = none ↔ board.events.countP (uses invitationId) = 0
  role : ∀ client ticket, board.tickets client = some ticket → ticket.invitation.id = invitationId →
    ∀ row ∈ board.store.invitations.byId invitationId, ticket.invitation.role = row.role

variable {host : Host} {settings : Settings} {now : Time} {db after : Db} {invitationId : Nat} {board : AcceptBoard}
  {events : List Joining} {joining : Joining} {client : Nat} {invitation stored : Invitation} {user : User}
  {org : Organization} {account : Option Time}

theorem openAccount_eq_some {organizationId : Nat} (opened : openAccount settings db organizationId account = some after) :
    BillingOnly db after ∧ (account.isSome = true → subscribed db organizationId = false) := by
  cases account with
  | none =>
    cases opened
    exact ⟨.refl db, nofun⟩
  | some since =>
    dsimp only [openAccount] at opened
    split at opened
    · cases opened
    · rename_i missing
      obtain ⟨⟨_, sub⟩, ensured, rfl⟩ := Option.map_eq_some_iff.mp opened
      exact ⟨ensureSubscription_billingOnly (Outcome.toOption_eq_some.mp ensured), fun _ => by simpa using missing⟩

theorem openAccount_succeeds {organizationId : Nat} (free : account.isSome = true → subscribed db organizationId = false) :
    ∃ after, openAccount settings db organizationId account = some after := by
  cases account with
  | none => exact ⟨db, rfl⟩
  | some opened =>
    have missing := free rfl
    have succeeds : ∃ done, ensureSubscription settings opened db organizationId = .ok done :=
      ensureSubscription_succeeds opened missing
    obtain ⟨done, ensured⟩ := succeeds
    refine ⟨done.1, ?_⟩
    dsimp only [openAccount]
    rw [missing, ensured]
    rfl

theorem commitAcceptance_eq_some
    (done : commitAcceptance settings now db invitation user org account = some (after, joining)) :
    ∃ stored, db.invitations.byId invitation.id = some stored ∧ Unobstructed db user org account ∧
      joining.invitation = stored ∧ joining.user = user ∧ joining.now = now ∧ joining.member.role = invitation.role ∧
      after.invitations = db.invitations.modify (·.id == invitation.id) _ (acceptance_preserves now user) := by
  simp only [commitAcceptance, Option.bind_eq_bind, Option.bind_eq_some_iff, Outcome.toOption_eq_some, Option.pure_def,
    Option.some.injEq, Prod.mk.injEq, Prod.exists] at done
  obtain ⟨stored, found, charged, opened, written, member, accepted, rfl, rfl⟩ := done
  obtain ⟨⟨subscriptions, queueJobs, rfl⟩, free⟩ := openAccount_eq_some opened
  simp only [writeAcceptance, Outcome.bind_eq_ok, Db.insertRow_eq_ok, Table.insert_eq_some, Outcome.pure_eq_ok,
    Prod.exists, Prod.mk.injEq] at accepted
  obtain ⟨_, _, ⟨unique, rfl, _⟩, rfl, rfl⟩ := accepted
  exact ⟨stored, found, ⟨Table.one_none.mpr unique, free⟩, rfl, rfl, rfl, rfl, rfl⟩

theorem commitAcceptance_none (found : db.invitations.byId invitation.id = some stored)
    (refused : commitAcceptance settings now db invitation user org account = none) :
    ¬ Unobstructed db user org account := by
  rintro ⟨outside, free⟩
  have opens : ∃ charged, openAccount settings db org.id account = some charged := openAccount_succeeds free
  obtain ⟨charged, opened⟩ := opens
  have same : charged.organizationMembers = db.organizationMembers := by
    obtain ⟨_, _, rfl⟩ := (openAccount_eq_some opened).1
    rfl
  have unique : ∀ row ∈ charged.organizationMembers.rows,
      (row.organizationId == org.id && row.userId == user.id) = false := by
    rw [same]
    exact Table.one_none.mp outside
  obtain ⟨organizationMembers, inserted⟩ := Table.insert_of_free
    (fun id => ({ id, organizationId := org.id, userId := user.id, role := invitation.role } : OrganizationMember))
    (fun _ => rfl) unique
  have written : ∃ done, writeAcceptance now charged invitation user org = .ok done :=
    ⟨_, Outcome.bind_eq_ok.mpr ⟨(_, organizationMembers), Db.insertRow_eq_ok.mpr inserted, rfl⟩⟩
  obtain ⟨⟨next, member⟩, written⟩ := written
  simp only [commitAcceptance, found, opened, written, Option.bind_eq_bind, Option.bind_some] at refused
  cases refused

theorem usedOnce_concat (used : UsedOnce invitationId events) : UsedOnce invitationId (events ++ [joining]) ↔
    (joining.invitation.id = invitationId → joining.Lawful ∧ events.countP (uses invitationId) = 0) := by
  have once := used.once
  have counted : (events ++ [joining]).countP (uses invitationId) ≤ 1 ↔
      (joining.invitation.id = invitationId → events.countP (uses invitationId) = 0) := by
    rw [List.countP_append, List.countP_singleton]
    by_cases isUse : joining.invitation.id = invitationId
    · simp [uses, isUse]
    · simp [uses, isUse, once]
  constructor
  · intro extended isUse
    exact ⟨extended.lawful joining (by simp) isUse, counted.mp extended.once isUse⟩
  · intro fits
    refine ⟨counted.mpr fun isUse => (fits isUse).2, fun other member => ?_⟩
    rcases List.mem_append.mp member with old | new
    · exact used.lawful other old
    · rw [List.mem_singleton.mp new]
      exact fun isUse => (fits isUse).1

section Steps

theorem accepted_byId (user : User) (invitations : after.invitations =
      db.invitations.modify (·.id == invitation.id) _ (acceptance_preserves now user)) :
    after.invitations.byId invitationId = (db.invitations.byId invitationId).map fun row =>
      if row.id == invitation.id then { row with acceptedById := some user.id, acceptedAt := some now } else row := by
  rw [invitations]
  exact Table.byId_modify (acceptance_preserves now user) invitationId

theorem Accounted.hold {ticket : Option Acceptance} (accounted : Accounted invitationId board)
    (role : ∀ held, ticket = some held → held.invitation.id = invitationId →
      ∀ row ∈ board.store.invitations.byId invitationId, held.invitation.role = row.role) :
    Accounted invitationId (board.hold client ticket) where
  answered := accounted.answered
  role other held isHeld isInvitation := by
    rcases Board.hold_tickets isHeld with new | old
    · exact role held new isInvitation
    · exact accounted.role other held old isInvitation

/-- A request that goes on holds the invitation it has read. -/
theorem Accounted.carry {held : Acceptance} {ticket : Option Acceptance} (accounted : Accounted invitationId board)
    (holds : board.tickets client = some held) (carried : ∀ next, ticket = some next → next.invitation = held.invitation) :
    Accounted invitationId (board.hold client ticket) := by
  apply accounted.hold
  intro next isNext isInvitation row isRow
  rw [carried next isNext] at isInvitation ⊢
  exact accounted.role client held holds isInvitation row isRow

theorem Accounted.settle (accounted : Accounted invitationId board) :
    Accounted invitationId
      (board.settle client (commitAcceptance settings now board.store invitation user org account)) := by
  cases done : commitAcceptance settings now board.store invitation user org account with
  | none => exact accounted.hold fun _ held => by cases held
  | some outcome =>
    obtain ⟨store, joining⟩ := outcome
    obtain ⟨stored, found, _, isStored, _, _, _, invitations⟩ := commitAcceptance_eq_some done
    have storedId : stored.id = invitation.id := (Table.byId_eq_some.mp found).2
    refine ⟨fun row isRow => ?_, fun other ticket held isInvitation row isRow => ?_⟩
    · have isRow : store.invitations.byId invitationId = some row := isRow
      rw [accepted_byId user invitations] at isRow
      obtain ⟨old, isOld, rfl⟩ := Option.map_eq_some_iff.mp isRow
      have oldId : old.id = invitationId := (Table.byId_eq_some.mp isOld).2
      show _ ↔ (board.events ++ [joining]).countP (uses invitationId) = 0
      rw [List.countP_append, List.countP_singleton]
      by_cases same : invitation.id = invitationId
      · simp [uses, isStored, oldId, storedId, same]
      · have apart : invitationId ≠ invitation.id := fun isInvitation => same isInvitation.symm
        simp [uses, isStored, oldId, storedId, same, apart, accounted.answered old isOld]
    · have isRow : store.invitations.byId invitationId = some row := isRow
      rw [accepted_byId user invitations] at isRow
      obtain ⟨old, isOld, rfl⟩ := Option.map_eq_some_iff.mp isRow
      have kept := accounted.role other ticket (Board.settle_tickets held) isInvitation old isOld
      rw [kept]
      split <;> rfl

theorem execute_accounted (statement : AcceptStatement) (accounted : Accounted invitationId board) :
    Accounted invitationId (execute host board statement) := by
  cases statement with
  | readInvitation client now user token =>
    apply accounted.hold
    intro held isHeld isInvitation row isRow
    obtain ⟨invitation, admitted, rfl⟩ := Option.map_eq_some_iff.mp isHeld
    simp only [admitInvitation, Outcome.toOption_eq_some, Outcome.bind_eq_ok, Outcome.demand_eq_ok, Outcome.pure_eq_ok] at admitted
    obtain ⟨_, found, _, _, _, _, rfl⟩ := admitted
    have same := Table.byId_eq_some.mp isRow
    exact congrArg Invitation.role (Table.eq_of_id (Table.one_mem found) same.1 (isInvitation.trans same.2.symm))
  | readOrganization client =>
    dsimp only [execute]
    split
    · rename_i holds
      apply accounted.carry holds
      intro next isNext
      obtain ⟨_, _, rfl⟩ := Option.map_eq_some_iff.mp isNext
      rfl
    · exact accounted
  | readMembership client =>
    dsimp only [execute]
    split
    · rename_i holds
      apply accounted.carry holds
      intro next isNext
      split at isNext
      · cases isNext
        rfl
      · cases isNext
    · exact accounted
  | checkQuota client now =>
    dsimp only [execute]
    split
    · rename_i holds
      apply accounted.carry holds
      intro next isNext
      obtain ⟨_, _, rfl⟩ := Option.map_eq_some_iff.mp isNext
      rfl
    · exact accounted
  | commitAcceptance client now =>
    dsimp only [execute]
    split
    · exact accounted.settle
    · exact accounted
  | leave memberId => exact ⟨accounted.answered, accounted.role⟩

theorem settle_usedOnce_iff (accounted : Accounted invitationId board) (used : UsedOnce invitationId board.events)
    (held : board.tickets client = some (.cleared invitation user org account)) :
    UsedOnce invitationId
        (board.settle client (commitAcceptance settings now board.store invitation user org account)).events ↔
      (invitation.id = invitationId → Unobstructed board.store user org account →
        ∀ stored ∈ board.store.invitations.byId invitationId,
          stored.acceptedAt = none ∧ now ≤ stored.expiresAt ∧ user.username = stored.email) := by
  cases done : commitAcceptance settings now board.store invitation user org account with
  | none =>
    refine iff_of_true used fun isInvitation unobstructed stored found => ?_
    rw [← isInvitation] at found
    exact absurd unobstructed (commitAcceptance_none found done)
  | some outcome =>
    obtain ⟨store, joining⟩ := outcome
    obtain ⟨stored, found, unobstructed, isStored, isUser, isNow, role, _⟩ := commitAcceptance_eq_some done
    have storedId : stored.id = invitation.id := (Table.byId_eq_some.mp found).2
    show UsedOnce invitationId (board.events ++ [joining]) ↔ _
    rw [usedOnce_concat used, isStored, storedId]
    constructor
    · intro fits isInvitation _ other isOther
      obtain ⟨lawful, unused⟩ := fits isInvitation
      rw [← isInvitation] at isOther
      cases found.symm.trans isOther
      rw [isInvitation] at found
      have invitee := lawful.invitee
      have inTime := lawful.inTime
      rw [isStored, isUser] at invitee
      rw [isStored, isNow] at inTime
      exact ⟨(accounted.answered stored found).mpr unused, inTime, invitee⟩
    · intro rightful isInvitation
      rw [isInvitation] at found
      obtain ⟨unused, inTime, invitee⟩ := rightful isInvitation unobstructed stored found
      have sameRole : invitation.role = stored.role := accounted.role client _ held isInvitation stored found
      refine ⟨⟨?_, ?_, ?_⟩, (accounted.answered stored found).mp unused⟩
      · rw [isUser, isStored]
        exact invitee
      · rw [role, isStored]
        exact sameRole
      · rw [isNow, isStored]
        exact inTime

theorem execute_usedOnce_iff (statement : AcceptStatement) (accounted : Accounted invitationId board)
    (used : UsedOnce invitationId board.events) :
    UsedOnce invitationId (execute host board statement).events ↔ Rightful invitationId board statement := by
  cases statement with
  | readInvitation | leave => exact iff_of_true used trivial
  | readOrganization client | readMembership client | checkQuota client now =>
    refine iff_of_true ?_ trivial
    dsimp only [execute]
    split <;> exact used
  | commitAcceptance client now =>
    dsimp only [execute, Rightful]
    cases held : board.tickets client with
    | none => exact iff_of_true used trivial
    | some ticket =>
      cases ticket with
      | cleared invitation user org account => exact settle_usedOnce_iff accounted used held
      | invited | welcomed | outside => exact iff_of_true used trivial

end Steps

theorem inviteMember_invites {actor : User} {slug username role token : String} {ttlHours : Option Nat} {result : InviteResult}
    (invited : inviteMember host now db actor slug username role ttlHours token = .ok (after, result)) :
    ∃ row, after.invitations.byId db.invitations.next = some row ∧ row.acceptedAt = none := by
  simp only [inviteMember, Outcome.bind_eq_ok, asOrganizationError_ok, Db.insertRow_eq_ok, Table.insert_eq_some,
    Outcome.pure_eq_ok, Prod.exists, Prod.mk.injEq] at invited
  obtain ⟨_, _, _, _, _, _, _, _, _, _, _, charged, quota, row, invitations, ⟨_, made, rows, _⟩, rfl, _⟩ := invited
  have same : charged.invitations = db.invitations := by
    obtain ⟨_, _, rfl⟩ := enforceCount_billingOnly quota
    rfl
  rw [same] at rows made
  rw [← made] at rows
  refine ⟨row, Table.byId_eq_some.mpr ⟨?_, by rw [made]; rfl⟩, by rw [made]⟩
  show row ∈ invitations.rows
  rw [rows]
  exact List.mem_append_right _ (List.mem_singleton_self _)

/-- For every order of statements after it was issued, an invitation is used once and
    by its invitee exactly when every commit is rightful. -/
theorem invitation_single_use_iff {actor : User} {slug username role token : String} {ttlHours : Option Nat}
    {result : InviteResult}
    (invited : inviteMember host now db actor slug username role ttlHours token = .ok (after, result))
    (statements : List AcceptStatement) :
    Runs.Along (execute host) (fun board => UsedOnce db.invitations.next board.events) (Board.start after) statements ↔
      Runs.AllMeet (execute host) (Rightful db.invitations.next) (Board.start after) statements := by
  obtain ⟨row, found, unused⟩ := inviteMember_invites invited
  have accounted : Accounted db.invitations.next (Board.start after) := by
    refine ⟨fun other isOther => ?_, fun _ _ held => by cases held⟩
    cases found.symm.trans isOther
    exact iff_of_true unused rfl
  have used : UsedOnce db.invitations.next (Board.start after : AcceptBoard).events :=
    ⟨Nat.zero_le _, fun _ member => by cases member⟩
  exact Runs.along_iff_allMeet (Accounted db.invitations.next)
    (fun _ statement accounted _ => execute_accounted statement accounted)
    (fun _ statement accounted used => execute_usedOnce_iff statement accounted used) accounted used

end SingleUse

section Desk

def invitationToken : String := "Zk3vQ1nYp8sLw0Rb6TgXe2HcJd9MfUaO"

def deskHost : Host :=
  { asciiHost with hashToken := fun token =>
      if token = invitationToken then "a5a4e5f247f968a4f28a373840bd755bb183f1f9bcf1371185ca051d00085004" else "" }

def visitor : User := { id := 3, username := "visitor" }

def reception : Db where
  users := ⟨[founder, colleague, visitor], 4, by decide, by decide⟩
  organizations := .single { id := 1, slug := "acme", displayName := "Acme" }
  organizationMembers := .single { id := 1, organizationId := 1, userId := 1, role := .owner }

def entering (client : Nat) (user : User) : List AcceptStatement :=
  [.readInvitation client 2 user invitationToken, .readOrganization client, .readMembership client, .checkQuota client 2]

def inTurn : List AcceptStatement :=
  entering 1 colleague ++ [.commitAcceptance 1 2] ++ entering 1 colleague ++ [.commitAcceptance 1 3]

def atOnce : List AcceptStatement :=
  entering 1 colleague ++ entering 2 visitor ++ [.commitAcceptance 1 2, .commitAcceptance 2 2]

def inviting : Except Raised (Db × InviteResult) :=
  inviteMember deskHost 1 reception founder "acme" "colleague" "read_only" none invitationToken

def invited : Db := (inviting.toOption.map Prod.fst).getD reception

theorem colleague_invited : ∃ result, inviting = .ok (invited, result) := by
  have succeeds : inviting.isOk = true := by decide +kernel
  obtain ⟨⟨after, result⟩, done⟩ := Outcome.isOk_iff.mp succeeds
  refine ⟨result, ?_⟩
  unfold invited
  rw [done]
  rfl

theorem invitation_used_in_turn : ∃ result, inviting = .ok (invited, result) ∧
    Runs.Along (execute deskHost) (fun board => UsedOnce 1 board.events) (Board.start invited) inTurn := by
  obtain ⟨result, issued⟩ := colleague_invited
  exact ⟨result, issued, (invitation_single_use_iff issued inTurn).mpr (by decide +kernel)⟩

/-- Two members by one invitation, one of whom was not invited. -/
theorem invitation_used_twice : ∃ result, inviting = .ok (invited, result) ∧
    ¬ Runs.Along (execute deskHost) (fun board => UsedOnce 1 board.events) (Board.start invited) atOnce := by
  obtain ⟨result, issued⟩ := colleague_invited
  have twice : (atOnce.foldl (execute deskHost) (Board.start invited)).events.countP (uses 1) = 2 := by decide +kernel
  refine ⟨result, issued, fun along => ?_⟩
  have once := along.final.once
  rw [twice] at once
  exact absurd once (by decide)

end Desk

end Registry.Organizations
