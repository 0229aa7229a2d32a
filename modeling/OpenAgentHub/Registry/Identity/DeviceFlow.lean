import OpenAgentHub.Lib.Board
import OpenAgentHub.Lib.Runs
import OpenAgentHub.Registry.Identity.Effects
import OpenAgentHub.Registry.Identity.Routes

namespace Registry.Identity

open Relational Boards Organizations

section Phases

def admitApproval (host : Host) (db : Db) (userCode : String) (approvingOrigin : Option String) :
    Except Raised LoginTransaction := do
  let row ← Outcome.demand (loginByUserCode db userCode) (http 404 "device code not found")
  Outcome.ensure (approvingOrigin = none ∨ originsMatch host row.registryOrigin approvingOrigin = true)
    (http 403 "approval origin does not match login registry")
  Outcome.ensure (row.userId = none ∧ row.completedAt = none) (http 409 "already approved")
  return row

/-- The update names the columns it sets and the row by its id. -/
def writeApproval (now : Time) (db : Db) (row : LoginTransaction) (userId : Nat) : Db :=
  { db with loginTransactions := db.loginTransactions.modify (·.id == row.id) fun row =>
      { row with userId := some userId, completedAt := some now } }.recordAudit
    { id := 0, actorId := some userId, action := "login_transaction.approved"
      targetType := some "login_transaction", targetId := some row.id
      detail := [("client", .str row.clientName)], createdAt := now }

def admitPoll (now : Time) (row : LoginTransaction) : Except Raised Nat := do
  Outcome.ensure (now ≤ row.expiresAt) (http 400 "expired_token")
  let userId ← Outcome.demand (row.userId.filter fun _ => row.completedAt.isSome) (http 400 "authorization_pending")
  Outcome.ensure (row.issuedAt = none) (http 400 "expired_token")
  return userId

def activeUser (db : Db) (userId : Nat) : Except Raised User :=
  Outcome.demand ((db.users.byId userId).filter (·.status == .active)) (http 401 "user not available")

theorem issue_preserves (now : Time) : Table.Preserves fun row : LoginTransaction => { row with issuedAt := some now } :=
  fun _ => ⟨rfl, fun _ => rfl⟩

def writeIssue (host : Host) (now : Time) (db : Db) (row : LoginTransaction) (user : User) (raw : String) :
    Except Raised (Db × Session) := do
  let (db, session) ← createSession host now db user raw "cli" (some row.clientName)
  return ({ db with
    loginTransactions := db.loginTransactions.modify (·.id == row.id) (fun row => { row with issuedAt := some now })
      (issue_preserves now) }, session)

variable {host : Host} {now : Time} {db : Db}

theorem approveDeviceLogin_eq {user : User} {userCode : String} {approvingOrigin : Option String} :
    approveDeviceLogin host now db user userCode approvingOrigin = (do
      let row ← admitApproval host db userCode approvingOrigin
      return writeApproval now db row user.id) := by
  unfold approveDeviceLogin admitApproval
  simp only [bind_assoc, pure_bind]
  rfl

theorem pollDeviceLogin_eq {deviceCode raw : String} : pollDeviceLogin host now db deviceCode raw = (do
      let row ← Outcome.demand (db.loginTransactions.one (·.deviceCodeHash == host.hashToken deviceCode))
        (http 401 "invalid device code")
      let userId ← admitPoll now row
      let user ← activeUser db userId
      writeIssue host now db row user raw) := by
  unfold pollDeviceLogin admitPoll writeIssue activeUser
  simp only [bind_assoc, pure_bind]

end Phases

inductive DeviceTicket where
  | approving (login : LoginTransaction) (userId : Nat)
  | polled (login : LoginTransaction) (userId : Nat)
  | admitted (login : LoginTransaction) (user : User)

/-- What is committed, with the rows as they are stored at that moment. -/
inductive DeviceEvent where
  | approved (login : LoginTransaction) (userId : Nat) (now : Time)
  | issued (login : LoginTransaction) (holder : Option User) (userId : Nat) (now : Time)

/-- The statements of the requests. `setStatus` is what the rest of the registry does to an account meanwhile. -/
inductive DeviceStatement where
  | readApproval (client : Nat) (user : User) (userCode : String) (approvingOrigin : Option String)
  | commitApproval (client : Nat) (now : Time)
  | readLogin (client : Nat) (now : Time) (deviceCode : String)
  | readUser (client : Nat)
  | commitIssue (client : Nat) (now : Time) (raw : String)
  | setStatus (userId : Nat) (status : UserStatus)

abbrev DeviceBoard := Board Db DeviceTicket DeviceEvent

section Statements

/-- An update that finds no row raises and rolls back. -/
def commitApproval (now : Time) (db : Db) (login : LoginTransaction) (userId : Nat) : Option (Db × DeviceEvent) := do
  let stored ← db.loginTransactions.byId login.id
  return (writeApproval now db login userId, .approved stored userId now)

def commitIssue (host : Host) (now : Time) (db : Db) (login : LoginTransaction) (user : User) (raw : String) :
    Option (Db × DeviceEvent) := do
  let stored ← db.loginTransactions.byId login.id
  let (after, _) ← (writeIssue host now db login user raw).toOption
  return (after, .issued stored (db.users.byId user.id) user.id now)

def setStatus (db : Db) (userId : Nat) (status : UserStatus) : Db :=
  { db with users := db.users.modify (·.id == userId) (fun user => { user with status }) (status_preserves status) }

def execute (host : Host) (board : DeviceBoard) : DeviceStatement → DeviceBoard
  | .readApproval client user userCode approvingOrigin =>
    board.hold client ((admitApproval host board.store userCode approvingOrigin).toOption.map (.approving · user.id))
  | .commitApproval client now =>
    match board.tickets client with
    | some (.approving login userId) => board.settle client (commitApproval now board.store login userId)
    | _ => board
  | .readLogin client now deviceCode =>
    board.hold client do
      let login ← board.store.loginTransactions.one (·.deviceCodeHash == host.hashToken deviceCode)
      let userId ← (admitPoll now login).toOption
      return .polled login userId
  | .readUser client =>
    match board.tickets client with
    | some (.polled login userId) =>
      board.hold client ((activeUser board.store userId).toOption.map (.admitted login))
    | _ => board
  | .commitIssue client now raw =>
    match board.tickets client with
    | some (.admitted login user) => board.settle client (commitIssue host now board.store login user raw)
    | _ => board
  | .setStatus userId status => { board with store := setStatus board.store userId status }

end Statements

section Undivided

variable {host : Host} {now : Time} {db : Db} {client : Nat}

@[simp] theorem hold_tickets_self {board : DeviceBoard} {ticket : Option DeviceTicket} :
    (board.hold client ticket).tickets client = ticket := Function.update_self ..

/-- A request whose statements run without interruption does what it does in one go. -/
theorem approval_undivided {user : User} {userCode : String} {approvingOrigin : Option String} :
    ([DeviceStatement.readApproval client user userCode approvingOrigin, .commitApproval client now].foldl (execute host)
        (Board.start db)).store =
      (approveDeviceLogin host now db user userCode approvingOrigin).toOption.getD db := by
  rw [approveDeviceLogin_eq, List.foldl_cons, List.foldl_cons, List.foldl_nil]
  have start : (Board.start db : DeviceBoard).store = db := rfl
  dsimp only [execute]
  rw [hold_tickets_self, start]
  cases admitted : admitApproval host db userCode approvingOrigin with
  | error raised => rfl
  | ok row =>
    have stored : db.loginTransactions.byId row.id = some row := by
      simp only [admitApproval, Outcome.bind_eq_ok, Outcome.demand_eq_ok, Outcome.pure_eq_ok] at admitted
      obtain ⟨_, found, _, _, _, _, rfl⟩ := admitted
      exact Table.byId_eq_some.mpr ⟨Table.one_mem found, rfl⟩
    have committed : commitApproval now db row user.id = some (writeApproval now db row user.id, .approved row user.id now) := by
      unfold commitApproval
      rw [stored]
      rfl
    show (Board.settle _ client (commitApproval now db row user.id)).store = _
    rw [committed]
    rfl

theorem readUser_polled {board : DeviceBoard} {login : LoginTransaction} {userId : Nat}
    (held : board.tickets client = some (.polled login userId)) : execute host board (.readUser client) =
      board.hold client ((activeUser board.store userId).toOption.map (.admitted login)) := by
  dsimp only [execute]
  rw [held]

theorem commitIssue_admitted {board : DeviceBoard} {login : LoginTransaction} {user : User} {raw : String}
    (held : board.tickets client = some (.admitted login user)) : execute host board (.commitIssue client now raw) =
      board.settle client (commitIssue host now board.store login user raw) := by
  dsimp only [execute]
  rw [held]

/-- A poll that was refused goes no further. -/
theorem readUser_refused {board : DeviceBoard} (refused : board.tickets client = none) :
    execute host board (.readUser client) = board := by
  dsimp only [execute]
  rw [refused]

theorem commitIssue_refused {board : DeviceBoard} {raw : String} (refused : board.tickets client = none) :
    execute host board (.commitIssue client now raw) = board := by
  dsimp only [execute]
  rw [refused]

theorem commitIssue_store {board : DeviceBoard} {login : LoginTransaction} {user : User} {raw : String}
    (stored : board.store.loginTransactions.byId login.id = some login) :
    (board.settle client (commitIssue host now board.store login user raw)).store =
      ((writeIssue host now board.store login user raw).toOption.map Prod.fst).getD board.store := by
  unfold commitIssue
  rw [stored]
  cases writeIssue host now board.store login user raw with
  | error raised => rfl
  | ok done => rfl

theorem poll_undivided {deviceCode raw : String} :
    ([DeviceStatement.readLogin client now deviceCode, .readUser client, .commitIssue client now raw].foldl (execute host)
        (Board.start db)).store =
      ((pollDeviceLogin host now db deviceCode raw).toOption.map Prod.fst).getD db := by
  rw [pollDeviceLogin_eq, List.foldl_cons, List.foldl_cons, List.foldl_cons, List.foldl_nil]
  have start : (Board.start db : DeviceBoard).store = db := rfl
  have read : execute host (Board.start db) (.readLogin client now deviceCode) = (Board.start db).hold client (do
      let login ← db.loginTransactions.one (·.deviceCodeHash == host.hashToken deviceCode)
      let userId ← (admitPoll now login).toOption
      return .polled login userId) := rfl
  rw [read]
  cases found : db.loginTransactions.one (·.deviceCodeHash == host.hashToken deviceCode) with
  | none =>
    show (execute host (execute host ((Board.start db).hold client none) (.readUser client)) (.commitIssue client now raw)).store = db
    rw [readUser_refused hold_tickets_self, commitIssue_refused hold_tickets_self]
    rfl
  | some row =>
    have stored : db.loginTransactions.byId row.id = some row := Table.byId_eq_some.mpr ⟨Table.one_mem found, rfl⟩
    dsimp only [Option.bind_eq_bind, Option.bind_some, Outcome.demand_some, Outcome.ok_bind]
    cases admitPoll now row with
    | error raised =>
      show (execute host (execute host ((Board.start db).hold client none) (.readUser client))
        (.commitIssue client now raw)).store = db
      rw [readUser_refused hold_tickets_self, commitIssue_refused hold_tickets_self]
      rfl
    | ok userId =>
      show (execute host (execute host ((Board.start db).hold client (some (.polled row userId))) (.readUser client))
        (.commitIssue client now raw)).store = _
      rw [readUser_polled hold_tickets_self, Board.hold_store, start, Outcome.ok_bind]
      cases activeUser db userId with
      | error raised =>
        show (execute host (((Board.start db).hold client _).hold client none) (.commitIssue client now raw)).store = db
        rw [commitIssue_refused hold_tickets_self]
        rfl
      | ok user =>
        show (execute host (((Board.start db).hold client _).hold client (some (.admitted row user)))
          (.commitIssue client now raw)).store = _
        rw [commitIssue_admitted hold_tickets_self, commitIssue_store stored]
        rfl

end Undivided

section SingleUse

def DeviceEvent.login : DeviceEvent → LoginTransaction
  | .approved login _ _ | .issued login _ _ _ => login

def approves (loginId : Nat) : DeviceEvent → Bool
  | .approved login _ _ => login.id == loginId
  | .issued .. => false

def issues (loginId : Nat) : DeviceEvent → Bool
  | .issued login _ _ _ => login.id == loginId
  | .approved .. => false

/-- Nothing happens after the expiry, and a session is for the recorded user, who is active. -/
def DeviceEvent.Lawful : DeviceEvent → Prop
  | .approved login _ now => now ≤ login.expiresAt
  | .issued login holder userId now =>
    now ≤ login.expiresAt ∧ login.userId = some userId ∧ ∃ user ∈ holder, user.status = .active

structure SingleUse (loginId : Nat) (events : List DeviceEvent) : Prop where
  once : events.countP (issues loginId) ≤ 1
  approvedFirst : Preceded (approves loginId · = true) (issues loginId · = true) events
  lawful : ∀ event ∈ events, event.login.id = loginId → event.Lawful

/-- An approval is committed before the code expires. A poll that is about to
    issue a session would pass its checks again, for the same user. -/
def Undisturbed (host : Host) (loginId : Nat) (board : DeviceBoard) : DeviceStatement → Prop
  | .commitApproval client now =>
    match board.tickets client with
    | some (.approving login _) =>
      login.id = loginId → ∀ stored ∈ board.store.loginTransactions.byId loginId, now ≤ stored.expiresAt
    | _ => True
  | .commitIssue client now raw =>
    match board.tickets client with
    | some (.admitted login user) =>
      login.id = loginId → sessionByHash board.store (host.hashToken raw) = none →
        ∀ stored ∈ board.store.loginTransactions.byId loginId,
          (admitPoll now stored >>= activeUser board.store).toOption.map User.id = some user.id
    | _ => True
  | _ => True

instance (host : Host) (loginId : Nat) (board : DeviceBoard) (statement : DeviceStatement) :
    Decidable (Undisturbed host loginId board statement) := by
  cases statement with
  | commitApproval client now =>
    unfold Undisturbed
    dsimp only
    split <;> infer_instance
  | commitIssue client now raw =>
    unfold Undisturbed
    dsimp only
    split <;> infer_instance
  | readApproval | readLogin | readUser | setStatus => exact inferInstanceAs (Decidable True)

structure Accounted (loginId : Nat) (board : DeviceBoard) : Prop where
  answered : ∀ row ∈ board.store.loginTransactions.byId loginId,
    row.issuedAt = none ↔ board.events.countP (issues loginId) = 0
  completed : ∀ row ∈ board.store.loginTransactions.byId loginId, row.userId ≠ none →
    row.completedAt.isSome = true ∧ ∃ event ∈ board.events, approves loginId event = true
  polled : ∀ client login userId, board.tickets client = some (.polled login userId) → login.id = loginId →
    ∃ event ∈ board.events, approves loginId event = true
  admitted : ∀ client login user, board.tickets client = some (.admitted login user) → login.id = loginId →
    ∃ event ∈ board.events, approves loginId event = true

variable {host : Host} {now : Time} {db after : Db} {loginId : Nat} {board : DeviceBoard} {events : List DeviceEvent}
  {event : DeviceEvent} {client : Nat}

theorem admitPoll_ok {row : LoginTransaction} {userId : Nat} : admitPoll now row = .ok userId ↔
    now ≤ row.expiresAt ∧ row.userId = some userId ∧ row.completedAt.isSome = true ∧ row.issuedAt = none := by
  unfold admitPoll
  simp only [Outcome.bind_eq_ok, Outcome.ensure_eq_ok, Outcome.demand_eq_ok, Outcome.pure_eq_ok, Option.filter_eq_some_iff]
  constructor
  · rintro ⟨_, inTime, _, ⟨approved, completed⟩, _, unissued, rfl⟩
    exact ⟨inTime, approved, completed, unissued⟩
  · rintro ⟨inTime, approved, completed, unissued⟩
    exact ⟨(), inTime, userId, ⟨approved, completed⟩, (), unissued, rfl⟩

theorem activeUser_ok {userId : Nat} {user : User} :
    activeUser db userId = .ok user ↔ db.users.byId userId = some user ∧ user.status = .active := by
  unfold activeUser
  rw [Outcome.demand_eq_ok, Option.filter_eq_some_iff, beq_iff_eq]

theorem singleUse_concat (single : SingleUse loginId events) : SingleUse loginId (events ++ [event]) ↔
    (event.login.id = loginId → event.Lawful) ∧ (issues loginId event = true → events.countP (issues loginId) = 0 ∧
      ∃ cause ∈ events, approves loginId cause = true) := by
  have once := single.once
  have counted : (events ++ [event]).countP (issues loginId) ≤ 1 ↔
      (issues loginId event = true → events.countP (issues loginId) = 0) := by
    rw [List.countP_append, List.countP_singleton]
    split
    · rename_i isIssue
      simp only [isIssue, forall_const]
      omega
    · rename_i notIssue
      simp [notIssue, once]
  constructor
  · intro extended
    refine ⟨extended.lawful event (by simp), fun isIssue => ⟨counted.mp extended.once isIssue, ?_⟩⟩
    exact (preceded_concat single.approvedFirst).mp extended.approvedFirst isIssue
  · rintro ⟨lawful, first⟩
    refine ⟨counted.mpr fun isIssue => (first isIssue).1, ?_, ?_⟩
    · exact (preceded_concat single.approvedFirst).mpr fun isIssue => (first isIssue).2
    · intro other member
      rcases List.mem_append.mp member with old | new
      · exact single.lawful other old
      · rw [List.mem_singleton.mp new]
        exact lawful

theorem approval_preserves (now : Time) (userId : Nat) : Table.Preserves fun row : LoginTransaction =>
    { row with userId := some userId, completedAt := some now } := fun _ => ⟨rfl, fun _ => rfl⟩

theorem writeApproval_byId (login : LoginTransaction) (userId : Nat) :
    (writeApproval now db login userId).loginTransactions.byId loginId = (db.loginTransactions.byId loginId).map fun row =>
      if row.id == login.id then { row with userId := some userId, completedAt := some now } else row :=
  Table.byId_modify (approval_preserves now userId) loginId

theorem issued_byId (login : LoginTransaction) (logins : after.loginTransactions =
      db.loginTransactions.modify (·.id == login.id) _ (issue_preserves now)) :
    after.loginTransactions.byId loginId = (db.loginTransactions.byId loginId).map fun row =>
      if row.id == login.id then { row with issuedAt := some now } else row := by
  rw [logins]
  exact Table.byId_modify (issue_preserves now) loginId

theorem commitApproval_eq_some {login : LoginTransaction} {userId : Nat} :
    commitApproval now db login userId = some (after, event) ↔ ∃ stored, db.loginTransactions.byId login.id = some stored ∧
      after = writeApproval now db login userId ∧ event = .approved stored userId now := by
  simp only [commitApproval, Option.bind_eq_bind, Option.bind_eq_some_iff, Option.pure_def, Option.some.injEq, Prod.mk.injEq]
  constructor
  · rintro ⟨stored, found, rfl, rfl⟩
    exact ⟨stored, found, rfl, rfl⟩
  · rintro ⟨stored, found, rfl, rfl⟩
    exact ⟨stored, found, rfl, rfl⟩

theorem writeIssue_ok {login : LoginTransaction} {user : User} {raw : String} {session : Session}
    (done : writeIssue host now db login user raw = .ok (after, session)) :
    sessionByHash db (host.hashToken raw) = none ∧ after.users = db.users ∧
      after.loginTransactions = db.loginTransactions.modify (·.id == login.id) _ (issue_preserves now) := by
  simp only [writeIssue, createSession, Outcome.bind_eq_ok, Db.insertRow_eq_ok, Table.insert_eq_some, Outcome.pure_eq_ok,
    Prod.exists, Prod.mk.injEq] at done
  obtain ⟨_, _, ⟨_, _, ⟨free, _⟩, rfl, _⟩, rfl, _⟩ := done
  exact ⟨Table.one_none.mpr free, rfl, rfl⟩

/-- Only a token that is not new keeps a session from being written. -/
theorem writeIssue_succeeds {login : LoginTransaction} {user : User} {raw : String}
    (unknown : sessionByHash db (host.hashToken raw) = none) :
    ∃ done, writeIssue host now db login user raw = .ok done := by
  obtain ⟨sessions, inserted⟩ := Table.insert_of_free
    (fun id => ({ id, userId := user.id, tokenHash := host.hashToken raw, audience := "cli", deviceLabel := some login.clientName
                  createdAt := now, lastUsedAt := now, expiresAt := now + seconds host.settings.sessionAbsoluteTtlSeconds
                  idleExpiresAt := now + seconds host.settings.sessionIdleTtlSeconds } : Session))
    (fun _ => rfl) (Table.one_none.mp unknown)
  have created : ∃ done, createSession host now db user raw "cli" (some login.clientName) = .ok done :=
    ⟨_, Outcome.bind_eq_ok.mpr ⟨(_, sessions), Db.insertRow_eq_ok.mpr inserted, rfl⟩⟩
  obtain ⟨⟨next, session⟩, created⟩ := created
  exact ⟨_, Outcome.bind_eq_ok.mpr ⟨(next, session), created, rfl⟩⟩

theorem commitIssue_eq_some {login : LoginTransaction} {user : User} {raw : String}
    (done : commitIssue host now db login user raw = some (after, event)) :
    ∃ stored, db.loginTransactions.byId login.id = some stored ∧ sessionByHash db (host.hashToken raw) = none ∧
      event = .issued stored (db.users.byId user.id) user.id now ∧ after.users = db.users ∧
      after.loginTransactions = db.loginTransactions.modify (·.id == login.id) _ (issue_preserves now) := by
  simp only [commitIssue, Option.bind_eq_bind, Option.bind_eq_some_iff, Outcome.toOption_eq_some, Option.pure_def,
    Option.some.injEq, Prod.mk.injEq, Prod.exists] at done
  obtain ⟨stored, found, _, session, written, rfl, rfl⟩ := done
  obtain ⟨free, users, logins⟩ := writeIssue_ok written
  exact ⟨stored, found, free, rfl, users, logins⟩

theorem commitIssue_none {login stored : LoginTransaction} {user : User} {raw : String}
    (found : db.loginTransactions.byId login.id = some stored)
    (refused : commitIssue host now db login user raw = none) : sessionByHash db (host.hashToken raw) ≠ none := by
  intro unknown
  have succeeds : ∃ done, writeIssue host now db login user raw = .ok done := writeIssue_succeeds unknown
  obtain ⟨⟨next, session⟩, written⟩ := succeeds
  unfold commitIssue at refused
  rw [found, written] at refused
  cases refused

section Steps

variable {login : LoginTransaction}

/-- A board that differs in tickets only is accounted for when the new ticket is. -/
theorem Accounted.hold {ticket : Option DeviceTicket} (accounted : Accounted loginId board)
    (polled : ∀ login userId, ticket = some (.polled login userId) → login.id = loginId →
      ∃ event ∈ board.events, approves loginId event = true)
    (admitted : ∀ login user, ticket = some (.admitted login user) → login.id = loginId →
      ∃ event ∈ board.events, approves loginId event = true) : Accounted loginId (board.hold client ticket) where
  answered := accounted.answered
  completed := accounted.completed
  polled other login userId held isLogin := by
    rcases Board.hold_tickets held with new | old
    · exact polled login userId new isLogin
    · exact accounted.polled other login userId old isLogin
  admitted other login user held isLogin := by
    rcases Board.hold_tickets held with new | old
    · exact admitted login user new isLogin
    · exact accounted.admitted other login user old isLogin

theorem Accounted.settle {outcome : Option (Db × DeviceEvent)} (accounted : Accounted loginId board)
    (answered : ∀ store event, outcome = some (store, event) → ∀ row ∈ store.loginTransactions.byId loginId,
      row.issuedAt = none ↔ (board.events ++ [event]).countP (issues loginId) = 0)
    (completed : ∀ store event, outcome = some (store, event) → ∀ row ∈ store.loginTransactions.byId loginId,
      row.userId ≠ none → row.completedAt.isSome = true ∧ ∃ cause ∈ board.events ++ [event], approves loginId cause = true) :
    Accounted loginId (board.settle client outcome) := by
  cases outcome with
  | none => exact accounted.hold (fun _ _ held => nomatch held) fun _ _ held => nomatch held
  | some done =>
    obtain ⟨store, event⟩ := done
    have later : (∃ cause ∈ board.events, approves loginId cause = true) →
        ∃ cause ∈ board.events ++ [event], approves loginId cause = true :=
      fun ⟨cause, member, isApproval⟩ => ⟨cause, List.mem_append_left _ member, isApproval⟩
    exact {
      answered := answered store event rfl
      completed := completed store event rfl
      polled := fun other login userId held isLogin =>
        later (accounted.polled other login userId (Board.settle_tickets held) isLogin)
      admitted := fun other login user held isLogin =>
        later (accounted.admitted other login user (Board.settle_tickets held) isLogin) }

theorem Accounted.commitApproval {userId : Nat} (accounted : Accounted loginId board) :
    Accounted loginId (board.settle client (commitApproval now board.store login userId)) := by
  apply accounted.settle
  · intro store event done row found
    obtain ⟨stored, _, rfl, rfl⟩ := commitApproval_eq_some.mp done
    rw [writeApproval_byId] at found
    obtain ⟨old, isOld, rfl⟩ := Option.map_eq_some_iff.mp found
    have silent : (board.events ++ [DeviceEvent.approved stored userId now]).countP (issues loginId) =
        board.events.countP (issues loginId) := by
      rw [List.countP_append]
      rfl
    rw [silent, ← accounted.answered old isOld]
    split <;> rfl
  · intro store event done row found recorded
    obtain ⟨stored, isStored, rfl, rfl⟩ := commitApproval_eq_some.mp done
    rw [writeApproval_byId] at found
    obtain ⟨old, isOld, rfl⟩ := Option.map_eq_some_iff.mp found
    by_cases same : (old.id == login.id) = true
    · rw [if_pos same]
      refine ⟨rfl, .approved stored userId now, by simp, ?_⟩
      have isLogin : login.id = loginId := by
        rw [← (Table.byId_eq_some.mp isOld).2]
        exact (beq_iff_eq.mp same).symm
      exact beq_iff_eq.mpr ((Table.byId_eq_some.mp isStored).2.trans isLogin)
    · rw [if_neg same] at recorded ⊢
      obtain ⟨complete, cause, member, isApproval⟩ := accounted.completed old isOld recorded
      exact ⟨complete, cause, List.mem_append_left _ member, isApproval⟩

theorem Accounted.commitIssue {user : User} {raw : String} (accounted : Accounted loginId board) :
    Accounted loginId (board.settle client (commitIssue host now board.store login user raw)) := by
  apply accounted.settle
  · intro store event done row found
    obtain ⟨stored, isStored, _, rfl, _, logins⟩ := commitIssue_eq_some done
    rw [issued_byId login logins] at found
    obtain ⟨old, isOld, rfl⟩ := Option.map_eq_some_iff.mp found
    have oldId : old.id = loginId := (Table.byId_eq_some.mp isOld).2
    have storedId : stored.id = login.id := (Table.byId_eq_some.mp isStored).2
    rw [List.countP_append, List.countP_singleton]
    by_cases same : login.id = loginId
    · simp [issues, oldId, storedId, same]
    · have apart : loginId ≠ login.id := fun isLogin => same isLogin.symm
      simp [issues, oldId, storedId, same, apart, accounted.answered old isOld]
  · intro store event done row found recorded
    obtain ⟨stored, _, _, rfl, _, logins⟩ := commitIssue_eq_some done
    rw [issued_byId login logins] at found
    obtain ⟨old, isOld, rfl⟩ := Option.map_eq_some_iff.mp found
    have unchanged : (if old.id == login.id then { old with issuedAt := some now } else old).userId = old.userId ∧
        (if old.id == login.id then { old with issuedAt := some now } else old).completedAt = old.completedAt := by
      split <;> exact ⟨rfl, rfl⟩
    rw [unchanged.1] at recorded
    rw [unchanged.2]
    obtain ⟨complete, cause, member, isApproval⟩ := accounted.completed old isOld recorded
    exact ⟨complete, cause, List.mem_append_left _ member, isApproval⟩

/-- Whatever the order of the statements, the events account for the rows. -/
theorem execute_accounted (statement : DeviceStatement) (accounted : Accounted loginId board) :
    Accounted loginId (execute host board statement) := by
  cases statement with
  | readApproval client user userCode approvingOrigin =>
    apply accounted.hold
    · intro login userId held
      simp at held
    · intro login user held
      simp at held
  | commitApproval client now =>
    dsimp only [execute]
    split
    · exact accounted.commitApproval
    · exact accounted
  | readLogin client now deviceCode =>
    apply accounted.hold
    · intro login userId held isLogin
      simp only [Option.bind_eq_bind, Option.bind_eq_some_iff, Outcome.toOption_eq_some, Option.pure_def, Option.some.injEq,
        DeviceTicket.polled.injEq] at held
      obtain ⟨_, found, _, admitted, rfl, rfl⟩ := held
      have stored := Table.byId_eq_some.mpr ⟨Table.one_mem found, isLogin⟩
      have approved := (admitPoll_ok.mp admitted).2.1
      exact (accounted.completed _ stored (by rw [approved]; exact nofun)).2
    · intro login user held
      simp [Option.bind_eq_some_iff] at held
  | readUser client =>
    dsimp only [execute]
    split
    · rename_i login userId held
      apply accounted.hold
      · intro login userId held
        simp at held
      · intro other user isTicket isLogin
        obtain ⟨_, _, same⟩ := Option.map_eq_some_iff.mp isTicket
        cases same
        exact accounted.polled client login userId held isLogin
    · exact accounted
  | commitIssue client now raw =>
    dsimp only [execute]
    split
    · exact accounted.commitIssue
    · exact accounted
  | setStatus userId status => exact ⟨accounted.answered, accounted.completed, accounted.polled, accounted.admitted⟩

theorem commitApproval_singleUse_iff {userId : Nat} (single : SingleUse loginId board.events) :
    SingleUse loginId (board.settle client (commitApproval now board.store login userId)).events ↔
      (login.id = loginId → ∀ stored ∈ board.store.loginTransactions.byId loginId, now ≤ stored.expiresAt) := by
  cases done : commitApproval now board.store login userId with
  | none =>
    refine iff_of_true single fun isLogin stored found => ?_
    unfold commitApproval at done
    rw [isLogin, found] at done
    cases done
  | some outcome =>
    obtain ⟨store, event⟩ := outcome
    obtain ⟨stored, found, rfl, rfl⟩ := commitApproval_eq_some.mp done
    have storedId : stored.id = login.id := (Table.byId_eq_some.mp found).2
    show SingleUse loginId (board.events ++ [_]) ↔ _
    rw [singleUse_concat single]
    constructor
    · rintro ⟨lawful, _⟩ isLogin other isOther
      rw [← isLogin] at isOther
      cases found.symm.trans isOther
      exact lawful (storedId.trans isLogin)
    · intro inTime
      refine ⟨fun isLogin => ?_, nofun⟩
      have sameId : login.id = loginId := storedId.symm.trans isLogin
      exact inTime sameId stored (by rw [← sameId]; exact found)

theorem commitIssue_singleUse_iff {user : User} {raw : String} (accounted : Accounted loginId board)
    (single : SingleUse loginId board.events) (held : board.tickets client = some (.admitted login user)) :
    SingleUse loginId (board.settle client (commitIssue host now board.store login user raw)).events ↔
      (login.id = loginId → sessionByHash board.store (host.hashToken raw) = none →
        ∀ stored ∈ board.store.loginTransactions.byId loginId,
          (admitPoll now stored >>= activeUser board.store).toOption.map User.id = some user.id) := by
  cases done : commitIssue host now board.store login user raw with
  | none =>
    refine iff_of_true single fun isLogin unknown stored found => ?_
    rw [← isLogin] at found
    exact absurd unknown (commitIssue_none found done)
  | some outcome =>
    obtain ⟨store, event⟩ := outcome
    obtain ⟨stored, found, unknown, rfl, _, _⟩ := commitIssue_eq_some done
    have storedId : stored.id = login.id := (Table.byId_eq_some.mp found).2
    show SingleUse loginId (board.events ++ [_]) ↔ _
    rw [singleUse_concat single]
    constructor
    · rintro ⟨lawful, first⟩ isLogin _ other isOther
      rw [← isLogin] at isOther
      cases found.symm.trans isOther
      have isIssue : issues loginId (.issued stored (board.store.users.byId user.id) user.id now) = true :=
        beq_iff_eq.mpr (storedId.trans isLogin)
      rw [isLogin] at found
      obtain ⟨inTime, recorded, holder, isHolder, active⟩ := lawful (storedId.trans isLogin)
      have unissued := (accounted.answered stored found).mpr (first isIssue).1
      have complete := (accounted.completed stored found (by rw [recorded]; exact nofun)).1
      have admitted : admitPoll now stored = .ok user.id := admitPoll_ok.mpr ⟨inTime, recorded, complete, unissued⟩
      have available : activeUser board.store user.id = .ok holder := activeUser_ok.mpr ⟨isHolder, active⟩
      rw [admitted, Outcome.ok_bind, available]
      exact congrArg some (Table.byId_eq_some.mp isHolder).2
    · intro repeated
      have again : stored.id = loginId → stored.issuedAt = none ∧ now ≤ stored.expiresAt ∧ stored.userId = some user.id ∧
          ∃ holder ∈ board.store.users.byId user.id, holder.status = .active := by
        intro isLogin
        have sameId : login.id = loginId := storedId.symm.trans isLogin
        obtain ⟨holder, passed, same⟩ :=
          Option.map_eq_some_iff.mp (repeated sameId unknown stored (by rw [← sameId]; exact found))
        obtain ⟨userId, admitted, available⟩ := Outcome.bind_eq_ok.mp (Outcome.toOption_eq_some.mp passed)
        obtain ⟨inTime, recorded, _, unissued⟩ := admitPoll_ok.mp admitted
        obtain ⟨isHolder, active⟩ := activeUser_ok.mp available
        have sameUser : userId = user.id := (Table.byId_eq_some.mp isHolder).2.symm.trans same
        rw [sameUser] at recorded isHolder
        exact ⟨unissued, inTime, recorded, holder, isHolder, active⟩
      refine ⟨fun isLogin => (again isLogin).2, fun isIssue => ?_⟩
      have isLogin : stored.id = loginId := beq_iff_eq.mp isIssue
      have sameId : login.id = loginId := storedId.symm.trans isLogin
      rw [sameId] at found
      exact ⟨(accounted.answered stored found).mp (again isLogin).1, accounted.admitted client login user held sameId⟩

theorem execute_singleUse_iff (statement : DeviceStatement) (accounted : Accounted loginId board)
    (single : SingleUse loginId board.events) :
    SingleUse loginId (execute host board statement).events ↔ Undisturbed host loginId board statement := by
  cases statement with
  | readApproval | readLogin | setStatus => exact iff_of_true single trivial
  | readUser client =>
    refine iff_of_true ?_ trivial
    dsimp only [execute]
    split <;> exact single
  | commitApproval client now =>
    dsimp only [execute, Undisturbed]
    cases board.tickets client with
    | none => exact iff_of_true single trivial
    | some ticket =>
      cases ticket with
      | approving login userId => exact commitApproval_singleUse_iff single
      | polled | admitted => exact iff_of_true single trivial
  | commitIssue client now raw =>
    dsimp only [execute, Undisturbed]
    cases held : board.tickets client with
    | none => exact iff_of_true single trivial
    | some ticket =>
      cases ticket with
      | admitted login user => exact commitIssue_singleUse_iff accounted single held
      | approving | polled => exact iff_of_true single trivial

end Steps

theorem createDeviceLogin_ok {request : DeviceRequest} (created : createDeviceLogin host now db request = .ok after) :
    ∃ row, after.loginTransactions.byId db.loginTransactions.next = some row ∧ row.userId = none ∧ row.issuedAt = none := by
  simp only [createDeviceLogin, Outcome.bind_eq_ok, Db.insertRow_eq_ok, Table.insert_eq_some, Outcome.pure_eq_ok,
    Prod.exists] at created
  obtain ⟨row, _, ⟨_, made, rows, _⟩, rfl⟩ := created
  rw [← made] at rows
  refine ⟨row, Table.byId_eq_some.mpr ⟨?_, by rw [made]; rfl⟩, by rw [made], by rw [made]⟩
  rw [rows]
  exact List.mem_append_right _ (List.mem_singleton_self _)

/-- For every order of statements after its creation, a device login is used once
    exactly when each commit finds its checks still satisfied. -/
theorem device_login_single_use_iff {request : DeviceRequest} (created : createDeviceLogin host now db request = .ok after)
    (statements : List DeviceStatement) :
    Runs.Along (execute host) (fun board => SingleUse db.loginTransactions.next board.events) (Board.start after) statements ↔
      Runs.AllMeet (execute host) (Undisturbed host db.loginTransactions.next) (Board.start after) statements := by
  obtain ⟨row, found, unapproved, unissued⟩ := createDeviceLogin_ok created
  have accounted : Accounted db.loginTransactions.next (Board.start after) := by
    refine ⟨fun other isOther => ?_, fun other isOther approved => ?_, fun _ _ _ held => ?_, fun _ _ _ held => ?_⟩
    · cases found.symm.trans isOther
      exact iff_of_true unissued rfl
    · cases found.symm.trans isOther
      exact absurd unapproved approved
    · cases held
    · cases held
  have single : SingleUse db.loginTransactions.next (Board.start after : DeviceBoard).events :=
    ⟨Nat.zero_le _, preceded_nil, fun _ member => by cases member⟩
  exact Runs.along_iff_allMeet (Accounted db.loginTransactions.next)
    (fun _ statement accounted _ => execute_accounted statement accounted)
    (fun _ statement accounted single => execute_singleUse_iff statement accounted single) accounted single

section Desk

def deviceRequest : DeviceRequest := { deviceCode := keeperToken.raw, userCode := "ABCDEF", nonce := "n" }

def visitors : Db := { users := signedUp }

def approving : List DeviceStatement := [.readApproval 0 founder "ABCDEF" none, .commitApproval 0 2]

def inTurn : List DeviceStatement := approving ++ [.readLogin 1 3 keeperToken.raw, .readUser 1,
  .commitIssue 1 3 freshToken.raw, .readLogin 1 4 keeperToken.raw, .readUser 1, .commitIssue 1 4 readerToken.raw]

def atOnce : List DeviceStatement := approving ++ [.readLogin 1 3 keeperToken.raw, .readLogin 2 3 keeperToken.raw,
  .readUser 1, .readUser 2, .commitIssue 1 3 freshToken.raw, .commitIssue 2 3 readerToken.raw]

def created : Db := (createDeviceLogin deskHost.toHost 1 visitors deviceRequest).toOption.getD visitors

theorem device_created : createDeviceLogin deskHost.toHost 1 visitors deviceRequest = .ok created := by
  have succeeds : (createDeviceLogin deskHost.toHost 1 visitors deviceRequest).isOk = true := by decide +kernel
  obtain ⟨after, done⟩ := Outcome.isOk_iff.mp succeeds
  unfold created
  rw [done]
  rfl

theorem device_login_used_in_turn :
    Runs.Along (execute deskHost.toHost) (fun board => SingleUse 1 board.events) (Board.start created) inTurn :=
  (device_login_single_use_iff device_created inTurn).mpr (by decide +kernel)

/-- Two sessions for one code. -/
theorem device_code_answered_twice : createDeviceLogin deskHost.toHost 1 visitors deviceRequest = .ok created ∧
    ¬ Runs.Along (execute deskHost.toHost) (fun board => SingleUse 1 board.events) (Board.start created) atOnce := by
  have twice : (atOnce.foldl (execute deskHost.toHost) (Board.start created)).events.countP (issues 1) = 2 := by
    decide +kernel
  refine ⟨device_created, fun along => ?_⟩
  have once := along.final.once
  rw [twice] at once
  exact absurd once (by decide)

end Desk

end SingleUse

end Registry.Identity
