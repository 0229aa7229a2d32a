import OpenAgentHub.Lib.Text
import OpenAgentHub.Registry.Database

namespace Registry.Identity

open Relational

def http (status : Nat) (detail : String) : Raised := ⟨.httpException status, detail⟩

section Sessions

/-- The random token is an input: `raw` is what `new_session_token` drew. -/
def createSession (host : Host) (now : Time) (db : Db) (user : User) (raw audience : String)
    (deviceLabel : Option String) : Except Raised (Db × Session) := do
  let (row, sessions) ← Db.insertRow db.sessions fun id =>
    { id, userId := user.id, tokenHash := host.hashToken raw, audience, deviceLabel, createdAt := now, lastUsedAt := now
      expiresAt := now + seconds host.settings.sessionAbsoluteTtlSeconds
      idleExpiresAt := now + seconds host.settings.sessionIdleTtlSeconds }
  return ({ db with sessions }.recordAudit
    { id := 0, actorId := some user.id, action := "session.created", targetType := some "session"
      targetId := some row.id, createdAt := now
      detail := [("audience", .str audience), ("device", (deviceLabel.map Json.str).getD .null)] }, row)

def sessionByHash (db : Db) (tokenHash : String) : Option Session := db.sessions.one (·.tokenHash == tokenHash)

def touchSession (db : Db) (now : Time) (sessionId : Nat) : Db :=
  { db with sessions := db.sessions.modify (·.id == sessionId) fun row => { row with lastUsedAt := now } }

def sessionUser (host : Host) (now : Time) (db : Db) (token : String) : Except Raised (Db × User) := do
  let row ← Outcome.demand ((sessionByHash db (host.hashToken token)).filter (·.revokedAt.isNone))
    (http 401 "session not valid")
  Outcome.ensure (now ≤ row.expiresAt) (http 401 "session expired")
  Outcome.ensure (now ≤ row.idleExpiresAt) (http 401 "session idle expired")
  let user ← Outcome.demand ((db.users.byId row.userId).filter (·.status == .active)) (http 401 "user not available")
  return (touchSession db now row.id, user)

def revokeById (now : Time) (db : Db) (sessionId : Nat) (user : User) : Except Raised Db := do
  let row ← Outcome.demand (db.sessions.byId sessionId) ⟨.sessionError, "session not found"⟩
  Outcome.ensure (row.userId = user.id) ⟨.sessionError, "you do not own this session"⟩
  if row.revokedAt.isSome then return db
  else
    let sessions := db.sessions.modify (·.id == sessionId) fun row => { row with revokedAt := some now }
    return { db with sessions }.recordAudit
      { id := 0, actorId := some user.id, action := "session.revoked", targetType := some "session"
        targetId := some row.id, createdAt := now }

/-- `SessionRepository.revoke_all_for_user`. -/
def revokeSessions (now : Time) (db : Db) (userId : Nat) : Db :=
  { db with sessions := db.sessions.modify (fun row => row.userId == userId && row.revokedAt.isNone) fun row =>
      { row with revokedAt := some now } }

end Sessions

section Agreements

inductive Term where
  | tos | privacy | publisher
  deriving DecidableEq, Repr

def Term.name : Term → String
  | .tos => "tos"
  | .privacy => "privacy"
  | .publisher => "publisher"

def currentVersion (settings : Settings) : Term → Nat
  | .tos => settings.currentTosVersion
  | .privacy => settings.currentPrivacyVersion
  | .publisher => settings.currentPublisherAgreementVersion

def agreed (version : Nat) (user : User) : Term → User
  | .tos => { user with tosVersion := version }
  | .privacy => { user with privacyVersion := version }
  | .publisher => { user with publisherAgreementVersion := version }

theorem agreed_preserves (version : Nat) (term : Term) :
    Table.Preserves fun user : User => agreed version user term := by
  intro user
  cases term <;> exact ⟨rfl, fun _ => rfl⟩

def recordAgreement (now : Time) (db : Db) (userId : Nat) (term : Term) (version : Nat) :
    Except Raised (Table UserAgreement) :=
  match db.userAgreements.one fun row => row.userId == userId && row.termName == term.name with
  | none => do
    let (_, userAgreements) ← Db.insertRow db.userAgreements fun id =>
      { id, userId, termName := term.name, version, acceptedAt := now }
    return userAgreements
  | some existing => return db.userAgreements.modify (·.id == existing.id) fun row =>
      { row with version := max row.version version, acceptedAt := now }

def acceptTerm (settings : Settings) (now : Time) (user : User) (db : Db) (term : Term) : Except Raised Db := do
  let version := currentVersion settings term
  let userAgreements ← recordAgreement now db user.id term version
  let users := db.users.modify (·.id == user.id) (fun row => agreed version row term) (agreed_preserves version term)
  return { db with userAgreements, users }.recordAudit
    { id := 0, actorId := some user.id, action := "agreement.accepted", targetType := some "user"
      targetId := some user.id, detail := [("term", .str term.name), ("version", .num version)], createdAt := now }

def acceptAgreements (settings : Settings) (now : Time) (db : Db) (user : User) (tos privacy publisher : Bool) :
    Except Raised Db :=
  ([(tos, Term.tos), (privacy, .privacy), (publisher, .publisher)].filter Prod.fst).foldlM
    (fun db choice => acceptTerm settings now user db choice.2) db

end Agreements

section Devices

/-- A device login as its client asks for it; codes and nonce are drawn at random. -/
structure DeviceRequest where
  deviceCode : String
  userCode : String
  nonce : String
  clientName : String := "cli"
  requestedScopes : String := "cli"
  mode : String := "poll"

def createDeviceLogin (host : Host) (now : Time) (db : Db) (request : DeviceRequest) : Except Raised Db := do
  let (_, loginTransactions) ← Db.insertRow db.loginTransactions fun id =>
    { id, deviceCodeHash := host.hashToken request.deviceCode, userCode := request.userCode, nonce := request.nonce
      clientName := request.clientName, redirectMode := request.mode, requestedScopes := request.requestedScopes
      registryOrigin := some (Text.rstrip host.settings.publicBaseUrl '/'), createdAt := now
      expiresAt := now + seconds host.settings.deviceLoginTtlSeconds }
  return { db with loginTransactions }

/-- `_origins_match`: a missing origin matches every other one. -/
def originsMatch (host : Host) (first second : Option String) : Bool :=
  match first.filter (· ≠ ""), second.filter (· ≠ "") with
  | some first, some second => host.lower (Text.rstrip first '/') == host.lower (Text.rstrip second '/')
  | _, _ => true

def loginByUserCode (db : Db) (userCode : String) : Option LoginTransaction :=
  db.loginTransactions.one (·.userCode == userCode)

def approveDeviceLogin (host : Host) (now : Time) (db : Db) (user : User) (userCode : String)
    (approvingOrigin : Option String) : Except Raised Db := do
  let row ← Outcome.demand (loginByUserCode db userCode) (http 404 "device code not found")
  Outcome.ensure (approvingOrigin = none ∨ originsMatch host row.registryOrigin approvingOrigin = true)
    (http 403 "approval origin does not match login registry")
  Outcome.ensure (row.userId = none ∧ row.completedAt = none) (http 409 "already approved")
  let loginTransactions := db.loginTransactions.modify (·.id == row.id) fun row =>
    { row with userId := some user.id, completedAt := some now }
  return { db with loginTransactions }.recordAudit
    { id := 0, actorId := some user.id, action := "login_transaction.approved"
      targetType := some "login_transaction", targetId := some row.id
      detail := [("client", .str row.clientName)], createdAt := now }

def pollDeviceLogin (host : Host) (now : Time) (db : Db) (deviceCode raw : String) :
    Except Raised (Db × Session) := do
  let row ← Outcome.demand (db.loginTransactions.one (·.deviceCodeHash == host.hashToken deviceCode))
    (http 401 "invalid device code")
  Outcome.ensure (now ≤ row.expiresAt) (http 400 "expired_token")
  let userId ← Outcome.demand (row.userId.filter fun _ => row.completedAt.isSome) (http 400 "authorization_pending")
  Outcome.ensure (row.issuedAt = none) (http 400 "expired_token")
  let user ← Outcome.demand ((db.users.byId userId).filter (·.status == .active)) (http 401 "user not available")
  let (db, session) ← createSession host now db user raw "cli" (some row.clientName)
  let loginTransactions := db.loginTransactions.modify (·.id == row.id) fun row => { row with issuedAt := some now }
  return ({ db with loginTransactions }, session)

end Devices

end Registry.Identity
