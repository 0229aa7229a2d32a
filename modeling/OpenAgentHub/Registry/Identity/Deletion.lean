import OpenAgentHub.Registry.Identity.Effects

namespace Registry.Identity

open Relational Packages Organizations

def Gone (users : Table User) (userId : Nat) : Prop :=
  ∃ user, users.byId userId = some user ∧ user.status = .deleted

section Users

variable {users after : Table User} {userId : Nat} {condition : User → Bool} {update : User → User}

theorem Gone.modify (gone : Gone users userId) (preserves : Table.Preserves update)
    (kept : ∀ user, condition user = true → user.id = userId → user.status = .deleted → (update user).status = .deleted) :
    Gone (users.modify condition update preserves) userId := by
  obtain ⟨user, found, deleted⟩ := gone
  have named : user.id = userId := (Table.byId_eq_some.mp found).2
  refine ⟨if condition user then update user else user, ?_, ?_⟩
  · rw [Table.byId_modify, found]
    rfl
  · split
    · rename_i matched
      exact kept user matched named deleted
    · exact deleted

theorem Gone.insert {new : User} (gone : Gone users userId) (rows : after.rows = users.rows ++ [new]) :
    Gone after userId := by
  obtain ⟨user, found, deleted⟩ := gone
  refine ⟨user, ?_, deleted⟩
  have lookup : after.one (fun row => Row.id row == userId) = (users.one fun row => Row.id row == userId).or _ :=
    Table.one_append rows
  unfold Table.byId at found ⊢
  rw [lookup, found]
  rfl

theorem Gone.replace {new : User} (gone : Gone users userId) (replaced : users.replace new = some after)
    (elsewhere : new.id ≠ userId) : Gone after userId := by
  obtain ⟨user, found, deleted⟩ := gone
  refine ⟨user, ?_, deleted⟩
  rw [Table.byId_replace replaced elsewhere]
  exact found

theorem Gone.upkeep (gone : Gone users userId)
    (kept : Table.Upkeep (fun user => (user.id, user.status)) users after) : Gone after userId := by
  obtain ⟨user, found, deleted⟩ := gone
  obtain ⟨stored, named⟩ := Table.byId_eq_some.mp found
  obtain ⟨row, present, same⟩ := kept.forward stored
  obtain ⟨sameId, status⟩ := Prod.mk.inj same
  exact ⟨row, Table.byId_eq_some.mpr ⟨present, sameId.trans named⟩, status.trans deleted⟩

theorem Gone.not_active {user : User} (gone : Gone users userId) (found : users.byId user.id = some user)
    (active : user.status = .active) : user.id ≠ userId := by
  rintro rfl
  obtain ⟨other, stored, deleted⟩ := gone
  cases Option.some.inj (found.symm.trans stored)
  rw [active] at deleted
  cases deleted

end Users

inductive Event where
  | route (headers : Headers) (throttled : Bool) (call : Call)
  | githubLogin (profile : Profile)
  | githubCallback (profile : Profile) (raw : String)
  | createDevice (device : DeviceRequest)
  | pollDevice (deviceCode raw : String)
  | createServiceAccount (actor : User) (slug name role : String)
  | deleteServiceAccount (actor : User) (slug : String) (accountId : Nat)
  | issueServiceAccountToken (actor : User) (slug : String) (accountId : Nat) (raw label : String)
      (scopes : List String) (expiresInDays : Option Int)

/-- `GET /auth/github/callback`, which opens a web session. -/
def githubCallback (host : IdentityHost) (now : Time) (db : Db) (profile : Profile) (raw : String) : Except Raised Db := do
  let (db, user) ← loginWithGithub now db profile
  (createSession host.toHost now db user raw "web" none).map Prod.fst

def handleEvent (host : IdentityHost) (now : Time) (db : Db) : Event → Except Raised Db
  | .route headers throttled call => (handle host db ⟨now, headers, throttled, call⟩).map Prod.fst
  | .githubLogin profile => (loginWithGithub now db profile).map Prod.fst
  | .githubCallback profile raw => githubCallback host now db profile raw
  | .createDevice device => createDeviceLogin host.toHost now db device
  | .pollDevice deviceCode raw => (pollDeviceLogin host.toHost now db deviceCode raw).map Prod.fst
  | .createServiceAccount actor slug name role =>
    (Organizations.createServiceAccount host.toHost now db actor slug name role).map Prod.fst
  | .deleteServiceAccount actor slug accountId =>
    (Organizations.deleteServiceAccount host.toHost now db actor slug accountId).map Prod.fst
  | .issueServiceAccountToken actor slug accountId raw label scopes expiresInDays =>
    (Organizations.issueServiceAccountToken host.toHost now db actor slug accountId raw label scopes
      expiresInDays).map Prod.fst

def serveEvent (host : IdentityHost) (db : Db) (event : Time × Event) : Db :=
  match handleEvent host event.1 db event.2 with
  | .ok after => after
  | .error _ => db

/-- The two writes of a status that do not look at the old one spare the user. -/
def Spares (userId : Nat) (db : Db) (event : Time × Event) : Prop :=
  match event.2 with
  | .route _ _ (.adminSuspendUser target _) => target ≠ userId
  | .deleteServiceAccount _ _ accountId => ∀ account, db.serviceAccounts.byId accountId = some account →
      account.userId ≠ userId
  | _ => True

section Steps

variable {host : IdentityHost} {now : Time} {db after : Db} {user : User} {userId : Nat}

theorem loginWithGithub_gone {profile : Profile} (gone : Gone db.users userId)
    (done : loginWithGithub now db profile = .ok (after, user)) : Gone after.users userId := by
  obtain ⟨users, rfl, _, _, rows | ⟨existing, stored, open_, named, replaced⟩⟩ := loginWithGithub_ok done
  · exact gone.insert rows
  · refine gone.replace replaced ?_
    rintro rfl
    obtain ⟨other, same, deleted⟩ := gone
    rw [named] at same
    cases Option.some.inj (same.symm.trans (Table.byId_eq_some.mpr ⟨stored, rfl⟩))
    exact open_ deleted

theorem deleteAccount_gone {host : Host} (gone : Gone db.users userId)
    (done : deleteAccount host now db user = .ok after) : Gone after.users userId := by
  simp only [deleteAccount, Outcome.bind_eq_ok, Outcome.pure_eq_ok, Prod.exists] at done
  obtain ⟨_, _, left, _, removed, rfl⟩ := done
  obtain ⟨_, _, _, rfl, _⟩ := removeUserMemberships_frame removed
  exact gone.modify (status_preserves .deleted) fun _ _ _ _ => rfl

theorem suspendUser_gone {actor result : User} {target : Nat} {suspended : Bool} (gone : Gone db.users userId)
    (elsewhere : target ≠ userId) (done : suspendUser now db actor target suspended = .ok (after, result)) :
    Gone after.users userId := by
  obtain ⟨row, found, _, ⟨_, rfl⟩ | ⟨_, _, rfl⟩⟩ := suspendUser_ok done
  · exact gone
  · have named : row.id = target := (Table.byId_eq_some.mp found).2
    refine gone.modify (status_preserves _) ?_
    intro other matched same _
    exact absurd ((beq_iff_eq.mp matched).symm.trans same) (named ▸ elsewhere)

theorem handle_gone {headers : Headers} {throttled : Bool} {call : Call} {caller : Option Caller}
    (gone : Gone db.users userId) (spares : Spares userId db (now, .route headers throttled call))
    (done : handle host db ⟨now, headers, throttled, call⟩ = .ok (after, caller)) : Gone after.users userId := by
  cases caller with
  | none =>
    rw [handle_none done]
    exact gone
  | some caller =>
    obtain ⟨resolved, authenticated, performed⟩ := handle_some.mp done
    have same := (authenticate_touched authenticated).users
    rw [← same] at gone
    cases call with
    | uploadKey publicKey label expiresAt =>
      obtain ⟨_, registered⟩ := Outcome.map_fst_ok.mp performed
      obtain ⟨_, _, rfl⟩ := (registerSigningKey_keysOnly registered).frame
      exact gone
    | revokeKey keyId =>
      obtain ⟨_, revoked⟩ := Outcome.map_fst_ok.mp performed
      obtain ⟨_, _, rfl⟩ := (revokeSigningKey_keysOnly revoked).frame
      exact gone
    | createToken raw tokenRequest =>
      obtain ⟨_, created⟩ := Outcome.map_fst_ok.mp performed
      obtain ⟨_, _, created⟩ := Outcome.bind_eq_ok.mp created
      obtain ⟨_, _, _, _, rfl, _⟩ := createApiToken_ok created
      exact gone
    | revokeToken tokenId =>
      obtain ⟨_, _, _, ⟨_, rfl⟩ | ⟨_, _, rfl⟩⟩ := revokeApiToken_ok performed
      · exact gone
      · exact gone
    | rotateToken tokenId raw expiresInDays =>
      obtain ⟨_, rotated⟩ := Outcome.map_fst_ok.mp performed
      obtain ⟨_, _, _, _, _, _, _, _, rfl⟩ := rotateApiToken_ok rotated
      exact gone
    | adminSuspendUser target suspended =>
      obtain ⟨_, suspension⟩ := Outcome.map_fst_ok.mp performed
      exact suspendUser_gone gone spares suspension
    | deleteMyAccount confirm =>
      obtain ⟨_, _, deleted⟩ := Outcome.bind_eq_ok.mp performed
      exact deleteAccount_gone gone deleted
    | approveDevice userCode =>
      obtain ⟨_, _, rfl⟩ := approveDeviceLogin_frame performed
      exact gone
    | updateAgreements tos privacy publisher =>
      obtain ⟨_, _, _, rfl, kept⟩ := acceptAgreements_frame performed
      exact gone.upkeep kept
    | revokeMySession sessionId =>
      obtain ⟨_, _, rfl⟩ := revokeById_frame performed
      exact gone
    | logout =>
      dsimp only [perform, revokeCurrentSession] at performed
      split at performed
      · cases performed
        exact gone
      · obtain ⟨_, _, rfl⟩ := revokeById_frame performed
        exact gone

theorem handleEvent_gone {event : Event} (gone : Gone db.users userId) (spares : Spares userId db (now, event))
    (done : handleEvent host now db event = .ok after) : Gone after.users userId := by
  cases event with
  | route headers throttled call =>
    obtain ⟨_, handled⟩ := Outcome.map_fst_ok.mp done
    exact handle_gone gone spares handled
  | githubLogin profile =>
    obtain ⟨_, signedIn⟩ := Outcome.map_fst_ok.mp done
    exact loginWithGithub_gone gone signedIn
  | githubCallback profile raw =>
    simp only [handleEvent, githubCallback, Outcome.bind_eq_ok, Prod.exists, Outcome.map_fst_ok] at done
    obtain ⟨_, _, signedIn, _, opened⟩ := done
    have kept := loginWithGithub_gone gone signedIn
    obtain ⟨_, _, rfl⟩ := createSession_frame opened
    exact kept
  | createDevice device =>
    simp only [handleEvent, createDeviceLogin, Outcome.bind_eq_ok, Prod.exists, Outcome.pure_eq_ok] at done
    obtain ⟨_, _, _, rfl⟩ := done
    exact gone
  | pollDevice deviceCode raw =>
    simp only [handleEvent, Outcome.map_fst_ok, pollDeviceLogin, Outcome.bind_eq_ok, Prod.exists, Outcome.pure_eq_ok,
      Prod.mk.injEq] at done
    obtain ⟨_, row, _, _, _, _, _, _, _, _, _, _, _, opened, rfl, _⟩ := done
    obtain ⟨_, _, rfl⟩ := createSession_frame opened
    exact gone
  | createServiceAccount actor slug name role =>
    obtain ⟨_, created⟩ := Outcome.map_fst_ok.mp done
    obtain ⟨_, _, _, _, _, _, ⟨_, _, rfl⟩, grown, rfl⟩ := createServiceAccount_frame created
    exact gone.insert grown
  | deleteServiceAccount actor slug accountId =>
    obtain ⟨_, deleted⟩ := Outcome.map_fst_ok.mp done
    simp only [Organizations.deleteServiceAccount, serviceAccountOf, Outcome.bind_eq_ok, Outcome.demand_eq_ok,
      Option.filter_eq_some_iff, Outcome.pure_eq_ok, Prod.mk.injEq] at deleted
    obtain ⟨org, _, account, ⟨stored, _⟩, rfl, _⟩ := deleted
    have elsewhere := spares account stored
    have suspends (users : Table User) (kept : Gone users userId) :
        Gone (users.modify (·.id == account.userId) fun user => { user with status := .suspended }) userId := by
      refine kept.modify (status_preserves .suspended) ?_
      intro other matched same _
      exact absurd ((beq_iff_eq.mp matched).symm.trans same) elsewhere
    apply suspends
    split
    · exact gone
    · exact gone
  | issueServiceAccountToken actor slug accountId raw label scopes expiresInDays =>
    obtain ⟨_, issued⟩ := Outcome.map_fst_ok.mp done
    obtain ⟨_, _, rfl⟩ := issueServiceAccountToken_frame issued
    exact gone

theorem serveEvent_of_ok {event : Event} (done : handleEvent host now db event = .ok after) :
    serveEvent host db (now, event) = after := by
  unfold serveEvent
  dsimp only
  rw [done]

theorem serveEvent_gone {event : Time × Event} (gone : Gone db.users userId) (spares : Spares userId db event) :
    Gone (serveEvent host db event).users userId := by
  unfold serveEvent
  split
  · rename_i after done
    exact handleEvent_gone gone spares done
  · exact gone

end Steps

/-- The account is closed, and neither a session nor an API token speaks for it. -/
structure Closed (host : IdentityHost) (db : Db) (userId : Nat) : Prop where
  gone : Gone db.users userId
  sessions : ∀ now token after user, sessionUser host.toHost now db token = .ok (after, user) → user.id ≠ userId
  apiTokens : ∀ now token after caller, userFromApiToken host now db token = some (after, caller) →
    caller.user.id ≠ userId

theorem Gone.closed {db : Db} {userId : Nat} (host : IdentityHost) (gone : Gone db.users userId) :
    Closed host db userId := by
  refine ⟨gone, ?_, ?_⟩
  · intro now token after user resolved
    obtain ⟨active, row, _, _, _, stored, _⟩ := sessionUser_ok resolved
    rw [← show user.id = row.userId from (Table.byId_eq_some.mp stored).2] at stored
    exact gone.not_active stored active
  · intro now token after caller found
    obtain ⟨row, _, _, stored, active, _, _⟩ := userFromApiToken_some found
    rw [← show caller.user.id = row.userId from (Table.byId_eq_some.mp stored).2] at stored
    exact gone.not_active stored active

/-- A closed account stays closed in every run in which no administrator sets
    its status and no service account of its user is deleted. -/
theorem deletion_terminal (host : IdentityHost) {userId : Nat} {start : Db} {events : List (Time × Event)}
    (gone : Gone start.users userId) (spared : Runs.AllMeet (serveEvent host) (Spares userId) start events) :
    Runs.Along (serveEvent host) (fun db => Closed host db userId) start events := by
  have along : Runs.Along (serveEvent host) (fun db => Gone db.users userId) start events :=
    spared.along gone fun db event gone spares => serveEvent_gone gone spares
  exact along.imp fun db gone => gone.closed host

section Desk

def registrar : User := { founder with role := .admin }

def departed : User := { colleague with githubId := some "42", status := .deleted }

/-- An administrator, and a user who has closed the account. -/
def farewell : Db :=
  { users := ⟨[registrar, departed], 3, by decide, by decide⟩ }

theorem farewell_gone : Gone farewell.users 2 := ⟨departed, rfl, rfl⟩

def unsuspending : Request := ⟨1, bearing founderJwt, false, .adminSuspendUser 2 false⟩

def reinstating : Time × Event := (1, .route (bearing founderJwt) false (.adminSuspendUser 2 false))

theorem unsuspending_authenticates :
    authenticate deskHost farewell unsuspending = .ok (farewell, ⟨registrar, .jwt⟩) := by
  have credentials : deskHost.httpBearer (bearing founderJwt).authorization = some founderJwt :=
    deskHost_httpBearer founderJwt_present
  have named : userFromBearer deskHost 1 farewell founderJwt = some (farewell, ⟨registrar, .jwt⟩) := by
    unfold userFromBearer interactiveUser jwtUser
    rw [founderJwt_decoded]
    rfl
  unfold authenticate unsuspending requireAdmin requireActiveUser getCurrentUser
  dsimp only
  rw [credentials, Outcome.demand_some, Outcome.ok_bind, named]
  rfl

theorem suspension_flag_reopens_account :
    Gone farewell.users 2 ∧
      ¬ Runs.Along (serveEvent deskHost) (fun db => Closed deskHost db 2) farewell [reinstating] := by
  refine ⟨farewell_gone, ?_⟩
  rintro ⟨_, closed⟩
  have performed : ∃ after, perform deskHost farewell registrar unsuspending = .ok after ∧
      after.users.byId 2 = some { departed with status := .active } := ⟨_, rfl, rfl⟩
  obtain ⟨after, performed, reopened⟩ := performed
  have handled := handle_some.mpr ⟨farewell, unsuspending_authenticates, performed⟩
  have event : handleEvent deskHost 1 farewell (.route (bearing founderJwt) false (.adminSuspendUser 2 false)) =
      .ok after := by
    show (handle deskHost farewell unsuspending).map Prod.fst = _
    rw [handled]
    rfl
  have served : serveEvent deskHost farewell reinstating = after := serveEvent_of_ok event
  rw [served] at closed
  obtain ⟨user, found, deleted⟩ := closed.gone
  cases Option.some.inj (reopened.symm.trans found)
  cases deleted

def knocking : List (Time × Event) :=
  [(1, .githubLogin ⟨"colleague", "42", none⟩), (2, .githubCallback ⟨"colleague", "42", none⟩ freshToken.raw),
    (3, .createDevice { deviceCode := keeperToken.raw, userCode := "ABCDEF", nonce := "n" }),
    (4, .pollDevice keeperToken.raw freshToken.raw)]

theorem deletion_terminal_knocking :
    Runs.Along (serveEvent deskHost) (fun db => Closed deskHost db 2) farewell knocking :=
  deletion_terminal deskHost farewell_gone ⟨trivial, trivial, trivial, trivial, trivial⟩

end Desk

end Registry.Identity
