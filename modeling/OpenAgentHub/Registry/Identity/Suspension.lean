import OpenAgentHub.Registry.Identity.Routes

namespace Registry.Identity

open Relational Packages

variable {host : IdentityHost} {db after resolved : Db} {request : Request} {caller : Caller}

def unchecked : Call → Bool
  | .approveDevice .. | .updateAgreements .. | .revokeMySession .. => true
  | _ => false

def PresentsJwt (host : IdentityHost) (db : Db) (request : Request) (user : User) : Prop :=
  request.headers.cookie.filter (· ≠ "") = none ∧
    ∃ token, bearerToken request.headers.authorization = some token ∧ jwtUser host request.now db token = some user

theorem authenticate_status (done : authenticate host db request = .ok (resolved, caller)) :
    caller.user.status = .active ∨
      (unchecked request.call = true ∧ PresentsJwt host db request caller.user ∧ resolved = db) := by
  have interactive : unchecked request.call = true →
      resolveCookieInteractive host request.now db request.headers = .ok (resolved, caller) →
      caller.user.status = .active ∨
        (unchecked request.call = true ∧ PresentsJwt host db request caller.user ∧ resolved = db) := by
    intro route done
    rcases resolveCookieInteractive_ok done with ⟨absent, token, presented, named, _, same⟩ | ⟨active, _⟩
    · exact .inr ⟨route, ⟨absent, token, presented, named⟩, same⟩
    · exact .inl active
  unfold authenticate at done
  split at done
  case h_1 | h_2 | h_3 | h_4 | h_5 => exact .inl (requireActiveUser_ok (requireScope_ok done).1).2
  case h_6 => exact .inl (requireActiveUser_ok (requireAdmin_ok done).1).2
  case h_7 | h_8 => exact .inl (resolveCookieSessionOnly_ok done).1
  case h_9 route =>
    simp only [Outcome.bind_eq_ok] at done
    obtain ⟨_, _, done⟩ := done
    exact interactive (by rw [route]; rfl) done
  case h_10 route => exact interactive (by rw [route]; rfl) done
  case h_11 route => exact interactive (by rw [route]; rfl) done

section Agreements

theorem recordAgreement_total (now : Time) (db : Db) (userId : Nat) (term : Term) (version : Nat) :
    ∃ userAgreements, recordAgreement now db userId term version = .ok userAgreements := by
  unfold recordAgreement
  split
  · rename_i missing
    obtain ⟨after, inserted⟩ := Table.insert_of_free
      (fun id => ({ id, userId, termName := term.name, version, acceptedAt := now } : UserAgreement)) (fun _ => rfl)
      (Table.one_none.mp missing)
    exact ⟨after, Outcome.bind_eq_ok.mpr ⟨(_, after), Db.insertRow_eq_ok.mpr inserted, rfl⟩⟩
  · exact ⟨_, rfl⟩

theorem acceptAgreements_total (settings : Settings) (now : Time) (db : Db) (user : User)
    (tos privacy publisher : Bool) :
    ∃ after, acceptAgreements settings now db user tos privacy publisher = .ok after := by
  unfold acceptAgreements
  generalize List.filter Prod.fst _ = choices
  induction choices generalizing db with
  | nil => exact ⟨db, rfl⟩
  | cons choice rest ih =>
    obtain ⟨userAgreements, recorded⟩ :=
      recordAgreement_total now db user.id choice.2 (currentVersion settings choice.2)
    have accepted : ∃ next, acceptTerm settings now user db choice.2 = .ok next := by
      unfold acceptTerm
      dsimp only
      rw [recorded]
      exact ⟨_, rfl⟩
    obtain ⟨next, accepted⟩ := accepted
    rw [List.foldlM_cons, accepted]
    exact ih next

end Agreements

def Performable (host : IdentityHost) (db : Db) (user : User) (request : Request) : Prop :=
  match request.call with
  | .approveDevice userCode => request.throttled = false ∧ ∃ row, loginByUserCode db userCode = some row ∧
      (approvingOrigin host request.headers = none ∨
        originsMatch host.toHost row.registryOrigin (approvingOrigin host request.headers) = true) ∧
      row.userId = none ∧ row.completedAt = none
  | .updateAgreements .. => True
  | .revokeMySession sessionId => ∃ row, db.sessions.byId sessionId = some row ∧ row.userId = user.id
  | _ => False

def Slips (host : IdentityHost) (db : Db) (request : Request) : Prop :=
  ∃ user : User, user.status ≠ .active ∧ PresentsJwt host db request user ∧ Performable host db user request

/-- A route that commits something commits it for an active user. -/
def ServesActive (host : IdentityHost) (db : Db) (request : Request) : Prop :=
  ∀ after caller, handle host db request = .ok (after, caller) →
    match caller with
    | some caller => caller.user.status = .active
    | none => after = db

theorem performable_of_handle (unguarded : unchecked request.call = true)
    (authenticated : authenticate host db request = .ok (db, caller))
    (performed : perform host db caller.user request = .ok after) : Performable host db caller.user request := by
  obtain ⟨now, headers, throttled, call⟩ := request
  cases call with
  | approveDevice userCode =>
    simp only [authenticate, Outcome.bind_eq_ok, Outcome.ensure_eq_ok] at authenticated
    obtain ⟨_, unthrottled, _⟩ := authenticated
    simp only [perform, approveDeviceLogin, Outcome.bind_eq_ok, Outcome.demand_eq_ok, Outcome.ensure_eq_ok] at performed
    obtain ⟨row, found, _, origin, _, pending, _⟩ := performed
    exact ⟨unthrottled, row, found, origin, pending.1, pending.2⟩
  | updateAgreements tos privacy publisher => trivial
  | revokeMySession sessionId =>
    simp only [perform, revokeById, Outcome.bind_eq_ok, Outcome.demand_eq_ok, Outcome.ensure_eq_ok] at performed
    obtain ⟨row, found, _, owned, _⟩ := performed
    exact ⟨row, found, owned⟩
  | _ => cases unguarded

theorem handle_of_performable {user : User} (presents : PresentsJwt host db request user)
    (performable : Performable host db user request) :
    ∃ after, handle host db request = .ok (after, some ⟨user, .jwt⟩) := by
  obtain ⟨absent, token, presented, named⟩ := presents
  have resolved := resolveCookieInteractive_jwt absent presented named
  suffices authenticate host db request = .ok (db, ⟨user, .jwt⟩) ∧ ∃ after, perform host db user request = .ok after by
    obtain ⟨authenticated, after, performed⟩ := this
    exact ⟨after, handle_some.mpr ⟨db, authenticated, performed⟩⟩
  obtain ⟨now, headers, throttled, call⟩ := request
  cases call with
  | approveDevice userCode =>
    obtain ⟨unthrottled, row, found, origin, unclaimed, pending⟩ := performable
    constructor
    · exact Outcome.bind_eq_ok.mpr ⟨(), Outcome.ensure_eq_ok.mpr unthrottled, resolved⟩
    · simp only [perform, approveDeviceLogin, Outcome.bind_eq_ok, Outcome.demand_eq_ok, Outcome.ensure_eq_ok,
        Outcome.pure_eq_ok]
      exact ⟨_, row, found, (), origin, (), ⟨unclaimed, pending⟩, rfl⟩
  | updateAgreements tos privacy publisher => exact ⟨resolved, acceptAgreements_total ..⟩
  | revokeMySession sessionId =>
    obtain ⟨row, found, owned⟩ := performable
    refine ⟨resolved, ?_⟩
    simp only [perform, revokeById, Outcome.bind_eq_ok, Outcome.demand_eq_ok, Outcome.ensure_eq_ok]
    by_cases revoked : row.revokedAt.isSome = true
    · exact ⟨db, row, found, (), owned, by rw [if_pos revoked]; rfl⟩
    · exact ⟨_, row, found, (), owned, by rw [if_neg revoked]; rfl⟩
  | _ => cases performable

/-- Suspension is effective except for a JWT on the routes that do not ask for the status. -/
theorem suspension_effective_iff (host : IdentityHost) (db : Db) (request : Request) :
    ServesActive host db request ↔ ¬ Slips host db request := by
  constructor
  · rintro serves ⟨user, inactive, presents, performable⟩
    obtain ⟨after, handled⟩ := handle_of_performable presents performable
    exact inactive (serves after _ handled)
  · intro safe after caller handled
    cases caller with
    | none => exact handle_none handled
    | some caller =>
      obtain ⟨resolved, authenticated, performed⟩ := handle_some.mp handled
      rcases authenticate_status authenticated with active | ⟨unguarded, presents, rfl⟩
      · exact active
      · by_contra inactive
        exact safe ⟨caller.user, inactive, presents, performable_of_handle unguarded authenticated performed⟩

section Desk

def suspendedFounder : User := { Organizations.founder with status := .suspended }

def afterSuspension : Db := updateStatus { users := Organizations.signedUp } 1 .suspended

def agreeing : Request := { now := 1, headers := bearing founderJwt, call := .updateAgreements true false false }

theorem presents_founderJwt : PresentsJwt deskHost afterSuspension agreeing suspendedFounder := by
  refine ⟨rfl, founderJwt, bearerToken_bearing founderJwt_trimmed, ?_⟩
  unfold jwtUser
  rw [show agreeing.now = 1 from rfl, founderJwt_decoded]
  rfl

theorem jwt_outlives_suspension : ¬ ServesActive deskHost afterSuspension agreeing := by
  intro serves
  obtain ⟨after, handled⟩ := handle_of_performable presents_founderJwt trivial
  have active : suspendedFounder.status = .active := serves after _ handled
  cases active

end Desk

end Registry.Identity
