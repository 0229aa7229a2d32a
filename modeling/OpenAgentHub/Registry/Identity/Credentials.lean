import OpenAgentHub.Registry.Identity.Sessions
import OpenAgentHub.Registry.Packages.Host

namespace Registry.Identity

open Relational Packages

/-- The claims of a decoded JWT; `sub` is absent when `int` cannot read it. -/
structure Payload where
  sub : Option Nat

structure IdentityHost extends PackageHost where
  decodeToken : Time → String → Option Payload
  httpBearer : String → Option String
  originOf : String → String

structure Headers where
  /-- The session cookie. -/
  cookie : Option String := none
  authorization : String := ""
  origin : Option String := none
  referer : Option String := none
  deriving DecidableEq, Repr

inductive Credential where
  | jwt
  | session
  | apiToken (row : ApiToken)
  deriving DecidableEq, Repr

structure Caller where
  user : User
  credential : Credential
  deriving DecidableEq, Repr

def apiTokenByHash (db : Db) (tokenHash : String) : Option ApiToken := db.apiTokens.one (·.tokenHash == tokenHash)

def touchApiToken (db : Db) (now : Time) (tokenId : Nat) : Db :=
  { db with apiTokens := db.apiTokens.modify (·.id == tokenId) fun row => { row with lastUsedAt := some now } }

/-- What `_user_from_api_token` asks of a row it has found, apart from its user. -/
def usableToken (now : Time) (db : Db) (row : ApiToken) : Bool :=
  row.revokedAt.isNone && row.expiresAt.all (fun expiry => decide (now < expiry)) &&
    (!row.isServiceAccount ||
      (db.serviceAccounts.one (·.userId == row.userId)).any fun account => account.status == .active)

def userFromApiToken (host : IdentityHost) (now : Time) (db : Db) (token : String) : Option (Db × Caller) := do
  let row ← (apiTokenByHash db (host.hashToken token)).filter (usableToken now db)
  let user ← (db.users.byId row.userId).filter (·.status == .active)
  return (touchApiToken db now row.id, ⟨user, .apiToken row⟩)

def userFromSession (host : IdentityHost) (now : Time) (db : Db) (token : String) : Option (Db × Caller) :=
  match sessionUser host.toHost now db token with
  | .ok (db, user) => some (db, ⟨user, .session⟩)
  | .error _ => none

/-- The user a JWT names, in whatever status. -/
def jwtUser (host : IdentityHost) (now : Time) (db : Db) (token : String) : Option User := do
  let payload ← host.decodeToken now token
  let userId ← payload.sub
  db.users.byId userId

def interactiveUser (host : IdentityHost) (now : Time) (db : Db) (token : String) : Option (Db × Caller) :=
  match jwtUser host now db token with
  | some user => some (db, ⟨user, .jwt⟩)
  | none => userFromSession host now db token

def userFromBearer (host : IdentityHost) (now : Time) (db : Db) (token : String) : Option (Db × Caller) :=
  match interactiveUser host now db token with
  | some found => some found
  | none => userFromApiToken host now db token

/-- `bearer.removeprefix("Bearer ").strip()` of a header that starts with it. -/
def bearerToken (authorization : String) : Option String :=
  if Text.startsWith authorization "Bearer " then
    some (Text.strip (String.ofList (authorization.toList.drop 7)))
  else none

/-- `resolve_cookie_user`: a cookie is tried first, and then alone. -/
def resolveCookieWith (fromBearer : String → Option (Db × Caller)) (host : IdentityHost) (now : Time) (db : Db)
    (headers : Headers) : Except Raised (Db × Caller) :=
  match headers.cookie.filter (· ≠ "") with
  | none => Outcome.demand ((bearerToken headers.authorization).bind fromBearer) (http 401 "not signed in")
  | some token => do
    let (db, user) ← sessionUser host.toHost now db token
    return (db, ⟨user, .session⟩)

def resolveCookieUser (host : IdentityHost) (now : Time) (db : Db) (headers : Headers) : Except Raised (Db × Caller) :=
  resolveCookieWith (userFromBearer host now db) host now db headers

def resolveCookieInteractive (host : IdentityHost) (now : Time) (db : Db) (headers : Headers) :
    Except Raised (Db × Caller) :=
  resolveCookieWith (interactiveUser host now db) host now db headers

section Dependencies

variable (host : IdentityHost) (now : Time) (db : Db) (headers : Headers)

def accountSuspended : Raised := http 403 "account is suspended"

def getCurrentUser : Except Raised (Db × Caller) := do
  let token ← Outcome.demand (host.httpBearer headers.authorization) (http 401 "authentication required")
  Outcome.demand (userFromBearer host now db token) (http 401 "user no longer exists")

def requireActiveUser : Except Raised (Db × Caller) := do
  let (db, caller) ← getCurrentUser host now db headers
  Outcome.ensure (caller.user.status = .active) accountSuspended
  return (db, caller)

def scopeSet (scopes : String) : List String := ((Text.split ',' scopes).map Text.strip).filter (· ≠ "")

/-- The scopes of the bearer credential; `none` for one with full access. -/
def apiTokenScopes : Option (List String) := do
  let token ← (bearerToken headers.authorization).filter (· ≠ "")
  if (host.decodeToken now token).isSome then none
  else
    let row ← (apiTokenByHash db (host.hashToken token)).filter (·.revokedAt.isNone)
    return scopeSet row.scopes

def lacksScope (scopes : List String) : Raised :=
  http 403 ("token lacks required scope (need one of: " ++ Text.join ", " scopes ++ ")")

def requireScope (scopes : List String) : Except Raised (Db × Caller) := do
  let (db, caller) ← requireActiveUser host now db headers
  Outcome.ensure (∀ granted ∈ apiTokenScopes host now db headers, ∃ scope ∈ scopes, scope ∈ granted) (lacksScope scopes)
  return (db, caller)

def requireAdmin : Except Raised (Db × Caller) := do
  let (db, caller) ← requireActiveUser host now db headers
  Outcome.ensure (caller.user.role = .admin) (http 403 "insufficient role")
  return (db, caller)

def resolveCookieSessionOnly : Except Raised (Db × Caller) := do
  let token ← Outcome.demand (headers.cookie.filter (· ≠ "")) (http 401 "interactive session required")
  let (db, user) ← sessionUser host.toHost now db token
  Outcome.ensure (user.status = .active) accountSuspended
  return (db, ⟨user, .session⟩)

def resolveCookieActiveUser : Except Raised (Db × Caller) := do
  let (db, caller) ← resolveCookieUser host now db headers
  Outcome.ensure (caller.user.status = .active) accountSuspended
  return (db, caller)

def requireCookieScope (scopes : List String) : Except Raised (Db × Caller) := do
  let (db, caller) ← resolveCookieActiveUser host now db headers
  Outcome.ensure (∀ granted ∈ apiTokenScopes host now db headers, ∃ scope ∈ scopes, scope ∈ granted) (lacksScope scopes)
  return (db, caller)

end Dependencies

section Resolvers

variable {host : IdentityHost} {now : Time} {db after : Db} {headers : Headers} {token : String} {caller : Caller}

theorem sessionUser_ok {host : Host} {user : User} (done : sessionUser host now db token = .ok (after, user)) :
    user.status = .active ∧ ∃ row, sessionByHash db (host.hashToken token) = some row ∧ row.revokedAt = none ∧
      now ≤ row.expiresAt ∧ db.users.byId row.userId = some user ∧ after = touchSession db now row.id := by
  unfold sessionUser at done
  simp only [Outcome.bind_eq_ok, Outcome.demand_eq_ok, Outcome.ensure_eq_ok, Outcome.pure_eq_ok, Prod.mk.injEq,
    Option.filter_eq_some_iff, Option.isNone_iff_eq_none, beq_iff_eq] at done
  obtain ⟨row, ⟨found, unrevoked⟩, _, unexpired, _, _, _, ⟨stored, active⟩, rfl, rfl⟩ := done
  exact ⟨active, row, found, unrevoked, unexpired, stored, rfl⟩

theorem userFromSession_some (found : userFromSession host now db token = some (after, caller)) :
    sessionUser host.toHost now db token = .ok (after, caller.user) ∧ caller.credential = .session := by
  unfold userFromSession at found
  split at found
  · cases found
    exact ⟨by assumption, rfl⟩
  · cases found

theorem userFromApiToken_some (found : userFromApiToken host now db token = some (after, caller)) :
    ∃ row, apiTokenByHash db (host.hashToken token) = some row ∧ usableToken now db row = true ∧
      db.users.byId row.userId = some caller.user ∧ caller.user.status = .active ∧
      caller.credential = .apiToken row ∧ after = touchApiToken db now row.id := by
  unfold userFromApiToken at found
  simp only [Option.bind_eq_bind, Option.bind_eq_some_iff, Option.filter_eq_some_iff, beq_iff_eq, Option.pure_def,
    Option.some.injEq, Prod.mk.injEq] at found
  obtain ⟨row, ⟨stored, usable⟩, user, ⟨owner, active⟩, rfl, rfl⟩ := found
  exact ⟨row, stored, usable, owner, active, rfl, rfl⟩

/-- Only a JWT speaks for a user who is not active. -/
theorem interactiveUser_some (found : interactiveUser host now db token = some (after, caller)) :
    (jwtUser host now db token = some caller.user ∧ caller.credential = .jwt ∧ after = db) ∨
      (caller.user.status = .active ∧ caller.credential = .session) := by
  unfold interactiveUser at found
  split at found
  · cases found
    exact .inl ⟨by assumption, rfl, rfl⟩
  · obtain ⟨resolved, session⟩ := userFromSession_some found
    exact .inr ⟨(sessionUser_ok resolved).1, session⟩

theorem resolveCookieInteractive_ok (done : resolveCookieInteractive host now db headers = .ok (after, caller)) :
    (headers.cookie.filter (· ≠ "") = none ∧ ∃ token, bearerToken headers.authorization = some token ∧
        jwtUser host now db token = some caller.user ∧ caller.credential = .jwt ∧ after = db) ∨
      (caller.user.status = .active ∧ caller.credential = .session) := by
  unfold resolveCookieInteractive resolveCookieWith at done
  split at done
  · rename_i absent
    obtain ⟨token, presented, found⟩ := Option.bind_eq_some_iff.mp (Outcome.demand_eq_ok.mp done)
    rcases interactiveUser_some found with ⟨named, jwt, same⟩ | active
    · exact .inl ⟨absent, token, presented, named, jwt, same⟩
    · exact .inr active
  · simp only [Outcome.bind_eq_ok, Outcome.pure_eq_ok, Prod.mk.injEq, Prod.exists] at done
    obtain ⟨_, user, resolved, rfl, rfl⟩ := done
    exact .inr ⟨(sessionUser_ok resolved).1, rfl⟩

theorem resolveCookieInteractive_jwt {user : User} (absent : headers.cookie.filter (· ≠ "") = none)
    (presented : bearerToken headers.authorization = some token) (named : jwtUser host now db token = some user) :
    resolveCookieInteractive host now db headers = .ok (db, ⟨user, .jwt⟩) := by
  have found : interactiveUser host now db token = some (db, ⟨user, .jwt⟩) := by
    unfold interactiveUser
    rw [named]
  unfold resolveCookieInteractive resolveCookieWith
  rw [absent, presented]
  exact Outcome.demand_eq_ok.mpr found

theorem requireActiveUser_ok (done : requireActiveUser host now db headers = .ok (after, caller)) :
    getCurrentUser host now db headers = .ok (after, caller) ∧ caller.user.status = .active := by
  unfold requireActiveUser at done
  simp only [Outcome.bind_eq_ok, Outcome.ensure_eq_ok, Outcome.pure_eq_ok, Prod.mk.injEq, Prod.exists] at done
  obtain ⟨_, _, resolved, _, active, rfl, rfl⟩ := done
  exact ⟨resolved, active⟩

theorem requireScope_ok {scopes : List String} (done : requireScope host now db headers scopes = .ok (after, caller)) :
    requireActiveUser host now db headers = .ok (after, caller) ∧
      ∀ granted ∈ apiTokenScopes host now after headers, ∃ scope ∈ scopes, scope ∈ granted := by
  unfold requireScope at done
  simp only [Outcome.bind_eq_ok, Outcome.ensure_eq_ok, Outcome.pure_eq_ok, Prod.mk.injEq, Prod.exists] at done
  obtain ⟨_, _, resolved, _, permitted, rfl, rfl⟩ := done
  exact ⟨resolved, permitted⟩

theorem requireCookieScope_ok {scopes : List String}
    (done : requireCookieScope host now db headers scopes = .ok (after, caller)) :
    resolveCookieActiveUser host now db headers = .ok (after, caller) ∧
      ∀ granted ∈ apiTokenScopes host now after headers, ∃ scope ∈ scopes, scope ∈ granted := by
  unfold requireCookieScope at done
  simp only [Outcome.bind_eq_ok, Outcome.ensure_eq_ok, Outcome.pure_eq_ok, Prod.mk.injEq, Prod.exists] at done
  obtain ⟨_, _, resolved, _, permitted, rfl, rfl⟩ := done
  exact ⟨resolved, permitted⟩

theorem requireAdmin_ok (done : requireAdmin host now db headers = .ok (after, caller)) :
    requireActiveUser host now db headers = .ok (after, caller) ∧ caller.user.role = .admin := by
  unfold requireAdmin at done
  simp only [Outcome.bind_eq_ok, Outcome.ensure_eq_ok, Outcome.pure_eq_ok, Prod.mk.injEq, Prod.exists] at done
  obtain ⟨_, _, resolved, _, admin, rfl, rfl⟩ := done
  exact ⟨resolved, admin⟩

theorem resolveCookieSessionOnly_ok (done : resolveCookieSessionOnly host now db headers = .ok (after, caller)) :
    caller.user.status = .active ∧ caller.credential = .session ∧
      ∃ token, headers.cookie = some token ∧ sessionUser host.toHost now db token = .ok (after, caller.user) := by
  unfold resolveCookieSessionOnly at done
  simp only [Outcome.bind_eq_ok, Outcome.ensure_eq_ok, Outcome.demand_eq_ok, Outcome.pure_eq_ok, Prod.mk.injEq,
    Prod.exists, Option.filter_eq_some_iff] at done
  obtain ⟨token, ⟨present, _⟩, _, _, resolved, _, active, rfl, rfl⟩ := done
  exact ⟨active, rfl, token, present, resolved⟩

end Resolvers

end Registry.Identity
