import OpenAgentHub.Registry.Identity.Accounts
import OpenAgentHub.Registry.Identity.Credentials
import OpenAgentHub.Registry.Organizations.Requests

namespace Registry.Identity

open Relational Packages

/-- The identity routes that commit something on behalf of a user. The path of
    `DELETE /sessions/me` is taken by `/sessions/{session_id}`, declared before it. -/
inductive Call where
  | uploadKey (publicKey : String) (label : Option String) (expiresAt : Option Time)
  | revokeKey (keyId : Nat)
  | createToken (raw : String) (request : TokenRequest)
  | revokeToken (tokenId : Nat)
  | rotateToken (tokenId : Nat) (raw : String) (expiresInDays : Option Int)
  | adminSuspendUser (userId : Nat) (suspended : Bool)
  | deleteMyAccount (confirm : String)
  | approveDevice (userCode : String)
  | updateAgreements (tos privacy publisher : Bool)
  | revokeMySession (sessionId : Nat)
  | logout

structure Request where
  now : Time
  headers : Headers := {}
  /-- The verdict of the rate limiter, on the routes that ask it. -/
  throttled : Bool := false
  call : Call

def rateLimitExceeded (limit : Nat) : Raised :=
  ⟨.rateLimitExceeded, "rate limit exceeded (max " ++ toString limit ++ " per 3600s)"⟩

def authenticate (host : IdentityHost) (db : Db) (request : Request) : Except Raised (Db × Caller) :=
  match request.call with
  | .uploadKey .. | .revokeKey .. | .createToken .. | .revokeToken .. | .rotateToken .. =>
    requireScope host request.now db request.headers ["keys:manage"]
  | .adminSuspendUser .. => requireAdmin host request.now db request.headers
  | .deleteMyAccount .. | .logout => resolveCookieSessionOnly host request.now db request.headers
  | .approveDevice .. => do
    Outcome.ensure (request.throttled = false) (rateLimitExceeded host.settings.deviceApprovePerIpPerHour)
    resolveCookieInteractive host request.now db request.headers
  | .updateAgreements .. | .revokeMySession .. => resolveCookieInteractive host request.now db request.headers

def createToken (host : IdentityHost) (now : Time) (db : Db) (user : User) (raw : String) (request : TokenRequest) :
    Except Raised (Db × ApiToken) := do
  Outcome.ensure ((db.apiTokens.select (·.userId == user.id)).length < host.settings.tokenMaxPerAccount)
    (http 429 ("token limit reached (max " ++ toString host.settings.tokenMaxPerAccount ++ ")"))
  createApiToken host.toHost now db user raw request

/-- `origin` or else `referer`, cut to scheme and host. -/
def approvingOrigin (host : IdentityHost) (headers : Headers) : Option String :=
  ((headers.origin.filter (· ≠ "")).or headers.referer).map fun text => if text = "" then text else host.originOf text

def revokeCurrentSession (host : IdentityHost) (now : Time) (db : Db) (user : User) (headers : Headers) :
    Except Raised Db :=
  match (headers.cookie.bind fun token => sessionByHash db (host.hashToken token)) with
  | none => .ok db
  | some row => revokeById now db row.id user

def perform (host : IdentityHost) (db : Db) (user : User) (request : Request) : Except Raised Db :=
  let now := request.now
  match request.call with
  | .uploadKey publicKey label expiresAt =>
    (registerSigningKey host.toPackageHost now db user publicKey label expiresAt).map Prod.fst
  | .revokeKey keyId => (revokeSigningKey host.toPackageHost now db user keyId).map Prod.fst
  | .createToken raw request => (createToken host now db user raw request).map Prod.fst
  | .revokeToken tokenId => revokeApiToken now db user tokenId
  | .rotateToken tokenId raw expiresInDays =>
    (rotateApiToken host.toHost now db user tokenId raw expiresInDays).map Prod.fst
  | .adminSuspendUser userId suspended => (suspendUser now db user userId suspended).map Prod.fst
  | .deleteMyAccount confirm => do
    Outcome.ensure (confirm = "delete-account") (http 400 "type 'delete-account' to confirm")
    deleteAccount host.toHost now db user
  | .approveDevice userCode => approveDeviceLogin host.toHost now db user userCode (approvingOrigin host request.headers)
  | .updateAgreements tos privacy publisher => acceptAgreements host.settings now db user tos privacy publisher
  | .revokeMySession sessionId => revokeById now db sessionId user
  | .logout => revokeCurrentSession host now db user request.headers

/-- What a route commits, and for whom. Logging out without a session succeeds and commits nothing. -/
def handle (host : IdentityHost) (db : Db) (request : Request) : Except Raised (Db × Option Caller) :=
  match request.call, authenticate host db request with
  | .logout, .error _ => .ok (db, none)
  | _, .error raised => .error raised
  | _, .ok (resolved, caller) => do
    let after ← perform host resolved caller.user request
    return (after, some caller)

theorem handle_some {host : IdentityHost} {db after : Db} {request : Request} {caller : Caller} :
    handle host db request = .ok (after, some caller) ↔
      ∃ resolved, authenticate host db request = .ok (resolved, caller) ∧
        perform host resolved caller.user request = .ok after := by
  unfold handle
  cases authenticated : authenticate host db request with
  | error raised => cases request.call <;> simp
  | ok found =>
    obtain ⟨resolved, other⟩ := found
    have committed : ((perform host resolved other.user request >>= fun done => pure (done, some other)) :
        Except Raised (Db × Option Caller)) = .ok (after, some caller) ↔
        ∃ start, Except.ok (resolved, other) = (Except.ok (start, caller) : Except Raised (Db × Caller)) ∧
          perform host start caller.user request = .ok after := by
      simp only [Outcome.bind_eq_ok, Outcome.pure_eq_ok, Prod.mk.injEq, Option.some.injEq, Except.ok.injEq]
      constructor
      · rintro ⟨done, performed, rfl, rfl⟩
        exact ⟨resolved, ⟨rfl, rfl⟩, performed⟩
      · rintro ⟨_, ⟨rfl, rfl⟩, performed⟩
        exact ⟨after, performed, rfl, rfl⟩
    cases request.call <;> exact committed

theorem handle_none {host : IdentityHost} {db after : Db} {request : Request}
    (done : handle host db request = .ok (after, none)) : after = db := by
  unfold handle at done
  split at done
  · cases done
    rfl
  · cases done
  · simp only [Outcome.bind_eq_ok, Outcome.pure_eq_ok, Prod.mk.injEq, reduceCtorEq, and_false, exists_false] at done

section Desk

def founderJwt : String :=
  "eyJhbGciOiJIUzI1NiIsInR5cCI6IkpXVCJ9.eyJzdWIiOiIxIiwidXNlcm5hbWUiOiJmb3VuZGVyIiwiaWF0IjowLCJleHAiOjYwNDgwMH0." ++
    "RcAqjnlg-tQP-PkNS1XXE1Zgb-GHNlgR4iMGBmdXbKU"

structure RawToken where
  raw : String
  digest : String

def readerToken : RawToken :=
  ⟨"oah_UQkxpU05UUV6gb-v0iYr1I63KolUOEB4MfQAmn5YROdsLSCV",
    "5078c24910fccd8060b2c16d186abb28d2a69fcabc8f07a629fbb53381188efa"⟩

def keeperToken : RawToken :=
  ⟨"oah_EChqRqZdtn5jgEC_I0DM4q181_WIBcoUU7ltevIMF7aI2Xk-",
    "1f6f891f123fea5d54ad694ba3f19fae570d8adc9a91828c23997b1f8761f641"⟩

def freshToken : RawToken :=
  ⟨"oah_aBGyjviqbRw9A6QXp1g3X8LPFNso-CEy69v83nlwy-DyXuy1",
    "f0360524c5d02bd50c51ad9c04452a3736f6713e2ea3e9524ddf7182bf27e12b"⟩

/-- The scheme is read up to the first blank, and its case does not matter. -/
def schemeAndCredentials (authorization : String) : Option String :=
  let scheme := authorization.toList.takeWhile (· ≠ ' ')
  let credentials := authorization.toList.drop (scheme.length + 1)
  if scheme.map Char.toLower = "bearer".toList ∧ credentials ≠ [] then some (String.ofList credentials) else none

def deskHost : IdentityHost where
  toPackageHost := { plainHost with
    hashToken := fun token =>
      (([readerToken, keeperToken, freshToken].find? fun known => known.raw = token).map RawToken.digest).getD "" }
  decodeToken := fun now token => if token = founderJwt ∧ now < seconds 604800 then some ⟨some 1⟩ else none
  httpBearer := schemeAndCredentials
  originOf := id

def bearing (credentials : String) : Headers := { authorization := "Bearer " ++ credentials }

theorem bearerToken_bearing {credentials : String} (trimmed : Text.strip credentials = credentials) :
    bearerToken (bearing credentials).authorization = some credentials := by
  unfold bearerToken bearing Text.startsWith
  simp [String.toList_append, trimmed]

theorem deskHost_httpBearer {credentials : String} (present : credentials ≠ "") :
    deskHost.httpBearer (bearing credentials).authorization = some credentials := by
  show schemeAndCredentials _ = _
  unfold schemeAndCredentials bearing
  simp [String.toList_append, present]

theorem founderJwt_present : founderJwt ≠ "" := by decide +kernel

theorem founderJwt_trimmed : Text.strip founderJwt = founderJwt :=
  Text.strip_append (by decide +kernel) (by decide +kernel)

theorem founderJwt_decoded : deskHost.decodeToken 1 founderJwt = some ⟨some 1⟩ := by
  simp [deskHost, seconds]

end Desk

end Registry.Identity
