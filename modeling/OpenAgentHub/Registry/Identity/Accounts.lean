import OpenAgentHub.Registry.Identity.Sessions
import OpenAgentHub.Registry.Packages.Managing

namespace Registry.Identity

open Relational Organizations

/-- The identity that `exchange_github_code` fetches from GitHub. -/
structure Profile where
  username : String
  githubId : String
  avatarUrl : Option String := none
  deriving DecidableEq, Repr

def loginWithGithub (now : Time) (db : Db) (profile : Profile) : Except Raised (Db × User) :=
  match db.users.one (·.githubId == some profile.githubId) with
  | none => do
    let (user, users) ← Db.insertRow db.users fun id =>
      { id, username := profile.username, githubId := some profile.githubId, avatarUrl := profile.avatarUrl
        createdAt := now }
    return ({ db with users }, user)
  | some user => do
    Outcome.ensure (user.status ≠ .deleted) (http 403 "account has been deleted")
    let user := { user with
      username := profile.username
      avatarUrl := (profile.avatarUrl.filter (· ≠ "")).or user.avatarUrl }
    let users ← Db.updateRow db.users user
    return ({ db with users }, user)

theorem revoked_preserves (now : Time) : Table.Preserves fun row : ApiToken => { row with revokedAt := some now } :=
  fun _ => ⟨rfl, fun _ => rfl⟩

/-- `ApiTokenRepository.revoke_all_for_user`. -/
def revokeApiTokens (now : Time) (db : Db) (userId : Nat) : Db :=
  { db with
    apiTokens := db.apiTokens.modify (fun row => row.userId == userId && row.revokedAt.isNone)
      (fun row => { row with revokedAt := some now }) (revoked_preserves now) }

theorem keyRevoked_preserves (now : Time) : Table.Preserves fun row : SigningKey => { row with revokedAt := some now } :=
  fun _ => ⟨rfl, fun _ => rfl⟩

/-- `SigningKeyRepository.revoke_all_for_user`. -/
def revokeSigningKeys (now : Time) (db : Db) (userId : Nat) : Db :=
  { db with
    signingKeys := db.signingKeys.modify (fun row => row.userId == userId && row.revokedAt.isNone)
      (fun row => { row with revokedAt := some now }) (keyRevoked_preserves now) }

def updateStatus (db : Db) (userId : Nat) (status : UserStatus) : Db :=
  { db with users := db.users.modify (·.id == userId) fun row => { row with status } }

def ensureAccountDeletable (db : Db) (user : User) : Except Raised Unit :=
  Outcome.each (fun org => Outcome.ensure (soleOwner db org.id user.id = false)
    ⟨.accountDeletionBlocked, "transfer ownership of '" ++ org.slug ++ "' before deleting your account"⟩)
    (organizationsOf db user.id)

def deleteAccount (host : Host) (now : Time) (db : Db) (user : User) : Except Raised Db := do
  ensureAccountDeletable db user
  let db := revokeSigningKeys now (revokeApiTokens now (revokeSessions now db user.id) user.id) user.id
  let (db, _) ← removeUserMemberships host now db user
  return (updateStatus db user.id .deleted).recordAudit
    { id := 0, actorId := some user.id, action := "account.deleted", targetType := some "user"
      targetId := some user.id, detail := [("username", .str user.username)], createdAt := now }

def suspendUser (now : Time) (db : Db) (actor : User) (userId : Nat) (suspended : Bool) : Except Raised (Db × User) := do
  let user ← Outcome.demand (db.users.byId userId) ⟨.userNotFound, "user not found"⟩
  Outcome.ensure (user.id ≠ actor.id) ⟨.identityError, "cannot suspend yourself"⟩
  let status := if suspended then UserStatus.suspended else .active
  if user.status = status then return (db, user)
  else
    return ((revokeSessions now (updateStatus db user.id status) user.id).recordAudit
      { id := 0, actorId := some actor.id, action := if suspended then "user.suspended" else "user.unsuspended"
        targetType := some "user", targetId := some user.id, detail := [("username", .str user.username)]
        createdAt := now }, { user with status })

section Tokens

def ownToken (db : Db) (user : User) (tokenId : Nat) : Except Raised ApiToken := do
  let row ← Outcome.demand (db.apiTokens.byId tokenId) ⟨.tokenNotFound, "API token not found"⟩
  Outcome.ensure (row.userId = user.id) ⟨.tokenNotOwned, "you do not own this API token"⟩
  return row

def revokeToken (db : Db) (now : Time) (tokenId : Nat) : Db :=
  { db with
    apiTokens := db.apiTokens.modify (·.id == tokenId) (fun row => { row with revokedAt := some now })
      (revoked_preserves now) }

def revokeApiToken (now : Time) (db : Db) (user : User) (tokenId : Nat) : Except Raised Db := do
  let row ← ownToken db user tokenId
  if row.revokedAt.isSome then return db
  else
    return (revokeToken db now row.id).recordAudit
      { id := 0, actorId := some user.id, action := "token.revoked", targetType := some "api_token"
        targetId := some row.id, detail := [("prefix", .str row.tokenPrefix)], createdAt := now }

def daysFrom (now : Time) (count : Int) : Time := ((now : Int) + count * (days 1 : Nat)).toNat

/-- `ApiTokenRepository.rotate`: whatever the state of the row, it is revoked and copied. -/
def rotated (row : ApiToken) (tokenHash tokenPrefix : String) (expiresAt : Time) (id : Nat) : ApiToken where
  id := id
  userId := row.userId
  tokenHash := tokenHash
  tokenPrefix := tokenPrefix
  label := row.label
  scopes := row.scopes
  organizationId := row.organizationId
  isServiceAccount := row.isServiceAccount
  expiresAt := some expiresAt
  rotatedFromId := some row.id

def rotateApiToken (host : Host) (now : Time) (db : Db) (user : User) (tokenId : Nat) (raw : String)
    (expiresInDays : Option Int) : Except Raised (Db × ApiToken) := do
  let existing ← ownToken db user tokenId
  let requested := requestedDays host.settings expiresInDays
  timedelta requested
  timedelta host.settings.tokenMaxLifetimeDays
  Outcome.ensure (requested ≤ host.settings.tokenMaxLifetimeDays)
    ⟨.tokenError, "lifetime exceeds the maximum of " ++ toString host.settings.tokenMaxLifetimeDays ++ " days"⟩
  Outcome.ensure (InCalendar now requested) outOfRange
  let tokenPrefix := String.ofList (raw.toList.take 12)
  let (fresh, apiTokens) ← Db.insertRow db.apiTokens
    (rotated existing (host.hashToken raw) tokenPrefix (daysFrom now requested))
  return ((revokeToken { db with apiTokens } now existing.id).recordAudit
    { id := 0, actorId := some user.id, action := "token.rotated", targetType := some "api_token"
      targetId := some existing.id, createdAt := now
      detail := [("prefix", .str existing.tokenPrefix), ("newPrefix", .str tokenPrefix)] }, fresh)

end Tokens

end Registry.Identity
