import OpenAgentHub.Lib.Text
import OpenAgentHub.Registry.Database

namespace Registry.Identity

open Relational

def tokenScopes : List String :=
  ["packages:read", "packages:publish", "packages:manage", "keys:manage", "members:manage",
    "audit:read", "billing:read", "billing:manage"]

def validateScopes (scopes : List String) : Except Raised (List String) := do
  let unknown := scopes.filter fun scope => !tokenScopes.contains scope
  Outcome.ensure (unknown = []) ⟨.tokenError, "invalid scopes: " ++ Text.join ", " unknown⟩
  return Text.sortedSet scopes

/-- `expires_in_days or settings.token_default_ttl_days`. -/
def requestedDays (settings : Settings) : Option Int → Int
  | none => settings.tokenDefaultTtlDays
  | some requested => if requested = 0 then settings.tokenDefaultTtlDays else requested

/-- `timedelta(days=count)` takes nine digits. -/
def timedelta (count : Int) : Except Raised Unit :=
  Outcome.ensure (count.natAbs ≤ 999999999)
    ⟨.overflowError, "days=" ++ toString count ++ "; must have magnitude <= 999999999"⟩

def InCalendar (now : Time) (count : Int) : Prop :=
  -62135596800000000 ≤ (now : Int) + count * (days 1 : Nat) ∧ (now : Int) + count * (days 1 : Nat) < 253402300800000000

instance (now : Time) (count : Int) : Decidable (InCalendar now count) := inferInstanceAs (Decidable (_ ∧ _))

def outOfRange : Raised := ⟨.overflowError, "date value out of range"⟩

structure TokenRequest where
  label : String
  scopes : List String
  organizationId : Option Nat := none
  isServiceAccount : Bool := false
  expiresInDays : Option Int := none

/-- The random token is an input: `raw` is what `issue_token` drew. -/
def createApiToken (host : Host) (now : Time) (db : Db) (user : User) (raw : String) (request : TokenRequest) :
    Except Raised (Db × ApiToken) := do
  let label := Text.strip request.label
  Outcome.ensure (label ≠ "" ∧ label.length ≤ 64) ⟨.tokenError, "label is required (max 64 chars)"⟩
  let granted ← validateScopes request.scopes
  -- a policy list is subtracted from a Python list, which has no such operator
  Outcome.ensure (host.settings.tokenAllowedScopes = "")
    ⟨.typeError, "unsupported operand type(s) for -: 'list' and 'frozenset'"⟩
  Outcome.ensure (∀ organizationId ∈ request.organizationId,
      (db.organizationMembers.one fun member =>
        member.organizationId == organizationId && member.userId == user.id) ≠ none)
    ⟨.tokenError, "you must be a member of the organization the token is scoped to"⟩
  let requested := requestedDays host.settings request.expiresInDays
  timedelta requested
  timedelta host.settings.tokenMaxLifetimeDays
  Outcome.ensure (requested ≤ host.settings.tokenMaxLifetimeDays)
    ⟨.tokenError, "lifetime exceeds the maximum of " ++ toString host.settings.tokenMaxLifetimeDays ++ " days"⟩
  Outcome.ensure (0 < requested → InCalendar now requested) outOfRange
  let expiresAt := if requested ≤ 0 then none else some (now + days requested.toNat)
  let scopes := Text.join "," granted
  let (row, apiTokens) ← Db.insertRow db.apiTokens fun id =>
    { id, userId := user.id, tokenHash := host.hashToken raw, tokenPrefix := String.ofList (raw.toList.take 12)
      label, scopes, organizationId := request.organizationId
      isServiceAccount := request.isServiceAccount, expiresAt }
  return ({ db with apiTokens }.recordAudit
    { id := 0, actorId := some user.id, action := "token.created", targetType := some "api_token"
      targetId := some row.id, createdAt := now
      detail := [("prefix", .str row.tokenPrefix), ("scopes", .str scopes),
        ("organizationId", (request.organizationId.map fun id => Json.num id).getD .null),
        ("isServiceAccount", .bool request.isServiceAccount)] }, row)

end Registry.Identity
