import OpenAgentHub.Registry.Identity.Deletion
import OpenAgentHub.Registry.Packages.DownloadTokens

namespace Registry.Identity

open Relational Packages

structure WebSettings where
  jwtSecret : String := "change-me"
  githubClientId : String := ""
  githubClientSecret : String := ""
  githubAuthorizeUrl : String := "https://github.com/login/oauth/authorize"
  webRedirectUris : String := "http://localhost:3100/auth/callback"
  sessionCookieName : String := "oah_session"
  sessionCookieDomain : String := ""
  sessionCookieSecure : Option Bool := none

structure GithubReply where
  accessToken : Option String
  userStatus : Nat
  login : Option String
  id : String
  avatarUrl : Option String

structure WebHost extends IdentityHost where
  web : WebSettings
  /-- `json.loads` of bytes. -/
  loadsBytes : Bytes → Except PyJson.Fault PyJson
  /-- `int` of a text. -/
  intOfText : String → Option Int
  sha256 : Bytes → Bytes
  timeText : Time → String
  urlencode : List (String × String) → String
  github : String → GithubReply

section StateTokens

variable (host : WebHost)

def stateTtlSeconds : Int := 600

def stateFields (redirectUri nonce : String) (expires : Int) : List (String × PyJson) :=
  [("r", .str redirectUri), ("n", .str nonce), ("e", .int expires)]

def stateNonce (now : Time) (redirectUri : String) : String :=
  let seed := host.web.jwtSecret ++ ":" ++ host.timeText now ++ ":" ++ redirectUri
  String.ofList (Base64.encode ((host.sha256 (Utf8.encode seed.toList)).take 12))

def statePayload (now : Time) (redirectUri : String) : PyJson :=
  .dict (stateFields redirectUri (stateNonce host now redirectUri) (epoch now + stateTtlSeconds))

def encodedState (now : Time) (redirectUri : String) : Bytes := Utf8.encode (host.dumps (statePayload host now redirectUri)).toList

def makeStateToken (now : Time) (redirectUri : String) : String :=
  String.ofList (Base64.encode (encodedState host now redirectUri) ++ '.' ::
    Base64.encode (host.hmac (encodedState host now redirectUri)))

/-- `int` of a value, without a number where it raises. -/
def castInt : PyJson → Option Int
  | .int value => some value
  | .bool flag => some (if flag then 1 else 0)
  | .float value => value.map fun value => if 0 ≤ value then value.floor else value.ceil
  | .str text => host.intOfText text
  | .none | .list _ | .dict _ => none

def signedState (token : String) : Option Bytes :=
  match Semver.cut '.' token.toList with
  | (_, none) => none
  | (body, some signature) =>
    if signature = [] then none else (unb64 body).filter fun payload => Base64.encode (host.hmac payload) == signature

def verifyStateToken (now : Time) (token : String) : Option (List (String × PyJson)) := do
  let payload ← signedState host token
  match host.loadsBytes payload with
  | .ok (.dict fields) =>
    let expires ← castInt host (PyJson.field fields "e")
    if expires < epoch now then none else some fields
  | .ok _ | .error _ => none

end StateTokens

section Routes

variable (host : WebHost)

def authorizeUrl (stateToken redirectUri : String) : String :=
  host.web.githubAuthorizeUrl ++ "?" ++ host.urlencode [("client_id", host.web.githubClientId), ("redirect_uri", redirectUri),
    ("scope", "read:user"), ("state", stateToken), ("allow_signup", "true")]

def isAllowedRedirect (redirectUri : String) : Bool :=
  (((Text.split ',' host.web.webRedirectUris).map Text.strip).filter (· ≠ "")).contains redirectUri

def cookieValue (token : String) : String :=
  host.web.sessionCookieName ++ "=" ++ token ++ "; Path=/; HttpOnly; SameSite=Lax; Max-Age=" ++
    toString host.settings.sessionAbsoluteTtlSeconds ++
    (if host.web.sessionCookieDomain ≠ "" then "; Domain=" ++ host.web.sessionCookieDomain else "") ++
    (if host.web.sessionCookieSecure.getD (Text.startsWith host.settings.publicBaseUrl "https://") then "; Secure" else "")

def githubStart (now : Time) (redirectUri : String) : Except Raised (String × String) := do
  Outcome.ensure (isAllowedRedirect host redirectUri = true) (http 400 "redirect_uri not allowed")
  let state := makeStateToken host now redirectUri
  return (state, authorizeUrl host state redirectUri)

def exchangeGithubCode (code : String) : Except Raised Profile := do
  Outcome.ensure (host.web.githubClientId ≠ "" ∧ host.web.githubClientSecret ≠ "") (http 503 "GitHub OAuth is not configured")
  let reply := host.github code
  Outcome.ensure (reply.accessToken.any (· ≠ "") = true) (http 401 "GitHub code exchange failed")
  Outcome.ensure (reply.userStatus = 200) (http 401 "GitHub identity fetch failed")
  let username ← Outcome.demand (reply.login.filter (· ≠ "")) (http 401 "GitHub profile missing login")
  return ⟨username, reply.id, reply.avatarUrl⟩

/-- The redirection that the fields of a state token name. A value that is no text is in no list of texts. -/
def redirectOf (fields : List (String × PyJson)) : Option String :=
  match PyJson.field fields "r" with
  | .str redirectUri => if isAllowedRedirect host redirectUri then some redirectUri else none
  | _ => none

structure WebRedirect where
  location : String
  setCookie : String

/-- `GET /auth/github/callback` with its checks. -/
def githubCallbackRoute (now : Time) (db : Db) (code state raw : String) : Except Raised (Db × WebRedirect) := do
  let data ← Outcome.demand (verifyStateToken host now state) (http 400 "invalid or expired state")
  let redirectUri ← Outcome.demand (redirectOf host data) (http 400 "redirect_uri not allowed")
  let profile ← exchangeGithubCode host code
  let db ← githubCallback host.toIdentityHost now db profile raw
  return (db, ⟨redirectUri ++ "?ok=1", cookieValue host raw⟩)

end Routes

section Verifying

variable {host : WebHost} {now issued : Time} {token redirectUri : String} {fields : List (String × PyJson)} {payload : Bytes}

theorem verifyStateToken_eq_some : verifyStateToken host now token = some fields ↔
    ∃ payload expires, signedState host token = some payload ∧ host.loadsBytes payload = .ok (.dict fields) ∧
      castInt host (PyJson.field fields "e") = some expires ∧ epoch now ≤ expires := by
  unfold verifyStateToken
  refine Option.bind_eq_some_iff.trans ?_
  constructor
  · rintro ⟨payload, signed, read⟩
    split at read
    · next found loaded =>
      obtain ⟨expires, stated, read⟩ := Option.bind_eq_some_iff.mp read
      split at read
      · cases read
      · next ahead =>
        cases read
        exact ⟨payload, expires, signed, loaded, stated, Int.not_lt.mp ahead⟩
    · cases read
    · cases read
  · rintro ⟨payload, expires, signed, loaded, stated, ahead⟩
    refine ⟨payload, signed, ?_⟩
    rw [loaded]
    exact Option.bind_eq_some_iff.mpr ⟨expires, stated, if_neg (Int.not_lt.mpr ahead)⟩

end Verifying

end Registry.Identity
