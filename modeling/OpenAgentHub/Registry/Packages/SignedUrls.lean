import OpenAgentHub.Lib.Base64
import OpenAgentHub.Lib.Utf8
import OpenAgentHub.Registry.Packages.Host
import OpenAgentHub.Registry.Packages.Semver

namespace Registry.Packages

structure TokenTarget where
  namespaceName : String
  name : String
  version : String
  versionId : Nat
  digest : Option String
  deriving DecidableEq

def tokenKind : String := "ahb-dl"

def isAscii (text : List Char) : Bool := text.all fun char => decide (char.toNat < 128)

/-- `_unb64`, which catches the errors of the decoder. -/
def unb64 (value : List Char) : Option Bytes :=
  if value = [] ∨ isAscii value = false then none else Base64.decode value

def signPayload (host : PackageHost) (payload : List Char) : List Char := Base64.encode (host.hmac (Utf8.encode payload))

def tokenFields (target : TokenTarget) (expires : Int) : List (String × PyJson) :=
  [("k", .str tokenKind), ("n", .str target.namespaceName), ("a", .str target.name), ("v", .str target.version),
    ("i", .int target.versionId), ("d", (target.digest.map PyJson.str).getD .none), ("e", .int expires)]

def downloadToken (host : PackageHost) (target : TokenTarget) (expires : Int) : String :=
  let payload := (host.dumps (.dict (tokenFields target expires))).toList
  String.ofList (Base64.encode (Utf8.encode payload) ++ '.' :: signPayload host payload)

/-- `int(time.time())`. -/
def epoch (now : Time) : Int := (now / seconds 1 : Nat)

def issueDownloadToken (host : PackageHost) (now : Time) (target : TokenTarget) (ttlSeconds : Int) : String :=
  downloadToken host target (epoch now + max 1 ttlSeconds)

/-- The fields of a signed payload, if the signature holds. `compare_digest` takes ASCII texts only, and a payload that
    is not an object has no fields to ask for. -/
def signedFields (host : PackageHost) (payload signature : List Char) : Except Raised (Option (List (String × PyJson))) :=
  if isAscii signature = false then
    .error ⟨.typeError, "comparing strings with non-ASCII characters is not supported"⟩
  else if signPayload host payload ≠ signature then .ok none
  else
    match host.loads (String.ofList payload) with
    | .error .malformed => .ok none
    | .error .tooDeep => .error ⟨.recursionError, "maximum recursion depth exceeded"⟩
    | .ok (.dict fields) => .ok (some fields)
    | .ok _ => .error ⟨.attributeError, "object has no attribute 'get'"⟩

def tokenPayload (host : PackageHost) (token : String) : Except Raised (Option (List (String × PyJson))) :=
  match Semver.cut '.' token.toList with
  | (_, none) => .ok none
  | (body, some signature) =>
    match unb64 body with
    | none => .ok none
    | some raw => signedFields host (Utf8.decodeReplace raw) signature

def TokenTarget.statedBy (target : TokenTarget) (fields : List (String × PyJson)) : Bool :=
  (PyJson.field fields "k").isText tokenKind && (PyJson.field fields "n").isText target.namespaceName &&
    (PyJson.field fields "a").isText target.name && (PyJson.field fields "v").isText target.version &&
    (PyJson.field fields "i").isNumber target.versionId &&
    match target.digest, PyJson.field fields "d" with
    | some digest, value => value.isText digest
    | none, .none => true
    | none, _ => false

def TokenTarget.judge (target : TokenTarget) (now : Time) (fields : List (String × PyJson)) : Bool × Int :=
  if target.statedBy fields = false then (false, 0)
  else
    match (PyJson.field fields "e").asInt with
    | none => (false, 0)
    | some expires => if expires ≤ epoch now then (false, 0) else (true, expires)

def verifyDownloadToken (host : PackageHost) (now : Time) (token : String) (target : TokenTarget) :
    Except Raised (Bool × Int) := do
  match ← tokenPayload host token with
  | none => return (false, 0)
  | some fields => return target.judge now fields

end Registry.Packages
