import OpenAgentHub.Lib.PyJson
import OpenAgentHub.Lib.Text
import OpenAgentHub.Registry.Database

namespace Registry.Packages

abbrev Bytes := List UInt8

/-- What the `is…` methods of a member say; `other` is a type that none of them knows. -/
inductive TarKind where
  | regular | directory | symlink | hardlink | device | other
  deriving DecidableEq, Repr

/-- A member as `tarfile` reads it; `text` is what `extractfile` yields for it, links followed,
    decoded as UTF-8 if it is UTF-8. -/
structure TarMember where
  name : String
  kind : TarKind
  size : Nat
  text : Option String
  deriving DecidableEq, Repr

/-- What `verify` of a public key does with a signature and a text. Keys of other kinds take further arguments, or
    have no such method. -/
inductive Verification where
  | valid | invalid | wrongKeyType | noVerify
  deriving DecidableEq, Repr

/-- What the package requests take from the database engine and from other libraries. -/
structure PackageHost extends Host where
  sqlLower : String → String
  like : String → String → Bool
  jsonContains : List String → List String → Bool
  sha256Hex : Bytes → String
  derOfPem : String → Except String Bytes
  verifyEd25519 : String → String → String → Verification
  parseSignatureFile : Bytes → Except String SignatureFile
  openTar : Bytes → Except Raised (List TarMember)
  parseYaml : String → Except String Json
  manifestError : Json → Option String
  hmac : List UInt8 → List UInt8
  loads : String → Except PyJson.Fault PyJson
  dumps : PyJson → String
  parseJson : String → Option Json
  dumpsJson : Json → String
  b64Encode : String → String
  b64Decode : String → Option String
  strOf : Json → String
  intOf : Json → Option Int
  /-- What reading a member of an archive, parsing a text as YAML and validating a manifest raise that is not an error
      of theirs, such as `KeyError` for a dangling link and `RecursionError`. -/
  extractRaises : Bytes → Option Raised := fun _ => none
  yamlRaises : String → Option Raised := fun _ => none
  validatorRaises : Json → Option Raised := fun _ => none
  /-- What the engine raises for a fingerprint that is looked up and for the texts of a manifest that are written, such
      as `UnicodeEncodeError` for half of a surrogate pair. -/
  lookupRaises : String → Option Raised := fun _ => none
  rowsRaise : Json → Option Raised := fun _ => none

/-- ASCII texts, and nothing that any of the formats accepts. -/
def plainHost : PackageHost where
  lower := String.toLower
  hashToken := id
  sqlLower := String.toLower
  like pattern text := text.toList.tails.any (pattern.toList.drop 1).dropLast.isPrefixOf
  jsonContains stored wanted := wanted.all stored.contains
  sha256Hex _ := ""
  derOfPem _ := .error "Unable to load PEM file"
  verifyEd25519 _ _ _ := .invalid
  parseSignatureFile _ := .error "Invalid JSON"
  openTar _ := .error ⟨.tarError, "not a gzip file"⟩
  parseYaml _ := .error "could not find the expected ':'"
  manifestError _ := none
  hmac _ := []
  loads _ := .error .malformed
  dumps _ := ""
  parseJson _ := none
  dumpsJson _ := ""
  b64Encode _ := ""
  b64Decode _ := none
  strOf _ := ""
  intOf _ := none

abbrev Archives := List String → Option Bytes

section Store

def unsafeSegment (value : String) : Bool :=
  value == "" || value == "." || value == ".." ||
    value.toList.any fun char => char == '/' || char == '\\' || char == '\x00'

def invalidSegment (field value : String) : Raised :=
  ⟨.archiveStoreError, "invalid " ++ field ++ ": '" ++ value ++ "'"⟩

def archivePath (namespaceName name version : String) : Except Raised (List String) := do
  Outcome.ensure (unsafeSegment namespaceName = false) (invalidSegment "namespace" namespaceName)
  Outcome.ensure (unsafeSegment name = false) (invalidSegment "name" name)
  Outcome.ensure (unsafeSegment version = false) (invalidSegment "version" version)
  return [namespaceName, name, version ++ ".ahb"]

def nameMax : Nat := 255

def Archives.put (files : Archives) (namespaceName name version : String) (data : Bytes) :
    Except Raised Archives := do
  let path ← archivePath namespaceName name version
  Outcome.ensure (∀ segment ∈ path, segment.utf8ByteSize ≤ nameMax) ⟨.osError, "File name too long"⟩
  return fun other => if other = path then some data else files other

def Archives.get (files : Archives) (namespaceName name version : String) : Except Raised (Option Bytes) := do
  let path ← archivePath namespaceName name version
  return files path

theorem archivePath_ok {namespaceName name version : String} {path : List String}
    (safe : archivePath namespaceName name version = .ok path) :
    path = [namespaceName, name, version ++ ".ahb"] := by
  simp only [archivePath, Outcome.bind_eq_ok, Outcome.pure_eq_ok] at safe
  obtain ⟨_, _, _, _, _, _, rfl⟩ := safe
  rfl

end Store

section Crypto

def publicKeyFingerprint (host : PackageHost) (pem : String) : Except Raised String :=
  match host.derOfPem pem with
  | .ok der => .ok (String.ofList ((host.sha256Hex der).toList.take 16))
  | .error message => .error ⟨.signatureError, "invalid public key PEM: " ++ message⟩

def signaturePayload (name version sha256 : String) : String :=
  "openagenthub-signature-v1:" ++ name ++ "@" ++ version ++ ":" ++ sha256

def verifySignature (host : PackageHost) (sig : SignatureFile) (archive : Bytes) : Except Raised Unit := do
  Outcome.ensure (sig.schemaVersion = 1) ⟨.signatureError, "unsupported signature schema/algorithm"⟩
  let actual := host.sha256Hex archive
  Outcome.ensure (actual = sig.sha256)
    ⟨.signatureError, "sha256 mismatch: archive is " ++ actual ++ ", signature says " ++ sig.sha256⟩
  let expectedId ← publicKeyFingerprint host sig.publicKey
  Outcome.ensure (sig.publicKeyId = expectedId) ⟨.signatureError, "public key fingerprint mismatch"⟩
  match host.verifyEd25519 sig.publicKey sig.signature (signaturePayload sig.name sig.version sig.sha256) with
  | .valid => return ()
  | .invalid => .error ⟨.signatureError, "ed25519 signature does not verify"⟩
  | .wrongKeyType => .error ⟨.typeError, "verify() missing 2 required positional arguments"⟩
  | .noVerify => .error ⟨.attributeError, "object has no attribute 'verify'"⟩

theorem verifySignature_ok {host : PackageHost} {sig : SignatureFile} {archive : Bytes} {done : Unit} :
    verifySignature host sig archive = .ok done ↔
      sig.schemaVersion = 1 ∧ host.sha256Hex archive = sig.sha256 ∧
        publicKeyFingerprint host sig.publicKey = .ok sig.publicKeyId ∧
        host.verifyEd25519 sig.publicKey sig.signature (signaturePayload sig.name sig.version sig.sha256) =
          .valid := by
  simp only [verifySignature, Outcome.bind_eq_ok, Outcome.ensure_eq_ok]
  constructor
  · rintro ⟨_, schema, _, hash, fingerprint, computed, _, same, verified⟩
    rw [same]
    cases outcome : host.verifyEd25519 sig.publicKey sig.signature
        (signaturePayload sig.name sig.version sig.sha256) with
    | valid => exact ⟨schema, hash, computed, rfl⟩
    | invalid => simp [outcome] at verified
    | wrongKeyType => simp [outcome] at verified
    | noVerify => simp [outcome] at verified
  · rintro ⟨schema, hash, computed, verified⟩
    exact ⟨(), schema, (), hash, sig.publicKeyId, computed, (), rfl, by simp [verified]⟩

end Crypto

section Scanning

def manifestFilename : String := "agent.yaml"

def basename (path : String) : String := ((Text.split '/' path).getLast?).getD ""

def isManifestPath (path : String) : Bool := basename path == manifestFilename || basename path == "agent.yml"

/-- `re.match(r"^[a-zA-Z]:", name)`. -/
def hasDrive (name : String) : Bool :=
  match name.toList with
  | letter :: ':' :: _ => letter.isAlpha
  | _ => false

def memberRejection (member : TarMember) : Option String :=
  if member.kind = .symlink ∨ member.kind = .hardlink then
    some "archive must not contain symlinks or hardlinks"
  else if member.kind = .device then some "archive must not contain device nodes"
  else if Text.startsWith member.name "/" || (Text.split '/' member.name).contains ".." then
    some ("unsafe path in archive: " ++ member.name)
  else if hasDrive member.name then some ("unsafe path in archive: " ++ member.name)
  else if member.name.toList.contains '\x00' then some "path contains NUL byte"
  else if member.size > 100 * 1024 * 1024 then some ("member too large: " ++ member.name)
  else none

def manifestFindings (paths : List String) : List String :=
  if paths = [] then ["archive missing agent.yaml"]
  else if paths ≠ [manifestFilename] then
    ["archive must contain exactly one " ++ manifestFilename ++ " at the root"]
  else []

/-- `settings.x or ...`: the limits of `check_archive_safety` when the caller gives none. -/
def checkArchiveSafety (host : PackageHost) (archive : Bytes) (maxBytes : Nat) : Except Raised (List String) :=
  if archive.length > maxBytes then .ok ["archive exceeds " ++ toString maxBytes ++ " bytes"]
  else
    match host.openTar archive with
    | .error raised =>
      if raised.cls = .tarError then .ok ["invalid gzip tar archive: " ++ raised.message] else .error raised
    | .ok members =>
      let maxEntries := host.settings.maxArchiveEntries
      let maxUncompressed := host.settings.maxArchiveUncompressedBytes
      let kept := members.filter fun member => (memberRejection member).isNone
      .ok ((if members.length > maxEntries then ["archive has more than " ++ toString maxEntries ++ " entries"]
          else []) ++
        members.filterMap memberRejection ++
        (if (kept.map TarMember.size).sum > maxUncompressed then
          ["archive uncompressed size exceeds " ++ toString maxUncompressed ++ " bytes"] else []) ++
        manifestFindings ((kept.map TarMember.name).filter isManifestPath))

def manifestFromArchive (host : PackageHost) (archive : Bytes) : Except Raised Json := do
  let members ← host.openTar archive
  let candidates := (members.filter fun member => member.kind == .regular && isManifestPath member.name).map
    TarMember.name
  Outcome.ensure (candidates = [manifestFilename])
    ⟨.valueError, "archive must contain exactly one " ++ manifestFilename ++ " at the root"⟩
  -- `extractfile` looks the name up from the end of the archive
  let member ← Outcome.demand (members.reverse.find? fun member => member.name == manifestFilename)
    ⟨.valueError, "archive missing " ++ manifestFilename⟩
  Outcome.ensure (member.kind ≠ .directory ∧ member.kind ≠ .device)
    ⟨.valueError, "archive missing " ++ manifestFilename⟩
  Outcome.refuse (host.extractRaises archive)
  let text ← Outcome.demand member.text ⟨.valueError, "'utf-8' codec can't decode"⟩
  Outcome.refuse (host.yamlRaises text)
  match host.parseYaml text with
  | .ok manifest => return manifest
  | .error message => .error ⟨.valueError, "invalid YAML in " ++ manifestFilename ++ ": " ++ message⟩

def validateManifestSchema (host : PackageHost) (manifest : Json) : Except Raised Unit := do
  Outcome.refuse (host.validatorRaises manifest)
  match host.manifestError manifest with
  | none => .ok ()
  | some message => .error ⟨.valueError, "manifest invalid at " ++ message⟩

end Scanning

end Registry.Packages
