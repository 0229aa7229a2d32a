import OpenAgentHub.Sdk.Extraction

namespace Sdk

abbrev Buffer := List UInt8

structure SignatureFile where
  schemaVersion : Int := 1
  algorithm : String := "ed25519"
  publicKey : String
  publicKeyId : String
  sha256 : String
  name : String
  version : String
  signature : String
  deriving DecidableEq, Repr

/-- What `crypto.ts` takes from Node. `derOfKey` is `createPublicKey(pem).export(…)`, and `nodeVerify` takes the
    payload, the signature in base64 and the key. -/
structure Crypto where
  sha256Hex : Buffer → String
  derOfKey : String → Except Thrown Buffer
  nodeVerify : String → String → String → Except Thrown Bool

def verifyPayload (crypto : Crypto) (payload signature publicKey : String) : Bool :=
  match crypto.nodeVerify payload signature publicKey with
  | .ok valid => valid
  | .error _ => false

def publicKeyFingerprint (crypto : Crypto) (publicKey : String) : Except Thrown String := do
  let der ← crypto.derOfKey publicKey
  return String.ofList ((crypto.sha256Hex der).toList.take 16)

def signaturePayload (name version sha256 : String) : String :=
  "openagenthub-signature-v1:" ++ name ++ "@" ++ version ++ ":" ++ sha256

def signatureError (message : String) : Thrown := ⟨.signatureError, message⟩

def verifySignatureFileStrict (crypto : Crypto) (sig : SignatureFile) (archive : Buffer) : Except Thrown Unit := do
  Outcome.ensure (sig.schemaVersion = 1 ∧ sig.algorithm = "ed25519") (signatureError "unsupported signature scheme")
  Outcome.ensure (crypto.sha256Hex archive = sig.sha256)
    (signatureError "checksum mismatch: archive does not match signature")
  Outcome.ensure (verifyPayload crypto (signaturePayload sig.name sig.version sig.sha256) sig.signature sig.publicKey)
    (signatureError "ed25519 signature verification failed")
  let expectedId ← publicKeyFingerprint crypto sig.publicKey
  Outcome.ensure (sig.publicKeyId = expectedId) (signatureError "public key fingerprint mismatch")

/-- A signature that verifies is over the name and the version that it states itself. -/
theorem verifySignatureFileStrict_ok {crypto : Crypto} {sig : SignatureFile} {archive : Buffer} {done : Unit} :
    verifySignatureFileStrict crypto sig archive = .ok done ↔
      (sig.schemaVersion = 1 ∧ sig.algorithm = "ed25519") ∧ crypto.sha256Hex archive = sig.sha256 ∧
        verifyPayload crypto (signaturePayload sig.name sig.version sig.sha256) sig.signature sig.publicKey = true ∧
        publicKeyFingerprint crypto sig.publicKey = .ok sig.publicKeyId := by
  simp only [verifySignatureFileStrict, Outcome.bind_eq_ok, Outcome.ensure_eq_ok]
  constructor
  · rintro ⟨_, scheme, _, hash, _, verified, _, fingerprint, rfl⟩
    exact ⟨scheme, hash, verified, fingerprint⟩
  · rintro ⟨scheme, hash, verified, fingerprint⟩
    exact ⟨(), scheme, (), hash, (), verified, _, fingerprint, rfl⟩

inductive TrustLevel where
  | trusted | untrusted | unknown | local | other (text : String)
  deriving DecidableEq, Repr

structure AgentVersionDetail where
  manifest : Json
  reviewStatus : Option String := none
  reviewReason : Option String := none
  trust : Option TrustLevel := none
  securityStatus : Option String := none
  signature : Option SignatureFile := none

/-- What a registry answers to the requests of one installation: `getVersion`, the `getVersion` of
    `downloadArchive`, and the download. -/
structure Answers where
  detail : Except Thrown AgentVersionDetail
  signed : Except Thrown AgentVersionDetail
  archive : Except Thrown Buffer

def maxDownloadBytes : Nat := 250 * 1024 * 1024

def downloadArchive (answers : Answers) : Except Thrown (Buffer × SignatureFile) := do
  let detail ← answers.signed
  let signature ← Outcome.demand detail.signature ⟨.registryError, "version has no published signature"⟩
  let buffer ← answers.archive
  Outcome.ensure (buffer.length ≤ maxDownloadBytes) ⟨.registryError, "archive exceeds download limit"⟩
  return (buffer, signature)

/-- `manifest.version`, as a template prints it. -/
def versionText (manifest : Json) : String :=
  match manifest.get "version" with
  | some version => version.toText
  | none => "undefined"

end Sdk
