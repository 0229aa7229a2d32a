import OpenAgentHub.Registry.Packages.Host
import OpenAgentHub.Runtime.DepsVolume
import OpenAgentHub.Sdk.Signatures

namespace Sdk

open Registry.Packages (PackageHost Bytes)
open Registry.Semver (registryAccepts bare)

def isHexDigit (char : Char) : Bool :=
  char.isDigit || ('a' ≤ char && char ≤ 'f') || ('A' ≤ char && char ≤ 'F')

/-- The schema's `name`, as the registry's `re.search` reads its pattern. -/
def registryAcceptsName (name : String) : Bool := name.length ≤ 100 && Runtime.acceptedName (bare name)

/-- What a signature is about: a name and a version that the registry's schema check lets pass, and a SHA-256 digest in
    hexadecimal digits. -/
structure SignedRelease where
  name : String
  version : String
  named : registryAcceptsName name = true
  versioned : registryAccepts version = true
  sha256 : String
  sized : sha256.length = 64
  hexadecimal : sha256.toList.all isHexDigit = true

namespace SignedRelease

def payload (release : SignedRelease) : String := signaturePayload release.name release.version release.sha256

section Fields

variable (release : SignedRelease)

theorem name_plain : '@' ∉ release.name.toList := by
  intro listed
  rcases Registry.Semver.mem_chomp listed with inside | newline
  · rw [← Registry.Semver.bare_chars] at inside
    exact absurd (Runtime.accepted_nameChar (Bool.and_eq_true_iff.mp release.named).2 '@' inside) (by decide)
  · exact absurd newline (by decide)

theorem version_plain {char : Char} (listed : char ∈ release.version.toList) : char ≠ '@' ∧ char ≠ ':' := by
  have known := Registry.Semver.registryAccepts_written release.versioned char listed
  unfold Registry.Semver.Written Registry.Semver.Plain at known
  constructor
  · rintro rfl
    exact absurd known (by decide)
  · rintro rfl
    exact absurd known (by decide)

theorem sha256_plain {char : Char} (listed : char ∈ release.sha256.toList) : char ≠ '@' ∧ char ≠ ':' := by
  have known := List.all_eq_true.mp release.hexadecimal char listed
  constructor
  · rintro rfl
    exact absurd known (by decide)
  · rintro rfl
    exact absurd known (by decide)

theorem payload_chars : release.payload.toList = "openagenthub-signature-v1:".toList ++
    (release.name.toList ++ '@' :: (release.version.toList ++ ':' :: release.sha256.toList)) := by
  unfold payload signaturePayload
  simp only [String.toList_append, List.append_assoc]
  rfl

end Fields

/-- The first `@` after the fixed text ends the name, and the first `:` after it the version. -/
theorem fields_of_payload {first second : SignedRelease} (same : first.payload = second.payload) :
    first.name = second.name ∧ first.version = second.version ∧ first.sha256 = second.sha256 := by
  have chars := congrArg String.toList same
  rw [payload_chars, payload_chars] at chars
  have fields := List.append_cancel_left chars
  have noAt : '@' ∉ second.version.toList ++ ':' :: second.sha256.toList := by
    rw [List.mem_append, List.mem_cons]
    rintro (inVersion | isColon | inHash)
    · exact (second.version_plain inVersion).1 rfl
    · exact absurd isColon (by decide)
    · exact (second.sha256_plain inHash).1 rfl
  obtain ⟨names, _, rest⟩ := (List.append_cons_inj_of_notMem second.name_plain noAt).mp fields.symm
  have noColon : ':' ∉ second.version.toList := fun inVersion => (second.version_plain inVersion).2 rfl
  have noColons : ':' ∉ second.sha256.toList := fun inHash => (second.sha256_plain inHash).2 rfl
  obtain ⟨versions, _, hashes⟩ := (List.append_cons_inj_of_notMem noColon noColons).mp rest
  exact ⟨(String.toList_inj.mp names).symm, (String.toList_inj.mp versions).symm, (String.toList_inj.mp hashes).symm⟩

/-- Both programs sign one text, and it says which release it is about. -/
theorem payload_unambiguous :
    (∀ name version sha256, signaturePayload name version sha256 = Registry.Packages.signaturePayload name version sha256) ∧
      ∀ first second : SignedRelease, first.payload = second.payload →
        first.name = second.name ∧ first.version = second.version ∧ first.sha256 = second.sha256 :=
  ⟨fun _ _ _ => rfl, fun _ _ => fields_of_payload⟩

end SignedRelease

section Verified

variable {signed : List SignedRelease} {release : SignedRelease}

def OnlySigned (verifies : String → String → Prop) (signed : List SignedRelease) : Prop :=
  ∀ payload signature, verifies payload signature → ∃ release ∈ signed, payload = release.payload

/-- The release that a file states, when the SDK verifies it, is one that was signed. -/
theorem strict_states_signed {crypto : Crypto} {sig : SignatureFile} {archive : Buffer} {done : Unit}
    (only : OnlySigned (fun payload signature => verifyPayload crypto payload signature sig.publicKey = true) signed)
    (states : sig.name = release.name ∧ sig.version = release.version ∧ sig.sha256 = release.sha256)
    (verified : verifySignatureFileStrict crypto sig archive = .ok done) :
    ∃ original ∈ signed, original.name = release.name ∧ original.version = release.version ∧
      crypto.sha256Hex archive = original.sha256 := by
  obtain ⟨_, hash, payload, _⟩ := verifySignatureFileStrict_ok.mp verified
  obtain ⟨original, isSigned, same⟩ := only _ _ payload
  rw [states.1, states.2.1, states.2.2] at same
  obtain ⟨name, version, sha256⟩ := @SignedRelease.fields_of_payload release original same
  exact ⟨original, isSigned, name.symm, version.symm, by rw [hash, states.2.2, sha256]⟩

/-- The registry's verification, the same way. -/
theorem verified_states_signed {host : PackageHost} {sig : Registry.SignatureFile} {archive : Bytes} {done : Unit}
    (only : OnlySigned (fun payload signature => host.verifyEd25519 sig.publicKey signature payload = .valid) signed)
    (states : sig.name = release.name ∧ sig.version = release.version ∧ sig.sha256 = release.sha256)
    (verified : Registry.Packages.verifySignature host sig archive = .ok done) :
    ∃ original ∈ signed, original.name = release.name ∧ original.version = release.version ∧
      host.sha256Hex archive = original.sha256 := by
  obtain ⟨_, hash, _, payload⟩ := Registry.Packages.verifySignature_ok.mp verified
  obtain ⟨original, isSigned, same⟩ := only _ _ payload
  rw [states.1, states.2.1, states.2.2] at same
  obtain ⟨name, version, sha256⟩ := @SignedRelease.fields_of_payload release original same
  exact ⟨original, isSigned, name.symm, version.symm, by rw [hash, states.2.2, sha256]⟩

end Verified

end Sdk
