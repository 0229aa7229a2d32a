import OpenAgentHub.Registry.Packages.VersionOrder
import OpenAgentHub.Runtime.Container
import Mathlib.Logic.Function.Basic

namespace Runtime

open Registry.Semver (accepted cut Plain)

section Names

/-- `[a-z0-9](?:[…]*[a-z0-9])?`, with the characters that are allowed in between. -/
def isNamePart (inner : Char → Bool) (chars : List Char) : Bool :=
  chars ≠ [] && chars.all (fun char => Text.isLowerOrDigit char || inner char) &&
    chars.head?.any Text.isLowerOrDigit && chars.getLast?.any Text.isLowerOrDigit

/-- The `name` pattern of the manifest schema, and its `maxLength`. -/
def acceptedName (name : String) : Bool :=
  let (namespaceName, rest) := cut '/' name.toList
  name.length ≤ 100 && isNamePart (· == '-') namespaceName &&
    rest.any (isNamePart fun char => char == '-' || char == '_')

structure Package where
  name : String
  version : String
  named : acceptedName name = true
  versioned : accepted version = true

def Package.slug (package : Package) : String := slugOf package.name package.version

def dashedName (name : String) : List Char := name.toList.map fun char => if char = '/' then '-' else char

def foldedVersion (version : String) : List Char :=
  version.toList.map fun char => if char = '+' then '-' else char.toLower

/-- The names differ in where the slash is at most, and the versions in case and in plus signs for hyphens. -/
def Alike (p q : Package) : Prop :=
  dashedName p.name = dashedName q.name ∧ foldedVersion p.version = foldedVersion q.version

instance (p q : Package) : Decidable (Alike p q) := inferInstanceAs (Decidable (_ ∧ _))

end Names

section Characters

theorem isLowerOrDigit_ascii {char : Char} (known : Text.isLowerOrDigit char = true) : char.toNat < 128 := by
  simp only [Text.isLowerOrDigit, Bool.or_eq_true, Bool.and_eq_true, decide_eq_true_eq] at known
  rcases known with ⟨_, high⟩ | ⟨_, high⟩
  · exact Nat.lt_of_le_of_lt (UInt32.le_iff_toNat_le.mp high) (by decide)
  · exact Nat.lt_of_le_of_lt (UInt32.le_iff_toNat_le.mp high) (by decide)

theorem plain_ascii {char : Char} (known : Plain char) : char.toNat < 128 := by
  rcases known with word | rfl
  · rcases Registry.Semver.isWord_range word with rfl | range
    · decide
    · omega
  · decide

def NameChar (char : Char) : Prop :=
  char = '/' ∨ char = '-' ∨ char = '_' ∨ Text.isLowerOrDigit char = true

instance (char : Char) : Decidable (NameChar char) := inferInstanceAs (Decidable (_ ∨ _))

def VersionChar (char : Char) : Prop := char = '.' ∨ Plain char

instance (char : Char) : Decidable (VersionChar char) := by
  unfold VersionChar Plain
  infer_instance

theorem slug_nameChar {char : Char} (known : NameChar char) :
    slugChar char = (if char = '/' then '-' else char) ∧ slugChar char ≠ '@' := by
  have small : char.toNat < 128 := by
    rcases known with rfl | rfl | rfl | plain
    · decide
    · decide
    · decide
    · exact isLowerOrDigit_ascii plain
  have checked : ∀ code < 128, NameChar (Char.ofNat code) →
      slugChar (Char.ofNat code) = (if Char.ofNat code = '/' then '-' else Char.ofNat code) ∧
        slugChar (Char.ofNat code) ≠ '@' := by decide +kernel
  have slugged := checked char.toNat small
  rw [Char.ofNat_toNat] at slugged
  exact slugged known

theorem slug_versionChar {char : Char} (known : VersionChar char) :
    slugChar char = (if char = '+' then '-' else char.toLower) ∧ slugChar char ≠ '@' := by
  have small : char.toNat < 128 := by
    rcases known with rfl | plain
    · decide
    · exact plain_ascii plain
  have checked : ∀ code < 128, VersionChar (Char.ofNat code) →
      slugChar (Char.ofNat code) = (if Char.ofNat code = '+' then '-' else (Char.ofNat code).toLower) ∧
        slugChar (Char.ofNat code) ≠ '@' := by decide +kernel
  have slugged := checked char.toNat small
  rw [Char.ofNat_toNat] at slugged
  exact slugged known

theorem namePart_char {inner : Char → Bool} {chars : List Char} (known : isNamePart inner chars = true) {char : Char}
    (listed : char ∈ chars) : Text.isLowerOrDigit char = true ∨ inner char = true := by
  simp only [isNamePart, Bool.and_eq_true, List.all_eq_true, Bool.or_eq_true] at known
  exact known.1.1.2 char listed

theorem accepted_nameChar {name : String} (known : acceptedName name = true) : ∀ char ∈ name.toList, NameChar char := by
  simp only [acceptedName, Bool.and_eq_true, Option.any_eq_true] at known
  obtain ⟨⟨_, front⟩, rest, found, back⟩ := known
  intro char listed
  rcases Registry.Semver.mem_cut '/' listed with before | slash | ⟨after, same, behind⟩
  · rcases namePart_char front before with plain | hyphen
    · exact .inr (.inr (.inr plain))
    · exact .inr (.inl (beq_iff_eq.mp hyphen))
  · exact .inl slash
  · rw [found] at same
    cases same
    rcases namePart_char back behind with plain | special
    · exact .inr (.inr (.inr plain))
    · rcases Bool.or_eq_true_iff.mp special with hyphen | underscore
      · exact .inr (.inl (beq_iff_eq.mp hyphen))
      · exact .inr (.inr (.inl (beq_iff_eq.mp underscore)))

end Characters

section Slugs

variable (p q : Package)

theorem Package.slug_chars : p.slug.toList = dashedName p.name ++ '@' :: foldedVersion p.version := by
  have name : p.name.toList.map slugChar = dashedName p.name :=
    List.map_congr_left fun char listed => (slug_nameChar (accepted_nameChar p.named char listed)).1
  have version : p.version.toList.map slugChar = foldedVersion p.version :=
    List.map_congr_left fun char listed =>
      (slug_versionChar (Registry.Semver.accepted_plain p.versioned char listed)).1
  rw [Package.slug, slugOf, String.toList_ofList, String.toList_append, String.toList_append, List.map_append,
    List.map_append, name, version, List.append_assoc]
  rfl

theorem dashedName_plain : '@' ∉ dashedName p.name := by
  intro listed
  obtain ⟨char, known, same⟩ := List.mem_map.mp listed
  obtain ⟨equal, plain⟩ := slug_nameChar (accepted_nameChar p.named char known)
  exact plain (equal.trans same)

theorem foldedVersion_plain : '@' ∉ foldedVersion p.version := by
  intro listed
  obtain ⟨char, known, same⟩ := List.mem_map.mp listed
  obtain ⟨equal, plain⟩ := slug_versionChar (Registry.Semver.accepted_plain p.versioned char known)
  exact plain (equal.trans same)

theorem slug_eq_iff : p.slug = q.slug ↔ Alike p q := by
  rw [← String.toList_inj, p.slug_chars, q.slug_chars,
    List.append_cons_inj_of_notMem (dashedName_plain p) (foldedVersion_plain p)]
  exact and_congr_right fun _ => ⟨And.right, fun same => ⟨rfl, same⟩⟩

end Slugs

section Volumes

variable (host : ContainerHost)

def volumeOf (package : Package) : String := depsVolumeName host package.name package.version

def digestPrefix (slug : String) : List Char := (host.sha256 slug).toList.take 12

def CollisionFree (packages : List Package) : Prop :=
  ∀ p ∈ packages, ∀ q ∈ packages, digestPrefix host p.slug = digestPrefix host q.slug → p.slug = q.slug

variable {host} {packages : List Package}

theorem volumeOf_eq_iff (free : CollisionFree host packages) {p q : Package} (left : p ∈ packages) (right : q ∈ packages) :
    volumeOf host p = volumeOf host q ↔ Alike p q := by
  rw [← slug_eq_iff]
  constructor
  · intro same
    have digests := String.toList_inj.mpr same
    unfold volumeOf depsVolumeName at digests
    simp only [String.toList_append, String.toList_ofList] at digests
    exact free p left q right (List.append_cancel_left digests)
  · intro same
    unfold volumeOf depsVolumeName
    have slugs : slugOf p.name p.version = slugOf q.name q.version := same
    rw [slugs]

end Volumes

section Runs

/-- What happens to the volumes: a sandbox is prepared, runs its command or is cleaned up. -/
inductive VolumeEvent where
  | prepare (spec : SandboxSpec)
  | run (spec : SandboxSpec)
  | cleanup (spec : SandboxSpec)

def VolumeEvent.spec : VolumeEvent → SandboxSpec
  | prepare spec => spec
  | run spec => spec
  | cleanup spec => spec

/-- Of each volume, whose dependencies have been installed into it: name and version. -/
abbrev Volumes := String → List (String × String)

def VolumeEvent.apply (host : ContainerHost) (volumes : Volumes) : VolumeEvent → Volumes
  | prepare spec =>
    match installArgs host spec with
    | .ok (some _) =>
      let volume := depsVolumeName host spec.name spec.version
      Function.update volumes volume ((spec.name, spec.version) :: volumes volume)
    | _ => volumes
  | run _ => volumes
  | cleanup spec => Function.update volumes (depsVolumeName host spec.name spec.version) []

def SandboxSpec.Of (spec : SandboxSpec) (packages : List Package) : Prop :=
  ∃ package ∈ packages, spec.name = package.name ∧ spec.version = package.version

/-- Whatever happened before, a run mounts dependencies of its own package only. -/
def NeverShared (host : ContainerHost) (packages : List Package) : Prop :=
  ∀ (before : List VolumeEvent) (spec : SandboxSpec), (∀ event ∈ before, event.spec.Of packages) → spec.Of packages →
    ∀ owner ∈ before.foldl (VolumeEvent.apply host) (fun _ => []) (depsVolumeName host spec.name spec.version),
      owner = (spec.name, spec.version)

variable {host : ContainerHost} {packages : List Package}

def Owned (host : ContainerHost) (packages : List Package) (volumes : Volumes) : Prop :=
  ∀ volume, ∀ owner ∈ volumes volume, ∃ package ∈ packages, owner = (package.name, package.version) ∧
    volumeOf host package = volume

theorem Owned.apply {volumes : Volumes} (owned : Owned host packages volumes) {event : VolumeEvent}
    (known : event.spec.Of packages) : Owned host packages (event.apply host volumes) := by
  cases event with
  | run spec => exact owned
  | cleanup spec =>
    intro volume owner listed
    simp only [VolumeEvent.apply, Function.update_apply] at listed
    split at listed
    · cases listed
    · exact owned volume owner listed
  | prepare spec =>
    dsimp only [VolumeEvent.apply]
    split
    · intro volume owner listed
      rw [Function.update_apply] at listed
      split at listed
      · rename_i same
        rcases List.mem_cons.mp listed with rfl | earlier
        · obtain ⟨package, present, name, version⟩ := known
          have ofName : spec.name = package.name := name
          have ofVersion : spec.version = package.version := version
          refine ⟨package, present, by rw [ofName, ofVersion], ?_⟩
          rw [same, volumeOf, ofName, ofVersion]
        · rw [same]
          exact owned _ owner earlier
      · exact owned volume owner listed
    · exact owned

theorem owned_run (before : List VolumeEvent) (known : ∀ event ∈ before, event.spec.Of packages) :
    Owned host packages (before.foldl (VolumeEvent.apply host) fun _ => []) := by
  apply List.foldlRecOn before (VolumeEvent.apply host)
  · intro volume owner listed
    cases listed
  · intro volumes owned event listed
    exact owned.apply (known event listed)

theorem never_shared (free : CollisionFree host packages)
    (apart : ∀ p ∈ packages, ∀ q ∈ packages, p ≠ q → ¬ Alike p q) : NeverShared host packages := by
  intro before spec known own owner listed
  obtain ⟨package, present, name, version⟩ := own
  rw [name, version] at listed ⊢
  obtain ⟨other, among, rfl, same⟩ := owned_run before known _ owner listed
  have alike : Alike other package := (volumeOf_eq_iff free among present).mp same
  by_cases equal : other = package
  · rw [equal]
  · exact absurd alike (apart other among package present equal)

end Runs

/-- Where the digests are free of collisions, two packages have different volumes exactly when they are not
    alike, and where no two different packages are alike, none runs with dependencies of another. -/
theorem volumes_apart_iff (host : ContainerHost) (packages : List Package) (free : CollisionFree host packages) :
    (∀ p ∈ packages, ∀ q ∈ packages, p ≠ q → (volumeOf host p ≠ volumeOf host q ↔ ¬ Alike p q)) ∧
    ((∀ p ∈ packages, ∀ q ∈ packages, p ≠ q → ¬ Alike p q) → NeverShared host packages) := by
  refine ⟨fun p left q right _ => not_congr (volumeOf_eq_iff free left right), never_shared free⟩

def echoPackage : Package := ⟨"acme/echo", "1.0.0", by decide +kernel, by decide +kernel⟩

def mailPackage : Package := ⟨"acme/mail", "2.0.0", by decide +kernel, by decide +kernel⟩

def webToolsPackage : Package := ⟨"acme/web-tools", "1.0.0", by decide +kernel, by decide +kernel⟩

def toolsPackage : Package := ⟨"acme-web/tools", "1.0.0", by decide +kernel, by decide +kernel⟩

def upperPackage : Package := ⟨"acme/echo", "1.0.0-RC", by decide +kernel, by decide +kernel⟩

def lowerPackage : Package := ⟨"acme/echo", "1.0.0-rc", by decide +kernel, by decide +kernel⟩

def shelf : List Package :=
  [echoPackage, mailPackage, webToolsPackage, toolsPackage, upperPackage, lowerPackage]

/-- The digests of the slugs on the shelf. -/
def digestHost : ContainerHost where
  sha256 := fun slug =>
    if slug = "acme-echo@1.0.0" then "fe918bdf5fb8cad4879b416d32072a6d8a13bb2e63025c2cbcf920f00ce6ed47"
    else if slug = "acme-mail@2.0.0" then "d6268ce88e40d83ae264bd920f9d606385523965bf98d932cfe12b116a440fc8"
    else if slug = "acme-web-tools@1.0.0" then "a3162ca3240de49a22346a1895e5492dfe87576524b99452c379699970ac2361"
    else if slug = "acme-echo@1.0.0-rc" then "1db489b691eb4adbeb429c5cc40c8240b3bb59eeffb5288a31c3df3df59f1f92"
    else "e3b0c44298fc1c149afbf4c8996fb92427ae41e4649b934ca495991b7852b855"

theorem shelf_collisionFree : CollisionFree digestHost shelf := by
  unfold CollisionFree
  decide +kernel

theorem echo_and_mail_apart : volumeOf digestHost echoPackage ≠ volumeOf digestHost mailPackage := by
  have different : echoPackage ≠ mailPackage := by
    intro same
    exact absurd (congrArg Package.name same) (by decide)
  exact ((volumes_apart_iff digestHost shelf shelf_collisionFree).1 echoPackage (by simp [shelf]) mailPackage
    (by simp [shelf]) different).mpr (by decide +kernel)

def toolsSpec (name : String) : SandboxSpec where
  agentDir := "/tmp/agent"
  name := name
  version := "1.0.0"
  language := .python
  pip := some ["requests"]
  network := true

/-- `acme/web-tools` and `acme-web/tools` share a volume, and so does `1.0.0-RC` with `1.0.0-rc`: what is
    installed for the one is there when the other runs. -/
theorem volume_shared :
    CollisionFree digestHost shelf ∧ acceptedName "acme/web-tools" = true ∧ acceptedName "acme-web/tools" = true ∧ accepted "1.0.0" = true ∧
    depsVolumeName digestHost "acme/web-tools" "1.0.0" = depsVolumeName digestHost "acme-web/tools" "1.0.0" ∧
    depsVolumeName digestHost "acme/echo" "1.0.0-RC" = depsVolumeName digestHost "acme/echo" "1.0.0-rc" ∧
    [VolumeEvent.prepare (toolsSpec "acme/web-tools")].foldl (VolumeEvent.apply digestHost) (fun _ => [])
      (depsVolumeName digestHost "acme-web/tools" "1.0.0") = [("acme/web-tools", "1.0.0")] :=
  ⟨shelf_collisionFree, by decide +kernel⟩

end Runtime
