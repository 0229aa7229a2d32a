import OpenAgentHub.Registry.Packages.Effects

/-! The errors that a publish declares, and those that escape it. -/

namespace Registry.Packages

open Relational Organizations Outcome

/-- The subclasses of `RegistryError`, and what the quotas and the billing of an organization raise. -/
def declaredClasses : List ExceptionClass :=
  [.registryError, .agentNotFound, .versionNotFound, .archiveMissing, .versionConflict, .invalidSignatureFile,
    .invalidPayload, .archiveTooLarge, .signingKeyForbidden, .namespaceForbidden, .namespaceReserved, .namespaceConflict,
    .namespaceNotFound, .maintainerNotFound, .versionBlocked, .scanInProgress, .publishQuotaExceeded, .quotaExceeded,
    .billingBlocked]

def Declared (raised : Raised) : Prop := raised.cls ∈ declaredClasses

instance (raised : Raised) : Decidable (Declared raised) := inferInstanceAs (Decidable (_ ∈ _))

/-- What an `except cls` turns into a declared error, and what is one. -/
def Caught (cls : ExceptionClass) (raised : Raised) : Prop := raised.cls = cls ∨ Declared raised

section Parsers

variable {host : PackageHost} {archive : Bytes}

theorem clean_reraise {α : Type} {cls : ExceptionClass} {other : String → Raised} {outcome : Except Raised α}
    (turned : ∀ message, Declared (other message)) :
    Clean Declared (reraise cls other outcome) ↔ Clean (Caught cls) outcome := by
  cases outcome with
  | ok value => simp [reraise]
  | error raised =>
    rw [reraise, clean_error, clean_error, Caught]
    by_cases same : raised.cls = cls
    · simp [same, turned]
    · simp [same]

/-- The signature file is for these bytes, and its key is the one that it names. -/
structure Sealed (host : PackageHost) (signature : SignatureFile) (archive : Bytes) : Prop where
  schema : signature.schemaVersion = 1
  digest : host.sha256Hex archive = signature.sha256
  fingerprint : publicKeyFingerprint host signature.publicKey = .ok signature.publicKeyId

def signatureCheck (host : PackageHost) (signature : SignatureFile) : Verification :=
  host.verifyEd25519 signature.publicKey signature.signature
    (signaturePayload signature.name signature.version signature.sha256)

def verdict : Verification → Except Raised Unit
  | .valid => return ()
  | .invalid => .error ⟨.signatureError, "ed25519 signature does not verify"⟩
  | .wrongKeyType => .error ⟨.typeError, "verify() missing 2 required positional arguments"⟩
  | .noVerify => .error ⟨.attributeError, "object has no attribute 'verify'"⟩

theorem clean_verifySignature {signature : SignatureFile} :
    Clean (Caught .signatureError) (verifySignature host signature archive) ↔
      (Sealed host signature archive → signatureCheck host signature = .valid ∨ signatureCheck host signature = .invalid) := by
  have caught (message : String) : Caught .signatureError ⟨.signatureError, message⟩ := .inl rfl
  have escapes : ¬ Caught .signatureError ⟨.typeError, "verify() missing 2 required positional arguments"⟩ ∧
      ¬ Caught .signatureError ⟨.attributeError, "object has no attribute 'verify'"⟩ := by
    unfold Caught
    decide
  have parsed : Clean (Caught .signatureError) (publicKeyFingerprint host signature.publicKey) := by
    unfold publicKeyFingerprint
    split
    · exact clean_ok
    · exact clean_error.mpr (caught _)
  have matched : Clean (Caught .signatureError) (verdict (signatureCheck host signature)) ↔
      (signatureCheck host signature = .valid ∨ signatureCheck host signature = .invalid) := by
    cases signatureCheck host signature <;> simp [verdict, caught, escapes]
  simp only [verifySignature, clean_bind, clean_ensure, caught, or_true, true_and, parsed, Outcome.ensure_eq_ok]
  constructor
  · rintro clean ⟨schema, digest, fingerprint⟩
    exact matched.mp (clean () schema () digest _ fingerprint () rfl)
  · intro fits _ schema _ digest expected fingerprint _ same
    exact matched.mpr (fits ⟨schema, digest, fingerprint.trans (congrArg Except.ok same.symm)⟩)

def ManifestMember (host : PackageHost) (archive : Bytes) (member : TarMember) : Prop :=
  ∃ members, host.openTar archive = .ok members ∧
    (members.filter fun member => member.kind == .regular && isManifestPath member.name).map TarMember.name =
      [manifestFilename] ∧
    members.reverse.find? (fun member => member.name == manifestFilename) = some member ∧
    member.kind ≠ .directory ∧ member.kind ≠ .device

def ManifestText (host : PackageHost) (archive : Bytes) (text : String) : Prop :=
  ∃ member, ManifestMember host archive member ∧ host.extractRaises archive = none ∧ member.text = some text

def ManifestValue (host : PackageHost) (archive : Bytes) (manifest : Json) : Prop :=
  ∃ text, ManifestText host archive text ∧ host.yamlRaises text = none ∧ host.parseYaml text = .ok manifest

structure ReadsCleanly (host : PackageHost) (archive : Bytes) : Prop where
  tar : ∀ raised, host.openTar archive = .error raised → Caught .valueError raised
  member : ∀ member, ManifestMember host archive member →
    ∀ raised ∈ host.extractRaises archive, Caught .valueError raised
  yaml : ∀ text, ManifestText host archive text → ∀ raised ∈ host.yamlRaises text, Caught .valueError raised

theorem clean_manifestFromArchive :
    Clean (Caught .valueError) (manifestFromArchive host archive) ↔ ReadsCleanly host archive := by
  have caught (message : String) : Caught .valueError ⟨.valueError, message⟩ := .inl rfl
  simp only [manifestFromArchive, clean_bind, clean_ensure, clean_demand, clean_refuse, caught, or_true, true_and,
    Outcome.ensure_eq_ok, Outcome.demand_eq_ok, Outcome.refuse_eq_ok]
  constructor
  · rintro ⟨opens, read⟩
    refine ⟨opens, ?_, ?_⟩
    · rintro member ⟨members, opened, one, found, notDirectory, notDevice⟩
      exact (read members opened () one member found () ⟨notDirectory, notDevice⟩).1
    · rintro text ⟨member, ⟨members, opened, one, found, notDirectory, notDevice⟩, extracted, decoded⟩
      exact ((read members opened () one member found () ⟨notDirectory, notDevice⟩).2 () extracted text decoded).1
  · rintro ⟨tar, reads, yaml⟩
    refine ⟨tar, fun members opened _ one member found _ kind => ?_⟩
    have isMember : ManifestMember host archive member := ⟨members, opened, one, found, kind.1, kind.2⟩
    refine ⟨reads member isMember, fun _ extracted text decoded => ⟨yaml text ⟨member, isMember, extracted, decoded⟩, ?_⟩⟩
    intro _ _
    split
    · exact clean_pure
    · exact clean_error.mpr (caught _)

theorem manifestFromArchive_ok {manifest : Json} :
    manifestFromArchive host archive = .ok manifest ↔ ManifestValue host archive manifest := by
  simp only [manifestFromArchive, Outcome.bind_eq_ok, Outcome.ensure_eq_ok, Outcome.demand_eq_ok, Outcome.refuse_eq_ok]
  constructor
  · rintro ⟨members, opened, _, one, member, found, _, kind, _, extracted, text, decoded, _, loaded, parsed⟩
    refine ⟨text, ⟨member, ⟨members, opened, one, found, kind.1, kind.2⟩, extracted, decoded⟩, loaded, ?_⟩
    split at parsed
    · rename_i value read
      rw [read, Outcome.pure_eq_ok.mp parsed]
    · cases parsed
  · rintro ⟨text, ⟨member, ⟨members, opened, one, found, notDirectory, notDevice⟩, extracted, decoded⟩, loaded, parsed⟩
    refine ⟨members, opened, (), one, member, found, (), ⟨notDirectory, notDevice⟩, (), extracted, text, decoded, (),
      loaded, ?_⟩
    rw [parsed]
    rfl

theorem clean_validateManifestSchema {manifest : Json} :
    Clean (Caught .valueError) (validateManifestSchema host manifest) ↔
      ∀ raised ∈ host.validatorRaises manifest, Caught .valueError raised := by
  rw [validateManifestSchema, clean_bind, clean_refuse]
  apply and_iff_left
  intro _ _
  cases host.manifestError manifest with
  | none => exact clean_ok
  | some message => exact clean_error.mpr (.inl rfl)

theorem validateManifestSchema_ok {manifest : Json} {done : Unit} :
    validateManifestSchema host manifest = .ok done ↔
      host.validatorRaises manifest = none ∧ host.manifestError manifest = none := by
  rw [validateManifestSchema, Outcome.bind_eq_ok]
  cases host.manifestError manifest with
  | none => simp
  | some message => simp

end Parsers

section Admission

variable {host : PackageHost} {now : Time} {db : Db} {user : User} {submission : Submission}

structure Presents (host : PackageHost) (submission : Submission) (signature : SignatureFile) : Prop where
  visibility : ∃ visibility, parseVisibility submission.visibility = .ok visibility
  archive : submission.archive.length ≤ host.settings.maxArchiveBytes
  file : submission.signatureRaw.length ≤ 1024 * 1024
  parsed : host.parseSignatureFile submission.signatureRaw = .ok signature

structure Signs (host : PackageHost) (now : Time) (db : Db) (user : User) (submission : Submission)
    (signature : SignatureFile) : Prop extends Presents host submission signature where
  lookup : host.lookupRaises signature.publicKeyId = none
  usable : ∃ key, SignerUsable now db user.id signature.publicKeyId key

structure Vouches (host : PackageHost) (now : Time) (db : Db) (user : User) (submission : Submission)
    (signature : SignatureFile) : Prop extends Signs host now db user submission signature where
  sealing : Sealed host signature submission.archive
  valid : signatureCheck host signature = .valid
  name : signature.name = submission.fullName
  version : signature.version = submission.version

structure AdmitsCleanly (host : PackageHost) (now : Time) (db : Db) (user : User) (submission : Submission) : Prop where
  lookup : ∀ signature, Presents host submission signature →
    ∀ raised ∈ host.lookupRaises signature.publicKeyId, Declared raised
  key : ∀ signature, Signs host now db user submission signature → Sealed host signature submission.archive →
    signatureCheck host signature = .valid ∨ signatureCheck host signature = .invalid
  manifest : ∀ signature, Vouches host now db user submission signature → ReadsCleanly host submission.archive
  validation : ∀ signature manifest, Vouches host now db user submission signature →
    ManifestValue host submission.archive manifest → ∀ raised ∈ host.validatorRaises manifest, Caught .valueError raised

theorem checkSigningKey_usable {signature : SignatureFile} :
    (∃ result, checkSigningKey now db user signature = .ok result) ↔
      ∃ key, SignerUsable now db user.id signature.publicKeyId key := by
  constructor
  · rintro ⟨⟨after, key⟩, done⟩
    exact ⟨key, (checkSigningKey_ok done).1⟩
  · rintro ⟨key, stored, named, owned, unrevoked, unexpired⟩
    have found : keyByFingerprint db signature.publicKeyId = some key := by
      refine (Table.one_eq_some fun first left second right one two => ?_).mpr ⟨stored, beq_iff_eq.mpr named⟩
      exact Table.eq_of_clash left right (beq_iff_eq.mpr ((beq_iff_eq.mp one).trans (beq_iff_eq.mp two).symm))
    simp only [checkSigningKey, Outcome.bind_eq_ok, Outcome.demand_eq_ok, Outcome.ensure_eq_ok, Outcome.pure_eq_ok]
    exact ⟨_, key, found, (), owned, (), unrevoked, (), unexpired, rfl⟩

theorem declared_registry {message : String} {cls : ExceptionClass} (known : cls ∈ declaredClasses) :
    Declared ⟨cls, message⟩ := known

theorem clean_checkSigningKey {signature : SignatureFile} : Clean Declared (checkSigningKey now db user signature) := by
  have known (message : String) : Declared ⟨.signingKeyForbidden, message⟩ := declared_registry (by decide)
  simp only [checkSigningKey, clean_bind, clean_demand, clean_ensure, known, or_true, true_and, clean_pure, implies_true]

theorem admitSubmission_clean (schema : ∀ manifest, host.manifestError manifest = none → isMapping manifest = true) :
    Clean Declared (admitSubmission host now db user submission) ↔ AdmitsCleanly host now db user submission := by
  have tooLarge (message : String) : Declared ⟨.archiveTooLarge, message⟩ := declared_registry (by decide)
  have payload (message : String) : Declared (invalidPayload message) := declared_registry (by decide)
  have visible : Clean Declared (parseVisibility submission.visibility) := by
    rw [parseVisibility, clean_demand]
    exact .inr (declared_registry (by decide))
  have file : Clean Declared (readSignatureFile host submission.signatureRaw) := by
    unfold readSignatureFile
    split
    · exact clean_ok
    · exact clean_error.mpr (declared_registry (by decide))
  have parsed (signature : SignatureFile) : readSignatureFile host submission.signatureRaw = .ok signature ↔
      host.parseSignatureFile submission.signatureRaw = .ok signature := by
    unfold readSignatureFile
    cases host.parseSignatureFile submission.signatureRaw with
    | ok value => simp
    | error message => simp
  simp only [admitSubmission, clean_bind, clean_ensure, clean_refuse, clean_reraise payload, clean_verifySignature,
    clean_manifestFromArchive, clean_validateManifestSchema, clean_checkSigningKey, tooLarge, payload, visible, file, or_true,
    true_and, Outcome.ensure_eq_ok, Outcome.refuse_eq_ok, reraise_eq_ok, parsed, verifySignature_ok, manifestFromArchive_ok,
    validateManifestSchema_ok]
  constructor
  · intro clean
    have step {signature : SignatureFile} (presents : Presents host submission signature) :=
      clean presents.visibility.choose presents.visibility.choose_spec () presents.archive () presents.file signature
        presents.parsed
    refine ⟨fun signature presents => (step presents).1, fun signature signs bound => ?_, fun signature vouches => ?_,
      fun signature manifest vouches read => ?_⟩
    · obtain ⟨result, checked⟩ := checkSigningKey_usable.mpr signs.usable
      exact ((step signs.toPresents).2 () signs.lookup result checked).1 bound
    all_goals
      obtain ⟨result, checked⟩ := checkSigningKey_usable.mpr vouches.usable
      have rest := ((step vouches.toPresents).2 () vouches.lookup result checked).2 ()
        ⟨vouches.sealing.schema, vouches.sealing.digest, vouches.sealing.fingerprint, vouches.valid⟩ () vouches.name ()
        vouches.version
    · exact rest.1
    · exact (rest.2 manifest read).1
  · rintro ⟨lookup, key, manifest, validation⟩ visibility shown _ archive _ file signature read
    have presents : Presents host submission signature := ⟨⟨visibility, shown⟩, archive, file, read⟩
    refine ⟨lookup signature presents, fun _ found result checked => ?_⟩
    have signs : Signs host now db user submission signature :=
      ⟨presents, found, checkSigningKey_usable.mp ⟨result, checked⟩⟩
    refine ⟨key signature signs, fun _ verified _ named _ versioned => ?_⟩
    obtain ⟨schemaVersion, digest, fingerprint, valid⟩ := verified
    have vouches : Vouches host now db user submission signature :=
      ⟨signs, ⟨schemaVersion, digest, fingerprint⟩, valid, named, versioned⟩
    refine ⟨manifest signature vouches, fun value isValue => ⟨validation signature value vouches isValue, ?_⟩⟩
    intro _ accepted
    exact ⟨.inl (schema value accepted.2), fun _ _ _ _ => clean_pure⟩

end Admission

section Placing

variable {host : PackageHost} {now : Time} {db after : Db} {user : User} {submission : Submission}
  {admission : Admission} {organizationId : Option Nat} {agent : Agent}

theorem clean_checkPublishQuota : Clean Declared (checkPublishQuota host.settings now db user) := by
  unfold checkPublishQuota
  split
  · exact clean_ok
  · exact clean_ensure.mpr (.inr (declared_registry (by decide)))

theorem clean_insertRow {α : Type} [Row α] {table : Table α} {make : Nat → α} {made : ∀ id, Row.id (make id) = id}
    (free : ∀ row ∈ table.rows, Row.clash row (make table.next) = false) :
    Clean Declared (Db.insertRow table make made) := by
  rw [Db.insertRow, clean_demand, Table.insert, dif_pos free]
  exact .inl rfl

theorem clean_createNamespace {name : String} (free : namespaceByName db name = none)
    (keyed : ∀ member ∈ db.namespaceMembers.rows, member.namespaceId < db.namespaces.next) :
    Clean Declared (createNamespace now db user name) := by
  rw [createNamespace, clean_bind]
  refine ⟨clean_insertRow fun row stored => Table.one_none.mp free row stored, ?_⟩
  rintro ⟨space, namespaces⟩ inserted
  obtain ⟨_, rfl, _⟩ := Table.insert_eq_some.mp (Db.insertRow_eq_ok.mp inserted)
  refine clean_bind.mpr ⟨clean_insertRow fun row stored => ?_, fun _ _ => clean_pure⟩
  have old : row.namespaceId ≠ db.namespaces.next := Nat.ne_of_lt (keyed row stored)
  simp [Row.clash, old]

theorem clean_resolvePublishNamespace {name : String}
    (keyed : ∀ member ∈ db.namespaceMembers.rows, member.namespaceId < db.namespaces.next) :
    Clean Declared (resolvePublishNamespace host now db user name) := by
  unfold resolvePublishNamespace
  split
  · rename_i free
    refine clean_bind.mpr ⟨clean_ensure.mpr (.inr (declared_registry (by decide))), fun _ _ => ?_⟩
    exact clean_bind.mpr ⟨clean_createNamespace free keyed, fun _ _ => clean_pure⟩
  · exact clean_bind.mpr ⟨clean_demand.mpr (.inr (declared_registry (by decide))), fun _ _ => clean_pure⟩

theorem clean_publishOrganization {visibility : Visibility} {slug : Option String} :
    Clean Declared (publishOrganization db user visibility slug) := by
  have known (message : String) : Declared ⟨.registryError, message⟩ := declared_registry (by decide)
  unfold publishOrganization administeredOrganization
  split
  · simp only [clean_bind, clean_demand, known, or_true, clean_pure, implies_true, and_self]
  · exact clean_pure

def Placeable (host : PackageHost) (now : Time) (db : Db) (user : User) (submission : Submission)
    (visibility : Visibility) : Prop :=
  checkPublishQuota host.settings now db user = .ok () ∧
    ∃ placed, resolvePublishNamespace host now db user submission.namespaceName = .ok placed ∧
      ∃ organizationId, publishOrganization placed user visibility submission.organizationSlug = .ok organizationId

theorem clean_place (keyed : ∀ member ∈ db.namespaceMembers.rows, member.namespaceId < db.namespaces.next) :
    Clean Declared (place host now db user submission admission) ↔
      (Placeable host now db user submission admission.visibility →
        ∀ raised ∈ host.rowsRaise admission.manifest, Declared raised) := by
  simp only [place, clean_bind, clean_checkPublishQuota, clean_resolvePublishNamespace keyed, clean_publishOrganization,
    clean_refuse, clean_pure, implies_true, and_true, true_and]
  constructor
  · rintro clean ⟨quota, placed, resolved, organizationId, chosen⟩
    exact clean () quota placed resolved organizationId chosen
  · intro clean _ quota placed resolved organizationId chosen
    exact clean ⟨quota, placed, resolved, organizationId, chosen⟩

theorem clean_locate : Clean Declared (locate db user submission admission organizationId) := by
  unfold locate
  split
  · rename_i free
    exact clean_bind.mpr ⟨clean_insertRow fun row stored => Table.one_none.mp free row stored, fun _ _ => clean_pure⟩
  · exact clean_ok

theorem clean_enforcePublishQuota {settings : Settings} {organization newVersions newBytes : Nat} :
    Clean Declared (Quotas.enforcePublishQuota settings now db organization newVersions newBytes) := by
  have exceeded (dimension : Dimension) (used limit : Int) : Declared (Quotas.quotaExceeded dimension used limit) :=
    declared_registry (by decide)
  have blocked (status : SubscriptionStatus) : Declared (Billing.billingBlocked status) := declared_registry (by decide)
  have subscribed : Clean Declared (Billing.subscriptionFor settings now db organization) := by
    unfold Billing.subscriptionFor Billing.ensureSubscription
    split
    · exact clean_ok
    · rename_i free
      exact clean_bind.mpr ⟨clean_insertRow fun row stored => Table.one_none.mp free row stored, fun _ _ => clean_pure⟩
  simp only [Quotas.enforcePublishQuota, Billing.enforceWriteAllowed, clean_bind, clean_ensure, exceeded, blocked,
    subscribed, or_true, clean_pure, implies_true, and_self]

theorem clean_clear : Clean Declared (clear host now db agent submission) := by
  rw [clear, clean_bind]
  refine ⟨clean_ensure.mpr (.inr (declared_registry (by decide))), fun _ _ => ?_⟩
  unfold enforceQuota
  split
  · exact clean_ok
  · rename_i organization _
    have enforced := @clean_enforcePublishQuota now db host.settings organization 1 submission.archive.length
    exact (clean_reraise fun _ => declared_registry (by decide)).mpr fun raised failed => .inr (enforced raised failed)

theorem clean_reserve (free : versionByName db agent submission.version = none) :
    Clean Declared (reserve host now db user submission admission agent) :=
  clean_bind.mpr ⟨clean_insertRow fun row stored => Table.one_none.mp free row stored, fun _ _ => clean_pure⟩

theorem clean_storeArchive {files : Archives} :
    Clean Declared (storeArchive files submission) ↔
      ∀ path, archivePath submission.namespaceName submission.name submission.version = .ok path →
        ∀ segment ∈ path, segment.utf8ByteSize ≤ nameMax := by
  have caught (field value : String) : Caught .archiveStoreError (invalidSegment field value) := .inl rfl
  have tooLong : ¬ Caught .archiveStoreError ⟨.osError, "File name too long"⟩ := by
    unfold Caught
    decide
  have named : Clean (Caught .archiveStoreError)
      (archivePath submission.namespaceName submission.name submission.version) := by
    simp only [archivePath, clean_bind, clean_ensure, caught, or_true, clean_pure, implies_true, and_self]
  rw [storeArchive, clean_reraise fun _ => declared_registry (by decide)]
  simp only [Archives.put, clean_bind, clean_ensure, named, tooLong, or_false, clean_pure, implies_true, and_true, true_and]

theorem clean_finish {version : AgentVersion} {members : List TarMember} (opens : host.openTar submission.archive = .ok members) :
    Clean Declared (finish host now db user submission admission agent version) := by
  rw [finish, clean_bind]
  refine ⟨?_, fun _ _ => clean_pure⟩
  unfold checkArchiveSafety
  split
  · exact clean_ok
  · rw [opens]
    exact clean_ok

end Placing

section Publish

variable {host : PackageHost} {now : Time} {store : Store} {user : User} {submission : Submission}

def reservation (host : PackageHost) (now : Time) (store : Store) (user : User) (submission : Submission) :
    Except Raised (Db × Admission × Agent × AgentVersion) := do
  let (db, admission) ← admitSubmission host now store.db user submission
  let (db, organizationId) ← place host now db user submission admission
  let (db, agent) ← locate db user submission admission organizationId
  let db ← clear host now db agent submission
  let (db, version) ← reserve host now db user submission admission agent
  return (db, admission, agent, version)

theorem publishVersion_eq : publishVersion host now store user submission =
    match reservation host now store user submission with
    | .error raised => (store.files, .error raised)
    | .ok (db, admission, agent, version) =>
      match storeArchive store.files submission with
      | .error raised => (store.files, .error raised)
      | .ok files => (files, finish host now db user submission admission agent version) := rfl

structure RejectsCleanly (host : PackageHost) (now : Time) (store : Store) (user : User) (submission : Submission) :
    Prop extends AdmitsCleanly host now store.db user submission where
  rows : ∀ admitted admission, admitSubmission host now store.db user submission = .ok (admitted, admission) →
    Placeable host now admitted user submission admission.visibility →
    ∀ raised ∈ host.rowsRaise admission.manifest, Declared raised
  names : (reservation host now store user submission).isOk →
    ∀ path, archivePath submission.namespaceName submission.name submission.version = .ok path →
      ∀ segment ∈ path, segment.utf8ByteSize ≤ nameMax

theorem admitSubmission_opens {db after : Db} {admission : Admission}
    (done : admitSubmission host now db user submission = .ok (after, admission)) :
    ∃ members, host.openTar submission.archive = .ok members := by
  unfold admitSubmission at done
  simp only [Outcome.bind_eq_ok, reraise_eq_ok, Prod.exists] at done
  obtain ⟨_, _, _, _, _, _, _, _, _, _, _, _, _, _, _, _, _, _, _, manifest, read, _⟩ := done
  obtain ⟨_, ⟨_, ⟨members, opened, _⟩, _⟩, _⟩ := manifestFromArchive_ok.mp read
  exact ⟨members, opened⟩

theorem clean_reservation (schema : ∀ manifest, host.manifestError manifest = none → isMapping manifest = true)
    (keyed : ∀ member ∈ store.db.namespaceMembers.rows, member.namespaceId < store.db.namespaces.next) :
    Clean Declared (reservation host now store user submission) ↔
      AdmitsCleanly host now store.db user submission ∧
        ∀ admitted admission, admitSubmission host now store.db user submission = .ok (admitted, admission) →
          Placeable host now admitted user submission admission.visibility →
          ∀ raised ∈ host.rowsRaise admission.manifest, Declared raised := by
  rw [reservation, clean_bind, admitSubmission_clean schema]
  apply and_congr_right
  intro _
  have later (admitted : Db) (admission : Admission)
      (admits : admitSubmission host now store.db user submission = .ok (admitted, admission)) :
      Clean Declared (place host now admitted user submission admission) ↔
        (Placeable host now admitted user submission admission.visibility →
          ∀ raised ∈ host.rowsRaise admission.manifest, Declared raised) := by
    apply clean_place
    obtain ⟨_, _, signingKeys, rfl⟩ := admitSubmission_ok admits
    exact keyed
  constructor
  · intro clean admitted admission admits
    exact (later admitted admission admits).mp (clean_bind.mp (clean (admitted, admission) admits)).1
  · rintro rows ⟨admitted, admission⟩ admits
    refine clean_bind.mpr ⟨(later admitted admission admits).mpr (rows admitted admission admits), ?_⟩
    rintro ⟨placed, organizationId⟩ _
    refine clean_bind.mpr ⟨clean_locate, ?_⟩
    rintro ⟨located, agent⟩ _
    refine clean_bind.mpr ⟨clean_clear, fun cleared clears => ?_⟩
    obtain ⟨free, same⟩ := clear_ok clears
    have unpublished : versionByName cleared agent submission.version = none := by
      rw [← free, versionByName, versionByName, (Prod.mk.inj same).2]
    exact clean_bind.mpr ⟨clean_reserve unpublished, fun _ _ => clean_pure⟩

theorem reservation_opens {result : Db × Admission × Agent × AgentVersion}
    (done : reservation host now store user submission = .ok result) :
    ∃ members, host.openTar submission.archive = .ok members := by
  obtain ⟨⟨admitted, admission⟩, admits, _⟩ := Outcome.bind_eq_ok.mp done
  exact admitSubmission_opens admits

theorem publishVersion_rejects_cleanly_iff
    (schema : ∀ manifest, host.manifestError manifest = none → isMapping manifest = true)
    (keyed : ∀ member ∈ store.db.namespaceMembers.rows, member.namespaceId < store.db.namespaces.next) :
    Clean Declared (publishVersion host now store user submission).2 ↔ RejectsCleanly host now store user submission := by
  have reserving := @clean_reservation host now store user submission schema keyed
  rw [publishVersion_eq]
  cases reserved : reservation host now store user submission with
  | error raised =>
    rw [reserved, clean_error] at reserving
    refine clean_error.trans (reserving.trans ⟨fun ⟨admits, rows⟩ => ⟨admits, rows, fun isOk => ?_⟩,
      fun rejects => ⟨rejects.toAdmitsCleanly, rejects.rows⟩⟩)
    rw [reserved] at isOk
    cases isOk
  | ok result =>
    obtain ⟨db, admission, agent, version⟩ := result
    obtain ⟨members, opens⟩ := reservation_opens reserved
    obtain ⟨admits, rows⟩ := reserving.mp (reserved ▸ clean_ok)
    have stores := @clean_storeArchive submission store.files
    have equal : Clean Declared (match storeArchive store.files submission with
        | .error raised => (store.files, .error raised)
        | .ok files => (files, finish host now db user submission admission agent version) :
          Archives × Except Raised (Db × PublishResult)).2 ↔ Clean Declared (storeArchive store.files submission) := by
      cases storeArchive store.files submission with
      | error raised => exact clean_error.trans clean_error.symm
      | ok files => exact iff_of_true (clean_finish opens) clean_ok
    refine equal.trans (stores.trans ⟨fun names => ⟨admits, rows, fun _ => names⟩, fun rejects => rejects.names ?_⟩)
    rw [reserved]
    rfl

end Publish

section Stray

def strayKey : PublicKey where
  pem := "-----BEGIN PUBLIC KEY-----\nMCowBQYDK2VwAyEAKgnYQ9pEDsa8Ns+Fa3c42ydkgSZyaLSz+plM+bPVnCk=\n-----END PUBLIC KEY-----\n"
  der := bytesOf [
    (44, 0x302a300506032b65700321002a09d843da440ec6bc36cf856b7738db276481267268b4b3fa994cf9b3d59c29)]
  digest := "c64fd13912cad77c02aed668bbf4958643213af4d2f83fe002aee547aac313e4"
  fingerprint := "c64fd13912cad77c"

def emptyBuild : Build where
  version := "1.0.0"
  key := strayKey
  archive := []
  signatureRaw := bytesOf [
    (48, 0x7b22736368656d6156657273696f6e223a312c226e616d65223a2261636d652f746f6f6c222c2276657273696f6e223a),
    (48, 0x22312e302e30222c22616c676f726974686d223a2265643235353139222c227075626c69634b6579223a222d2d2d2d2d),
    (48, 0x424547494e205055424c4943204b45592d2d2d2d2d5c6e4d436f77425159444b325677417945414b676e595139704544),
    (48, 0x7361384e732b46613363343279646b67535a79614c537a2b706c4d2b6250566e436b3d5c6e2d2d2d2d2d454e44205055),
    (48, 0x424c4943204b45592d2d2d2d2d5c6e222c227075626c69634b65794964223a2263363466643133393132636164373763),
    (48, 0x222c22736861323536223a22653362306334343239386663316331343961666266346338393936666239323432376165),
    (48, 0x34316534363439623933346361343935393931623738353262383535222c227369676e6174757265223a2265364c714e),
    (48, 0x52625a6d7974344f6b73696d657653674a59563342764130717869544e556e6c2f5a596a32387272506a363879775149),
    (37, 0x426e2f4a44592f482b3764535558573830315a5231734d7235527564482b6d42673d3d227d)]
  digest := "e3b0c44298fc1c149afbf4c8996fb92427ae41e4649b934ca495991b7852b855"
  signature := "e6LqNRbZmyt4OksimevSgJYV3BvA0qxiTNUnl/ZYj28rrPj68ywQIBn/JDY/H+7dSUXW801ZR1sMr5RudH+mBg=="

def strayHost : PackageHost :=
  { plainHost with
    sha256Hex := fun data => if data = [] then emptyBuild.digest else if data = strayKey.der then strayKey.digest else ""
    derOfPem := fun pem => if pem = strayKey.pem then .ok strayKey.der else .error "Unable to load PEM file"
    verifyEd25519 := fun pem signature payload =>
      if pem = strayKey.pem ∧ signature = emptyBuild.signature ∧
          payload = signaturePayload "acme/tool" "1.0.0" emptyBuild.digest
        then .valid else .invalid
    parseSignatureFile := fun raw =>
      if raw = emptyBuild.signatureRaw then .ok emptyBuild.signatureFile else .error "Invalid JSON"
    openTar := fun _ => .error ⟨.tarError, "empty file"⟩
    manifestError := fun manifest => if isMapping manifest then none else some "$: not of type 'object'" }

def keyedStore : Store :=
  serve strayHost opened (byFounder 1 (.manage (.registerSigningKey strayKey.pem none none)))

theorem strayHost_schema (manifest : Json) (valid : strayHost.manifestError manifest = none) :
    isMapping manifest = true := by
  dsimp only [strayHost] at valid
  split at valid
  · assumption
  · cases valid

theorem publishVersion_rejects_cleanly_empty :
    (∀ manifest, strayHost.manifestError manifest = none → isMapping manifest = true) ∧
      (∀ member ∈ keyedStore.db.namespaceMembers.rows, member.namespaceId < keyedStore.db.namespaces.next) ∧
      (Clean Declared (publishVersion strayHost 2 keyedStore Organizations.founder (emptyBuild.submission "public" none)).2 ↔
        RejectsCleanly strayHost 2 keyedStore Organizations.founder (emptyBuild.submission "public" none)) := by
  have keyed : ∀ member ∈ keyedStore.db.namespaceMembers.rows, member.namespaceId < keyedStore.db.namespaces.next := by
    decide +kernel
  exact ⟨strayHost_schema, keyed, publishVersion_rejects_cleanly_iff strayHost_schema keyed⟩

/-- What `tarfile` raises for the empty file is no error of the registry. -/
theorem tar_error_escapes :
    ¬ Clean Declared (publishVersion strayHost 2 keyedStore Organizations.founder (emptyBuild.submission "public" none)).2 := by
  intro clean
  have escaped : (match (publishVersion strayHost 2 keyedStore Organizations.founder
      (emptyBuild.submission "public" none)).2 with
      | .error raised => decide (Declared raised)
      | .ok _ => true) = false := by decide +kernel
  split at escaped
  · rename_i raised failed
    exact absurd (clean raised failed) (of_decide_eq_false escaped)
  · cases escaped

end Stray

end Registry.Packages
