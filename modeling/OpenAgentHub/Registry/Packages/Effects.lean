import OpenAgentHub.Registry.Packages.Requests

namespace Registry.Packages

open Relational Organizations

def packages (db : Db) : Table Agent × Table AgentVersion := (db.agents, db.agentVersions)

theorem SamePackages.packages {before after : Db} (same : SamePackages before after) :
    packages after = packages before := by
  unfold Packages.packages
  rw [same.agents, same.agentVersions]

theorem packages_billingOnly {before after : Db} (frame : Billing.BillingOnly before after) :
    packages after = packages before := by
  obtain ⟨_, _, rfl⟩ := frame
  rfl

structure Release where
  id : Nat
  agentId : Nat
  version : String
  sortKey : String
  manifest : Json
  sha256 : String
  archiveName : String
  archiveBytes : Nat
  signature : SignatureFile
  publishedById : Nat
  publishedAt : Time

def release (row : AgentVersion) : Release where
  id := row.id
  agentId := row.agentId
  version := row.version
  sortKey := row.sortKey
  manifest := row.manifest
  sha256 := row.sha256
  archiveName := row.archiveName
  archiveBytes := row.archiveBytes
  signature := row.signature
  publishedById := row.publishedById
  publishedAt := row.publishedAt

structure Maintains (before after : Db) : Prop where
  agents : after.agents = before.agents
  releases : Table.Upkeep release before.agentVersions after.agentVersions

theorem Maintains.of_packages {before after : Db} (same : packages after = packages before) :
    Maintains before after :=
  ⟨congrArg Prod.fst same, .of_eq (congrArg Prod.snd same)⟩

theorem Maintains.trans {first second third : Db} (left : Maintains first second) (right : Maintains second third) :
    Maintains first third :=
  ⟨right.agents.trans left.agents, left.releases.trans right.releases⟩

theorem setVersion_maintains {db : Db} {id : Nat} {update : AgentVersion → AgentVersion}
    {preserves : Table.Preserves update} (keeps : ∀ row, release (update row) = release row) :
    Maintains db (setVersion db id update preserves) :=
  ⟨rfl, .modify preserves keeps⟩

/-- Nothing is written, or the signing keys and an event about them. -/
def KeysOnly (db after : Db) : Prop :=
  after = db ∨ ∃ signingKeys event, after = Db.recordAudit { db with signingKeys } event

theorem KeysOnly.frame {db after : Db} (only : KeysOnly db after) :
    ∃ signingKeys auditEvents, after = { db with signingKeys, auditEvents } := by
  obtain rfl | ⟨signingKeys, event, rfl⟩ := only
  · exact ⟨_, _, rfl⟩
  · exact ⟨signingKeys, _, rfl⟩

section Requests

variable {host : PackageHost} {now : Time} {db after : Db} {user : User} {namespaceName name version : String}

theorem enforceMoveQuota_billingOnly {agent : Agent} {organizationId : Option Nat}
    (done : enforceMoveQuota host now db agent organizationId = .ok after) : Billing.BillingOnly db after := by
  unfold enforceMoveQuota at done
  split at done
  · cases done
    exact .refl _
  · split at done
    · cases done
      exact .refl _
    · exact Quotas.enforcePublishQuota_billingOnly (reraise_eq_ok.mp done)

/-- A package that keeps its visibility is bound anew without the check of the quota, a record and the watermark. -/
theorem setPackageVisibility_cases {subject : Subject} {visibility : String} {slug : Option String} {result : Visibility}
    (done : setPackageVisibility host now db subject namespaceName name visibility slug = .ok (after, result)) :
    ∃ agent organizationId, agentByName db namespaceName name = some agent ∧ parseVisibility visibility = .ok result ∧
      canManageAccess db agent (some subject) = true ∧
      targetOrganization db subject.user agent result slug = .ok organizationId ∧
      (agent.visibility = result ∧
          after = setAgent db agent.id (fun row => { row with visibility := result, organizationId }) ∨
        agent.visibility ≠ result ∧ ∃ charged event,
          Billing.BillingOnly (setAgent db agent.id fun row => { row with visibility := result, organizationId }) charged ∧
            after = bumpCatalog (charged.recordAudit event) now) := by
  unfold setPackageVisibility at done
  simp only [Outcome.bind_eq_ok, Outcome.demand_eq_ok, Outcome.ensure_eq_ok] at done
  obtain ⟨chosen, parsed, agent, found, _, allowed, organizationId, target, rest⟩ := done
  split at rest
  · next same =>
    cases rest
    exact ⟨agent, organizationId, found, parsed, allowed, target, .inl ⟨same, rfl⟩⟩
  · next changed =>
    obtain ⟨charged, enforced, rest⟩ := Outcome.bind_eq_ok.mp rest
    cases rest
    exact ⟨agent, organizationId, found, parsed, allowed, target,
      .inr ⟨changed, charged, _, enforceMoveQuota_billingOnly enforced, rfl⟩⟩

theorem setPackageVisibility_ok {subject : Subject} {visibility : String} {slug : Option String} {result : Visibility}
    (done : setPackageVisibility host now db subject namespaceName name visibility slug = .ok (after, result)) :
    ∃ agent organizationId, agentByName db namespaceName name = some agent ∧
      canManageAccess db agent (some subject) = true ∧
      targetOrganization db subject.user agent result slug = .ok organizationId ∧
      packages after = packages (setAgent db agent.id fun row => { row with visibility := result, organizationId }) := by
  obtain ⟨agent, organizationId, found, _, allowed, target, ⟨_, rfl⟩ | ⟨_, charged, _, charges, rfl⟩⟩ :=
    setPackageVisibility_cases done
  · exact ⟨agent, organizationId, found, allowed, target, rfl⟩
  · exact ⟨agent, organizationId, found, allowed, target, (packages_billingOnly charges :)⟩

theorem reviewVersion_ok {action reason : String} {notes : Option String} {result : ReviewStatus × Bool}
    (done : reviewVersion host now db user namespaceName name version action reason notes = .ok (after, result)) :
    Maintains db after := by
  unfold reviewVersion at done
  simp only [Outcome.bind_eq_ok, Outcome.pure_eq_ok, Prod.mk.injEq] at done
  obtain ⟨_, _, _, _, _, _, row, _, _, _, rfl, _⟩ := done
  have reviewed : ∀ status, Maintains db (setReview db now row status reason user.id) := by
    intro status
    unfold setReview
    split
    · exact .of_packages rfl
    · exact setVersion_maintains fun _ => rfl
  exact (reviewed _).trans (.of_packages rfl)

theorem yankVersion_cases {yanked result : Bool}
    (done : yankVersion host now db user namespaceName name version yanked = .ok (after, result)) :
    after = db ∨ ∃ id event,
      after = bumpCatalog (Db.recordAudit (setVersion db id fun row => { row with yanked }) event) now := by
  unfold yankVersion at done
  simp only [Outcome.bind_eq_ok] at done
  obtain ⟨_, _, row, _, _, _, rest⟩ := done
  split at rest
  · cases rest
    exact .inl rfl
  · cases rest
    exact .inr ⟨row.id, _, rfl⟩

theorem grantPackageAccess_frame {subject : Subject} {username : Option String} {teamId : Option Nat}
    {result : AgentGrant}
    (done : grantPackageAccess host now db subject namespaceName name username teamId = .ok (after, result)) :
    ∃ agentGrants event, after = Db.recordAudit { db with agentGrants } event := by
  unfold grantPackageAccess at done
  simp only [Outcome.bind_eq_ok, Outcome.pure_eq_ok, Prod.mk.injEq, Prod.exists] at done
  obtain ⟨_, _, _, _, _, _, _, _, _, _, _, rfl, _⟩ := done
  exact ⟨_, _, rfl⟩

theorem revokePackageAccess_frame {subject : Subject} {username : Option String} {teamId : Option Nat}
    {result : AgentGrant}
    (done : revokePackageAccess host now db subject namespaceName name username teamId = .ok (after, result)) :
    ∃ agentGrants event, after = Db.recordAudit { db with agentGrants } event := by
  unfold revokePackageAccess at done
  simp only [Outcome.bind_eq_ok, Outcome.pure_eq_ok, Prod.mk.injEq] at done
  obtain ⟨_, _, _, _, _, _, _, _, _, _, rfl, _⟩ := done
  exact ⟨_, _, rfl⟩

theorem createNamespace_frame {result : Namespace} (done : createNamespace now db user name = .ok (after, result)) :
    ∃ namespaces namespaceMembers event, after = Db.recordAudit { db with namespaces, namespaceMembers } event := by
  unfold createNamespace at done
  simp only [Outcome.bind_eq_ok, Outcome.pure_eq_ok, Prod.mk.injEq, Prod.exists] at done
  obtain ⟨_, _, _, _, _, _, rfl, _⟩ := done
  exact ⟨_, _, _, rfl⟩

theorem claimNamespace_frame {result : Namespace} (done : claimNamespace host now db user name = .ok (after, result)) :
    ∃ namespaces namespaceMembers event, after = Db.recordAudit { db with namespaces, namespaceMembers } event := by
  unfold claimNamespace at done
  simp only [Outcome.bind_eq_ok] at done
  obtain ⟨_, _, _, _, _, _, created⟩ := done
  exact createNamespace_frame created

theorem addNamespaceMaintainer_frame {username role : String} {result : NamespaceMember}
    (done : addNamespaceMaintainer host now db user namespaceName username role = .ok (after, result)) :
    ∃ namespaceMembers event, after = Db.recordAudit { db with namespaceMembers } event := by
  unfold addNamespaceMaintainer at done
  simp only [Outcome.bind_eq_ok, Outcome.pure_eq_ok, Prod.mk.injEq, Prod.exists] at done
  obtain ⟨_, _, _, _, _, _, _, _, _, _, _, _, _, rfl, _⟩ := done
  exact ⟨_, _, rfl⟩

theorem registerSigningKey_keysOnly {pem : String} {label : Option String} {expiresAt : Option Time} {result : SigningKey}
    (done : registerSigningKey host now db user pem label expiresAt = .ok (after, result)) : KeysOnly db after := by
  unfold registerSigningKey at done
  simp only [Outcome.bind_eq_ok] at done
  obtain ⟨_, _, rest⟩ := done
  split at rest
  · simp only [Outcome.bind_eq_ok, Outcome.pure_eq_ok, Prod.mk.injEq] at rest
    obtain ⟨_, _, rfl, _⟩ := rest
    exact .inl rfl
  · simp only [Outcome.bind_eq_ok, Outcome.pure_eq_ok, Prod.mk.injEq, Prod.exists] at rest
    obtain ⟨_, _, _, rfl, _⟩ := rest
    exact .inr ⟨_, _, rfl⟩

theorem revokeSigningKey_keysOnly {keyId : Nat} {result : SigningKey}
    (done : revokeSigningKey host now db user keyId = .ok (after, result)) : KeysOnly db after := by
  unfold revokeSigningKey at done
  simp only [Outcome.bind_eq_ok] at done
  obtain ⟨_, _, _, _, rest⟩ := done
  split at rest
  · cases rest
    exact .inl rfl
  · cases rest
    exact .inr ⟨_, _, rfl⟩

theorem issueDownloadUrl_frame {subject : Option Subject} {result : DownloadUrl}
    (done : issueDownloadUrl host now db namespaceName name version subject = .ok (after, result)) :
    ∃ event, after = db.recordAudit event := by
  unfold issueDownloadUrl at done
  simp only [Outcome.bind_eq_ok, Outcome.pure_eq_ok, Prod.mk.injEq] at done
  obtain ⟨_, _, _, _, _, _, _, _, rfl, _⟩ := done
  exact ⟨_, rfl⟩

theorem scanStored_frame {files : Archives} {agent : Agent} {row : AgentVersion} {result : PublishResult}
    (done : scanStored host db files agent row = .ok (after, result)) : ∃ findings, after = recordScan db row.id findings := by
  unfold scanStored at done
  simp only [Outcome.bind_eq_ok, Outcome.pure_eq_ok, Prod.mk.injEq] at done
  obtain ⟨_, _, _, _, findings, _, rfl, _⟩ := done
  exact ⟨findings, rfl⟩

theorem triggerRescan_frame {store : Store} {result : PublishResult}
    (done : triggerRescan host now store user namespaceName name version = .ok (after, result)) :
    ∃ resolved target findings, after =
      setVersion (recordScan (setVersion store.db resolved fun row => { row with scanRequestedAt := some now }) target findings)
        resolved (fun row => { row with scanCompletedAt := some now }) (scanned_preserves now) := by
  unfold triggerRescan at done
  simp only [Outcome.bind_eq_ok, Outcome.pure_eq_ok, Prod.mk.injEq, Prod.exists, reraise_eq_ok] at done
  obtain ⟨_, _, row, _, _, _, _, _, _, _, _, _, scans, rfl, _⟩ := done
  obtain ⟨findings, rfl⟩ := scanStored_frame scans
  exact ⟨row.id, _, findings, rfl⟩

theorem scanVersionById_frame {store : Store} {versionId : Nat} {result : PublishResult}
    (done : scanVersionById host store versionId = .ok (after, result)) :
    ∃ id findings, after = recordScan store.db id findings := by
  unfold scanVersionById at done
  simp only [Outcome.bind_eq_ok] at done
  obtain ⟨row, _, _, _, scans⟩ := done
  exact ⟨row.id, scanStored_frame scans⟩

theorem recordScan_maintains (db : Db) (id : Nat) (findings : List String) : Maintains db (recordScan db id findings) :=
  setVersion_maintains fun _ => rfl

theorem flushDownloadCounts_maintains (db : Db) (counts : List (Nat × Nat)) :
    Maintains db (flushDownloadCounts db counts) := by
  unfold flushDownloadCounts
  induction counts generalizing db with
  | nil => exact .of_packages rfl
  | cons count rest ih =>
    have counted : Maintains db (setVersion db count.1 fun row =>
        { row with downloadCount := row.downloadCount + count.2 }) := setVersion_maintains fun _ => rfl
    exact counted.trans (ih _)

end Requests

section Publishing

variable {host : PackageHost} {now : Time} {db after : Db} {user : User} {submission : Submission}
  {admission : Admission} {organizationId : Option Nat} {agent : Agent}

structure Admitted (host : PackageHost) (submission : Submission) (admission : Admission) : Prop where
  visibility : parseVisibility submission.visibility = .ok admission.visibility
  digest : host.sha256Hex submission.archive = admission.signature.sha256
  fingerprint : publicKeyFingerprint host admission.signature.publicKey = .ok admission.signature.publicKeyId
  verified : host.verifyEd25519 admission.signature.publicKey admission.signature.signature
    (signaturePayload submission.fullName submission.version admission.signature.sha256) = .valid
  manifest : manifestStates admission.manifest submission.fullName submission.version

structure SignerUsable (now : Time) (db : Db) (userId : Nat) (fingerprint : String) (key : SigningKey) : Prop where
  stored : key ∈ db.signingKeys.rows
  named : key.fingerprint = fingerprint
  owned : key.userId = userId
  unrevoked : key.revokedAt = none
  unexpired : ∀ expiry ∈ key.expiresAt, now < expiry

theorem checkSigningKey_ok {signature : SignatureFile} {key : SigningKey}
    (done : checkSigningKey now db user signature = .ok (after, key)) :
    SignerUsable now db user.id signature.publicKeyId key ∧ ∃ signingKeys, after = { db with signingKeys } := by
  unfold checkSigningKey at done
  simp only [Outcome.bind_eq_ok, Outcome.ensure_eq_ok, Outcome.demand_eq_ok, Outcome.pure_eq_ok,
    Prod.mk.injEq] at done
  obtain ⟨row, found, _, owned, _, unrevoked, _, unexpired, rfl, rfl⟩ := done
  have named := Table.one_holds found
  exact ⟨⟨Table.one_mem found, beq_iff_eq.mp named, owned, unrevoked, unexpired⟩, _, rfl⟩

theorem admitSubmission_ok (done : admitSubmission host now db user submission = .ok (after, admission)) :
    Admitted host submission admission ∧
      (∃ key, SignerUsable now db user.id admission.signature.publicKeyId key) ∧
      ∃ signingKeys, after = { db with signingKeys } := by
  unfold admitSubmission at done
  simp only [Outcome.bind_eq_ok, Outcome.ensure_eq_ok, Outcome.pure_eq_ok, reraise_eq_ok, verifySignature_ok,
    Prod.mk.injEq, Prod.exists] at done
  obtain ⟨visibility, parsed, _, _, _, _, signature, _, _, _, checked, key, usable, _, valid, _, named, _, versioned, manifest,
    _, _, _, _, _, _, states, rfl, rfl⟩ := done
  obtain ⟨_, digest, fingerprint, verified⟩ := valid
  obtain ⟨signer, same⟩ := checkSigningKey_ok usable
  rw [named, versioned] at verified
  rw [named] at states
  exact ⟨⟨parsed, digest, fingerprint, verified, states⟩, ⟨key, signer⟩, same⟩

theorem resolvePublishNamespace_cases {name : String} (done : resolvePublishNamespace host now db user name = .ok after) :
    after = db ∨ ∃ namespaces namespaceMembers event,
      after = Db.recordAudit { db with namespaces, namespaceMembers } event := by
  unfold resolvePublishNamespace at done
  split at done
  · simp only [Outcome.bind_eq_ok, Outcome.pure_eq_ok, Prod.exists] at done
    obtain ⟨_, _, _, _, created, rfl⟩ := done
    exact .inr (createNamespace_frame created)
  · simp only [Outcome.bind_eq_ok, Outcome.pure_eq_ok] at done
    obtain ⟨_, _, rfl⟩ := done
    exact .inl rfl

theorem resolvePublishNamespace_frame {name : String} (done : resolvePublishNamespace host now db user name = .ok after) :
    ∃ namespaces namespaceMembers auditEvents, after = { db with namespaces, namespaceMembers, auditEvents } := by
  obtain rfl | ⟨namespaces, namespaceMembers, _, rfl⟩ := resolvePublishNamespace_cases done
  · exact ⟨_, _, _, rfl⟩
  · exact ⟨namespaces, namespaceMembers, _, rfl⟩

theorem place_ok (done : place host now db user submission admission = .ok (after, organizationId)) :
    packages after = packages db ∧
      publishOrganization db user admission.visibility submission.organizationSlug = .ok organizationId := by
  unfold place at done
  simp only [Outcome.bind_eq_ok, Outcome.pure_eq_ok, Prod.mk.injEq] at done
  obtain ⟨_, _, claimed, resolved, _, chosen, _, _, rfl, rfl⟩ := done
  obtain ⟨_, _, _, rfl⟩ := resolvePublishNamespace_frame resolved
  exact ⟨rfl, chosen⟩

theorem clear_ok (done : clear host now db agent submission = .ok after) :
    versionByName db agent submission.version = none ∧ packages after = packages db := by
  unfold clear at done
  simp only [Outcome.bind_eq_ok, Outcome.ensure_eq_ok, Option.isNone_iff_eq_none] at done
  obtain ⟨_, free, enforced⟩ := done
  refine ⟨free, ?_⟩
  unfold enforceQuota at enforced
  split at enforced
  · cases enforced
    rfl
  · exact packages_billingOnly (Quotas.enforcePublishQuota_billingOnly (reraise_eq_ok.mp enforced))

theorem finish_ok {version : AgentVersion} {result : PublishResult}
    (done : finish host now db user submission admission agent version = .ok (after, result)) : Maintains db after := by
  unfold finish at done
  simp only [Outcome.bind_eq_ok, Outcome.pure_eq_ok, Prod.mk.injEq] at done
  obtain ⟨findings, _, rfl, _⟩ := done
  have scanned := recordScan_maintains db version.id findings
  have stamped : Maintains (recordScan db version.id findings) (setVersion (recordScan db version.id findings)
      version.id fun row => { row with scanCompletedAt := some now }) := setVersion_maintains fun _ => rfl
  exact (scanned.trans stamped).trans (.of_packages rfl)

theorem publishVersion_ok {store : Store} {files : Archives} {result : PublishResult}
    (done : publishVersion host now store user submission = (files, .ok (after, result))) :
    ∃ admitted admission placed organizationId located agent cleared reserved version,
      admitSubmission host now store.db user submission = .ok (admitted, admission) ∧
      place host now admitted user submission admission = .ok (placed, organizationId) ∧
      locate placed user submission admission organizationId = .ok (located, agent) ∧
      clear host now located agent submission = .ok cleared ∧
      reserve host now cleared user submission admission agent = .ok (reserved, version) ∧
      storeArchive store.files submission = .ok files ∧
      finish host now reserved user submission admission agent version = .ok (after, result) := by
  unfold publishVersion at done
  dsimp only at done
  split at done
  · cases done
  · rename_i reserved admission agent version passed
    simp only [Outcome.bind_eq_ok, Outcome.pure_eq_ok, Prod.mk.injEq, Prod.exists] at passed
    split at done
    · cases done
    · rename_i written stored
      obtain ⟨rfl, finished⟩ := Prod.mk.inj done
      obtain ⟨admitted, _, one, placed, organizationId, two, located, _, three, cleared, four, _, _, five,
        rfl, rfl, rfl, rfl⟩ := passed
      exact ⟨admitted, _, placed, organizationId, located, _, cleared, _, _, one, two, three, four, five, stored,
        finished⟩

theorem parseVisibility_ok {text : String} {visibility : Visibility} (parsed : parseVisibility text = .ok visibility) :
    Visibility.name visibility = text := by
  have named := List.find?_some (Outcome.demand_eq_ok.mp parsed)
  exact beq_iff_eq.mp named

theorem Visibility.name_injective : Function.Injective Visibility.name := by
  intro first second
  cases first <;> cases second <;> decide

theorem publishVersion_agents {store : Store} {files : Archives} {result : PublishResult}
    (done : publishVersion host now store user submission = (files, .ok (after, result))) :
    ∃ admission organizationId, Admitted host submission admission ∧
      publishOrganization store.db user admission.visibility submission.organizationSlug = .ok organizationId ∧
      ((agentByName store.db submission.namespaceName submission.name = none ∧
          after.agents.rows = store.db.agents.rows ++
            [newAgent store.db.agents.next user submission admission organizationId]) ∨
        ∃ agent, agentByName store.db submission.namespaceName submission.name = some agent ∧
          after.agents = (setAgent store.db agent.id fun row => republished row admission.manifest organizationId).agents) := by
  obtain ⟨admitted, admission, placed, organizationId, located, agent, cleared, reserved, version, admits, places, locates,
    clears, reserves, _, finishes⟩ := publishVersion_ok done
  obtain ⟨accepted, _, signingKeys, rfl⟩ := admitSubmission_ok admits
  obtain ⟨placedSame, chosen⟩ := place_ok places
  have placedAgents : placed.agents = store.db.agents := congrArg Prod.fst placedSame
  have clearedAgents : cleared.agents = located.agents := congrArg Prod.fst (clear_ok clears).2
  have reservedAgents : reserved.agents = cleared.agents := by
    unfold reserve at reserves
    simp only [Outcome.bind_eq_ok, Outcome.pure_eq_ok, Prod.mk.injEq, Prod.exists] at reserves
    obtain ⟨_, _, _, rfl, _⟩ := reserves
    rfl
  have afterAgents : after.agents = located.agents := by
    rw [(finish_ok finishes).agents, reservedAgents, clearedAgents]
  have lookup : agentByName placed submission.namespaceName submission.name =
      agentByName store.db submission.namespaceName submission.name := by
    unfold agentByName
    rw [placedAgents]
  refine ⟨admission, organizationId, accepted, chosen, ?_⟩
  rw [afterAgents]
  unfold locate at locates
  rw [lookup] at locates
  split at locates
  · rename_i missing
    simp only [Outcome.bind_eq_ok, Outcome.pure_eq_ok, Prod.mk.injEq, Prod.exists] at locates
    obtain ⟨row, agents, inserted, rfl, _⟩ := locates
    rw [placedAgents] at inserted
    exact .inl ⟨missing, (Table.insert_eq_some.mp (Db.insertRow_eq_ok.mp inserted)).2.2.1⟩
  · rename_i existing found
    cases locates
    refine .inr ⟨existing, found, ?_⟩
    unfold setAgent
    simp only [placedAgents]

end Publishing

section Serving

variable {host : PackageHost} {store : Store} {files : Archives} {after : Db} {actor : Subject} {now : Time}

theorem serve_cases (host : PackageHost) (store : Store) (request : Request) :
    (∃ files, serve host store request = ⟨store.db, files⟩) ∨
      ∃ files after, handle host store request = (files, .ok after) ∧ serve host store request = ⟨after, files⟩ := by
  unfold serve
  cases handled : handle host store request with
  | mk files outcome =>
    cases outcome with
    | error raised => exact .inl ⟨files, rfl⟩
    | ok after => exact .inr ⟨files, after, rfl, rfl⟩

theorem handle_publishVersion {submission : Submission}
    (handled : handle host store ⟨actor, now, .publishVersion submission⟩ = (files, .ok after)) :
    ∃ result, publishVersion host now store actor.user submission = (files, .ok (after, result)) := by
  unfold handle at handled
  obtain ⟨sameFiles, outcome⟩ := Prod.mk.inj handled
  obtain ⟨result, published⟩ := Outcome.map_fst_ok.mp outcome
  exact ⟨result, Prod.ext sameFiles published⟩

theorem handle_manage {operation : Operation}
    (handled : handle host store ⟨actor, now, .manage operation⟩ = (files, .ok after)) :
    files = store.files ∧ perform host now store actor operation = .ok after := by
  unfold handle at handled
  obtain ⟨sameFiles, outcome⟩ := Prod.mk.inj handled
  exact ⟨sameFiles.symm, outcome⟩

end Serving

section Perform

variable {host : PackageHost} {now : Time} {store : Store} {actor : Subject} {after : Db}

theorem perform_cases {operation : Operation} (done : perform host now store actor operation = .ok after) :
    Maintains store.db after ∨
      ∃ namespaceName name agent visibility organizationId, agentByName store.db namespaceName name = some agent ∧
        canManageAccess store.db agent (some actor) = true ∧
        (∃ slug, targetOrganization store.db actor.user agent visibility slug = .ok organizationId) ∧
        packages after =
          packages (setAgent store.db agent.id fun row => { row with visibility, organizationId }) := by
  cases operation with
  | setPackageVisibility namespaceName name visibility slug =>
    obtain ⟨result, done⟩ := Outcome.map_fst_ok.mp done
    obtain ⟨agent, organizationId, found, allowed, target, same⟩ := setPackageVisibility_ok done
    exact .inr ⟨namespaceName, name, agent, result, organizationId, found, allowed, ⟨slug, target⟩, same⟩
  | reviewVersion namespaceName name version action reason notes =>
    obtain ⟨_, done⟩ := Outcome.map_fst_ok.mp done
    exact .inl (reviewVersion_ok done)
  | yankVersion namespaceName name version yanked =>
    obtain ⟨_, done⟩ := Outcome.map_fst_ok.mp done
    obtain same | ⟨id, _, rfl⟩ := yankVersion_cases done
    · rw [same]
      exact .inl (.of_packages rfl)
    · have marked : Maintains store.db (setVersion store.db id fun row => { row with yanked }) :=
        setVersion_maintains fun _ => rfl
      exact .inl (marked.trans (.of_packages rfl))
  | grantPackageAccess namespaceName name username teamId =>
    obtain ⟨_, done⟩ := Outcome.map_fst_ok.mp done
    obtain ⟨_, _, rfl⟩ := grantPackageAccess_frame done
    exact .inl (.of_packages rfl)
  | revokePackageAccess namespaceName name username teamId =>
    obtain ⟨_, done⟩ := Outcome.map_fst_ok.mp done
    obtain ⟨_, _, rfl⟩ := revokePackageAccess_frame done
    exact .inl (.of_packages rfl)
  | claimNamespace name =>
    obtain ⟨_, done⟩ := Outcome.map_fst_ok.mp done
    obtain ⟨_, _, _, rfl⟩ := claimNamespace_frame done
    exact .inl (.of_packages rfl)
  | addNamespaceMaintainer namespaceName username role =>
    obtain ⟨_, done⟩ := Outcome.map_fst_ok.mp done
    obtain ⟨_, _, rfl⟩ := addNamespaceMaintainer_frame done
    exact .inl (.of_packages rfl)
  | registerSigningKey pem label expiresAt =>
    obtain ⟨_, done⟩ := Outcome.map_fst_ok.mp done
    obtain ⟨_, _, rfl⟩ := (registerSigningKey_keysOnly done).frame
    exact .inl (.of_packages rfl)
  | revokeSigningKey keyId =>
    obtain ⟨_, done⟩ := Outcome.map_fst_ok.mp done
    obtain ⟨_, _, rfl⟩ := (revokeSigningKey_keysOnly done).frame
    exact .inl (.of_packages rfl)
  | issueDownloadUrl namespaceName name version =>
    obtain ⟨_, done⟩ := Outcome.map_fst_ok.mp done
    obtain ⟨_, rfl⟩ := issueDownloadUrl_frame done
    exact .inl (.of_packages rfl)
  | triggerRescan namespaceName name version =>
    obtain ⟨_, done⟩ := Outcome.map_fst_ok.mp done
    obtain ⟨resolved, target, findings, rfl⟩ := triggerRescan_frame done
    have requested : Maintains store.db (setVersion store.db resolved fun row => { row with scanRequestedAt := some now }) :=
      setVersion_maintains fun _ => rfl
    have scanned := requested.trans (recordScan_maintains _ target findings)
    exact .inl (scanned.trans (setVersion_maintains fun _ => rfl))
  | scanVersionById versionId =>
    obtain ⟨_, done⟩ := Outcome.map_fst_ok.mp done
    obtain ⟨id, findings, rfl⟩ := scanVersionById_frame done
    exact .inl (recordScan_maintains store.db id findings)
  | flushDownloadCounts counts =>
    cases done
    exact .inl (flushDownloadCounts_maintains _ _)
  | elsewhere write spares =>
    cases done
    exact .inl (.of_packages (spares store.db).packages)

end Perform

end Registry.Packages
