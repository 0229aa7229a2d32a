import OpenAgentHub.Registry.Packages.Effects
import OpenAgentHub.Registry.Packages.Latest

namespace Registry.Packages

open Relational Organizations

structure Ledgers where
  versions : Table AgentVersion
  reviews : Table VersionReviewEvent
  agents : Table Agent
  spaces : Table Namespace
  members : Table NamespaceMember

def ledgers (db : Db) : Ledgers :=
  ⟨db.agentVersions, db.versionReviewEvents, db.agents, db.namespaces, db.namespaceMembers⟩

section Contents

structure Review where
  status : ReviewStatus := .pending
  reason : Option String := none
  reviewerId : Option Nat := none
  deriving DecidableEq, Repr

def reviewOf (row : AgentVersion) : Review := ⟨row.reviewStatus, row.reviewReason, row.reviewedById⟩

def scanOf (row : AgentVersion) : SecurityStatus × List String := (row.securityStatus, row.securityFindings)

def Review.amend (review : Review) (event : VersionReviewEvent) : Review :=
  match reviewActions.find? fun action => action.name == event.action with
  | none => review
  | some action =>
    if review.status = action.status ∧ review.reason = some event.reason then review
    else ⟨action.status, some event.reason, some event.reviewerId⟩

theorem Review.amend_action (review : Review) (event : VersionReviewEvent) (action : ReviewAction)
    (named : event.action = action.name) :
    review.amend event =
      if review.status = action.status ∧ review.reason = some event.reason then review
      else ⟨action.status, some event.reason, some event.reviewerId⟩ := by
  have known : (reviewActions.find? fun candidate => candidate.name == action.name) = some action := by
    cases action <;> decide
  unfold Review.amend
  rw [named, known]

def agentKey (row : Agent) : Nat × String × String × Nat := (row.id, row.namespaceName, row.name, row.ownerId)

end Contents

def MemberOf (ledgers : Ledgers) (name : String) (userId : Nat) : Prop :=
  ∃ space ∈ ledgers.spaces.rows, space.name = name ∧
    ∃ member ∈ ledgers.members.rows, member.namespaceId = space.id ∧ member.userId = userId

inductive Change (before : Ledgers) : Ledgers → Prop where
  /-- A time, a yank, a download count, or what a package says of itself. -/
  | mark (versions : Table AgentVersion) (agents : Table Agent)
    (marks : Table.Upkeep (fun row => (release row, reviewOf row, scanOf row)) before.versions versions)
    (describes : Table.Upkeep agentKey before.agents agents) : Change before { before with versions, agents }
  | scan (id : Nat) (findings : List String) (versions : Table AgentVersion) (update : AgentVersion → AgentVersion)
    (rewrites : versions.rows = before.versions.rows.map fun row => if row.id == id then update row else row)
    (keeps : ∀ row, release (update row) = release row ∧ reviewOf (update row) = reviewOf row)
    (scans : ∀ row, scanOf (update row) = (scanStatus findings, findings)) : Change before { before with versions }
  | review (row : AgentVersion) (stored : row ∈ before.versions.rows) (event : VersionReviewEvent)
    (versions : Table AgentVersion) (reviews : Table VersionReviewEvent) (update : AgentVersion → AgentVersion)
    (rewrites : versions.rows = before.versions.rows.map fun other => if other.id == row.id then update other else other)
    (keeps : ∀ other, release (update other) = release other ∧ scanOf (update other) = scanOf other)
    (amends : reviewOf (update row) = (reviewOf row).amend event)
    (subject : event.versionId = row.id ∧ event.digest = row.sha256) (known : ∃ action, event.action = ReviewAction.name action)
    (records : reviews.rows = before.reviews.rows ++ [event]) : Change before { before with versions, reviews }
  | claim (space : Namespace) (owner : NamespaceMember) (spaces : Table Namespace) (members : Table NamespaceMember)
    (claims : spaces.rows = before.spaces.rows ++ [space]) (joins : members.rows = before.members.rows ++ [owner])
    (owns : owner.namespaceId = space.id ∧ owner.role = .owner) : Change before { before with spaces, members }
  | join (member : NamespaceMember) (members : Table NamespaceMember)
    (joins : members.rows = before.members.rows ++ [member]) : Change before { before with members }
  | register (agent : Agent) (agents : Table Agent) (registers : agents.rows = before.agents.rows ++ [agent])
    (owner : MemberOf before agent.namespaceName agent.ownerId) : Change before { before with agents }
  | publish (row : AgentVersion) (versions : Table AgentVersion) (agent : Agent)
    (publishes : versions.rows = before.versions.rows ++ [row]) (unreviewed : reviewOf row = {})
    (scanned : row.securityStatus = scanStatus row.securityFindings)
    (package : agent ∈ before.agents.rows ∧ agent.id = row.agentId)
    (publisher : MemberOf before agent.namespaceName row.publishedById) : Change before { before with versions }

def Changes : Ledgers → Ledgers → Prop := Relation.ReflTransGen Change

theorem Changes.refl (before : Ledgers) : Changes before before := Relation.ReflTransGen.refl

theorem Changes.of_eq {before after : Ledgers} (same : after = before) : Changes before after := by
  rw [same]
  exact .refl before

theorem Changes.trans {first second third : Ledgers} (left : Changes first second) (right : Changes second third) :
    Changes first third :=
  Relation.ReflTransGen.trans left right

theorem Changes.invariant {before after : Ledgers} (holds : Ledgers → Prop) (changes : Changes before after)
    (initial : holds before) (kept : ∀ before after, holds before → Change before after → holds after) : holds after := by
  induction changes with
  | refl => exact initial
  | tail _ last ih => exact kept _ _ ih last

theorem setVersion_changes {db : Db} {id : Nat} {update : AgentVersion → AgentVersion} {preserves : Table.Preserves update}
    (keeps : ∀ row, (release (update row), reviewOf (update row), scanOf (update row)) = (release row, reviewOf row, scanOf row)) :
    Changes (ledgers db) (ledgers (setVersion db id update preserves)) :=
  .single (.mark _ _ (.modify preserves keeps) (.refl _))

theorem recordScan_changes (db : Db) (versionId : Nat) (findings : List String) :
    Changes (ledgers db) (ledgers (recordScan db versionId findings)) :=
  .single (.scan versionId findings _ _ rfl (fun _ => ⟨rfl, rfl⟩) fun _ => rfl)

theorem ledgers_billingOnly {before after : Db} (frame : Billing.BillingOnly before after) : ledgers after = ledgers before := by
  obtain ⟨_, _, rfl⟩ := frame
  rfl

section Managing

variable {host : PackageHost} {now : Time} {db after : Db} {user : User} {subject : Subject}
  {namespaceName name version : String}

theorem setPackageVisibility_changes {visibility : String} {slug : Option String} {result : Visibility}
    (done : setPackageVisibility host now db subject namespaceName name visibility slug = .ok (after, result)) :
    Changes (ledgers db) (ledgers after) := by
  obtain ⟨agent, organizationId, _, _, _, _, moved⟩ := setPackageVisibility_cases done
  have rebound : Changes (ledgers db)
      (ledgers (setAgent db agent.id fun row => { row with visibility := result, organizationId })) :=
    .single (.mark _ _ (.refl _) (.modify (rebound_preserves result organizationId) fun _ => rfl))
  obtain ⟨_, rfl⟩ | ⟨_, _, _, charges, rfl⟩ := moved
  · exact rebound
  · have same := ledgers_billingOnly charges
    exact rebound.trans (.of_eq same)

theorem yankVersion_changes {yanked result : Bool}
    (done : yankVersion host now db user namespaceName name version yanked = .ok (after, result)) :
    Changes (ledgers db) (ledgers after) := by
  obtain same | ⟨id, _, rfl⟩ := yankVersion_cases done
  · rw [same]
    exact .refl _
  · have marked : Changes (ledgers db) (ledgers (setVersion db id fun row => { row with yanked })) :=
      setVersion_changes fun _ => rfl
    exact marked

theorem resolveVersion_mem {agent : Agent} {row : AgentVersion} (found : resolveVersion db agent version = some row) :
    row ∈ db.agentVersions.rows := by
  unfold resolveVersion at found
  split at found
  · exact (List.mem_filter.mp (Selection.maxBy_mem found)).1
  · exact Table.one_mem found

theorem reviewVersion_changes {action reason : String} {notes : Option String} {result : ReviewStatus × Bool}
    (done : reviewVersion host now db user namespaceName name version action reason notes = .ok (after, result)) :
    Changes (ledgers db) (ledgers after) := by
  unfold reviewVersion at done
  simp only [Outcome.bind_eq_ok, Outcome.pure_eq_ok, Prod.mk.injEq] at done
  obtain ⟨chosen, known, _, _, _, _, row, found, _, _, rfl, _⟩ := done
  have stored := resolveVersion_mem (Outcome.demand_eq_ok.mp found)
  have amended := fun event named => Review.amend_action (reviewOf row) event chosen named
  unfold setReview
  split
  · rename_i same
    refine .single (.review row stored _ _ _ id ?_ (fun _ => ⟨rfl, rfl⟩) ?_ ⟨rfl, rfl⟩ ⟨chosen, rfl⟩ rfl)
    · simp only [id, ite_self, List.map_id']
      rfl
    · rw [amended _ rfl]
      exact (if_pos same).symm
  · rename_i different
    refine .single (.review row stored _ _ _ _ rfl (fun _ => ⟨rfl, rfl⟩) ?_ ⟨rfl, rfl⟩ ⟨chosen, rfl⟩ rfl)
    rw [amended _ rfl]
    exact (if_neg different).symm

theorem createNamespace_changes {space : Namespace} (done : createNamespace now db user name = .ok (after, space)) :
    Changes (ledgers db) (ledgers after) ∧ space ∈ after.namespaces.rows ∧ space.name = name ∧
      ∃ member ∈ after.namespaceMembers.rows, member.namespaceId = space.id ∧ member.userId = user.id := by
  unfold createNamespace at done
  simp only [Outcome.bind_eq_ok, Outcome.pure_eq_ok, Prod.mk.injEq, Prod.exists] at done
  obtain ⟨space, namespaces, named, owner, namespaceMembers, joined, rfl, rfl⟩ := done
  obtain ⟨_, made, spaces, _⟩ := Table.insert_eq_some.mp (Db.insertRow_eq_ok.mp named)
  obtain ⟨_, _, members, _⟩ := Table.insert_eq_some.mp (Db.insertRow_eq_ok.mp joined)
  rw [← made] at spaces
  refine ⟨.single (.claim _ _ _ _ spaces members ⟨rfl, rfl⟩), ?_, ?_,
    ⟨db.namespaceMembers.next, space.id, user.id, .owner⟩, ?_, rfl, rfl⟩
  · change space ∈ namespaces.rows
    rw [spaces]
    exact List.mem_append_right _ (List.mem_singleton_self _)
  · rw [made]
  · change _ ∈ namespaceMembers.rows
    rw [members]
    exact List.mem_append_right _ (List.mem_singleton_self _)

theorem addNamespaceMaintainer_changes {username role : String} {result : NamespaceMember}
    (done : addNamespaceMaintainer host now db user namespaceName username role = .ok (after, result)) :
    Changes (ledgers db) (ledgers after) := by
  unfold addNamespaceMaintainer at done
  simp only [Outcome.bind_eq_ok, Outcome.pure_eq_ok, Prod.mk.injEq, Prod.exists] at done
  obtain ⟨_, _, _, _, _, _, _, _, _, _, member, members, inserted, rfl, _⟩ := done
  have joins := (Table.insert_eq_some.mp (Db.insertRow_eq_ok.mp inserted)).2.2.1
  exact .single (.join _ members joins)

theorem triggerRescan_changes {files : Archives} {result : PublishResult}
    (done : triggerRescan host now ⟨db, files⟩ user namespaceName name version = .ok (after, result)) :
    Changes (ledgers db) (ledgers after) := by
  obtain ⟨resolved, target, findings, rfl⟩ := triggerRescan_frame done
  have requested : Changes (ledgers db)
      (ledgers (setVersion db resolved fun row => { row with scanRequestedAt := some now })) := setVersion_changes fun _ => rfl
  exact (requested.trans (recordScan_changes _ target findings)).trans (setVersion_changes fun _ => rfl)

theorem scanVersionById_changes {files : Archives} {versionId : Nat} {result : PublishResult}
    (done : scanVersionById host ⟨db, files⟩ versionId = .ok (after, result)) : Changes (ledgers db) (ledgers after) := by
  obtain ⟨id, findings, rfl⟩ := scanVersionById_frame done
  exact recordScan_changes db id findings

theorem flushDownloadCounts_changes (db : Db) (counts : List (Nat × Nat)) :
    Changes (ledgers db) (ledgers (flushDownloadCounts db counts)) := by
  unfold flushDownloadCounts
  induction counts generalizing db with
  | nil => exact .refl _
  | cons count rest ih =>
    have counted : Changes (ledgers db) (ledgers (setVersion db count.1 fun row =>
        { row with downloadCount := row.downloadCount + count.2 })) := setVersion_changes fun _ => rfl
    exact counted.trans (ih _)

end Managing

section Publishing

variable {host : PackageHost} {now : Time} {db after : Db} {user : User} {submission : Submission}
  {admission : Admission} {organizationId : Option Nat} {agent : Agent}

theorem resolvePublishNamespace_changes {name : String} (done : resolvePublishNamespace host now db user name = .ok after) :
    Changes (ledgers db) (ledgers after) ∧ MemberOf (ledgers after) name user.id := by
  unfold resolvePublishNamespace at done
  split at done
  · simp only [Outcome.bind_eq_ok, Outcome.pure_eq_ok, Prod.exists] at done
    obtain ⟨_, _, created, space, claimed, rfl⟩ := done
    obtain ⟨changes, stored, named, owner⟩ := createNamespace_changes claimed
    exact ⟨changes, space, stored, named, owner⟩
  · rename_i space found
    simp only [Outcome.bind_eq_ok, Outcome.demand_eq_ok, Outcome.pure_eq_ok] at done
    obtain ⟨member, joined, rfl⟩ := done
    have named := Table.one_holds found
    have matched := Table.one_holds joined
    simp only [Bool.and_eq_true, beq_iff_eq] at named matched
    exact ⟨.refl _, space, Table.one_mem found, named, member, Table.one_mem joined, matched⟩

theorem place_changes (done : place host now db user submission admission = .ok (after, organizationId)) :
    Changes (ledgers db) (ledgers after) ∧ MemberOf (ledgers after) submission.namespaceName user.id := by
  unfold place at done
  simp only [Outcome.bind_eq_ok, Outcome.pure_eq_ok, Prod.mk.injEq] at done
  obtain ⟨_, _, _, resolved, _, _, _, _, rfl, _⟩ := done
  exact resolvePublishNamespace_changes resolved

theorem republished_preserves (manifest : Json) (organizationId : Option Nat) :
    Table.Preserves fun row : Agent => republished row manifest organizationId := fun _ => ⟨rfl, fun _ => rfl⟩

theorem recorded_preserves (findings : List String) : Table.Preserves fun row : AgentVersion =>
    { row with securityStatus := scanStatus findings, securityFindings := findings } := fun _ => ⟨rfl, fun _ => rfl⟩

theorem locate_changes (member : MemberOf (ledgers db) submission.namespaceName user.id)
    (done : locate db user submission admission organizationId = .ok (after, agent)) :
    Changes (ledgers db) (ledgers after) ∧ agent ∈ after.agents.rows ∧ agent.namespaceName = submission.namespaceName ∧
      after.namespaces = db.namespaces ∧ after.namespaceMembers = db.namespaceMembers := by
  unfold locate at done
  split at done
  · simp only [Outcome.bind_eq_ok, Outcome.pure_eq_ok, Prod.mk.injEq, Prod.exists] at done
    obtain ⟨added, agents, inserted, rfl, rfl⟩ := done
    obtain ⟨_, made, rows, _⟩ := Table.insert_eq_some.mp (Db.insertRow_eq_ok.mp inserted)
    rw [← made] at rows
    refine ⟨.single (.register added agents rows (made ▸ member)), ?_, by rw [made]; rfl, rfl, rfl⟩
    change added ∈ agents.rows
    rw [rows]
    exact List.mem_append_right _ (List.mem_singleton_self _)
  · rename_i existing found
    cases done
    have describes : Changes (ledgers db)
        (ledgers (setAgent db existing.id fun row => republished row admission.manifest organizationId)) :=
      .single (.mark _ _ (.refl _) (.modify (republished_preserves admission.manifest organizationId) fun _ => rfl))
    refine ⟨describes, ?_, ?_, rfl, rfl⟩
    · exact (Table.mem_modify (republished_preserves admission.manifest organizationId)).mpr
        ⟨existing, Table.one_mem found, if_pos (beq_self_eq_true _)⟩
    · have matched := Table.one_holds found
      simp only [Bool.and_eq_true, beq_iff_eq] at matched
      exact matched.1

theorem clear_ledgers (done : clear host now db agent submission = .ok after) : ledgers after = ledgers db := by
  unfold clear at done
  simp only [Outcome.bind_eq_ok] at done
  obtain ⟨_, _, enforced⟩ := done
  unfold enforceQuota at enforced
  split at enforced
  · cases enforced
    rfl
  · exact ledgers_billingOnly (Quotas.enforcePublishQuota_billingOnly (reraise_eq_ok.mp enforced))

theorem finish_changes {reserved : Db} {version : AgentVersion} {result : PublishResult}
    (package : agent ∈ db.agents.rows) (publisher : MemberOf (ledgers db) agent.namespaceName user.id)
    (reserves : reserve host now db user submission admission agent = .ok (reserved, version))
    (done : finish host now reserved user submission admission agent version = .ok (after, result)) :
    Changes (ledgers db) (ledgers after) := by
  unfold reserve at reserves
  simp only [Outcome.bind_eq_ok, Outcome.pure_eq_ok, Prod.mk.injEq, Prod.exists] at reserves
  obtain ⟨added, versions, inserted, rfl, rfl⟩ := reserves
  obtain ⟨_, made, rows, _⟩ := Table.insert_eq_some.mp (Db.insertRow_eq_ok.mp inserted)
  rw [← made] at rows
  unfold finish at done
  simp only [Outcome.bind_eq_ok, Outcome.pure_eq_ok, Prod.mk.injEq] at done
  obtain ⟨findings, _, rfl, _⟩ := done
  have scanned := Table.modify_append (recorded_preserves findings) rows
  have stamped := Table.modify_append (scanned_preserves now) scanned
  refine .single (.publish _ _ agent stamped ?_ ?_ ⟨package, ?_⟩ ?_)
  · rw [made]
    rfl
  · rfl
  · rw [made]
    rfl
  · rw [made]
    exact publisher

theorem publishVersion_changes {store : Store} {files : Archives} {result : PublishResult}
    (done : publishVersion host now store user submission = (files, .ok (after, result))) :
    Changes (ledgers store.db) (ledgers after) := by
  obtain ⟨admitted, admission, placed, organizationId, located, agent, cleared, reserved, version, admits, places, locates,
    clears, reserves, _, finishes⟩ := publishVersion_ok done
  obtain ⟨_, _, signingKeys, rfl⟩ := admitSubmission_ok admits
  obtain ⟨claims, member⟩ := place_changes places
  obtain ⟨registers, package, under, spaces, members⟩ := locate_changes member locates
  have same := clear_ledgers clears
  have agents : cleared.agents = located.agents := congrArg Ledgers.agents same
  have publisher : MemberOf (ledgers cleared) agent.namespaceName user.id := by
    rw [same, under]
    unfold MemberOf ledgers
    rw [spaces, members]
    exact member
  have publishes := finish_changes (agents ▸ package) publisher reserves finishes
  rw [same] at publishes
  exact (claims.trans registers).trans publishes

end Publishing

section Serving

variable {host : PackageHost} {now : Time} {store : Store} {actor : Subject} {files : Archives} {after : Db}

def Request.Apart (request : Request) : Prop :=
  ∀ write spares, request.call = .manage (.elsewhere write spares) → ∀ db, ledgers (write db) = ledgers db

theorem perform_changes {operation : Operation}
    (apart : ∀ write spares, operation = .elsewhere write spares → ∀ db, ledgers (write db) = ledgers db)
    (done : perform host now store actor operation = .ok after) : Changes (ledgers store.db) (ledgers after) := by
  cases operation with
  | setPackageVisibility namespaceName name visibility slug =>
    obtain ⟨_, done⟩ := Outcome.map_fst_ok.mp done
    exact setPackageVisibility_changes done
  | reviewVersion namespaceName name version action reason notes =>
    obtain ⟨_, done⟩ := Outcome.map_fst_ok.mp done
    exact reviewVersion_changes done
  | yankVersion namespaceName name version yanked =>
    obtain ⟨_, done⟩ := Outcome.map_fst_ok.mp done
    exact yankVersion_changes done
  | grantPackageAccess namespaceName name username teamId =>
    obtain ⟨_, done⟩ := Outcome.map_fst_ok.mp done
    obtain ⟨_, _, rfl⟩ := grantPackageAccess_frame done
    exact .of_eq rfl
  | revokePackageAccess namespaceName name username teamId =>
    obtain ⟨_, done⟩ := Outcome.map_fst_ok.mp done
    obtain ⟨_, _, rfl⟩ := revokePackageAccess_frame done
    exact .of_eq rfl
  | claimNamespace name =>
    obtain ⟨_, done⟩ := Outcome.map_fst_ok.mp done
    unfold claimNamespace at done
    simp only [Outcome.bind_eq_ok] at done
    obtain ⟨_, _, _, _, _, _, created⟩ := done
    exact (createNamespace_changes created).1
  | addNamespaceMaintainer namespaceName username role =>
    obtain ⟨_, done⟩ := Outcome.map_fst_ok.mp done
    exact addNamespaceMaintainer_changes done
  | registerSigningKey pem label expiresAt =>
    obtain ⟨_, done⟩ := Outcome.map_fst_ok.mp done
    obtain ⟨_, _, rfl⟩ := (registerSigningKey_keysOnly done).frame
    exact .of_eq rfl
  | revokeSigningKey keyId =>
    obtain ⟨_, done⟩ := Outcome.map_fst_ok.mp done
    obtain ⟨_, _, rfl⟩ := (revokeSigningKey_keysOnly done).frame
    exact .of_eq rfl
  | issueDownloadUrl namespaceName name version =>
    obtain ⟨_, done⟩ := Outcome.map_fst_ok.mp done
    obtain ⟨_, rfl⟩ := issueDownloadUrl_frame done
    exact .of_eq rfl
  | triggerRescan namespaceName name version =>
    obtain ⟨_, done⟩ := Outcome.map_fst_ok.mp done
    exact triggerRescan_changes done
  | scanVersionById versionId =>
    obtain ⟨_, done⟩ := Outcome.map_fst_ok.mp done
    exact scanVersionById_changes done
  | flushDownloadCounts counts =>
    cases done
    exact flushDownloadCounts_changes _ _
  | elsewhere write spares =>
    cases done
    exact .of_eq (apart write spares rfl store.db)

/-- Every request, answered or refused, changes the ledgers in these ways only. -/
theorem serve_changes {request : Request} (apart : request.Apart) :
    Changes (ledgers store.db) (ledgers (serve host store request).db) := by
  obtain ⟨actor, now, call⟩ := request
  rcases serve_cases host store ⟨actor, now, call⟩ with ⟨files, same⟩ | ⟨files, after, handled, same⟩
  · rw [same]
    exact .refl _
  · rw [same]
    cases call with
    | publishVersion submission =>
      obtain ⟨_, published⟩ := handle_publishVersion handled
      exact publishVersion_changes published
    | manage operation =>
      obtain ⟨_, done⟩ := handle_manage handled
      refine perform_changes ?_ done
      intro write spares called
      exact apart write spares (congrArg Call.manage called)

theorem ledgers_invariant {holds : Ledgers → Prop} {requests : List Request} (initial : holds (ledgers store.db))
    (apart : ∀ request ∈ requests, request.Apart)
    (kept : ∀ before after, holds before → Change before after → holds after) :
    holds (ledgers (requests.foldl (serve host) store).db) := by
  induction requests generalizing store with
  | nil => exact initial
  | cons request rest ih =>
    have changes := @serve_changes host store request (apart request List.mem_cons_self)
    have next := changes.invariant holds initial kept
    exact ih next fun other member => apart other (List.mem_cons_of_mem _ member)

end Serving

end Registry.Packages
