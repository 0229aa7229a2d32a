import OpenAgentHub.Registry.Packages.Latest

namespace Registry.Packages

open Relational Runs

inductive VersionOperation where
  | getVersionDetail (subject : Option Subject)
  | downloadArchive (subject : Option Subject)
  | issueDownloadUrl (subject : Option Subject)
  | triggerRescan (user : User)
  | reviewVersion (user : User) (action reason : String) (notes : Option String)
  | yankVersion (user : User) (yanked : Bool)

structure ReviewResponse where
  namespaceName : String
  name : String
  version : String
  action : String
  status : ReviewStatus
  changed : Bool

inductive VersionReply where
  | detail (found : AgentVersionDetail)
  | archive (download : Download)
  | url (issued : DownloadUrl)
  | scanned (result : PublishResult)
  | reviewed (response : ReviewResponse)
  | yanked (changed : Bool)

def callVersion (host : PackageHost) (now : Time) (store : Store) (namespaceName name version : String) :
    VersionOperation → Except Raised (Db × VersionReply)
  | .getVersionDetail subject => do
    let found ← getVersionDetail now store.db namespaceName name version subject
    return (store.db, .detail found)
  | .downloadArchive subject => do
    let download ← downloadArchive store.db store.files namespaceName name version subject
    return (store.db, .archive download)
  | .issueDownloadUrl subject => do
    let (db, issued) ← issueDownloadUrl host now store.db namespaceName name version subject
    return (db, .url issued)
  | .triggerRescan user => do
    let (db, result) ← triggerRescan host now store user namespaceName name version
    return (db, .scanned result)
  | .reviewVersion user action reason notes => do
    let (db, status, changed) ← reviewVersion host now store.db user namespaceName name version action reason notes
    return (db, .reviewed ⟨namespaceName, name, version, action, status, changed⟩)
  | .yankVersion user yanked => do
    let (db, changed) ← yankVersion host now store.db user namespaceName name version yanked
    return (db, .yanked changed)

def Reviewable (row : AgentVersion) (user : User) (action reason : String) : Prop :=
  (∃ known ∈ reviewActions, known.name = action) ∧ (reason ≠ "" ∧ reason.length ≤ 2000) ∧
    (user.role = .admin ∨ row.publishedById ≠ user.id)

def ShowsAlias (host : PackageHost) (now : Time) (db : Db) (namespaceName : String) (row : AgentVersion) :
    VersionOperation → Prop
  | .getVersionDetail _ | .downloadArchive _ | .issueDownloadUrl _ => False
  | .triggerRescan user =>
    requireNamespaceOrReviewer db user namespaceName false = .ok () ∧ cooledDown host.settings now row.scanRequestedAt
  | .reviewVersion user action reason _ =>
    Reviewable row user action reason
  | .yankVersion user yanked =>
    requireNamespaceOrReviewer db user namespaceName true = .ok () ∧ row.yanked ≠ yanked

/-- The manifest schema demands a semantic version, and `tarfile` raises nothing of this program's own. -/
structure Schooled (host : PackageHost) : Prop where
  schema : ∀ manifest name, manifestStates manifest name "latest" → host.manifestError manifest ≠ none
  tar : ∀ archive raised, host.openTar archive = .error raised →
    raised.cls ≠ .versionNotFound ∧ raised.cls ≠ .scanTargetMissing

def Unaliased (db : Db) : Prop := ∀ row ∈ db.agentVersions.rows, row.version ≠ "latest"

section Names

variable {host : PackageHost} {now : Time} {user : User} {submission : Submission}

theorem admitSubmission_schema {db after : Db} {admission : Admission}
    (done : admitSubmission host now db user submission = .ok (after, admission)) :
    host.manifestError admission.manifest = none := by
  unfold admitSubmission at done
  simp only [Outcome.bind_eq_ok, Outcome.pure_eq_ok, reraise_eq_ok, Prod.mk.injEq, Prod.exists] at done
  obtain ⟨_, _, _, _, _, _, _, _, _, _, _, _, _, _, _, _, _, _, _, manifest, _, _, valid, _, _, _, _, _, rfl⟩ := done
  unfold validateManifestSchema at valid
  obtain ⟨_, _, valid⟩ := Outcome.bind_eq_ok.mp valid
  split at valid
  · rename_i passed
    exact passed
  · cases valid

theorem Unaliased.maintained {before after : Db} (unaliased : Unaliased before) (maintained : Maintains before after) :
    Unaliased after := by
  intro row stored
  obtain ⟨old, present, same⟩ := maintained.releases.backward stored
  have version : old.version = row.version := congrArg Release.version same
  rw [← version]
  exact unaliased old present

theorem publishVersion_unaliased (schooled : Schooled host) {store : Store} {files : Archives} {after : Db}
    {result : PublishResult} (unaliased : Unaliased store.db)
    (done : publishVersion host now store user submission = (files, .ok (after, result))) : Unaliased after := by
  obtain ⟨admitted, admission, placed, organizationId, located, agent, cleared, reserved, version, admits, places, locates,
    clears, reserves, _, finishes⟩ := publishVersion_ok done
  obtain ⟨accepted, _, signingKeys, rfl⟩ := admitSubmission_ok admits
  have named : submission.version ≠ "latest" := by
    intro same
    have states := accepted.manifest
    rw [same] at states
    exact schooled.schema _ _ states (admitSubmission_schema admits)
  have placedSame : placed.agentVersions = store.db.agentVersions := congrArg Prod.snd (place_ok places).1
  have locatedSame : located.agentVersions = placed.agentVersions := by
    unfold locate at locates
    split at locates
    · simp only [Outcome.bind_eq_ok, Outcome.pure_eq_ok, Prod.mk.injEq, Prod.exists] at locates
      obtain ⟨_, _, _, rfl, _⟩ := locates
      rfl
    · cases locates
      rfl
  have clearedSame : cleared.agentVersions = located.agentVersions := congrArg Prod.snd (clear_ok clears).2
  refine Unaliased.maintained ?_ (finish_ok finishes)
  unfold reserve at reserves
  simp only [Outcome.bind_eq_ok, Outcome.pure_eq_ok, Prod.mk.injEq, Prod.exists] at reserves
  obtain ⟨_, _, inserted, rfl, _⟩ := reserves
  have rows := (Table.insert_eq_some.mp (Db.insertRow_eq_ok.mp inserted)).2.2.1
  intro row stored
  rw [rows, clearedSame, locatedSame, placedSame] at stored
  rcases List.mem_append.mp stored with old | new
  · exact unaliased row old
  · rw [List.mem_singleton.mp new]
    exact named

theorem serve_unaliased (schooled : Schooled host) (store : Store) (request : Request) (unaliased : Unaliased store.db) :
    Unaliased (serve host store request).db := by
  rcases serve_cases host store request with ⟨files, served⟩ | ⟨files, after, handled, served⟩
  · rw [served]
    exact unaliased
  · rw [served]
    obtain ⟨actor, now, made⟩ := request
    cases made with
    | publishVersion submission =>
      obtain ⟨result, published⟩ := handle_publishVersion handled
      exact publishVersion_unaliased schooled unaliased published
    | manage operation =>
      rcases perform_cases (handle_manage handled).2 with maintained | ⟨_, _, agent, _, _, _, _, _, same⟩
      · exact unaliased.maintained maintained
      · have versions : after.agentVersions = store.db.agentVersions := congrArg Prod.snd same
        unfold Unaliased
        rw [versions]
        exact unaliased

theorem reached_unaliased (schooled : Schooled host) {start store : Store} (fresh : Fresh start)
    (reached : Reaches (steps (serve host)) start store) : Unaliased store.db := by
  apply reached.invariant fun store : Store => Unaliased store.db
  · unfold Unaliased
    simp [fresh.agentVersions]
  · rintro before request _ _ unaliased ⟨_, rfl⟩
    exact serve_unaliased schooled before request unaliased

end Names

section Aliasing

variable {host : PackageHost} {now : Time} {db : Db} {agent : Agent} {row : AgentVersion} {namespaceName name : String}

theorem versionByName_of_mem (listed : row ∈ versionsOf db agent) : versionByName db agent row.version = some row := by
  obtain ⟨stored, theirs⟩ := Table.mem_select.mp listed
  unfold versionByName
  rw [Table.one_eq_some]
  · exact ⟨stored, by simp [beq_iff_eq.mp theirs]⟩
  · intro first left second right one two
    simp only [Bool.and_eq_true, beq_iff_eq] at one two
    apply Table.eq_of_clash left right
    simp [Row.clash, one, two]

theorem resolveVersion_latest (highest : latest db agent = some row) : resolveVersion db agent "latest" = some row := by
  unfold resolveVersion
  rw [if_pos rfl, highest]

theorem resolveVersion_version (highest : latest db agent = some row) :
    resolveVersion db agent row.version = some row := by
  unfold resolveVersion
  by_cases same : row.version = "latest"
  · rw [if_pos same, highest]
  · rw [if_neg same]
    exact versionByName_of_mem (latest_eq_some.mp highest).mem

/-- The operations that only use the row do not see how it was asked for. -/
theorem viewable_resolved {α : Type} {subject : Option Subject} {use : Agent → AgentVersion → Except Raised α}
    (named : agentByName db namespaceName name = some agent) (highest : latest db agent = some row) :
    (viewableAgent db namespaceName name subject >>= fun found =>
        Outcome.demand (resolveVersion db found "latest") versionNotFound >>= use found) =
      viewableAgent db namespaceName name subject >>= fun found =>
        Outcome.demand (resolveVersion db found row.version) versionNotFound >>= use found := by
  cases viewed : viewableAgent db namespaceName name subject with
  | error raised => rfl
  | ok found =>
    have known := (Option.filter_eq_some_iff.mp (Outcome.demand_eq_ok.mp viewed)).1
    have same : found = agent := Option.some.inj (known.symm.trans named)
    rw [same, Outcome.ok_bind, Outcome.ok_bind, resolveVersion_latest highest, resolveVersion_version highest]

def lastDetail {α : Type} (outcome : Except Raised (Db × α)) : Option (List (String × Json)) :=
  outcome.toOption.bind fun (db, _) => db.auditEvents.rows.getLast?.map AuditEvent.detail

theorem lastDetail_audited {α : Type} {actorId targetId : Nat} {action targetType : String}
    {organizationId : Option Nat} {detail : List (String × Json)} {result : α} :
    lastDetail (pure (bumpCatalog (auditPackage db now actorId action targetType targetId organizationId
      namespaceName name detail) now, result)) = some detail := by
  simp [lastDetail, bumpCatalog, auditPackage, Db.recordAudit, Table.push, Table.extend, Pure.pure, Except.pure,
    Except.toOption]

variable {user : User}

theorem yankVersion_latest_iff {yanked : Bool} (unaliased : row.version ≠ "latest")
    (named : agentByName db namespaceName name = some agent) (highest : latest db agent = some row) :
    yankVersion host now db user namespaceName name "latest" yanked =
        yankVersion host now db user namespaceName name row.version yanked ↔
      ¬ (requireNamespaceOrReviewer db user namespaceName true = .ok () ∧ row.yanked ≠ yanked) := by
  unfold yankVersion
  rw [named, Outcome.demand_some, Outcome.ok_bind, Outcome.ok_bind, resolveVersion_latest highest,
    resolveVersion_version highest, Outcome.demand_some, Outcome.ok_bind, Outcome.ok_bind]
  cases allowed : requireNamespaceOrReviewer db user namespaceName true with
  | error raised => simp
  | ok done =>
    rw [Outcome.ok_bind, Outcome.ok_bind]
    by_cases unchanged : row.yanked = yanked
    · simp [unchanged]
    · rw [if_neg unchanged, if_neg unchanged]
      apply iff_of_false
      · intro same
        have recorded := congrArg lastDetail same
        rw [lastDetail_audited, lastDetail_audited] at recorded
        simp [unaliased.symm] at recorded
      · exact not_not_intro ⟨rfl, unchanged⟩

theorem reviewVersion_recorded {version action reason : String} {notes : Option String}
    (named : agentByName db namespaceName name = some agent) (resolved : resolveVersion db agent version = some row)
    (reviewable : Reviewable row user action reason) :
    ∃ status, lastDetail (reviewVersion host now db user namespaceName name version action reason notes) =
      some [("namespace", .str namespaceName), ("name", .str name), ("version", .str version),
        ("action", .str action), ("status", .str (ReviewStatus.name status))] := by
  obtain ⟨⟨known, listed, rfl⟩, reasoned, impartial⟩ := reviewable
  have chosen : reviewActions.find? (fun candidate => candidate.name == known.name) = some known := by
    cases known <;> decide
  refine ⟨known.status, ?_⟩
  unfold reviewVersion
  rw [chosen, Outcome.demand_some, Outcome.ok_bind, Outcome.ensure_true reasoned, Outcome.ok_bind, named,
    Outcome.demand_some, Outcome.ok_bind, resolved, Outcome.demand_some, Outcome.ok_bind,
    Outcome.ensure_true impartial, Outcome.ok_bind]
  exact lastDetail_audited

def reviewRefusal (action reason : String) : Raised :=
  if ∀ known ∈ reviewActions, known.name ≠ action then
    ⟨.registryError, "action must be one of " ++ Text.join ", " (reviewActions.map ReviewAction.name)⟩
  else if reason = "" ∨ 2000 < reason.length then
    ⟨.registryError, "a structured reason is required (max 2000 characters)"⟩
  else ⟨.registryError, "you cannot review a version you published"⟩

theorem reviewVersion_refused {version action reason : String} {notes : Option String}
    (named : agentByName db namespaceName name = some agent) (resolved : resolveVersion db agent version = some row)
    (refused : ¬ Reviewable row user action reason) :
    reviewVersion host now db user namespaceName name version action reason notes =
      .error (reviewRefusal action reason) := by
  unfold reviewVersion reviewRefusal
  cases known : reviewActions.find? fun candidate => candidate.name == action with
  | none =>
    have unknown : ∀ known ∈ reviewActions, known.name ≠ action := by simpa using known
    rw [if_pos unknown, Outcome.demand_none, Outcome.error_bind]
  | some parsed =>
    have chosen := List.find?_some known
    have names : ∃ known ∈ reviewActions, known.name = action :=
      ⟨parsed, List.mem_of_find?_eq_some known, beq_iff_eq.mp chosen⟩
    have someNamed : ¬ ∀ known ∈ reviewActions, known.name ≠ action := by simpa using names
    rw [if_neg someNamed, Outcome.demand_some, Outcome.ok_bind]
    by_cases reasoned : reason ≠ "" ∧ reason.length ≤ 2000
    · have biased : ¬ (user.role = .admin ∨ row.publishedById ≠ user.id) := fun impartial =>
        refused ⟨names, reasoned, impartial⟩
      have given : ¬ (reason = "" ∨ 2000 < reason.length) := by
        rintro (empty | long)
        · exact reasoned.1 empty
        · omega
      rw [if_neg given, Outcome.ensure_true reasoned, Outcome.ok_bind, named, Outcome.demand_some, Outcome.ok_bind,
        resolved, Outcome.demand_some, Outcome.ok_bind, Outcome.ensure_false biased, Outcome.error_bind]
    · have missing : reason = "" ∨ 2000 < reason.length := by
        by_cases empty : reason = ""
        · exact .inl empty
        · exact .inr (by_contra fun short => reasoned ⟨empty, by omega⟩)
      rw [if_pos missing, Outcome.ensure_false reasoned, Outcome.error_bind]

theorem archivePath_error {version : String} {raised : Raised}
    (failed : archivePath namespaceName name version = .error raised) : raised.cls = .archiveStoreError := by
  unfold archivePath at failed
  simp only [Outcome.bind_eq_error, Outcome.ensure_eq_error] at failed
  rcases failed with ⟨_, rfl⟩ | ⟨_, _, ⟨_, rfl⟩ | ⟨_, _, ⟨_, rfl⟩ | ⟨_, _, made⟩⟩⟩
  · rfl
  · rfl
  · rfl
  · cases made

theorem scanStored_error (schooled : Schooled host) {files : Archives} {raised : Raised}
    (failed : scanStored host db files agent row = .error raised) :
    raised.cls ≠ .versionNotFound ∧ (raised.cls = .scanTargetMissing → raised.message = "archive missing on server") := by
  unfold scanStored at failed
  rcases Outcome.bind_eq_error.mp failed with unsafePath | ⟨stored, _, failed⟩
  · rcases Outcome.bind_eq_error.mp unsafePath with unsafePath | ⟨_, _, made⟩
    · rw [archivePath_error unsafePath]
      exact ⟨by decide, fun target => by cases target⟩
    · cases made
  · rcases Outcome.bind_eq_error.mp failed with absent | ⟨archive, _, failed⟩
    · obtain ⟨_, rfl⟩ := Outcome.demand_eq_error.mp absent
      exact ⟨by decide, fun _ => rfl⟩
    · rcases Outcome.bind_eq_error.mp failed with unread | ⟨_, _, failed⟩
      · unfold checkArchiveSafety at unread
        split at unread
        · cases unread
        · split at unread
          · rename_i other opened
            split at unread
            · cases unread
            · cases unread
              obtain ⟨notMissing, notTarget⟩ := schooled.tar _ _ opened
              exact ⟨notMissing, fun target => absurd target notTarget⟩
          · cases unread
      · cases failed

theorem versionByName_latest (unaliased : Unaliased db) : versionByName db agent "latest" = none := by
  apply Table.one_none.mpr
  intro row stored
  simp [unaliased row stored]

/-- The row is still found once the request for a scan is noted on it. -/
theorem versionByName_maintained {after : Db} (listed : row ∈ versionsOf db agent) (maintained : Maintains db after) :
    ∃ target, versionByName after agent row.version = some target := by
  obtain ⟨stored, theirs⟩ := Table.mem_select.mp listed
  obtain ⟨target, present, same⟩ := maintained.releases.forward stored
  have owner : target.agentId = row.agentId := congrArg Release.agentId same
  have version : target.version = row.version := congrArg Release.version same
  refine ⟨target, ?_⟩
  rw [← version]
  apply versionByName_of_mem
  exact Table.mem_select.mpr ⟨present, by rw [owner]; exact theirs⟩

theorem reraise_scan_ne (schooled : Schooled host) {files : Archives} :
    reraise .scanTargetMissing (⟨.versionNotFound, ·⟩) (scanStored host db files agent row) ≠
      .error ⟨.versionNotFound, "agent or version not found"⟩ := by
  intro refused
  unfold reraise at refused
  split at refused
  · cases refused
  · rename_i raised failed
    obtain ⟨foreign, message⟩ := scanStored_error schooled failed
    have same := Except.error.inj refused
    by_cases target : raised.cls = .scanTargetMissing
    · rw [if_pos target, message target] at same
      exact absurd (congrArg Raised.message same) (by decide)
    · rw [if_neg target] at same
      exact foreign (congrArg Raised.cls same)

theorem triggerRescan_latest_iff (schooled : Schooled host) {store : Store} (unaliased : Unaliased store.db)
    (named : agentByName store.db namespaceName name = some agent) (highest : latest store.db agent = some row) :
    triggerRescan host now store user namespaceName name "latest" =
        triggerRescan host now store user namespaceName name row.version ↔
      ¬ (requireNamespaceOrReviewer store.db user namespaceName false = .ok () ∧
        cooledDown host.settings now row.scanRequestedAt) := by
  unfold triggerRescan
  rw [named, Outcome.demand_some, Outcome.ok_bind, Outcome.ok_bind, resolveVersion_latest highest,
    resolveVersion_version highest, Outcome.demand_some, Outcome.ok_bind, Outcome.ok_bind]
  cases allowed : requireNamespaceOrReviewer store.db user namespaceName false with
  | error raised => simp
  | ok done =>
    rw [Outcome.ok_bind, Outcome.ok_bind]
    by_cases due : cooledDown host.settings now row.scanRequestedAt
    · rw [Outcome.ensure_true due, Outcome.ok_bind, Outcome.ok_bind]
      apply iff_of_false
      · intro same
        have noted : Maintains store.db (setVersion store.db row.id fun row => { row with scanRequestedAt := some now }) :=
          setVersion_maintains fun _ => rfl
        obtain ⟨target, found⟩ := versionByName_maintained (latest_eq_some.mp highest).mem noted
        dsimp only at same
        rw [versionByName_latest (unaliased.maintained noted), found, Outcome.demand_none, Outcome.error_bind,
          Outcome.demand_some, Outcome.ok_bind] at same
        rcases Outcome.bind_eq_error.mp same.symm with refused | ⟨_, _, refused⟩
        · exact reraise_scan_ne schooled refused
        · cases refused
      · exact not_not_intro ⟨rfl, due⟩
    · rw [Outcome.ensure_false due]
      simp [due]

theorem wrapped_eq {α β : Type} {wrap : α → β} (injective : Function.Injective wrap)
    {first second : Except Raised (Db × α)} :
    (first >>= fun (db, result) => pure (db, wrap result)) = (second >>= fun (db, result) => pure (db, wrap result)) ↔
      first = second := by
  cases first with
  | error raised => cases second <;> simp [Pure.pure, Except.pure]
  | ok one =>
    cases second with
    | error raised => simp [Pure.pure, Except.pure]
    | ok two => simp [Pure.pure, Except.pure, Prod.ext_iff, injective.eq_iff]

theorem lastDetail_bind {α β : Type} {rest : Db × α → Except Raised (Db × β)} {outcome : Except Raised (Db × α)}
    (commits : ∀ db result, ∃ reply, rest (db, result) = pure (db, reply)) :
    lastDetail (outcome >>= rest) = lastDetail outcome := by
  cases outcome with
  | error raised => rfl
  | ok pair =>
    obtain ⟨reply, replied⟩ := commits pair.1 pair.2
    rw [Outcome.ok_bind, replied]
    rfl

end Aliasing

/-- The alias stands for the version it selects in exactly the calls that are refused before, or never
    come to, a use of the version as it was given. -/
theorem latest_alias_iff {host : PackageHost} (schooled : Schooled host) {start store : Store} (fresh : Fresh start)
    (reached : Reaches (steps (serve host)) start store) (now : Time) (operation : VersionOperation)
    {namespaceName name : String} {agent : Agent} {row : AgentVersion}
    (named : agentByName store.db namespaceName name = some agent) (highest : latest store.db agent = some row) :
    callVersion host now store namespaceName name "latest" operation =
        callVersion host now store namespaceName name row.version operation ↔
      ¬ ShowsAlias host now store.db namespaceName row operation := by
  have unaliased := reached_unaliased schooled fresh reached
  have stored : row ∈ store.db.agentVersions.rows := (Table.mem_select.mp (latest_eq_some.mp highest).mem).1
  cases operation with
  | getVersionDetail subject =>
    apply iff_of_true _ not_false
    exact congrArg (· >>= _) (viewable_resolved named highest)
  | downloadArchive subject =>
    apply iff_of_true _ not_false
    exact congrArg (· >>= _) (viewable_resolved named highest)
  | issueDownloadUrl subject =>
    apply iff_of_true _ not_false
    cases subject with
    | none => rfl
    | some caller => exact congrArg (· >>= _) (viewable_resolved named highest)
  | triggerRescan user =>
    unfold callVersion
    rw [wrapped_eq fun _ _ => VersionReply.scanned.inj]
    exact triggerRescan_latest_iff schooled unaliased named highest
  | reviewVersion user action reason notes =>
    have asLatest := resolveVersion_latest highest
    have asNamed := resolveVersion_version highest
    have records : ∀ version, lastDetail (callVersion host now store namespaceName name version
        (.reviewVersion user action reason notes)) =
          lastDetail (reviewVersion host now store.db user namespaceName name version action reason notes) :=
      fun _ => lastDetail_bind fun _ _ => ⟨_, rfl⟩
    by_cases reviewable : Reviewable row user action reason
    · apply iff_of_false
      · intro same
        obtain ⟨status, first⟩ := reviewVersion_recorded named asLatest reviewable
        obtain ⟨status', second⟩ := reviewVersion_recorded named asNamed reviewable
        have recorded := congrArg lastDetail same
        rw [records, records, first, second] at recorded
        simp [(unaliased row stored).symm] at recorded
      · exact not_not_intro reviewable
    · apply iff_of_true
      · unfold callVersion
        dsimp only
        rw [reviewVersion_refused named asLatest reviewable, reviewVersion_refused named asNamed reviewable]
        rfl
      · exact reviewable
  | yankVersion user yanked =>
    unfold callVersion
    rw [wrapped_eq fun _ _ => VersionReply.yanked.inj]
    exact yankVersion_latest_iff (unaliased row stored) named highest

def strictHost : PackageHost :=
  { workshopHost with
    manifestError := fun manifest =>
      if (manifest.get "version").bind Json.asString = some "latest" then
        some "version: 'latest' does not match the pattern of a version"
      else none }

theorem strictHost_schooled : Schooled strictHost where
  schema := by
    rintro manifest name ⟨_, version⟩
    simp [strictHost, version]
  tar := by
    intro archive raised failed
    dsimp only [strictHost, workshopHost] at failed
    split at failed
    · cases failed
    · cases failed
      exact ⟨by decide, by decide⟩

def stocked : Store :=
  [byFounder 1 (.manage (.registerSigningKey founderKey.pem none none)),
    byFounder 3 (.publishVersion (firstBuild.submission "public" none))].foldl (serve strictHost) opened

theorem stocked_latest : ∃ row, latest stocked.db tool = some row ∧ row.version = "1.0.0" := by
  have version : (latest stocked.db tool).map AgentVersion.version = some "1.0.0" := by decide +kernel
  exact Option.map_eq_some_iff.mp version

theorem latest_alias_download : ∃ row, latest stocked.db tool = some row ∧
    (callVersion strictHost (seconds 60) stocked "acme" "tool" "latest" (.downloadArchive none) =
        callVersion strictHost (seconds 60) stocked "acme" "tool" row.version (.downloadArchive none) ↔
      ¬ ShowsAlias strictHost (seconds 60) stocked.db "acme" row (.downloadArchive none)) := by
  obtain ⟨row, highest, _⟩ := stocked_latest
  have fresh : Fresh opened := ⟨by decide +kernel, by decide +kernel⟩
  have named : agentByName stocked.db "acme" "tool" = some tool := by decide +kernel
  exact ⟨row, highest, latest_alias_iff strictHost_schooled fresh (reaches_foldl (serve strictHost) _ opened)
    (seconds 60) (.downloadArchive none) named highest⟩

/-- The publisher may have version 1.0.0 scanned again, but not the latest version. -/
theorem latest_not_rescanned :
    Reaches (steps (serve strictHost)) opened stocked ∧ ∃ row, latest stocked.db tool = some row ∧
      callVersion strictHost (seconds 60) stocked "acme" "tool" "latest" (.triggerRescan Organizations.founder) ≠
        callVersion strictHost (seconds 60) stocked "acme" "tool" row.version (.triggerRescan Organizations.founder) := by
  obtain ⟨row, highest, version⟩ := stocked_latest
  refine ⟨reaches_foldl (serve strictHost) _ opened, row, highest, ?_⟩
  have missing : (callVersion strictHost (seconds 60) stocked "acme" "tool" "latest"
      (.triggerRescan Organizations.founder)).isOk = false := by decide +kernel
  have scanned : (callVersion strictHost (seconds 60) stocked "acme" "tool" "1.0.0"
      (.triggerRescan Organizations.founder)).isOk = true := by decide +kernel
  rw [version]
  intro same
  rw [same, scanned] at missing
  cases missing

end Registry.Packages
