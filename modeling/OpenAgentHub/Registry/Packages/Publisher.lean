import OpenAgentHub.Lib.Succession
import OpenAgentHub.Registry.Packages.Feed
import OpenAgentHub.Registry.Packages.ReviewLog

/-! The publisher's own pages: `publisher/application.py`. -/

namespace Registry.Packages

open Relational Semver

/-- `PublisherError`, and `NamespaceForbidden` derived from it. -/
inductive PublisherRefusal where
  | namespaceForbidden (message : String)
  | publisherError (message : String)
  deriving DecidableEq, Repr

section Rows

def byText {α : Type} (key : α → String) (items : List α) : List α :=
  items.mergeSort fun first second => compareText (key first) (key second) ≠ .gt

def memberships (db : Db) (user : User) : List (Namespace × NamespaceMember) :=
  byText (fun pair => pair.1.name) (db.namespaces.rows.flatMap fun space =>
    (db.namespaceMembers.select fun member => member.namespaceId == space.id && member.userId == user.id).map (space, ·))

def allInNamespace (db : Db) (namespaceName : String) : List Agent :=
  byText Agent.name (db.agents.select (·.namespaceName == namespaceName))

def requireNamespaceMember (db : Db) (user : User) (namespaceName : String) : Except PublisherRefusal Namespace := do
  let space ← Outcome.demand (namespaceByName db namespaceName)
    (.namespaceForbidden ("namespace '" ++ namespaceName ++ "' not found"))
  let _ ← Outcome.demand (isMember db space user.id)
    (.namespaceForbidden ("you are not a member of namespace '" ++ namespaceName ++ "'"))
  return space

end Rows

section Overview

structure PublisherOverview where
  namespaceCount : Nat
  packageCount : Nat
  keyCount : Nat
  activeSessions : Nat
  publishesUsed : Nat
  publishesLimit : Nat
  publishesUnlimited : Bool
  pendingScans : Nat
  flaggedVersions : Nat
  deriving DecidableEq, Repr

def activeSessionCount (db : Db) (user : User) : Nat :=
  ((db.sessions.select (·.userId == user.id)).filter (·.revokedAt.isNone)).length

/-- The days are those of the `timedelta`, negative for an account that is dated ahead of `now`. -/
def publishQuotaStatus (settings : Settings) (now : Time) (db : Db) (user : User) : Nat × Nat × Bool :=
  if settings.publishQuotaNewAccountDays ≤ ((now : Int) - user.createdAt) / days 1 then
    (0, settings.publishQuotaNewAccountDaily, true)
  else (countByAction db user.id "version.published" (now - hours 24), settings.publishQuotaNewAccountDaily, false)

def publishedVersions (db : Db) (user : User) : List AgentVersion :=
  (memberships db user).flatMap fun (space, _) => (allInNamespace db space.name).flatMap (listFor db)

def publisherOverview (settings : Settings) (now : Time) (db : Db) (user : User) : PublisherOverview :=
  let (publishesUsed, publishesLimit, publishesUnlimited) := publishQuotaStatus settings now db user
  { namespaceCount := (memberships db user).length
    packageCount := ((memberships db user).flatMap fun (space, _) => allInNamespace db space.name).length
    keyCount := (db.signingKeys.select (·.userId == user.id)).length
    activeSessions := activeSessionCount db user
    publishesUsed, publishesLimit, publishesUnlimited
    pendingScans := ((publishedVersions db user).filter (·.securityStatus == .pending)).length
    flaggedVersions := ((publishedVersions db user).filter (·.securityStatus == .flagged)).length }

end Overview

section Diff

structure SecurityDiffField where
  field : String
  previous : Option String
  current : Option String
  deriving DecidableEq, Repr

structure SecurityDiff where
  fields : List SecurityDiffField
  addedPermissions : List String
  removedPermissions : List String
  addedSecrets : List String
  removedSecrets : List String
  deriving DecidableEq, Repr

/-- `_list_sorted(manifest.get(key))`. -/
def listSorted (host : PackageHost) (value : Option Json) : List String :=
  match value with
  | some (.arr items) => byText id (items.map host.strOf)
  | _ => []

def listed (host : PackageHost) (version : Option AgentVersion) (key : String) : List String :=
  listSorted host (version.bind fun row => row.manifest.get key)

/-- The order of `(v.published_at, v.id)`. -/
def releaseOrder (first second : AgentVersion) : Ordering :=
  (compare first.publishedAt second.publishedAt).then (compare first.id second.id)

def previousVersion (db : Db) (agent : Agent) (version : AgentVersion) : Option AgentVersion :=
  Selection.maxBy releaseOrder ((versionsOf db agent).filter fun row =>
    row.id != version.id && releaseOrder row version == .lt)

/-- `json.dumps(value, sort_keys=True)` is `dumps`. -/
def securityDiff (host : PackageHost) (dumps : Json → String) (previous : Option AgentVersion) (current : AgentVersion) :
    SecurityDiff :=
  let delta (field : String) (prev cur : Option String) : List SecurityDiffField :=
    if prev = cur then [] else [⟨field, prev, cur⟩]
  let texts (key : String) (version : Option AgentVersion) := dumps (.arr ((listed host version key).map Json.str))
  let value (key : String) (version : Option AgentVersion) :=
    dumps ((version.bind fun row => row.manifest.get key).getD .null)
  let sets := ["permissions", "secrets"].flatMap fun key =>
    delta key (some (texts key previous)) (some (texts key current))
  let values := ["runtime", "interfaces", "dependencies", "models", "framework"].flatMap fun key =>
    delta key (some (value key previous)) (some (value key current))
  let signer := delta "signer" (previous.map fun row => row.signature.publicKeyId) (some current.signature.publicKeyId)
  let archive := match previous with
    | none => delta "published" (some "(none)") (some "(first version)")
    | some row => delta "digest" (some row.sha256) (some current.sha256)
  let added (key : String) := (listed host current key).filter fun item => !(listed host previous key).contains item
  let removed (key : String) := (listed host previous key).filter fun item => !(listed host current key).contains item
  { fields := sets ++ values ++ signer ++ archive
    addedPermissions := added "permissions"
    removedPermissions := removed "permissions"
    addedSecrets := added "secrets"
    removedSecrets := removed "secrets" }

end Diff

section Identity

structure VersionIdentity where
  namespaceName : String
  name : String
  version : String
  digest : String
  signerFingerprint : String
  publishedAt : Time
  publishedBy : String
  downloadCount : Nat
  trust : Trust
  reviewStatus : ReviewStatus
  reviewReason : Option String
  securityStatus : SecurityStatus
  securityFindings : List String
  yanked : Bool
  blocked : Bool
  blockedReason : Option String

structure ReviewEventItem where
  action : String
  reason : String
  notes : Option String
  reviewer : String
  digest : String
  signerFingerprint : Option String

structure VersionIdentityDetail where
  identity : VersionIdentity
  manifest : Json
  securityDiff : SecurityDiff
  reviewHistory : List ReviewEventItem

def usernameOf (db : Db) (userId : Nat) : String := ((db.users.byId userId).map User.username).getD "unknown"

/-- The history so far with the names of the reviewers looked up so far. -/
def historyStep (db : Db) (found : List (Nat × String) × List ReviewEventItem) (event : VersionReviewEvent) :
    List (Nat × String) × List ReviewEventItem :=
  let (reviewers, history) := found
  let item (reviewer : String) : ReviewEventItem :=
    ⟨event.action, event.reason, event.notes, reviewer, event.digest, event.signerFingerprint⟩
  match reviewers.lookup event.reviewerId with
  | some reviewer => (reviewers, history ++ [item reviewer])
  | none =>
    let reviewer := usernameOf db event.reviewerId
    ((event.reviewerId, reviewer) :: reviewers, history ++ [item reviewer])

def blockedReason (version : AgentVersion) : Option String :=
  if version.reviewStatus = .rejected ∨ version.reviewStatus = .revoked then
    some ("version is " ++ version.reviewStatus.name ++ ": " ++
      (version.reviewReason.filter (· ≠ "")).getD "no reason recorded")
  else if version.securityStatus = .flagged then some "version was flagged by the security scan"
  else none

def publisherVersionIdentity (host : PackageHost) (dumps : Json → String) (db : Db) (user : User)
    (namespaceName name version : String) : Except PublisherRefusal VersionIdentityDetail := do
  let _ ← requireNamespaceMember db user namespaceName
  let agent ← Outcome.demand (agentByName db namespaceName name) (.publisherError "agent not found")
  let row ← Outcome.demand (versionByName db agent version) (.publisherError "version not found")
  let blocked := blockedReason row
  return {
    identity :=
      { namespaceName := agent.namespaceName
        name := agent.name
        version := row.version
        digest := row.sha256
        signerFingerprint := row.signature.publicKeyId
        publishedAt := row.publishedAt
        publishedBy := usernameOf db row.publishedById
        downloadCount := row.downloadCount
        trust := trustOf row
        reviewStatus := row.reviewStatus
        reviewReason := row.reviewReason
        securityStatus := row.securityStatus
        securityFindings := row.securityFindings
        yanked := row.yanked
        blocked := blocked.isSome
        blockedReason := blocked }
    manifest := row.manifest
    securityDiff := securityDiff host dumps (previousVersion db agent row) row
    reviewHistory := ((reviewsFor db row).foldl (historyStep db) ([], [])).2 }

end Identity

section History

variable {host : PackageHost} {dumps : Json → String} {db : Db} {agent : Agent}

instance : Std.TransCmp releaseOrder :=
  inferInstanceAs (Std.TransCmp (compareLex (compareOn AgentVersion.publishedAt) (compareOn AgentVersion.id)))

def releases (db : Db) (agent : Agent) : List AgentVersion :=
  (Selection.descending releaseOrder (versionsOf db agent)).reverse

theorem releaseOrder_distinct {first second : AgentVersion} (left : first ∈ db.agentVersions.rows)
    (right : second ∈ db.agentVersions.rows) (same : releaseOrder first second = .eq) : first = second :=
  Table.eq_of_id left right (Nat.compare_eq_eq.mp (Ordering.then_eq_eq.mp same).2)

theorem releases_trail (db : Db) (agent : Agent) :
    Selection.Trail releaseOrder (versionsOf db agent) (releases db agent) where
  perm := (List.reverse_perm _).trans (Selection.descending_perm releaseOrder _)
  strict := by
    have perm := Selection.descending_perm releaseOrder (versionsOf db agent)
    have apart : (Selection.descending releaseOrder (versionsOf db agent)).Pairwise fun first second => first ≠ second :=
      perm.symm.nodup ((db.agentVersions.distinct.filter _).imp fun apart same => apart.1 (congrArg Row.id same))
    refine List.pairwise_reverse.mpr ?_
    refine ((Selection.descending_sorted (versionsOf db agent)).and apart).imp_of_mem ?_
    rintro first second left right ⟨above, different⟩
    cases compared : releaseOrder first second with
    | lt => exact absurd compared above
    | eq =>
      have one := List.mem_of_mem_filter (perm.mem_iff.mp left)
      have two := List.mem_of_mem_filter (perm.mem_iff.mp right)
      exact absurd (releaseOrder_distinct one two compared) different
    | gt => exact Std.OrientedCmp.lt_of_gt compared

theorem previousVersion_eq {version : AgentVersion} (stored : version ∈ db.agentVersions.rows) :
    previousVersion db agent version = Selection.predecessor releaseOrder (versionsOf db agent) version := by
  unfold previousVersion Selection.predecessor
  congr 1
  refine List.filter_congr ?_
  intro row member
  cases below : releaseOrder row version == .lt with
  | false => exact Bool.and_false _
  | true =>
    rw [Bool.and_true, bne_iff_ne]
    intro same
    have itself : releaseOrder version version = .eq := Std.ReflCmp.compare_self
    rw [Table.eq_of_id (List.mem_of_mem_filter member) stored same, itself] at below
    cases below

def applyDelta (held added removed : List String) : List String :=
  held.filter (fun item => !removed.contains item) ++ added

def applyPermissions (held : List String) (diff : SecurityDiff) : List String :=
  applyDelta held diff.addedPermissions diff.removedPermissions

def applySecrets (held : List String) (diff : SecurityDiff) : List String :=
  applyDelta held diff.addedSecrets diff.removedSecrets

theorem mem_applyDelta {held previous current : List String} (same : ∀ item, item ∈ held ↔ item ∈ previous) (item : String) :
    item ∈ applyDelta held (current.filter fun item => !previous.contains item)
      (previous.filter fun item => !current.contains item) ↔ item ∈ current := by
  simp only [applyDelta, List.mem_append, List.mem_filter, same, Bool.not_eq_true', List.contains_eq_mem,
    decide_eq_false_iff_not, not_and, not_not]
  tauto

def diffOf (host : PackageHost) (dumps : Json → String) (db : Db) (agent : Agent) (version : AgentVersion) : SecurityDiff :=
  securityDiff host dumps (previousVersion db agent version) version

theorem differences_tell {key : String} (apply : List String → SecurityDiff → List String)
    (step : ∀ held previous row, (∀ item, item ∈ held ↔ item ∈ listed host previous key) →
      ∀ item, item ∈ apply held (securityDiff host dumps previous row) ↔ item ∈ listed host (some row) key)
    (front : List AgentVersion) (row : AgentVersion) (item : String) :
    item ∈ (Selection.differences (securityDiff host dumps) none (front ++ [row])).foldl apply [] ↔
      item ∈ listed host (some row) key := by
  have reached : ∀ item, item ∈ (Selection.differences (securityDiff host dumps) none (front ++ [row])).foldl apply [] ↔
      item ∈ listed host ((front ++ [row]).getLast?.or none) key :=
    Selection.differences_foldl apply (fun held version => ∀ item, item ∈ held ↔ item ∈ listed host version key) step
      fun _ => Iff.rfl
  rw [List.getLast?_concat] at reached
  exact reached item

/-- The diffs shown on the pages of a package's versions, applied from the first release up to any other, give the
    permissions and the secrets of that release. -/
theorem security_diffs_compose (host : PackageHost) (dumps : Json → String) (db : Db) (agent : Agent) :
    ∀ front row back, releases db agent = front ++ row :: back →
      let diffs := (front ++ [row]).map (diffOf host dumps db agent)
      (∀ item, item ∈ diffs.foldl applyPermissions [] ↔ item ∈ listed host (some row) "permissions") ∧
        ∀ item, item ∈ diffs.foldl applySecrets [] ↔ item ∈ listed host (some row) "secrets" := by
  intro front row back split diffs
  have trails := releases_trail db agent
  rw [split] at trails
  have stored : ∀ version ∈ front ++ [row], version ∈ db.agentVersions.rows := by
    intro version member
    have passed : version ∈ front ++ row :: back := by
      rw [List.append_cons]
      exact List.mem_append_left back member
    exact List.mem_of_mem_filter (trails.perm.mem_iff.mp passed)
  have along : diffs = Selection.differences (securityDiff host dumps) none (front ++ [row]) := by
    have passed : Selection.Trail releaseOrder (versionsOf db agent) ([] ++ (front ++ [row]) ++ back) := by
      simpa using trails
    refine Eq.trans ?_ (Selection.differences_eq_map passed)
    refine List.map_congr_left ?_
    intro version member
    rw [diffOf, previousVersion_eq (stored version member)]
  rw [along]
  exact ⟨differences_tell applyPermissions (fun _ _ _ same => mem_applyDelta same) front row,
    differences_tell applySecrets (fun _ _ _ same => mem_applyDelta same) front row⟩

def literalHost : PackageHost := { workshopHost with strOf := fun value => value.asString.getD "" }

def reasking : Db :=
  let db := (serve workshopHost workshop (byColleague 5 (.publishVersion (secondBuild.submission "public" none)))).db
  let asks (permission : String) : Json := .obj [("permissions", .arr [.str permission])]
  setVersion (setVersion db 1 fun row => { row with manifest := asks "network" }) 2
    fun row => { row with manifest := asks "filesystem" }

theorem security_diffs_compose_reasking :
    ∃ agent first second, releases reasking agent = [first, second] ∧ listed literalHost (some second) "permissions" = ["filesystem"] ∧
      ∀ item, item ∈ ([first, second].map (diffOf literalHost (fun _ => "") reasking agent)).foldl applyPermissions [] ↔
        item ∈ listed literalHost (some second) "permissions" := by
  have asked : (agentByName reasking "acme" "tool").any (fun agent =>
      (releases reasking agent).map (fun row => listed literalHost (some row) "permissions") == [["network"], ["filesystem"]]) = true := by
    decide +kernel
  obtain ⟨agent, _, asked⟩ := (Option.any_eq_true _ _).mp asked
  have told := beq_iff_eq.mp asked
  have two : (releases reasking agent).length = 2 := by simpa using congrArg List.length told
  obtain ⟨first, second, released⟩ := List.length_eq_two.mp two
  rw [released] at told
  have last : listed literalHost (some second) "permissions" = ["filesystem"] := by
    simpa using congrArg (fun lists => lists.getLast?) told
  exact ⟨agent, first, second, released, last,
    (security_diffs_compose literalHost (fun _ => "") reasking agent [first] second [] released).1⟩

end History

section Pages

variable {host : PackageHost} {dumps : Json → String} {db : Db} {user : User} {namespaceName name version : String}

theorem blockedReason_eq (row : AgentVersion) : blockedReason row = blockedDownloadReason row := by
  unfold blockedReason blockedDownloadReason
  have blocks : (row.reviewStatus = .rejected ∨ row.reviewStatus = .revoked) ↔ row.reviewStatus.blocked = true := by
    cases row.reviewStatus <;> simp [ReviewStatus.blocked]
  simp only [blocks]
  split
  · congr 2
    cases row.reviewReason with
    | none => rfl
    | some reason =>
      by_cases blank : reason = ""
      · simp [blank, Option.filter]
      · simp [blank, Option.filter]
  · rfl

theorem history_eq_map (db : Db) (events : List VersionReviewEvent) :
    (events.foldl (historyStep db) ([], [])).2 = events.map fun event =>
      ⟨event.action, event.reason, event.notes, usernameOf db event.reviewerId, event.digest, event.signerFingerprint⟩ := by
  -- the cache of names never disagrees with the table
  suffices cached : ∀ (reviewers : List (Nat × String)) (history : List ReviewEventItem),
      (∀ id reviewer, reviewers.lookup id = some reviewer → reviewer = usernameOf db id) →
      (events.foldl (historyStep db) (reviewers, history)).2 = history ++ events.map fun event =>
        ⟨event.action, event.reason, event.notes, usernameOf db event.reviewerId, event.digest, event.signerFingerprint⟩ from
    cached [] [] fun _ _ found => by cases found
  induction events with
  | nil => exact fun _ history _ => (List.append_nil history).symm
  | cons event rest ih =>
    intro reviewers history known
    rw [List.foldl_cons, historyStep]
    dsimp only
    split
    · rename_i reviewer found
      rw [ih reviewers _ known, known _ _ found]
      simp
    · rename_i missing
      rw [ih]
      · simp
      · intro id reviewer found
        rw [List.lookup_cons] at found
        split at found
        · rename_i same
          cases found
          rw [beq_iff_eq.mp same]
        · exact known id reviewer found

def lastWord (history : List ReviewEventItem) : ReviewStatus × Option String :=
  match history.getLast? with
  | none => (.pending, none)
  | some item =>
    (((reviewActions.find? fun action => action.name == item.action).map ReviewAction.status).getD .pending, some item.reason)

theorem reviewActions_find (action : ReviewAction) :
    (reviewActions.find? fun candidate => candidate.name == action.name) = some action := by
  cases action <;> decide

theorem replay_lastWord (db : Db) {events : List VersionReviewEvent}
    (known : ∀ event ∈ events, ∃ action, event.action = ReviewAction.name action) :
    ((events.foldl Review.amend {}).status, (events.foldl Review.amend {}).reason) =
      lastWord (events.foldl (historyStep db) ([], [])).2 := by
  rw [history_eq_map]
  rcases List.eq_nil_or_concat events with rfl | ⟨front, last, rfl⟩
  · rfl
  · obtain ⟨action, named⟩ := known last (by simp)
    rw [List.concat_eq_append, List.foldl_append, List.map_append]
    unfold lastWord
    rw [List.map_singleton, List.getLast?_concat]
    change ((Review.amend _ last).status, (Review.amend _ last).reason) = _
    rw [Review.amend_action _ last action named]
    dsimp only
    rw [named, reviewActions_find]
    split
    · rename_i same
      rw [same.1, same.2]
      rfl
    · rfl

/-- In every run, the page of a version has a history that ends in the review it states, names one digest only, and
    calls the version blocked just when its archive is refused for that reason. -/
theorem pages_tell {store : Store} {requests : List Request} (unused : Unused store.db)
    (apart : ∀ request ∈ requests, request.Apart) (named : version ≠ "latest") {page : VersionIdentityDetail}
    (shown : publisherVersionIdentity host dumps (requests.foldl (serve host) store).db user namespaceName name version =
      .ok page) :
    lastWord page.reviewHistory = (page.identity.reviewStatus, page.identity.reviewReason) ∧
      (∀ item ∈ page.reviewHistory, item.digest = page.identity.digest) ∧
      page.identity.securityStatus = scanStatus page.identity.securityFindings ∧
      ∀ agent subject reason, agentByName (requests.foldl (serve host) store).db namespaceName name = some agent →
        canView (requests.foldl (serve host) store).db agent subject = true →
        (downloadArchive (requests.foldl (serve host) store).db (requests.foldl (serve host) store).files namespaceName name
            version subject = .error ⟨.versionBlocked, reason⟩ ↔ page.identity.blockedReason = some reason) := by
  have reviewed : Reviewed (ledgers (requests.foldl (serve host) store).db) := reviewed_run unused apart
  have scanned : Scanned (ledgers (requests.foldl (serve host) store).db) := scanned_run unused apart
  revert reviewed scanned shown
  generalize requests.foldl (serve host) store = final
  intro shown reviewed scanned
  unfold publisherVersionIdentity at shown
  simp only [Outcome.bind_eq_ok, Outcome.demand_eq_ok, Outcome.pure_eq_ok] at shown
  obtain ⟨space, _, agent, found, row, known, rfl⟩ := shown
  have stored := Table.one_mem known
  have explained := reviewed.explains row stored
  have about := about_eq_reviewsFor final.db row
  refine ⟨?_, ?_, scanned row stored, ?_⟩
  · have known : ∀ event ∈ reviewsFor final.db row, ∃ action, event.action = ReviewAction.name action :=
      fun event member => reviewed.actions event (List.mem_of_mem_filter member)
    have told : reviewOf row = (reviewsFor final.db row).foldl Review.amend {} := by
      rw [← about]
      exact explained
    rw [← replay_lastWord final.db known, ← told]
    rfl
  · intro item member
    rw [history_eq_map] at member
    obtain ⟨event, recorded, rfl⟩ := List.mem_map.mp member
    obtain ⟨subject, listed⟩ := List.mem_filter.mp recorded
    obtain ⟨version, present, same, digest⟩ := reviewed.subjects event subject
    have itself := Table.eq_of_id present stored (same.trans (beq_iff_eq.mp listed))
    rw [← itself]
    exact digest.symm
  · intro other subject reason again viewed
    have same : other = agent := Option.some.inj (again.symm.trans found)
    rw [downloadArchive_eq found (same ▸ viewed) named known, serveArchive_blocked]
    exact Iff.of_eq (congrArg (· = some reason) (blockedReason_eq row).symm)

theorem pages_tell_revoking : ∃ page,
    publisherVersionIdentity workshopHost (fun _ => "") (revoking.foldl (serve workshopHost) opened).db
      Organizations.founder "acme" "tool" "1.0.0" = .ok page ∧
    lastWord page.reviewHistory = (page.identity.reviewStatus, page.identity.reviewReason) := by
  have shown : (publisherVersionIdentity workshopHost (fun _ => "") (revoking.foldl (serve workshopHost) opened).db
      Organizations.founder "acme" "tool" "1.0.0").isOk = true := by decide +kernel
  obtain ⟨page, shown⟩ := Outcome.isOk_iff.mp shown
  exact ⟨page, shown, (pages_tell unused_opened revoking_apart (by decide) shown).1⟩

end Pages

section Overviews

variable {host : PackageHost} {store : Store} {requests : List Request} {db : Db} {user : User}

theorem publishedVersions_stored {row : AgentVersion} (member : row ∈ publishedVersions db user) :
    row ∈ db.agentVersions.rows := by
  unfold publishedVersions at member
  simp only [List.mem_flatMap] at member
  obtain ⟨_, _, agent, _, listed⟩ := member
  exact List.mem_of_mem_filter ((Selection.descending_perm semverOrder _).mem_iff.mp listed)

theorem accountAgeDays_eq {now : Time} (past : user.createdAt ≤ now) :
    (accountAgeDays now user : Int) = ((now : Int) - user.createdAt) / days 1 := by
  unfold accountAgeDays
  rw [Int.natCast_ediv, Int.ofNat_sub past]

/-- The check takes an account that is dated ahead of `now` for a new one, the overview for one that is newer still. -/
theorem publishQuotaStatus_open_iff (settings : Settings) (now : Time) (db : Db) (user : User) :
    (((publishQuotaStatus settings now db user).2.2 = true ∨
        (publishQuotaStatus settings now db user).1 < (publishQuotaStatus settings now db user).2.1) ↔
      checkPublishQuota settings now db user = .ok ()) ↔
    (user.createdAt ≤ now ∨ 0 < settings.publishQuotaNewAccountDays ∨
      countByAction db user.id "version.published" (now - hours 24) < settings.publishQuotaNewAccountDaily) := by
  have counted : (publishQuotaStatus settings now db user).2.2 = true ∨
      (publishQuotaStatus settings now db user).1 < (publishQuotaStatus settings now db user).2.1 ↔
        (settings.publishQuotaNewAccountDays : Int) ≤ ((now : Int) - user.createdAt) / days 1 ∨
          countByAction db user.id "version.published" (now - hours 24) < settings.publishQuotaNewAccountDaily := by
    unfold publishQuotaStatus
    split <;> simp [*]
  have checked : checkPublishQuota settings now db user = .ok () ↔
      settings.publishQuotaNewAccountDays ≤ accountAgeDays now user ∨
        countByAction db user.id "version.published" (now - hours 24) < settings.publishQuotaNewAccountDaily := by
    unfold checkPublishQuota
    split <;> simp [*]
  rw [counted, checked]
  by_cases past : user.createdAt ≤ now
  · rw [← accountAgeDays_eq past, Int.ofNat_le]
    exact iff_of_true Iff.rfl (Or.inl past)
  · have later : now < user.createdAt := Nat.lt_of_not_le past
    have ahead : ((now : Int) - user.createdAt) / days 1 < 0 :=
      Int.ediv_neg_of_neg_of_pos (Int.sub_neg_of_lt (Int.ofNat_lt.mpr later)) (by decide)
    have older : ¬ (settings.publishQuotaNewAccountDays : Int) ≤ ((now : Int) - user.createdAt) / days 1 := by
      omega
    have newest : accountAgeDays now user = 0 := by
      unfold accountAgeDays
      rw [Nat.sub_eq_zero_of_le later.le, Nat.zero_div]
    rw [newest, or_iff_right older, or_iff_right past, Nat.le_zero, Nat.pos_iff_ne_zero]
    tauto

/-- In every run, an overview shows no pending scan, as many flagged versions as have findings, and a publish quota
    that is used up just when the next publish is refused for it, but for a busy account from the future where no
    account counts as new. -/
theorem overviews_tell (unused : Unused store.db) (apart : ∀ request ∈ requests, request.Apart) (settings : Settings)
    (now : Time) (user : User) :
    let db := (requests.foldl (serve host) store).db
    let overview := publisherOverview settings now db user
    overview.pendingScans = 0 ∧
      overview.flaggedVersions = ((publishedVersions db user).filter (·.securityFindings ≠ [])).length ∧
      ((overview.publishesUnlimited = true ∨ overview.publishesUsed < overview.publishesLimit ↔
          checkPublishQuota settings now db user = .ok ()) ↔
        (user.createdAt ≤ now ∨ 0 < settings.publishQuotaNewAccountDays ∨
          countByAction db user.id "version.published" (now - hours 24) < settings.publishQuotaNewAccountDaily)) := by
  intro db overview
  have scanned : Scanned (ledgers db) := scanned_run unused apart
  have settled : ∀ row ∈ publishedVersions db user, row.securityStatus = scanStatus row.securityFindings :=
    fun row member => scanned row (publishedVersions_stored member)
  refine ⟨?_, ?_, publishQuotaStatus_open_iff settings now db user⟩
  · refine List.length_eq_zero_iff.mpr (List.filter_eq_nil_iff.mpr ?_)
    intro row member
    rw [settled row member]
    unfold scanStatus
    split <;> decide
  · refine congrArg List.length (List.filter_congr ?_)
    intro row member
    rw [settled row member]
    unfold scanStatus
    split <;> simp_all

theorem overviews_tell_revoking :
    (publisherOverview workshopHost.settings 7 (revoking.foldl (serve workshopHost) opened).db
      Organizations.founder).pendingScans = 0 ∧
    (publishedVersions (revoking.foldl (serve workshopHost) opened).db Organizations.founder).length = 1 :=
  ⟨(overviews_tell unused_opened revoking_apart workshopHost.settings 7 Organizations.founder).1, by decide +kernel⟩

end Overviews

end Registry.Packages
