import OpenAgentHub.Registry.Packages.Hiding
import OpenAgentHub.Registry.Packages.Latest

namespace Registry.Packages

open Relational

section Entries

variable {db : Db} {agent : Agent} {row : AgentVersion} {namespaceName name version reason : String}

def Revokes (db : Db) (namespaceName name version reason : String) : Prop :=
  ∃ item ∈ getRevocationFeed db, item.namespaceName = namespaceName ∧ item.name = name ∧ item.version = version ∧
    item.reason = reason

theorem versionByName_eq_some :
    versionByName db agent version = some row ↔
      row ∈ db.agentVersions.rows ∧ row.agentId = agent.id ∧ row.version = version := by
  unfold versionByName
  rw [Table.one_eq_some]
  · simp
  · intro first left second right one two
    simp only [Bool.and_eq_true, beq_iff_eq] at one two
    apply Table.eq_of_clash left right
    simp [Row.clash, one, two]

theorem revokes_iff (named : agentByName db namespaceName name = some agent)
    (versioned : versionByName db agent version = some row) :
    Revokes db namespaceName name version reason ↔ blockedDownloadReason row = some reason := by
  obtain ⟨known, rfl, rfl⟩ := agentByName_eq_some.mp named
  obtain ⟨stored, about, rfl⟩ := versionByName_eq_some.mp versioned
  constructor
  · rintro ⟨item, listed, space, title, text, because⟩
    obtain ⟨other, blocked, package, found, reason', because', rfl⟩ := mem_getRevocationFeed.mp listed
    obtain ⟨present, key⟩ := Table.byId_eq_some.mp found
    have same : package = agent := by
      have again := agentByName_eq_some.mpr ⟨present, space, title⟩
      exact Option.some.inj (again.symm.trans named)
    subst same
    have again := versionByName_eq_some.mpr ⟨(mem_blockedVersions.mp blocked).1, key.symm, text⟩
    rw [versioned] at again
    cases again
    exact because'.trans (congrArg some because)
  · intro because
    have found : db.agents.byId row.agentId = some agent := Table.byId_eq_some.mpr ⟨known, about.symm⟩
    have blocked := mem_blockedVersions.mpr ⟨stored, Option.isSome_of_eq_some because⟩
    exact ⟨_, mem_getRevocationFeed.mpr ⟨row, blocked, agent, found, reason, because, rfl⟩, rfl, rfl, rfl, rfl⟩

end Entries

section Refusals

variable {db : Db} {files : Archives} {agent : Agent} {row : AgentVersion} {subject : Option Subject}
  {namespaceName name version reason : String}

theorem serveArchive_blocked :
    serveArchive files namespaceName name agent row = .error ⟨.versionBlocked, reason⟩ ↔
      blockedDownloadReason row = some reason := by
  have unserved : Outcome.Clean (·.cls ≠ .versionBlocked) (do
      let stored ← files.get namespaceName name row.version
      let data ← Outcome.demand stored ⟨.archiveMissing, "archive missing on server"⟩
      return (⟨data, row.id, agent.organizationId⟩ : Download)) := by
    unfold Archives.get archivePath
    simp [Outcome.clean_bind, Outcome.clean_ensure, invalidSegment]
    intro _ _ _
    cases files [namespaceName, name, row.version ++ ".ahb"] <;> simp
  unfold serveArchive ensureNotBlocked
  cases blockedDownloadReason row with
  | none => exact iff_of_false (fun failed => unserved _ failed rfl) (by simp)
  | some other => simp [Bind.bind, Except.bind]

theorem viewableAgent_eq (named : agentByName db namespaceName name = some agent) (viewed : canView db agent subject = true) :
    viewableAgent db namespaceName name subject = .ok agent := by
  unfold viewableAgent
  rw [named, Option.filter_some, if_pos viewed]
  rfl

theorem downloadArchive_eq (named : agentByName db namespaceName name = some agent)
    (viewed : canView db agent subject = true) (proper : version ≠ "latest")
    (versioned : versionByName db agent version = some row) :
    downloadArchive db files namespaceName name version subject = serveArchive files namespaceName name agent row := by
  have resolved : resolveVersion db agent version = some row := (if_neg proper).trans versioned
  unfold downloadArchive
  simp only [viewableAgent_eq named viewed, Bind.bind, Except.bind, resolved, Outcome.demand]

def RefusedAsListed {α : Type} (db : Db) (namespaceName name version : String) (outcome : Except Raised α) : Prop :=
  ∀ reason, outcome = .error ⟨.versionBlocked, reason⟩ ↔ Revokes db namespaceName name version reason

theorem served_asListed {outcome : Except Raised Download} (named : agentByName db namespaceName name = some agent)
    (versioned : versionByName db agent version = some row)
    (served : outcome = serveArchive files namespaceName name agent row) :
    RefusedAsListed db namespaceName name version outcome := by
  intro reason
  rw [served, serveArchive_blocked, revokes_iff named versioned]

theorem token_asListed {host : PackageHost} {now : Time} {token : String} {expires : Int}
    (named : agentByName db namespaceName name = some agent) (proper : version ≠ "latest")
    (versioned : versionByName db agent version = some row)
    (valid : verifyDownloadToken host now token (tokenTarget namespaceName name row) = .ok (true, expires)) :
    RefusedAsListed db namespaceName name version
      (downloadArchiveViaToken host now db files namespaceName name version token) := by
  have resolved : resolveVersion db agent version = some row := (if_neg proper).trans versioned
  have served : downloadArchiveViaToken host now db files namespaceName name version token =
      serveArchive files namespaceName name agent row := by
    unfold downloadArchiveViaToken
    simp only [named, Bind.bind, Except.bind, resolved, Outcome.demand, valid]
    rfl
  exact served_asListed named versioned served

theorem issue_asListed {host : PackageHost} {now : Time} {caller : Subject}
    (named : agentByName db namespaceName name = some agent) (viewed : canView db agent (some caller) = true)
    (proper : version ≠ "latest") (versioned : versionByName db agent version = some row) :
    RefusedAsListed db namespaceName name version
      (issueDownloadUrl host now db namespaceName name version (some caller)) := by
  intro reason
  rw [revokes_iff named versioned]
  have resolved : resolveVersion db agent version = some row := (if_neg proper).trans versioned
  unfold issueDownloadUrl
  simp only [viewableAgent_eq named viewed, Bind.bind, Except.bind, resolved, Outcome.demand, ensureNotBlocked]
  cases blockedDownloadReason row <;> simp [Pure.pure, Except.pure]

end Refusals

section Exactness

/-- The feed lists versions that exist, each once, and they are the versions that no way of downloading serves. -/
structure FeedExact (host : PackageHost) (now : Time) (db : Db) (files : Archives) : Prop where
  exist : ∀ item ∈ getRevocationFeed db, ∃ agent row, agentByName db item.namespaceName item.name = some agent ∧
    versionByName db agent item.version = some row ∧ item.digest = row.sha256
  once : (getRevocationFeed db).Pairwise fun first second =>
    (first.namespaceName, first.name, first.version) ≠ (second.namespaceName, second.name, second.version)
  archive : ∀ namespaceName name version agent row subject, agentByName db namespaceName name = some agent →
    versionByName db agent version = some row → version ≠ "latest" → canView db agent subject = true →
    RefusedAsListed db namespaceName name version (downloadArchive db files namespaceName name version subject)
  token : ∀ namespaceName name version agent row token expires, agentByName db namespaceName name = some agent →
    versionByName db agent version = some row → version ≠ "latest" →
    verifyDownloadToken host now token (tokenTarget namespaceName name row) = .ok (true, expires) →
    RefusedAsListed db namespaceName name version
      (downloadArchiveViaToken host now db files namespaceName name version token)
  url : ∀ namespaceName name version agent row caller, agentByName db namespaceName name = some agent →
    versionByName db agent version = some row → version ≠ "latest" → canView db agent (some caller) = true →
    RefusedAsListed db namespaceName name version
      (issueDownloadUrl host now db namespaceName name version (some caller))

theorem feed_exist {db : Db} {item : RevocationItem} (listed : item ∈ getRevocationFeed db) :
    ∃ agent row, agentByName db item.namespaceName item.name = some agent ∧
      versionByName db agent item.version = some row ∧ item.digest = row.sha256 := by
  obtain ⟨row, blocked, agent, found, reason, _, rfl⟩ := mem_getRevocationFeed.mp listed
  obtain ⟨known, key⟩ := Table.byId_eq_some.mp found
  exact ⟨agent, row, agentByName_eq_some.mpr ⟨known, rfl, rfl⟩,
    versionByName_eq_some.mpr ⟨(mem_blockedVersions.mp blocked).1, key.symm, rfl⟩, rfl⟩

theorem feed_once (db : Db) : (getRevocationFeed db).Pairwise fun first second =>
    (first.namespaceName, first.name, first.version) ≠ (second.namespaceName, second.name, second.version) := by
  have apart : (blockedVersions db).Pairwise Apart :=
    ((Selection.descending_perm _ _).pairwise_iff fun apart => Std.Symm.symm _ _ apart).mpr (db.agentVersions.distinct.filter _)
  refine List.Pairwise.filterMap _ ?_ apart
  intro first second apart one listed two listed' same
  simp only [Option.bind_eq_bind, Option.bind_eq_some_iff, Option.pure_def, Option.some.injEq] at listed listed'
  obtain ⟨agent, found, _, _, rfl⟩ := listed
  obtain ⟨other, found', _, _, rfl⟩ := listed'
  simp only [revocationItem, Prod.mk.injEq] at same
  obtain ⟨space, title, text⟩ := same
  obtain ⟨known, key⟩ := Table.byId_eq_some.mp found
  obtain ⟨known', key'⟩ := Table.byId_eq_some.mp found'
  have agents : agent = other := Table.eq_of_clash known known' (by simp [Row.clash, space, title])
  have clash : Row.clash first second = true := by
    have package : first.agentId = second.agentId := key.symm.trans ((congrArg Row.id agents).trans key')
    simp [Row.clash, package, text]
  rw [apart.2] at clash
  cases clash

/-- Every client that follows the feed refuses just what the registry refuses. -/
theorem feed_exact (host : PackageHost) (now : Time) (db : Db) (files : Archives) : FeedExact host now db files where
  exist _ listed := feed_exist listed
  once := feed_once db
  archive _ _ _ _ _ _ named versioned proper viewed :=
    served_asListed named versioned (downloadArchive_eq named viewed proper versioned)
  token _ _ _ _ _ _ _ named versioned proper valid := token_asListed named proper versioned valid
  url _ _ _ _ _ _ named versioned proper viewed := issue_asListed named viewed proper versioned

end Exactness

end Registry.Packages
