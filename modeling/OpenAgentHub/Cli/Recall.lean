import OpenAgentHub.Cli.Revocation
import OpenAgentHub.Registry.Packages.Feed

namespace Cli.Revocation

open Relational Runtime Program
open Registry.Packages (agentByName versionByName agentByName_eq_some versionByName_eq_some mem_blockedVersions mem_getRevocationFeed
  getRevocationFeed revocationItem blockedDownloadReason)

/-- The version that the record names has been rejected or revoked, and no other one of the package has its digest. -/
def Withdrawn (record : InstalledAgent) (db : Registry.Db) : Prop :=
  ∃ agent row, agentByName db record.namespaceName record.name = some agent ∧
    versionByName db agent record.version = some row ∧ row.reviewStatus.blocked = true ∧
    ∀ other ∈ db.agentVersions.rows, other.agentId = agent.id → some other.sha256 = record.archiveDigest → other = row

def shipped (record : InstalledAgent) : String × String × String × Option String :=
  (record.namespaceName, record.name, record.version, record.archiveDigest)

/-- The registry answers with the feed of a time at which the version is withdrawn, if it answers. -/
def ToldOf (record : InstalledAgent) (attempt : Attempt) : Prop :=
  ∀ items, attempt.around.revocations = .ok items → ∃ db, Withdrawn record db ∧ items = (getRevocationFeed db).map received

def Cooling (agentKey : String) (record : InstalledAgent) (withdrawn : Nat) (watched : Watched) : Prop :=
  ∃ installed, watched.config.installed.get agentKey = some installed ∧ shipped installed = shipped record ∧
    ((∀ checkedAt ∈ installed.statusCheckedAt, checkedAt < withdrawn) ∨
      ∃ status, installed.reviewStatus = some status ∧ Blocking status)

/-- A run of the agent that reaches the registry an hour later does not pass. Over http the stored status is not asked for. -/
def Stopped (agentKey : String) (withdrawn : Nat) (before : Watched) (attempt : Attempt) (_ : Watched) : Prop :=
  (∃ installed, attempt.lookedUp before.config = some (agentKey, installed)) → withdrawn + statusFreshMs ≤ attempt.around.now →
    (∃ items, attempt.around.revocations = .ok items) → before.config.registryUrl.getD registryDefault ≠ "" →
    attempt.execute.interfaceName ≠ .http → attempt.passes before.config = none

section Feed

variable {record installed : InstalledAgent} {db : Registry.Db}

theorem blocking_of_blocked {status : Registry.ReviewStatus} (blocked : status.blocked = true) : Blocking status.name := by
  cases status with
  | rejected => exact .inl rfl
  | revoked => exact .inr rfl
  | pending | verified | warning | changesRequested => cases blocked

/-- The entry that the client finds in the feed is the one of the version. -/
theorem withdrawn_found (withdrawn : Withdrawn record db) (same : shipped installed = shipped record) :
    ∃ item, ((getRevocationFeed db).map received).find? (·.concerns installed) = some item ∧ Blocking item.reviewStatus := by
  obtain ⟨agent, row, named, versioned, blocked, unique⟩ := withdrawn
  simp only [shipped, Prod.mk.injEq] at same
  obtain ⟨space, title, version, digest⟩ := same
  obtain ⟨known, isSpace, isTitle⟩ := agentByName_eq_some.mp named
  obtain ⟨stored, owned, isVersion⟩ := versionByName_eq_some.mp versioned
  have reasoned : (blockedDownloadReason row).isSome = true := by
    unfold blockedDownloadReason
    rw [if_pos blocked]
    rfl
  obtain ⟨reason, because⟩ := Option.isSome_iff_exists.mp reasoned
  -- the feed lists the version, so the search ends with some entry
  have listed : revocationItem agent row reason ∈ getRevocationFeed db :=
    mem_getRevocationFeed.mpr ⟨row, mem_blockedVersions.mpr ⟨stored, reasoned⟩, agent, Table.byId_eq_some.mpr ⟨known, owned.symm⟩,
      reason, because, rfl⟩
  have concerns : (received (revocationItem agent row reason)).concerns installed = true := by
    simp [RevocationItem.concerns, received, revocationItem, isSpace, isTitle, isVersion, space, title, version]
  have isFound : (((getRevocationFeed db).map received).find? (·.concerns installed)).isSome = true :=
    List.find?_isSome.mpr ⟨_, List.mem_map.mpr ⟨_, listed, rfl⟩, concerns⟩
  obtain ⟨item, found⟩ := Option.isSome_iff_exists.mp isFound
  refine ⟨item, found, ?_⟩
  -- and an entry that concerns it, by its version or by its digest, is about the same row
  have theirs := List.find?_some found
  obtain ⟨entry, listed', rfl⟩ := List.mem_map.mp (List.mem_of_find?_eq_some found)
  obtain ⟨other, blocked', package, found', reason', _, rfl⟩ := mem_getRevocationFeed.mp listed'
  simp only [RevocationItem.concerns, received, revocationItem, Bool.and_eq_true, Bool.or_eq_true, beq_iff_eq] at theirs
  obtain ⟨⟨sameSpace, sameTitle⟩, either⟩ := theirs
  obtain ⟨known', key⟩ := Table.byId_eq_some.mp found'
  have again := agentByName_eq_some.mpr ⟨known', sameSpace.trans space, sameTitle.trans title⟩
  rw [named] at again
  cases again
  have stored' := (mem_blockedVersions.mp blocked').1
  have isRow : other = row := by
    rcases either with sameVersion | sameDigest
    · have again := versionByName_eq_some.mpr ⟨stored', key.symm, sameVersion.trans version⟩
      rw [versioned] at again
      exact (Option.some.inj again).symm
    · exact unique other stored' key.symm (sameDigest.trans digest)
  rw [isRow]
  exact blocking_of_blocked blocked

end Feed

section Runs

variable {attempt : Attempt} {watched : Watched} {config : OpenAgentHubConfig} {agentKey : String} {record installed : InstalledAgent}
  {item : RevocationItem} {withdrawn : Nat}

theorem refreshed_record (lookedUp : attempt.lookedUp watched.config = some (agentKey, installed))
    (refreshed : attempt.refreshed watched.config = some (agentKey, some item)) :
    (run watched attempt).config.installed.get agentKey =
      some { installed with reviewStatus := some item.reviewStatus, statusCheckedAt := some attempt.around.now } := by
  obtain ⟨raised, ended⟩ := prepareRunContext_found lookedUp refreshed
  have after : (run watched attempt).config =
      (recordStatusRefresh watched.config agentKey (some item.reviewStatus) attempt.around.now).getD watched.config := by
    simp only [run, Program.final, runCommand, bind_apply, ended, Option.bind_some, Option.map_some, Option.getD_some]
  rw [after, recordStatusRefresh_get (lookedUp_get lookedUp), if_pos rfl]

theorem refreshed_blocking (told : ToldOf record attempt) (same : shipped installed = shipped record)
    (lookedUp : attempt.lookedUp config = some (agentKey, installed)) {found : String × Option RevocationItem}
    (refreshed : attempt.refreshed config = some found) :
    ∃ item, found = (agentKey, some item) ∧ Blocking item.reviewStatus := by
  unfold Attempt.refreshed at refreshed
  rw [lookedUp] at refreshed
  cases answered : attempt.around.revocations with
  | error raised =>
    rw [answered] at refreshed
    cases refreshed
  | ok items =>
    rw [answered] at refreshed
    dsimp only at refreshed
    obtain ⟨db, isWithdrawn, rfl⟩ := told items answered
    obtain ⟨item, isFound, blocking⟩ := withdrawn_found isWithdrawn same
    split at refreshed
    · cases refreshed
    · cases refreshed
      exact ⟨item, by rw [isFound], blocking⟩

theorem Cooling.kept (cooling : Cooling agentKey record withdrawn watched) (told : ToldOf record attempt) :
    Cooling agentKey record withdrawn (run watched attempt) := by
  obtain ⟨installed, present, same, status⟩ := cooling
  by_cases apart : ∀ item, attempt.refreshed watched.config ≠ some (agentKey, item)
  · refine ⟨installed, ?_, same, status⟩
    rw [run_frame apart]
    exact present
  · obtain ⟨found, refreshed⟩ : ∃ found, attempt.refreshed watched.config = some (agentKey, found) := by
      simpa using apart
    obtain ⟨theirs, lookedUp⟩ := refreshed_lookedUp refreshed
    cases Option.some.inj (present.symm.trans (lookedUp_get lookedUp))
    obtain ⟨item, isItem, blocking⟩ := refreshed_blocking told same lookedUp refreshed
    cases isItem
    exact ⟨_, refreshed_record lookedUp refreshed, same, .inr ⟨_, rfl, blocking⟩⟩

theorem recheck_needed (fresh : installedIsFresh attempt.around.now installed = true)
    (late : withdrawn + statusFreshMs ≤ attempt.around.now) : ¬ ∀ checkedAt ∈ installed.statusCheckedAt, checkedAt < withdrawn := by
  intro early
  obtain ⟨checkedAt, isChecked, within⟩ := (Option.any_eq_true _ _).mp fresh
  have before := early checkedAt isChecked
  have recent := of_decide_eq_true within
  omega

theorem Cooling.stopped (cooling : Cooling agentKey record withdrawn watched) (told : ToldOf record attempt) :
    Stopped agentKey withdrawn watched attempt (run watched attempt) := by
  rintro ⟨theirs, lookedUp⟩ late ⟨items, answered⟩ set overHttp
  obtain ⟨installed, present, same, status⟩ := cooling
  obtain rfl : theirs = installed := Option.some.inj ((lookedUp_get lookedUp).symm.trans present)
  by_contra passes
  obtain ⟨context, passed⟩ := Option.ne_none_iff_exists'.mp passes
  obtain ⟨⟨after, prepared⟩, gate⟩ := prepared_of_passes passed
  rcases refreshed_cases lookedUp with ⟨none, _⟩ | ⟨item, found, _⟩ | ⟨absent, _⟩
  -- nothing was asked: the record is from after the withdrawal, and its status blocks the run
  · have fresh : installedIsFresh attempt.around.now theirs = true := by
      by_contra stale
      unfold Attempt.refreshed at none
      rw [lookedUp, answered] at none
      dsimp only at none
      rw [if_neg (not_or.mpr ⟨set, stale⟩)] at none
      cases none
    obtain ⟨status, stored, blocking⟩ := status.resolve_left (recheck_needed fresh late)
    have parts := prepareRunContext_prepared prepared
    have manifest := parts.manifest
    rw [parts.dir] at manifest
    have again := lookedUp_iff.mpr ⟨parts.resolved, _, manifest⟩
    rw [lookedUp, Option.some.injEq, Prod.mk.injEq] at again
    rw [again.2] at stored
    exact effectiveSandbox_blocking stored blocking (gate.resolve_left overHttp)
  · obtain ⟨raised, ended⟩ := prepareRunContext_found lookedUp found
    rw [Returns, ended] at prepared
    cases prepared
  · obtain ⟨item, isItem, _⟩ := refreshed_blocking told same lookedUp absent
    cases isItem

end Runs

/-- From the time at which the registry withdraws a version on, in every sequence of runs: an hour later no run of an agent
    that was installed from it passes, unless the registry cannot be reached. -/
theorem withdrawn_versions_stop (config : OpenAgentHubConfig) (agentKey : String) (record : InstalledAgent) (withdrawn : Nat)
    (stored : config.installed.get agentKey = some record) (checked : ∀ checkedAt ∈ record.statusCheckedAt, checkedAt < withdrawn)
    (attempts : List Attempt) (told : Runs.AllMeet run (fun _ => ToldOf record) ⟨config, []⟩ attempts) :
    Runs.EachStep run (Stopped agentKey withdrawn) ⟨config, []⟩ attempts := by
  have cooling : Cooling agentKey record withdrawn ⟨config, []⟩ := ⟨record, stored, rfl, .inl checked⟩
  exact told.eachStep_of_kept (Cooling agentKey record withdrawn) (fun _ _ cooling told => cooling.kept told)
    (fun _ _ cooling told => cooling.stopped told) cooling

section Samples

def hour : Nat := 60 * minute

theorem hello_withdrawn : Withdrawn helloAgent (helloRegistry .revoked .clean) :=
  ⟨hello, helloVersion .revoked .clean, by decide +kernel, rfl, rfl, fun _ stored _ _ => List.mem_singleton.mp stored⟩

theorem helloRun_told (now : Nat) : ToldOf helloAgent (helloRun now .revoked .clean) := by
  intro items answered
  cases answered
  exact ⟨_, hello_withdrawn, rfl⟩

/-- The first run after the withdrawal does not reach the registry and passes, and the next one is refused. -/
theorem withdrawn_versions_stop_offline :
    Runs.EachStep run (Stopped "demo/hello@1.0.0" 1) ⟨helloStored, []⟩
        [⟨helloAround, helloSpec, {}, { interfaceName := .cli }⟩, helloRun (2 * hour) .revoked .clean] ∧
      ((helloRun (2 * hour) .revoked .clean).passes helloStored).isNone = true := by
  refine ⟨withdrawn_versions_stop helloStored "demo/hello@1.0.0" helloAgent 1 rfl ?_ _ ⟨?_, helloRun_told _, trivial⟩, by decide +kernel⟩
  · intro checkedAt isChecked
    cases isChecked
  · intro items answered
    cases answered

end Samples

end Cli.Revocation
