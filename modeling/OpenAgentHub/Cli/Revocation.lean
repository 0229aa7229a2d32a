import OpenAgentHub.Cli.SecretExposure
import OpenAgentHub.Lib.Runs
import OpenAgentHub.Registry.Packages.Hiding

namespace Cli.Revocation

open Sdk (Thrown)
open Runtime Program

def received (item : Registry.Packages.RevocationItem) : RevocationItem where
  namespaceName := item.namespaceName
  name := item.name
  version := item.version
  digest := item.digest
  reason := item.reason
  reviewStatus := item.reviewStatus.name

def Blocking (status : String) : Prop := status = "rejected" ∨ status = "revoked"

instance (status : String) : Decidable (Blocking status) := inferInstanceAs (Decidable (_ ∨ _))

structure Attempt where
  around : RunSurroundings
  spec : Spec
  prepare : PrepareOptions
  execute : ExecuteOptions

namespace Attempt

variable (attempt : Attempt) (config : OpenAgentHubConfig)

def lookedUp : Option (String × InstalledAgent) :=
  match resolveInstalledOrThrow attempt.around config attempt.spec.namespaceName attempt.spec.name attempt.spec.version with
  | .ok (agentKey, installed) =>
    match attempt.around.manifests (installedAgentDir attempt.around.agentsDir
        ⟨attempt.spec.namespaceName, attempt.spec.name, installed.version⟩) with
    | some (.ok _) => some (agentKey, installed)
    | _ => none
  | .error _ => none

def refreshed : Option (String × Option RevocationItem) :=
  match attempt.lookedUp config, attempt.around.revocations with
  | some (agentKey, installed), .ok items =>
    if config.registryUrl.getD registryDefault = "" ∨ installedIsFresh attempt.around.now installed = true then none
    else some (agentKey, items.find? (·.concerns installed))
  | _, _ => none

def policyInput (context : RunContext) : SandboxPolicyInput :=
  let opts := runOptions context attempt.execute
  ⟨opts.trustLevel, opts.manifest, opts.reviewStatus, opts.statusFresh, opts.sandboxOverride, opts.archiveDigest⟩

/-- The run gets past `prepareRunContext`, and `effectiveSandbox` does not block it.
    A run over http returns before `effectiveSandbox` is asked. -/
def passes : Option RunContext :=
  match prepareRunContext attempt.around attempt.spec attempt.prepare config with
  | some (.ok context, _) =>
    if attempt.execute.interfaceName = .http ∨ (effectiveSandbox (attempt.policyInput context)).blocked = none then some context
    else none
  | _ => none

end Attempt

structure Watched where
  config : OpenAgentHubConfig
  listed : List String

def note (listed : List String) : Option (String × Option RevocationItem) → List String
  | some (agentKey, some _) => agentKey :: listed
  | some (agentKey, none) => listed.filter fun other => decide (other ≠ agentKey)
  | none => listed

def run (watched : Watched) (attempt : Attempt) : Watched where
  config := (runCommand attempt.around attempt.spec attempt.prepare attempt.execute).final watched.config
  listed := note watched.listed (attempt.refreshed watched.config)

/-- A run that passes is of an agent that its last refresh did not find in the feed. -/
def Sticky (before : Watched) (attempt : Attempt) (after : Watched) : Prop :=
  ∀ context, attempt.passes before.config = some context → context.agentKey ∉ after.listed

def Reviewed (watched : Watched) (attempt : Attempt) : Prop :=
  (∀ refresh ∈ attempt.refreshed watched.config, ∀ item ∈ refresh.2, Blocking item.reviewStatus) ∧
  (attempt.execute.interfaceName = .http → ∀ found ∈ attempt.lookedUp watched.config,
    found.1 ∈ watched.listed → (attempt.refreshed watched.config).isSome = true)

instance (watched : Watched) (attempt : Attempt) : Decidable (Reviewed watched attempt) := inferInstanceAs (Decidable (_ ∧ _))

section Refreshing

variable {around : RunSurroundings} {config : OpenAgentHubConfig} {agentKey : String} {installed : InstalledAgent}

theorem mem_installedMatches {namespaceName name : String}
    (found : (agentKey, installed) ∈ installedMatches around config namespaceName name) :
    config.installed.get agentKey = some installed := by
  have present : (agentKey, installed) ∈ config.installed.entries := List.mem_of_mem_filter (List.mem_mergeSort.mp found)
  exact Record.get_of_mem present

theorem resolved_get {namespaceName name : String} {version : Option String}
    (resolved : resolveInstalledOrThrow around config namespaceName name version = .ok (agentKey, installed)) :
    config.installed.get agentKey = some installed := by
  cases version with
  | none =>
    rw [resolveInstalledOrThrow, Outcome.demand_eq_ok] at resolved
    exact mem_installedMatches (List.mem_of_getLast? resolved)
  | some version =>
    rw [resolveInstalledOrThrow, Outcome.demand_eq_ok] at resolved
    exact mem_installedMatches (List.mem_of_find?_eq_some resolved)

theorem recordStatusRefresh_get {reviewStatus : Option String} {now : Nat} (present : config.installed.get agentKey = some installed)
    (other : String) :
    ((recordStatusRefresh config agentKey reviewStatus now).getD config).installed.get other =
      if other = agentKey then some { installed with reviewStatus, statusCheckedAt := some now } else config.installed.get other := by
  rw [recordStatusRefresh, present]
  exact Record.get_set

end Refreshing

section Runs

variable {attempt : Attempt} {config : OpenAgentHubConfig} {agentKey other : String} {installed : InstalledAgent}

theorem lookedUp_iff : attempt.lookedUp config = some (agentKey, installed) ↔
    resolveInstalledOrThrow attempt.around config attempt.spec.namespaceName attempt.spec.name attempt.spec.version =
        .ok (agentKey, installed) ∧
      ∃ manifest, attempt.around.manifests (installedAgentDir attempt.around.agentsDir
        ⟨attempt.spec.namespaceName, attempt.spec.name, installed.version⟩) = some (.ok manifest) := by
  constructor
  · intro found
    unfold Attempt.lookedUp at found
    split at found
    · next resolved =>
      split at found
      · next present =>
        cases found
        exact ⟨resolved, _, present⟩
      · cases found
    · cases found
  · rintro ⟨resolved, manifest, present⟩
    simp only [Attempt.lookedUp, resolved, present]

theorem lookedUp_get (found : attempt.lookedUp config = some (agentKey, installed)) :
    config.installed.get agentKey = some installed :=
  resolved_get (lookedUp_iff.mp found).1

variable {registryUrl : String} {items : List RevocationItem} {item : RevocationItem}

theorem check_skipped (skips : registryUrl = "" ∨ installedIsFresh attempt.around.now installed = true ∨
      ∃ raised, attempt.around.revocations = .error raised) :
    ∃ check, check.blocked = none ∧
      Returns (checkRevocationBeforeRun attempt.around agentKey installed registryUrl) config check config := by
  unfold checkRevocationBeforeRun
  by_cases unset : registryUrl = ""
  · rw [if_pos unset]
    exact ⟨_, rfl, returns_pure.mpr ⟨rfl, rfl⟩⟩
  rw [if_neg unset]
  by_cases fresh : installedIsFresh attempt.around.now installed = true
  · rw [if_pos fresh]
    exact ⟨_, rfl, returns_pure.mpr ⟨rfl, rfl⟩⟩
  obtain ⟨raised, failed⟩ : ∃ raised, attempt.around.revocations = .error raised :=
    (skips.resolve_left unset).resolve_left fresh
  rw [if_neg fresh, failed]
  exact ⟨_, rfl, returns_pure.mpr ⟨rfl, rfl⟩⟩

section Reached

variable (set : registryUrl ≠ "") (stale : ¬ installedIsFresh attempt.around.now installed = true)
  (answered : attempt.around.revocations = .ok items)

include set stale answered

theorem check_found (found : items.find? (·.concerns installed) = some item) :
    ∃ check, check.blocked ≠ none ∧ Returns (checkRevocationBeforeRun attempt.around agentKey installed registryUrl) config check
      ((recordStatusRefresh config agentKey (some item.reviewStatus) attempt.around.now).getD config) := by
  unfold checkRevocationBeforeRun
  simp only [set, stale, answered, found, if_false]
  refine ⟨_, ?_, returns_bind.mpr ⟨(), _, returns_change.mpr rfl, returns_pure.mpr ⟨rfl, rfl⟩⟩⟩
  simp

theorem check_absent (absent : items.find? (·.concerns installed) = none) :
    ∃ check, check.blocked = none ∧ Returns (checkRevocationBeforeRun attempt.around agentKey installed registryUrl) config check
      ((recordStatusRefresh config agentKey installed.reviewStatus attempt.around.now).getD config) := by
  unfold checkRevocationBeforeRun
  simp only [set, stale, answered, absent, if_false]
  exact ⟨_, rfl, returns_bind.mpr ⟨(), _, returns_change.mpr rfl, returns_pure.mpr ⟨rfl, rfl⟩⟩⟩

end Reached

/-- The check refreshes nothing, or finds the agent in the feed, or does not find it there. -/
theorem refreshed_cases (lookedUp : attempt.lookedUp config = some (agentKey, installed)) :
    (attempt.refreshed config = none ∧ ∃ check, check.blocked = none ∧ Returns (checkRevocationBeforeRun attempt.around agentKey installed
      (config.registryUrl.getD registryDefault)) config check config) ∨
    (∃ item, attempt.refreshed config = some (agentKey, some item) ∧
      ∃ check, check.blocked ≠ none ∧ Returns (checkRevocationBeforeRun attempt.around agentKey installed
        (config.registryUrl.getD registryDefault)) config check
          ((recordStatusRefresh config agentKey (some item.reviewStatus) attempt.around.now).getD config)) ∨
    (attempt.refreshed config = some (agentKey, none) ∧
      ∃ check, check.blocked = none ∧ Returns (checkRevocationBeforeRun attempt.around agentKey installed
        (config.registryUrl.getD registryDefault)) config check
          ((recordStatusRefresh config agentKey installed.reviewStatus attempt.around.now).getD config)) := by
  unfold Attempt.refreshed
  rw [lookedUp]
  cases answered : attempt.around.revocations with
  | error raised =>
    left
    exact ⟨rfl, check_skipped (.inr (.inr ⟨raised, answered⟩))⟩
  | ok items =>
    by_cases skips : config.registryUrl.getD registryDefault = "" ∨ installedIsFresh attempt.around.now installed = true
    · left
      refine ⟨if_pos skips, check_skipped ?_⟩
      rcases skips with unset | fresh
      · exact .inl unset
      · exact .inr (.inl fresh)
    · obtain ⟨set, stale⟩ := not_or.mp skips
      right
      cases found : items.find? (·.concerns installed) with
      | some item =>
        left
        refine ⟨item, ?_, check_found set stale answered found⟩
        simp only [skips, if_false, found]
      | none =>
        right
        refine ⟨?_, check_absent set stale answered found⟩
        simp only [skips, if_false, found]

theorem saveSecretGrants_leaves {secrets : List String} {loaded before : OpenAgentHubConfig} {record : Option InstalledAgent}
    (ofLoaded : loaded.installed.get other = record) (ofBefore : before.installed.get other = record) :
    Program.Leaves (fun after => after.installed.get other = record) (saveSecretGrants agentKey loaded secrets) before := by
  induction secrets generalizing loaded before with
  | nil => exact leaves_pure ofBefore
  | cons secret rest step =>
    apply Program.Leaves.bind
    · exact leaves_change ofLoaded
    · intro _ middle changed
      rw [returns_change] at changed
      subst changed
      exact step ofLoaded ofLoaded

theorem check_frame (lookedUp : attempt.lookedUp config = some (agentKey, installed))
    (apart : ∀ item, attempt.refreshed config ≠ some (other, item)) :
    ∃ check after, Returns (checkRevocationBeforeRun attempt.around agentKey installed
      (config.registryUrl.getD registryDefault)) config check after ∧ after.installed.get other = config.installed.get other := by
  have present := lookedUp_get lookedUp
  have elsewhere : ∀ item, attempt.refreshed config = some (agentKey, item) → other ≠ agentKey := by
    rintro item refreshed rfl
    exact apart item refreshed
  rcases refreshed_cases lookedUp with ⟨_, check, _, returned⟩ | ⟨item, refreshed, check, _, returned⟩ | ⟨refreshed, check, _, returned⟩
  · exact ⟨check, config, returned, rfl⟩
  · refine ⟨check, _, returned, ?_⟩
    rw [recordStatusRefresh_get present, if_neg (elsewhere _ refreshed)]
  · refine ⟨check, _, returned, ?_⟩
    rw [recordStatusRefresh_get present, if_neg (elsewhere _ refreshed)]

/-- The record of an agent that the run does not refresh stays as it is. -/
theorem prepareRunContext_frame (apart : ∀ item, attempt.refreshed config ≠ some (other, item)) :
    Program.Leaves (fun after => after.installed.get other = config.installed.get other)
      (prepareRunContext attempt.around attempt.spec attempt.prepare) config := by
  unfold prepareRunContext
  refine Program.Leaves.bind (leaves_read ?_) ?_
  · rfl
  intro loaded _ isRead
  obtain ⟨rfl, rfl⟩ := returns_read.mp isRead
  refine Program.Leaves.bind (leaves_liftExcept ?_) ?_
  · rfl
  intro ⟨agentKey, installed⟩ _ isResolved
  obtain ⟨resolved, rfl⟩ := returns_liftExcept.mp isResolved
  refine Program.Leaves.bind (leaves_liftExcept ?_) ?_
  · rfl
  intro found _ isFound
  obtain ⟨present, rfl⟩ := returns_liftExcept.mp isFound
  refine Program.Leaves.bind (leaves_liftExcept ?_) ?_
  · rfl
  intro manifest _ isManifest
  obtain ⟨rfl, rfl⟩ := returns_liftExcept.mp isManifest
  have lookedUp : attempt.lookedUp config = some (agentKey, installed) :=
    lookedUp_iff.mpr ⟨resolved, manifest, Outcome.demand_eq_ok.mp present⟩
  obtain ⟨check, checked, isChecked, kept⟩ := check_frame lookedUp apart
  refine Program.Leaves.bind (isChecked.leaves ?_) ?_
  · exact kept
  intro result _ isResult
  obtain ⟨rfl, rfl⟩ := isResult.unique isChecked
  refine Program.Leaves.bind (leaves_liftExcept ?_) ?_
  · exact kept
  intro _ _ passed
  obtain ⟨_, rfl⟩ := returns_liftExcept.mp passed
  refine Program.Leaves.bind (leaves_liftExcept ?_) ?_
  · exact kept
  intro secrets _ isVault
  obtain ⟨_, rfl⟩ := returns_liftExcept.mp isVault
  refine Program.Leaves.bind (saveSecretGrants_leaves ?_ ?_) ?_
  · rfl
  · exact kept
  intro saved after isSaved
  apply leaves_pure
  refine saveSecretGrants_leaves ?_ ?_ _ _ isSaved
  · rfl
  · exact kept

/-- A run whose refresh finds the agent in the feed ends there, and leaves the review status of the feed. -/
theorem prepareRunContext_found (lookedUp : attempt.lookedUp config = some (agentKey, installed))
    (refreshed : attempt.refreshed config = some (agentKey, some item)) :
    ∃ raised, prepareRunContext attempt.around attempt.spec attempt.prepare config =
      some (.error raised, (recordStatusRefresh config agentKey (some item.reviewStatus) attempt.around.now).getD config) := by
  obtain ⟨resolved, manifest, present⟩ := lookedUp_iff.mp lookedUp
  obtain ⟨check, blocked, returned⟩ : ∃ check, check.blocked ≠ none ∧ Returns (checkRevocationBeforeRun attempt.around agentKey
      installed (config.registryUrl.getD registryDefault)) config check
        ((recordStatusRefresh config agentKey (some item.reviewStatus) attempt.around.now).getD config) := by
    rcases refreshed_cases lookedUp with ⟨none, _⟩ | ⟨other, found, check, blocked, returned⟩ | ⟨absent, _⟩
    · rw [none] at refreshed
      cases refreshed
    · rw [found] at refreshed
      cases refreshed
      exact ⟨check, blocked, returned⟩
    · rw [absent] at refreshed
      cases refreshed
  refine ⟨plainError ("blocked: " ++ check.blocked.getD ""), ?_⟩
  unfold prepareRunContext
  refine Eq.trans (Returns.bind_eq (returns_read.mpr ⟨rfl, rfl⟩)) ?_
  refine Eq.trans (Returns.bind_eq (returns_liftExcept.mpr ⟨resolved, rfl⟩)) ?_
  refine Eq.trans (Returns.bind_eq (returns_liftExcept.mpr ⟨Outcome.demand_eq_ok.mpr present, rfl⟩)) ?_
  refine Eq.trans (Returns.bind_eq (returns_liftExcept.mpr ⟨rfl, rfl⟩)) ?_
  refine Eq.trans returned.bind_eq ?_
  rw [bind_apply]
  simp only [Outcome.ensure, blocked, if_false]
  rfl

end Runs

section Stickiness

variable {watched : Watched} {attempt : Attempt} {agentKey : String}

def Kept (watched : Watched) : Prop :=
  ∀ agentKey ∈ watched.listed, ∃ installed, watched.config.installed.get agentKey = some installed ∧
    ∃ status, installed.reviewStatus = some status ∧ Blocking status

theorem run_frame (apart : ∀ item, attempt.refreshed watched.config ≠ some (agentKey, item)) :
    (run watched attempt).config.installed.get agentKey = watched.config.installed.get agentKey := by
  have leaves : Program.Leaves (fun after => after.installed.get agentKey = watched.config.installed.get agentKey)
      (runCommand attempt.around attempt.spec attempt.prepare attempt.execute) watched.config := by
    unfold runCommand
    refine Program.Leaves.bind (prepareRunContext_frame apart) ?_
    intro context after prepared
    have kept := prepareRunContext_frame apart _ _ prepared
    refine Program.Leaves.bind (leaves_liftExcept ?_) ?_
    · exact kept
    intro outcome _ executed
    obtain ⟨_, rfl⟩ := returns_liftExcept.mp executed
    exact leaves_pure kept
  exact leaves.final rfl

theorem refreshed_lookedUp {item : Option RevocationItem} (refreshed : attempt.refreshed watched.config = some (agentKey, item)) :
    ∃ installed, attempt.lookedUp watched.config = some (agentKey, installed) := by
  unfold Attempt.refreshed at refreshed
  split at refreshed
  · next key installed items lookedUp answered =>
    split at refreshed
    · cases refreshed
    · cases refreshed
      exact ⟨installed, lookedUp⟩
  · cases refreshed

theorem run_found {item : RevocationItem} (refreshed : attempt.refreshed watched.config = some (agentKey, some item)) :
    ∃ installed, (run watched attempt).config.installed.get agentKey = some installed ∧
      installed.reviewStatus = some item.reviewStatus := by
  obtain ⟨installed, lookedUp⟩ := refreshed_lookedUp refreshed
  obtain ⟨raised, ended⟩ := prepareRunContext_found lookedUp refreshed
  refine ⟨{ installed with reviewStatus := some item.reviewStatus, statusCheckedAt := some attempt.around.now }, ?_, rfl⟩
  have after : (run watched attempt).config =
      (recordStatusRefresh watched.config agentKey (some item.reviewStatus) attempt.around.now).getD watched.config := by
    simp only [run, Program.final, runCommand, bind_apply, ended, Option.bind_some, Option.map_some, Option.getD_some]
  rw [after, recordStatusRefresh_get (lookedUp_get lookedUp), if_pos rfl]

theorem Kept.run (kept : Kept watched) (reviewed : Reviewed watched attempt) : Kept (run watched attempt) := by
  intro agentKey listed
  by_cases same : ∃ item, attempt.refreshed watched.config = some (agentKey, item)
  · obtain ⟨item, refreshed⟩ := same
    cases item with
    | none =>
      simp only [Revocation.run, refreshed, note, List.mem_filter, decide_eq_true_eq] at listed
      exact absurd rfl listed.2
    | some item =>
      obtain ⟨installed, present, status⟩ := run_found refreshed
      exact ⟨installed, present, item.reviewStatus, status, reviewed.1 _ refreshed item rfl⟩
  · have apart : ∀ item, attempt.refreshed watched.config ≠ some (agentKey, item) := not_exists.mp same
    have before : agentKey ∈ watched.listed := by
      have noted : agentKey ∈ note watched.listed (attempt.refreshed watched.config) := listed
      cases refreshed : attempt.refreshed watched.config with
      | none =>
        rw [refreshed] at noted
        exact noted
      | some refresh =>
        obtain ⟨other, item⟩ := refresh
        rw [refreshed] at noted
        have differs : agentKey ≠ other := by
          rintro rfl
          exact apart item refreshed
        cases item with
        | none => exact List.mem_of_mem_filter noted
        | some item => exact (List.mem_cons.mp noted).resolve_left differs
    rw [run_frame apart]
    exact kept agentKey before

theorem effectiveSandbox_blocking {input : SandboxPolicyInput} {status : String} (stored : input.reviewStatus = some status)
    (blocking : Blocking status) : (effectiveSandbox input).blocked ≠ none := by
  have blocks : input.reviewStatus.getD "" = "rejected" ∨ input.reviewStatus.getD "" = "revoked" := by
    rw [stored]
    exact blocking
  simp only [effectiveSandbox, blocks, if_true]
  simp

theorem prepared_of_passes {config : OpenAgentHubConfig} {context : RunContext} (passes : attempt.passes config = some context) :
    (∃ after, Returns (prepareRunContext attempt.around attempt.spec attempt.prepare) config context after) ∧
      (attempt.execute.interfaceName = .http ∨ (effectiveSandbox (attempt.policyInput context)).blocked = none) := by
  unfold Attempt.passes at passes
  split at passes
  · next other after ran =>
    split at passes
    · next gate =>
      cases passes
      exact ⟨⟨after, ran⟩, gate⟩
    · cases passes
  · cases passes

theorem sticky_run (kept : Kept watched) (reviewed : Reviewed watched attempt) :
    Sticky watched attempt (run watched attempt) := by
  intro context passes listed
  obtain ⟨⟨after, prepared⟩, gate⟩ := prepared_of_passes passes
  have parts := prepareRunContext_prepared prepared
  have manifest := parts.manifest
  rw [parts.dir] at manifest
  have lookedUp : attempt.lookedUp watched.config = some (context.agentKey, context.installed) :=
    lookedUp_iff.mpr ⟨parts.resolved, _, manifest⟩
  rcases refreshed_cases lookedUp with ⟨none, _⟩ | ⟨item, found, _⟩ | ⟨absent, _⟩
  · have before : context.agentKey ∈ watched.listed := by
      simpa only [run, none, note] using listed
    rcases gate with isHttp | unblocked
    · have refreshes := reviewed.2 isHttp _ lookedUp before
      rw [none] at refreshes
      cases refreshes
    · obtain ⟨installed, present, status, stored, blocking⟩ := kept _ before
      rw [lookedUp_get lookedUp] at present
      cases present
      exact effectiveSandbox_blocking stored blocking unblocked
  · have fails : ∃ raised, prepareRunContext attempt.around attempt.spec attempt.prepare watched.config =
        some (.error raised, _) := prepareRunContext_found lookedUp found
    obtain ⟨raised, ended⟩ := fails
    rw [Returns, ended] at prepared
    cases prepared
  · simp only [run, absent, note, List.mem_filter, decide_eq_true_eq] at listed
    exact listed.2 rfl

end Stickiness

/-- An entry of the feed that does not block is there for the scan alone. -/
theorem received_blocking {db : Registry.Db} {item : Registry.Packages.RevocationItem}
    (listed : item ∈ Registry.Packages.getRevocationFeed db) :
    Blocking (received item).reviewStatus ∨ item.securityStatus = .flagged := by
  obtain ⟨version, _, owner, _, reason, isReason, rfl⟩ := Registry.Packages.mem_getRevocationFeed.mp listed
  show Blocking version.reviewStatus.name ∨ version.securityStatus = .flagged
  unfold Registry.Packages.blockedDownloadReason at isReason
  split at isReason
  · next blocked =>
    left
    cases status : version.reviewStatus <;> simp_all [Registry.ReviewStatus.blocked, Registry.ReviewStatus.name, Blocking]
  · split at isReason
    · next flagged => exact .inr flagged
    · cases isReason

/-- In every sequence of runs, a run gets past its checks only when the last refresh of its agent did not
    find it in the feed, as long as what a refresh finds is rejected or revoked by the review. -/
theorem revocation_sticky (config : OpenAgentHubConfig) (attempts : List Attempt)
    (reviewed : Runs.AllMeet run Reviewed ⟨config, []⟩ attempts) : Runs.EachStep run Sticky ⟨config, []⟩ attempts := by
  have kept : Kept ⟨config, []⟩ := fun _ absent => absurd absent List.not_mem_nil
  exact reviewed.eachStep_of_kept Kept (fun _ _ kept met => kept.run met) (fun _ _ kept met => sticky_run kept met) kept

section Samples

def hello : Registry.Agent where
  id := 1
  namespaceName := "demo"
  name := "hello"
  ownerId := 1
  author := "demo"

def helloVersion (status : Registry.ReviewStatus) (scan : Registry.SecurityStatus) : Registry.AgentVersion where
  id := 1
  agentId := 1
  version := "1.0.0"
  sortKey := "n000000000001n000000000000n000000000000#1"
  manifest := .obj []
  sha256 := "c0ffee"
  archiveName := "demo_hello-1.0.0.ahb"
  signature := ⟨1, "demo/hello", "1.0.0", "c0ffee", "", "", ""⟩
  publishedById := 1
  publishedAt := 0
  securityStatus := scan
  reviewStatus := status

def helloRegistry (status : Registry.ReviewStatus) (scan : Registry.SecurityStatus) : Registry.Db where
  agents := ⟨[hello], 2, by decide, by decide⟩
  agentVersions :=
    ⟨[helloVersion status scan], 2, fun _ member => List.mem_singleton.mp member ▸ Nat.lt_succ_self 1, List.pairwise_singleton _ _⟩

def helloRun (now : Nat) (status : Registry.ReviewStatus) (scan : Registry.SecurityStatus) : Attempt where
  around := { helloAround with
    revocations := .ok ((Registry.Packages.getRevocationFeed (helloRegistry status scan)).map received), now }
  spec := helloSpec
  prepare := {}
  execute := { interfaceName := .cli }

def minute : Nat := 60000

/-- The scan has flagged a version that nobody has reviewed yet: the first run is blocked, and the next one,
    a minute later, is not. -/
theorem flagged_agent_runs_again :
    ¬ (∀ config attempts, Runs.EachStep run Sticky ⟨config, []⟩ attempts) ∧
    (helloRun 0 .pending .flagged).refreshed helloStored = some ("demo/hello@1.0.0",
      some ⟨"demo", "hello", "1.0.0", "c0ffee", "version was flagged by the security scan", "pending"⟩) ∧
    ((helloRun minute .pending .flagged).passes (run ⟨helloStored, []⟩ (helloRun 0 .pending .flagged)).config).isSome = true := by
  have passes : ((helloRun minute .pending .flagged).passes
      (run ⟨helloStored, []⟩ (helloRun 0 .pending .flagged)).config).any (fun context =>
        context.agentKey ∈ (run (run ⟨helloStored, []⟩ (helloRun 0 .pending .flagged)) (helloRun minute .pending .flagged)).listed) =
      true := by decide +kernel
  refine ⟨?_, by decide +kernel, ?_⟩
  · intro sticky
    obtain ⟨_, later, _⟩ := sticky helloStored [helloRun 0 .pending .flagged, helloRun minute .pending .flagged]
    obtain ⟨context, passed, listed⟩ := (Option.any_eq_true _ _).mp passes
    exact later context passed (of_decide_eq_true listed)
  · obtain ⟨context, passed, _⟩ := (Option.any_eq_true _ _).mp passes
    rw [passed]
    rfl

theorem revoked_agent_stays :
    Runs.EachStep run Sticky ⟨helloStored, []⟩ [helloRun 0 .revoked .clean, helloRun minute .revoked .clean] ∧
      ((helloRun minute .revoked .clean).passes (run ⟨helloStored, []⟩ (helloRun 0 .revoked .clean)).config).isNone = true :=
  ⟨revocation_sticky helloStored [helloRun 0 .revoked .clean, helloRun minute .revoked .clean] (by decide +kernel),
    by decide +kernel⟩

end Samples

end Cli.Revocation
