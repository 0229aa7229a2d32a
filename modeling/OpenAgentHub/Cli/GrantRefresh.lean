import OpenAgentHub.Cli.Revocation

namespace Cli.Revocation

open Sdk (Thrown)
open Runtime Program

namespace Attempt

variable (attempt : Attempt) (config : OpenAgentHubConfig)

def manifestOf (installed : InstalledAgent) : Option Manifest :=
  match attempt.around.manifests (installedAgentDir attempt.around.agentsDir
      ⟨attempt.spec.namespaceName, attempt.spec.name, installed.version⟩) with
  | some (.ok manifest) => some manifest
  | _ => none

def listed : Bool := (attempt.refreshed config).any (·.2.isSome)

/-- The grants that the call saves: none where the agent is not found or is listed, or the vault is not read. -/
def grantsSaved : List String :=
  match attempt.lookedUp config with
  | some (agentKey, installed) =>
    match attempt.manifestOf installed, attempt.around.vault agentKey with
    | some manifest, .ok secrets =>
      if attempt.listed config then [] else newlyGranted attempt.prepare manifest agentKey secrets config
    | _, _ => []
  | none => []

/-- The configuration with the refresh that the check persists: the status of the feed, or the old one of an agent that
    is not listed there. -/
def withRefresh : OpenAgentHubConfig :=
  match attempt.lookedUp config, attempt.refreshed config with
  | some (agentKey, _), some (_, some item) =>
    (recordStatusRefresh config agentKey (some item.reviewStatus) attempt.around.now).getD config
  | some (agentKey, installed), some (_, none) =>
    (recordStatusRefresh config agentKey installed.reviewStatus attempt.around.now).getD config
  | _, _ => config

def withGrants (base : OpenAgentHubConfig) : OpenAgentHubConfig :=
  match attempt.lookedUp config with
  | some (agentKey, _) => (attempt.grantsSaved config).foldl (saveSecretGrant · agentKey) base
  | none => base

end Attempt

section Granting

variable {agentKey : String} {secrets : List String} {loaded before : OpenAgentHubConfig}

/-- Every grant writes the whole configuration that was loaded. -/
theorem saveSecretGrants_returns : Returns (saveSecretGrants agentKey loaded secrets) before
    (secrets.foldl (saveSecretGrant · agentKey) loaded)
    (if secrets = [] then before else secrets.foldl (saveSecretGrant · agentKey) loaded) := by
  induction secrets generalizing loaded before with
  | nil => exact returns_pure.mpr ⟨rfl, rfl⟩
  | cons secret rest ih =>
    rw [if_neg (List.cons_ne_nil secret rest)]
    refine returns_bind.mpr ⟨(), _, returns_change.mpr rfl, ?_⟩
    have saved := @ih (saveSecretGrant loaded agentKey secret) (saveSecretGrant loaded agentKey secret)
    cases rest with
    | nil => exact saved
    | cons next others =>
      rw [if_neg (List.cons_ne_nil next others)] at saved
      exact saved

theorem foldl_saveSecretGrant_installed :
    (secrets.foldl (saveSecretGrant · agentKey) loaded).installed = loaded.installed := by
  induction secrets generalizing loaded with
  | nil => rfl
  | cons secret rest ih => exact ih

end Granting

section Ending

variable {attempt : Attempt} {config : OpenAgentHubConfig} {agentKey : String} {installed : InstalledAgent}

theorem prepareRunContext_unfound (missing : attempt.lookedUp config = none) :
    Ends (prepareRunContext attempt.around attempt.spec attempt.prepare) config config := by
  unfold prepareRunContext
  apply (returns_read.mpr ⟨rfl, rfl⟩ : Returns (Program.read id) config config config).ends_bind
  refine ends_liftExcept_bind ?_ fun _ _ => rfl
  intro ⟨agentKey, installed⟩ resolved
  refine ends_liftExcept_bind ?_ fun _ _ => rfl
  intro found present
  refine ends_liftExcept_bind ?_ fun _ _ => rfl
  intro manifest isManifest
  subst isManifest
  have lookedUp := lookedUp_iff.mpr ⟨resolved, manifest, Outcome.demand_eq_ok.mp present⟩
  rw [missing] at lookedUp
  cases lookedUp

/-- The check leaves the refresh, and blocks exactly a listed agent. -/
theorem check_refreshes (lookedUp : attempt.lookedUp config = some (agentKey, installed)) :
    ∃ check, (check.blocked = none ↔ attempt.listed config = false) ∧
      Returns (checkRevocationBeforeRun attempt.around agentKey installed (config.registryUrl.getD registryDefault)) config check
        (attempt.withRefresh config) := by
  unfold Attempt.withRefresh Attempt.listed
  rw [lookedUp]
  rcases refreshed_cases lookedUp with ⟨refreshed, check, passed, returned⟩ | ⟨item, refreshed, check, blocked, returned⟩ |
    ⟨refreshed, check, passed, returned⟩
  · rw [refreshed]
    exact ⟨check, iff_of_true passed rfl, returned⟩
  · rw [refreshed]
    exact ⟨check, iff_of_false blocked (by simp), returned⟩
  · rw [refreshed]
    exact ⟨check, iff_of_true passed rfl, returned⟩

/-- With an agent to run the last writer decides. The grants, if any, are made on the configuration before the refresh. -/
theorem prepareRunContext_ends (lookedUp : attempt.lookedUp config = some (agentKey, installed)) :
    Ends (prepareRunContext attempt.around attempt.spec attempt.prepare) config
      (if attempt.grantsSaved config = [] then attempt.withRefresh config else attempt.withGrants config config) := by
  obtain ⟨resolved, manifest, present⟩ := lookedUp_iff.mp lookedUp
  have ofManifest : attempt.manifestOf installed = some manifest := by
    unfold Attempt.manifestOf
    rw [present]
  obtain ⟨check, blocks, checked⟩ := check_refreshes lookedUp
  unfold prepareRunContext
  apply (returns_read.mpr ⟨rfl, rfl⟩ : Returns (Program.read id) config config config).ends_bind
  apply (returns_liftExcept.mpr ⟨resolved, rfl⟩).ends_bind
  apply (returns_liftExcept.mpr ⟨Outcome.demand_eq_ok.mpr present, rfl⟩).ends_bind
  apply (returns_liftExcept.mpr ⟨rfl, rfl⟩).ends_bind
  apply checked.ends_bind
  unfold Attempt.withGrants Attempt.grantsSaved
  rw [lookedUp]
  simp only [ofManifest]
  refine ends_liftExcept_bind ?_ ?_
  · intro _ passed
    rw [Outcome.ensure_eq_ok, blocks] at passed
    refine ends_liftExcept_bind ?_ ?_
    · intro secrets vault
      simp only [vault, passed, Bool.false_eq_true, if_false]
      exact saveSecretGrants_returns.ends_bind ends_pure
    · intro raised vault
      simp only [vault, if_true]
  · intro raised stopped
    rw [Outcome.ensure_eq_error, blocks, Bool.not_eq_false] at stopped
    cases attempt.around.vault agentKey <;> simp [stopped.1]

end Ending

section Updates

variable {attempt : Attempt} {config : OpenAgentHubConfig} {agentKey : String} {installed : InstalledAgent}

theorem stale_of_refreshed (lookedUp : attempt.lookedUp config = some (agentKey, installed))
    (refreshed : attempt.refreshed config ≠ none) : installedIsFresh attempt.around.now installed = false := by
  unfold Attempt.refreshed at refreshed
  rw [lookedUp] at refreshed
  by_contra fresh
  rw [Bool.not_eq_false] at fresh
  apply refreshed
  cases attempt.around.revocations with
  | error raised => rfl
  | ok items => exact if_pos (.inr fresh)

theorem withRefresh_get (lookedUp : attempt.lookedUp config = some (agentKey, installed))
    (refreshed : attempt.refreshed config ≠ none) :
    ∃ reviewStatus, (attempt.withRefresh config).installed.get agentKey =
      some { installed with reviewStatus, statusCheckedAt := some attempt.around.now } := by
  have present := lookedUp_get lookedUp
  unfold Attempt.withRefresh
  rw [lookedUp]
  rcases refreshed_cases lookedUp with ⟨skipped, _⟩ | ⟨item, listed, _⟩ | ⟨unlisted, _⟩
  · exact absurd skipped refreshed
  · use some item.reviewStatus
    simp only [listed, recordStatusRefresh_get present, if_true]
  · use installed.reviewStatus
    simp only [unlisted, recordStatusRefresh_get present, if_true]

/-- The refresh dates the record anew: a record of this moment would not be refreshed. -/
theorem withRefresh_installed (lookedUp : attempt.lookedUp config = some (agentKey, installed))
    (refreshed : attempt.refreshed config ≠ none) : (attempt.withRefresh config).installed ≠ config.installed := by
  intro same
  obtain ⟨reviewStatus, dated⟩ := withRefresh_get lookedUp refreshed
  rw [same, lookedUp_get lookedUp, Option.some.injEq] at dated
  have later : attempt.around.now < attempt.around.now + statusFreshMs := Nat.lt_add_of_pos_right (by decide)
  have fresh : installedIsFresh attempt.around.now installed = true := by
    rw [dated, installedIsFresh, Option.any_some, decide_eq_true_eq]
    exact later
  rw [stale_of_refreshed lookedUp refreshed] at fresh
  cases fresh

theorem withRefresh_skipped (skipped : attempt.refreshed config = none) : attempt.withRefresh config = config := by
  unfold Attempt.withRefresh
  rw [skipped]
  cases attempt.lookedUp config <;> rfl

theorem withGrants_none {base : OpenAgentHubConfig} (none : attempt.grantsSaved config = []) :
    attempt.withGrants config base = base := by
  unfold Attempt.withGrants
  rw [none]
  cases attempt.lookedUp config <;> rfl

theorem withGrants_installed {base : OpenAgentHubConfig} : (attempt.withGrants config base).installed = base.installed := by
  unfold Attempt.withGrants
  split
  · exact foldl_saveSecretGrant_installed
  · rfl

end Updates

/-- A call that refreshes the status and saves grants loses the refresh, and only such a call loses anything. -/
theorem prepare_loses_nothing_iff (config : OpenAgentHubConfig) (attempt : Attempt) :
    (prepareRunContext attempt.around attempt.spec attempt.prepare).final config =
        attempt.withGrants config (attempt.withRefresh config) ↔
      attempt.refreshed config = none ∨ attempt.grantsSaved config = [] := by
  cases lookedUp : attempt.lookedUp config with
  | none =>
    rw [(prepareRunContext_unfound lookedUp).final]
    have skipped : attempt.refreshed config = none := by
      unfold Attempt.refreshed
      rw [lookedUp]
    have ungranted : attempt.grantsSaved config = [] := by
      unfold Attempt.grantsSaved
      rw [lookedUp]
    simp only [withGrants_none ungranted, withRefresh_skipped skipped, skipped, true_or]
  | some found =>
    rw [(prepareRunContext_ends lookedUp).final]
    by_cases ungranted : attempt.grantsSaved config = []
    · rw [if_pos ungranted, withGrants_none ungranted]
      exact iff_of_true rfl (.inr ungranted)
    · rw [if_neg ungranted]
      constructor
      · intro same
        left
        by_contra refreshed
        apply withRefresh_installed lookedUp refreshed
        have installed := congrArg OpenAgentHubConfig.installed same
        rw [withGrants_installed, withGrants_installed] at installed
        exact installed.symm
      · intro either
        rw [withRefresh_skipped (either.resolve_right ungranted)]

def grantingRun : Attempt where
  around := { helloAround with revocations := .ok [], vault := fun _ => .ok apiToken }
  spec := helloSpec
  prepare := { allowSecrets := true }
  execute := { interfaceName := .cli }

def checkedAt (config : OpenAgentHubConfig) : Option Nat :=
  (config.installed.get "demo/hello@1.0.0").bind InstalledAgent.statusCheckedAt

theorem granting_run_loses_refresh :
    checkedAt (grantingRun.withRefresh helloStored) = some 0 ∧
    checkedAt ((prepareRunContext grantingRun.around grantingRun.spec grantingRun.prepare).final helloStored) = none ∧
    (prepareRunContext grantingRun.around grantingRun.spec grantingRun.prepare).final helloStored ≠
      grantingRun.withGrants helloStored (grantingRun.withRefresh helloStored) := by
  have refreshed : checkedAt (grantingRun.withRefresh helloStored) = some 0 := by decide +kernel
  have lost : checkedAt ((prepareRunContext grantingRun.around grantingRun.spec grantingRun.prepare).final helloStored) = none := by
    decide +kernel
  refine ⟨refreshed, lost, ?_⟩
  intro same
  have kept : checkedAt (grantingRun.withGrants helloStored (grantingRun.withRefresh helloStored)) = some 0 := by
    unfold checkedAt
    rw [withGrants_installed]
    exact refreshed
  rw [← same, lost] at kept
  cases kept

end Cli.Revocation
