import OpenAgentHub.Cli.Commands

namespace Cli

open Sdk Runtime

section Overriding

variable (desk : Desk) (home : Home) (act : Act)

def tells : Option (String × Option SandboxOverride) :=
  match act.command with
  | .sandboxSet spec sandbox acknowledgeRisk =>
    (chosenOverride desk home act spec sandbox acknowledgeRisk).toOption.map fun chosen => (chosen.1, some chosen.2)
  | .sandboxReset spec => (resolveSpec desk home act spec).toOption.map fun resolved => (resolved.2.1, none)
  | _ => none

def Silent (agentKey : String) : Prop := ∀ told, tells desk home act ≠ some (agentKey, told)

variable {desk home act}

theorem InstallWrites.overrides {config after : OpenAgentHubConfig} (writes : InstallWrites config after) :
    after.sandboxOverrides = config.sandboxOverrides := by
  cases writes <;> rfl

theorem foldl_removeAgent_overrides {spec : Spec} (entries : List (String × InstalledAgent)) : ∀ {home : Home},
    (entries.foldl (removeAgent desk spec) home).machine.config.sandboxOverrides = home.machine.config.sandboxOverrides := by
  induction entries with
  | nil => exact rfl
  | cons entry rest ih => exact ih

/-- The override of an agent is changed by what is said of it and by nothing else. -/
theorem perform_override (agentKey : String) :
    sandboxOverride (perform desk home act).machine.config agentKey =
      match tells desk home act with
      | some (other, told) => if agentKey = other then told else sandboxOverride home.machine.config agentKey
      | none => sandboxOverride home.machine.config agentKey := by
  unfold perform tells sandboxOverride
  cases act.command with
  | install opts spec source schedule faults => exact congrArg (Record.get · agentKey) installAgent_writes.1.overrides
  | uninstall text =>
    cases done : uninstall desk home act text with
    | error raised =>
      simp only [done]
      rfl
    | ok left =>
      obtain ⟨spec, _, rfl⟩ := uninstall_cases done
      simp only [done]
      exact congrArg (Record.get · agentKey) (foldl_removeAgent_overrides _)
  | sandboxSet spec sandbox acknowledgeRisk =>
    simp only [sandboxSet]
    cases chosen : chosenOverride desk home act spec sandbox acknowledgeRisk with
    | error raised => rfl
    | ok override => exact Record.get_set
  | sandboxReset spec =>
    simp only [sandboxReset]
    cases resolved : resolveSpec desk home act spec with
    | error raised => rfl
    | ok found =>
      change (((clearSandboxOverride home.machine.config found.2.1).getD home.machine.config).sandboxOverrides.get agentKey) =
        if agentKey = found.2.1 then none else home.machine.config.sandboxOverrides.get agentKey
      unfold clearSandboxOverride
      cases present : home.machine.config.sandboxOverrides.get found.2.1 with
      | none =>
        by_cases own : agentKey = found.2.1
        · rw [if_pos own, own]
          exact present
        · rw [if_neg own]
          rfl
      | some override =>
        refine Record.get_discard.trans ?_
        simp
  | run spec prepare execute => exact congrArg (Record.get · agentKey) runCommand_sameAgents.overrides
  | login registryUrl => rfl
  | vault iv call => rfl

theorem perform_silent {agentKey : String} (silent : Silent desk home act agentKey) :
    sandboxOverride (perform desk home act).machine.config agentKey = sandboxOverride home.machine.config agentKey := by
  rw [perform_override]
  cases told : tells desk home act with
  | none => rfl
  | some said =>
    have other : agentKey ≠ said.1 := by
      rintro rfl
      exact silent said.2 told
    exact if_neg other

/-- An override that is there at the end has been set in the run, and the agent has not been spoken of since. -/
theorem override_told {start : Home} {agentKey : String} (unset : sandboxOverride start.machine.config agentKey = none)
    (acts : List Act) : ∀ override, sandboxOverride (acts.foldl (perform desk) start).machine.config agentKey = some override →
      ∃ earlier act later, acts = earlier ++ act :: later ∧
        tells desk (earlier.foldl (perform desk) start) act = some (agentKey, some override) ∧
        Runs.AllMeet (perform desk) (Silent desk · · agentKey) (perform desk (earlier.foldl (perform desk) start) act) later := by
  induction acts using List.reverseRecOn with
  | nil =>
    intro override present
    rw [List.foldl_nil, unset] at present
    cases present
  | append_singleton acts last ih =>
    intro override present
    rw [List.foldl_append, List.foldl_cons, List.foldl_nil] at present
    by_cases silent : Silent desk (acts.foldl (perform desk) start) last agentKey
    · rw [perform_silent silent] at present
      obtain ⟨earlier, act, later, rfl, told, quiet⟩ := ih override present
      refine ⟨earlier, act, later ++ [last], by simp, told, ?_⟩
      refine Runs.allMeet_append.mpr ⟨quiet, ?_, trivial⟩
      rw [List.foldl_append, List.foldl_cons] at silent
      exact silent
    · obtain ⟨told, said⟩ := not_forall_not.mp silent
      rw [perform_override, said] at present
      have same : told = some override := by simpa using present
      exact ⟨acts, last, [], by simp, same ▸ said, trivial⟩

theorem chosenOverride_cases {text agentKey : String} {sandbox : SandboxKind} {acknowledgeRisk : Bool} {override : SandboxOverride}
    (chosen : chosenOverride desk home act text sandbox acknowledgeRisk = .ok (agentKey, override)) :
    override.sandbox = sandbox ∧ ∃ record, home.machine.config.installed.get agentKey = some record ∧
      (sandbox = .process → acknowledgeRisk = true ∧ (record.trust = .trusted ∨ record.trust = .local)) := by
  unfold chosenOverride resolveSpec at chosen
  simp only [Outcome.bind_eq_ok, Outcome.pure_eq_ok, Outcome.ensure_eq_ok, Prod.exists, Prod.mk.injEq] at chosen
  obtain ⟨_, _, _, ⟨_, _, _, _, resolved, rfl, rfl, rfl⟩, _, trusted, _, acknowledged, _, _, rfl, rfl⟩ := chosen
  exact ⟨rfl, _, Revocation.resolved_get resolved, fun process => ⟨acknowledged process, trusted process⟩⟩

theorem tells_override {agentKey : String} {override : SandboxOverride} (told : tells desk home act = some (agentKey, some override)) :
    ∃ text acknowledgeRisk, act.command = .sandboxSet text override.sandbox acknowledgeRisk ∧
      chosenOverride desk home act text override.sandbox acknowledgeRisk = .ok (agentKey, override) := by
  unfold tells at told
  split at told
  · next text sandbox acknowledgeRisk isCommand =>
    cases chosen : chosenOverride desk home act text sandbox acknowledgeRisk with
    | error raised =>
      rw [chosen] at told
      cases told
    | ok pair =>
      rw [chosen] at told
      cases told
      have kind := (chosenOverride_cases chosen).1
      refine ⟨text, acknowledgeRisk, ?_, ?_⟩
      · rw [kind]
        exact isCommand
      · rw [kind]
        exact chosen
  · next text isCommand =>
    cases resolved : resolveSpec desk home act text <;> rw [resolved] at told <;> cases told
  · cases told

/-- The policy applies an override to trusted agents alone, and only to the archive that it is bound to. -/
theorem effectiveSandbox_overridden {input : SandboxPolicyInput} (applied : (effectiveSandbox input).overrideApplied = true) :
    ∃ override, input.override = some override ∧ (effectiveSandbox input).mode = override.sandbox ∧
      input.trust ≠ .untrusted ∧ input.trust ≠ .unknown ∧
      (truthy input.archiveDigest = true → input.archiveDigest = some override.digest) := by
  -- each gate before the override decides without it
  have unblocked : ¬ (input.reviewStatus.getD "" = "rejected" ∨ input.reviewStatus.getD "" = "revoked") := by
    intro blocked
    simp [effectiveSandbox, blocked] at applied
  have known : input.trust ≠ .untrusted := by
    intro untrusted
    simp [effectiveSandbox, unblocked, untrusted] at applied
  have trusted : input.trust ≠ .unknown := by
    intro unknown
    simp [effectiveSandbox, unblocked, unknown] at applied
  have fresh : ¬ (input.reviewStatus.isSome ∧ input.reviewStatus.getD "" ≠ "verified" ∧ input.statusFresh ≠ some true) := by
    intro stale
    rw [effectiveSandbox, if_neg unblocked, if_neg known, if_neg trusted, if_pos stale] at applied
    cases applied
  rw [effectiveSandbox, if_neg unblocked, if_neg known, if_neg trusted, if_neg fresh] at applied ⊢
  cases present : input.override with
  | none =>
    rw [present] at applied
    dsimp only at applied
    unfold byManifest at applied
    split at applied <;> cases applied
  | some override =>
    rw [present] at applied
    dsimp only at applied
    unfold overridden at applied
    have bound : ¬ (truthy input.archiveDigest ∧ some override.digest ≠ input.archiveDigest) := by
      intro stale
      rw [if_pos stale] at applied
      cases applied
    refine ⟨override, rfl, ?_, known, trusted, ?_⟩
    · dsimp only
      rw [overridden, if_neg bound]
      cases override.sandbox <;> rfl
    · intro digested
      by_contra other
      exact bound ⟨digested, fun same => other same.symm⟩

variable (desk home act) in
/-- An act that sets the override: a process only with its risk acknowledged, and for an agent that is trusted. -/
structure Chosen (agentKey : String) (override : SandboxOverride) : Prop where
  command : ∃ text acknowledged, act.command = .sandboxSet text override.sandbox acknowledged ∧
    chosenOverride desk home act text override.sandbox acknowledged = .ok (agentKey, override) ∧
    (override.sandbox = .process → acknowledged = true)
  record : ∃ record, home.machine.config.installed.get agentKey = some record ∧
    (override.sandbox = .process → record.trust = .trusted ∨ record.trust = .local)

theorem tells_chosen {agentKey : String} {override : SandboxOverride} (told : tells desk home act = some (agentKey, some override)) :
    Chosen desk home act agentKey override := by
  obtain ⟨text, acknowledged, isCommand, chosen⟩ := tells_override told
  obtain ⟨_, record, stored, agreed⟩ := chosenOverride_cases chosen
  exact ⟨⟨text, acknowledged, isCommand, chosen, fun process => (agreed process).1⟩, record, stored, fun process => (agreed process).2⟩

theorem passes_prepared {attempt : Revocation.Attempt} {config : OpenAgentHubConfig} {context : RunContext}
    (passes : attempt.passes config = some context) : Prepared attempt.around attempt.spec config context := by
  unfold Revocation.Attempt.passes at passes
  split at passes
  · next found after ran =>
    have same : found = context := by
      split at passes
      · exact Option.some.inj passes
      · cases passes
    subst same
    exact prepareRunContext_prepared (ran : Program.Returns _ _ _ _)
  · cases passes

end Overriding

/-- In every run of commands, an agent that runs by an override is trusted and runs in the sandbox that its user has chosen
last, and if it has come in an archive, then for that archive. -/
theorem overrides_are_chosen {desk : Desk} {start : Home} {acts : List Act} {attempt : Revocation.Attempt} {context : RunContext}
    (unset : start.machine.config.sandboxOverrides.entries = [])
    (passes : attempt.passes (acts.foldl (perform desk) start).machine.config = some context)
    (applied : (effectiveSandbox (attempt.policyInput context)).overrideApplied = true) :
    ∃ override, (effectiveSandbox (attempt.policyInput context)).mode = override.sandbox ∧
      context.installed.trust ≠ .untrusted ∧ context.installed.trust ≠ .unknown ∧
      (truthy context.installed.archiveDigest = true → context.installed.archiveDigest = some override.digest) ∧
      ∃ earlier chosen later, acts = earlier ++ chosen :: later ∧
        Chosen desk (earlier.foldl (perform desk) start) chosen context.agentKey override ∧
        Runs.AllMeet (perform desk) (Silent desk · · context.agentKey) (perform desk (earlier.foldl (perform desk) start) chosen)
          later := by
  obtain ⟨override, present, mode, known, trusted, bound⟩ := effectiveSandbox_overridden applied
  have stored : sandboxOverride (acts.foldl (perform desk) start).machine.config context.agentKey = some override := by
    rw [← (passes_prepared passes).override]
    exact present
  have none : sandboxOverride start.machine.config context.agentKey = none := by
    rw [sandboxOverride, Record.get, unset]
    rfl
  obtain ⟨earlier, chosen, later, split, told, silent⟩ := override_told none acts override stored
  exact ⟨override, mode, known, trusted, bound, earlier, chosen, later, split, tells_chosen told, silent⟩

section Samples

def shippedHome : Home where
  machine :=
    { agentsDir := ["home", "agents"]
      agentDirs := fun path => if path = ["home", "agents", "demo", "hello", "1.0.0"] then some { archive := some [] } else none
      config :=
        { installed :=
            { entries := [("demo/hello@1.0.0", { helloAgent with trust := .trusted, archiveDigest := some sampleDigest })] } } }

def accepting : List Act :=
  [⟨1, .ok [], .sandboxSet "demo/hello" .process true⟩, ⟨2, .ok [], .login "https://registry.example"⟩]

def shippedAttempt : Revocation.Attempt where
  around := sampleDesk.around (accepting.foldl (perform sampleDesk) shippedHome) ⟨3, .ok [], .login ""⟩
  spec := helloSpec
  prepare := {}
  execute := { interfaceName := .cli }

theorem overrides_are_chosen_accepting :
    ∃ context, shippedAttempt.passes (accepting.foldl (perform sampleDesk) shippedHome).machine.config = some context ∧
      ∃ override : SandboxOverride, (effectiveSandbox (shippedAttempt.policyInput context)).mode = override.sandbox ∧
        override.sandbox = .process := by
  have runs : ((shippedAttempt.passes (accepting.foldl (perform sampleDesk) shippedHome).machine.config).any fun context =>
      (effectiveSandbox (shippedAttempt.policyInput context)).overrideApplied &&
        decide ((effectiveSandbox (shippedAttempt.policyInput context)).mode = .process)) = true := by decide +kernel
  obtain ⟨context, passes, test⟩ := (Option.any_eq_true _ _).mp runs
  rw [Bool.and_eq_true, decide_eq_true_eq] at test
  have unset : shippedHome.machine.config.sandboxOverrides.entries = [] := rfl
  obtain ⟨override, mode, _⟩ := overrides_are_chosen unset passes test.1
  exact ⟨context, passes, override, mode, mode ▸ test.2⟩

end Samples

end Cli
