import OpenAgentHub.Cli.Commands

namespace Cli

open Sdk Runtime

section Order

structure Orderly (config : OpenAgentHubConfig) : Prop where
  keyed : ∀ key record, config.installed.get key = some record →
    key = recordKey record ∧ Labelled record.namespaceName record.name
  permitted : ∀ key, config.permissions.get key ≠ none → config.installed.get key ≠ none

variable {config after : OpenAgentHubConfig}

theorem orderly_empty : Orderly {} where
  keyed := by
    intro key record found
    cases found
  permitted := by
    intro key found
    cases found rfl

theorem InstallWrites.orderly (writes : InstallWrites config after) (orderly : Orderly config) : Orderly after := by
  have recorded : ∀ {record : InstalledAgent}, Labelled record.namespaceName record.name → Orderly (recordInstall config record) := by
    intro record labelled
    constructor
    · intro key other found
      rw [recordInstall, Record.get_set] at found
      split at found
      · next own =>
        cases found
        exact ⟨own, labelled⟩
      · exact orderly.keyed key other found
    · intro key found
      rw [recordInstall, Record.get_set]
      split
      · exact Option.some_ne_none _
      · exact orderly.permitted key found
  cases writes with
  | nothing => exact orderly
  | recorded labelled => exact recorded labelled
  | @granted record labelled permissions =>
    refine ⟨(recorded labelled).keyed, ?_⟩
    intro key found
    rw [saveGrantedPermissions, Record.get_set] at found
    split at found
    · next own =>
      change (recordInstall config record).installed.get key ≠ none
      rw [own, recordInstall, recordKey, Record.get_set, if_pos rfl]
      exact Option.some_ne_none _
    · exact (recorded labelled).permitted key found

theorem lookup_map {α β : Type} (view : α → β) (key : String) : ∀ entries : List (String × α),
    (entries.map (Prod.map id view)).lookup key = (entries.lookup key).map view
  | [] => rfl
  | (first, value) :: rest => by
    rw [List.map_cons, List.lookup_cons, Prod.map_apply, List.lookup_cons, id_eq]
    cases key == first with
    | true => rfl
    | false => exact lookup_map view key rest

theorem SameAgents.get (same : SameAgents config after) (key : String) :
    (after.installed.get key).map undated = (config.installed.get key).map undated := by
  have looked := congrArg (List.lookup key) same.installed
  rw [lookup_map, lookup_map] at looked
  exact looked

theorem SameAgents.orderly (same : SameAgents config after) (orderly : Orderly config) : Orderly after where
  keyed := by
    intro key record found
    have views := same.get key
    rw [found, Option.map_some, eq_comm, Option.map_eq_some_iff] at views
    obtain ⟨old, stored, view⟩ := views
    have names : record.namespaceName = old.namespaceName ∧ record.name = old.name ∧ record.version = old.version :=
      ⟨(congrArg InstalledAgent.namespaceName view).symm, (congrArg InstalledAgent.name view).symm,
        (congrArg InstalledAgent.version view).symm⟩
    rw [recordKey, names.1, names.2.1, names.2.2]
    exact orderly.keyed key old stored
  permitted := by
    intro key found
    rw [same.permissions] at found
    have installed := orderly.permitted key found
    intro gone
    have views := same.get key
    rw [gone, Option.map_none, eq_comm, Option.map_eq_none_iff] at views
    exact installed views

variable {desk : Desk} {home : Home}

theorem removeAgent_orderly {spec : Spec} {entry : String × InstalledAgent} (orderly : Orderly home.machine.config) :
    Orderly (removeAgent desk spec home entry).machine.config where
  keyed := by
    intro key record found
    change (home.machine.config.installed.discard (· == entry.1)).get key = some record at found
    rw [Record.get_discard] at found
    split at found
    · cases found
    · exact orderly.keyed key record found
  permitted := by
    intro key found
    change (home.machine.config.permissions.discard (· == entry.1)).get key ≠ none at found
    change (home.machine.config.installed.discard (· == entry.1)).get key ≠ none
    rw [Record.get_discard] at found ⊢
    split at found
    · cases found rfl
    · next apart =>
      rw [if_neg apart]
      exact orderly.permitted key found

theorem foldl_removeAgent_orderly {spec : Spec} (entries : List (String × InstalledAgent)) :
    ∀ {home : Home}, Orderly home.machine.config → Orderly (entries.foldl (removeAgent desk spec) home).machine.config := by
  induction entries with
  | nil => exact fun orderly => orderly
  | cons entry rest ih => exact fun orderly => ih (removeAgent_orderly orderly)

/-- Every command keeps the configuration in order. -/
theorem perform_orderly (orderly : Orderly home.machine.config) (act : Act) :
    Orderly (perform desk home act).machine.config := by
  unfold perform
  split
  · exact installAgent_writes.1.orderly orderly
  · next text _ =>
    cases done : uninstall desk home act text with
    | error raised => exact orderly
    | ok left =>
      obtain ⟨spec, _, rfl⟩ := uninstall_cases done
      exact foldl_removeAgent_orderly _ orderly
  · next spec sandbox acknowledgeRisk _ =>
    cases done : sandboxSet desk home act spec sandbox acknowledgeRisk with
    | error raised => exact orderly
    | ok config =>
      unfold sandboxSet at done
      obtain ⟨_, _, saved⟩ := Outcome.bind_eq_ok.mp done
      cases saved
      exact ⟨orderly.keyed, orderly.permitted⟩
  · next spec _ =>
    cases done : sandboxReset desk home act spec with
    | error raised => exact orderly
    | ok config =>
      unfold sandboxReset at done
      obtain ⟨⟨_, agentKey, _⟩, _, saved⟩ := Outcome.bind_eq_ok.mp done
      cases saved
      unfold clearSandboxOverride
      cases home.machine.config.sandboxOverrides.get agentKey with
      | none => exact orderly
      | some override => exact ⟨orderly.keyed, orderly.permitted⟩
  · exact runCommand_sameAgents.orderly orderly
  · exact ⟨orderly.keyed, orderly.permitted⟩
  · exact orderly

theorem orderly_run (acts : List Act) : ∀ {home : Home}, Orderly home.machine.config →
    Orderly (acts.foldl (perform desk) home).machine.config := by
  induction acts with
  | nil => exact fun orderly => orderly
  | cons act rest ih => exact fun orderly => ih (perform_orderly orderly act)

end Order

section Uninstalling

open Program

variable {desk : Desk} {home : Home} {act : Act} {key : AgentKey} {record : InstalledAgent}

theorem recordKey_toList : (recordKey record).toList =
    record.namespaceName.toList ++ '/' :: (record.name.toList ++ '@' :: record.version.toList) := by
  simp [recordKey, agentKeyToString]

/-- A record whose key begins with a name is one of that name. -/
theorem named_of_startsWith {namespaceName name : String} (labelled : Labelled namespaceName name)
    (ownLabelled : Labelled record.namespaceName record.name)
    (begins : Text.startsWith (recordKey record) (namespaceName ++ "/" ++ name ++ "@") = true) :
    record.namespaceName = namespaceName ∧ record.name = name := by
  obtain ⟨rest, chars⟩ := List.isPrefixOf_iff_prefix.mp begins
  have pieces : namespaceName.toList ++ '/' :: (name.toList ++ '@' :: rest) =
      record.namespaceName.toList ++ '/' :: (record.name.toList ++ '@' :: record.version.toList) := by
    rw [← recordKey_toList, ← chars]
    simp
  obtain ⟨namespaces, names⟩ := Text.cut_eq labelled.1 ownLabelled.1 pieces
  obtain ⟨names, _⟩ := Text.cut_eq labelled.2 ownLabelled.2 names
  exact ⟨(String.toList_inj.mp namespaces).symm, (String.toList_inj.mp names).symm⟩

/-- With a version there is one candidate: the record under the key. -/
theorem uninstallCandidates_eq (orderly : Orderly home.machine.config) (labelled : Labelled key.namespaceName key.name)
    (found : home.machine.config.installed.get (agentKeyToString key) = some record)
    (isVersion : record.version = key.version) :
    uninstallCandidates desk home act ⟨key.namespaceName, key.name, some key.version⟩ = [(agentKeyToString key, record)] := by
  have distinct : home.machine.config.installed.entries.Nodup := home.machine.config.installed.distinct.of_map Prod.fst
  have shuffled := List.mergeSort_perm (home.machine.config.installed.entries.filter fun entry =>
      Text.startsWith entry.1 (key.namespaceName ++ "/" ++ key.name ++ "@"))
    fun first second => decide (compareVersions desk.localeCompare first.2.version second.2.version ≤ 0)
  have single : (uninstallCandidates desk home act ⟨key.namespaceName, key.name, some key.version⟩).Nodup :=
    ((shuffled.nodup_iff.mpr (distinct.filter _)).filter _)
  have isOnly : ∀ entry, entry ∈ uninstallCandidates desk home act ⟨key.namespaceName, key.name, some key.version⟩ ↔
      entry = (agentKeyToString key, record) := by
    rintro ⟨label, other⟩
    have listed : (label, other) ∈ uninstallCandidates desk home act ⟨key.namespaceName, key.name, some key.version⟩ ↔
        ((label, other) ∈ home.machine.config.installed.entries ∧
          Text.startsWith label (key.namespaceName ++ "/" ++ key.name ++ "@") = true) ∧ other.version = key.version := by
      change (label, other) ∈ List.filter _ (List.mergeSort _ _) ↔ _
      rw [List.mem_filter, List.mem_mergeSort, List.mem_filter, beq_iff_eq]
    rw [listed]
    constructor
    -- a key that begins so belongs to a record of the same name, since labels hold no separator
    · rintro ⟨⟨stored, begins⟩, version⟩
      obtain ⟨rfl, ownLabelled⟩ := orderly.keyed label other (Record.get_of_mem stored)
      obtain ⟨sameNamespace, sameName⟩ := named_of_startsWith labelled ownLabelled begins
      have sameKey : recordKey other = agentKeyToString key := by rw [recordKey, sameNamespace, sameName, version]
      rw [← sameKey] at found
      rw [← sameKey, Prod.mk.injEq]
      exact ⟨rfl, Option.some.inj ((Record.get_of_mem stored).symm.trans found)⟩
    · rintro same
      cases same
      refine ⟨⟨Record.mem_of_get found, ?_⟩, isVersion⟩
      rw [Text.startsWith, List.isPrefixOf_iff_prefix]
      exact ⟨key.version.toList, by simp [agentKeyToString]⟩
  have perm : (uninstallCandidates desk home act ⟨key.namespaceName, key.name, some key.version⟩).Perm [(agentKeyToString key, record)] := by
    refine (List.perm_ext_iff_of_nodup single (List.nodup_singleton _)).mpr ?_
    intro entry
    rw [isOnly, List.mem_singleton]
  exact List.perm_singleton.mp perm

theorem uninstall_single {text : String} {spec : Spec} {entry : String × InstalledAgent} (parsed : parseSpec text = .ok spec)
    (single : uninstallCandidates desk home act spec = [entry]) :
    uninstall desk home act text = .ok (removeAgent desk spec home entry) := by
  unfold uninstall
  rw [parsed, Outcome.ok_bind, single]
  dsimp only
  rw [Outcome.ensure_true (List.cons_ne_nil _ _), Outcome.ok_bind, Outcome.ensure_true (.inl (Nat.le_refl 1)), Outcome.ok_bind]
  rfl

theorem config_restored {config : OpenAgentHubConfig} (absent : config.installed.get (recordKey record) = none)
    (unpermitted : config.permissions.get (recordKey record) = none) (permissions : GrantedPermissions) :
    { config with
      installed := (config.installed.set (recordKey record) record).discard (· == recordKey record)
      permissions := (config.permissions.set (recordKey record) permissions).discard (· == recordKey record) } = config := by
  rw [Record.discard_set absent, Record.discard_set unpermitted]

theorem remove_remove {machine : Machine} {dest : List String} : (machine.remove dest).remove dest = machine.remove dest := by
  simp only [Machine.remove, Machine.mk.injEq, true_and]
  funext path
  split <;> rfl

end Uninstalling

/-- In every run of commands, uninstalling a version that was not there before its installation leaves the home as it was,
    but for what was below its directory and for the secrets stored for it. -/
theorem uninstall_undoes_install {desk : Desk} {start : Home} {acts : List Act} {opts : InstallOptions} {spec text : String}
    {source : Source} {schedule : Schedule} {faults : Faults} {now : Nat} {act : Act} {installed : Installation} {after : Machine}
    (fresh : start.machine.config = {}) (home : Home) (reached : acts.foldl (perform desk) start = home)
    (absent : home.machine.config.installed.get (agentKeyToString installed.key) = none)
    (returned : Program.Returns (installAgent desk.toSurroundings faults opts now spec source schedule) home.machine installed after)
    (parsed : parseSpec text = .ok ⟨installed.key.namespaceName, installed.key.name, some installed.key.version⟩) :
    uninstall desk { home with machine := after } act text = .ok
      { machine := home.machine.remove (installedAgentDir home.machine.agentsDir installed.key)
        vault := SecretsVault.delete desk.vaultHost home.vault (agentKeyToString installed.key) } := by
  have orderly : Orderly home.machine.config := by
    rw [← reached]
    exact orderly_run acts (fresh ▸ orderly_empty)
  have unpermitted : home.machine.config.permissions.get (agentKeyToString installed.key) = none := by
    by_contra permitted
    exact orderly.permitted _ permitted absent
  obtain ⟨_, decided, planned, unpacked, placed, places, _, _, rfl, rfl⟩ := installAgent_returns.mp returned
  obtain ⟨dir, rfl⟩ := placeFiles_sets places
  let record := installedRecord desk.toSurroundings now decided
  have written : InstallWrites home.machine.config (saveGrantedPermissions (recordInstall home.machine.config record)
      (recordKey record) decided.granted) := .granted (plan_labelled planned) decided.granted
  have stored : (saveGrantedPermissions (recordInstall home.machine.config record) (recordKey record)
      decided.granted).installed.get (agentKeyToString decided.key) = some record := by
    change (home.machine.config.installed.set (agentKeyToString decided.key) record).get (agentKeyToString decided.key) = _
    rw [Record.get_set, if_pos rfl]
  have candidates := @uninstallCandidates_eq desk
    { home with machine := ((home.machine.remove (installedAgentDir home.machine.agentsDir decided.key)).setDir
        (installedAgentDir home.machine.agentsDir decided.key) dir).setConfig (saveGrantedPermissions
          (recordInstall home.machine.config record) (recordKey record) decided.granted) }
    act decided.key record (written.orderly orderly) (plan_labelled planned) stored rfl
  refine (uninstall_single parsed candidates).trans (congrArg Except.ok ?_)
  unfold removeAgent
  rw [Home.mk.injEq]
  refine ⟨?_, rfl⟩
  have dirs : ((home.machine.remove (installedAgentDir home.machine.agentsDir decided.key)).setDir
        (installedAgentDir home.machine.agentsDir decided.key) dir).remove (installedAgentDir home.machine.agentsDir decided.key) =
      home.machine.remove (installedAgentDir home.machine.agentsDir decided.key) := by
    rw [remove_setDir, remove_remove]
  have config := @config_restored record home.machine.config absent unpermitted decided.granted
  exact (congrArg (fun machine => Machine.setConfig machine _) dirs).trans (congrArg (Machine.setConfig _) config)

def weatherManifest : Json :=
  .obj [("name", .str "demo/weather"), ("version", .str "2.0.0"), ("author", .str "demo"), ("permissions", .arr [.str "network"])]

def earlierActs : List Act :=
  [⟨1, .ok [], .install {} "demo/weather" (.dir "/home/alice/weather" (.ok weatherManifest) {}) ⟨[], []⟩ fun _ => none⟩,
    ⟨2, .ok [], .sandboxSet "demo/weather" .process true⟩, ⟨3, .ok [], .login "https://registry.example"⟩,
    ⟨4, .ok [], .vault "iv" (.set "demo/weather@2.0.0" { entries := [("WEATHER_KEY", "w3ather")] })⟩]

def weatherHome : Home := earlierActs.foldl (perform sampleDesk) { machine := sampleMachine }

example : (weatherHome.machine.config.installed.get "demo/weather@2.0.0").isSome = true ∧
    (weatherHome.machine.config.permissions.get "demo/weather@2.0.0").isSome = true ∧
    (weatherHome.machine.config.sandboxOverrides.get "demo/weather@2.0.0").isSome = true := by
  decide +kernel

theorem uninstall_undoes_install_sample :
    ∃ schedule installed after,
      Program.Returns (sampleInstall rootEntry "demo/hello" "1.0.0" schedule) weatherHome.machine installed after ∧
      uninstall sampleDesk { weatherHome with machine := after } ⟨5, .ok [], .uninstall "demo/hello@1.0.0"⟩ "demo/hello@1.0.0" =
        .ok { machine := weatherHome.machine.remove (installedAgentDir weatherHome.machine.agentsDir installed.key)
              vault := SecretsVault.delete plainVault weatherHome.vault (agentKeyToString installed.key) } := by
  obtain ⟨schedule, installed, after, returned, _⟩ := sample_installs rootEntry "demo/hello" "1.0.0"
    (show weatherHome.machine.agentsDir = _ by decide +kernel) (by decide +kernel) (by decide +kernel) ⟨rfl, by decide +kernel⟩
    rootEntry_loads
  have key := (installAgent_leaves sample_answered returned).key
  have label : agentKeyToString installed.key = "demo/hello@1.0.0" := by
    rw [key]
    decide +kernel
  have absent : weatherHome.machine.config.installed.get (agentKeyToString installed.key) = none := by
    rw [label]
    decide +kernel
  have version : versionText (sampleManifest "none") = "1.0.0" := by decide +kernel
  have parsed : parseSpec "demo/hello@1.0.0" =
      .ok ⟨installed.key.namespaceName, installed.key.name, some installed.key.version⟩ := by
    rw [(@sample_answered "demo/hello" "1.0.0").parses, key, answeredKey, version]
    rfl
  exact ⟨schedule, installed, after, returned,
    @uninstall_undoes_install sampleDesk { machine := sampleMachine } earlierActs {} "demo/hello@1.0.0" "demo/hello@1.0.0" _
      schedule (fun _ => none) 0 _ installed after rfl weatherHome rfl absent returned parsed⟩

end Cli
