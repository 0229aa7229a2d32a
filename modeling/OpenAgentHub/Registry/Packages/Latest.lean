import OpenAgentHub.Registry.Packages.Effects
import OpenAgentHub.Registry.Packages.Pagination
import OpenAgentHub.Registry.Packages.VersionOrder

namespace Registry.Packages

open Relational Semver

instance : Std.TransCmp semverOrder :=
  inferInstanceAs (Std.TransCmp (compareLex
    (compareLex (compareOn fun row : AgentVersion => (semverKey row.version).1)
      (compareLex (compareOn fun row : AgentVersion => (semverKey row.version).2.1)
        (compareOn fun row : AgentVersion => (semverKey row.version).2.2)))
    (compareOn AgentVersion.publishedAt)))

/-- One version is what every request means by the latest version of the agent. -/
structure ReportsLatest (host : PackageHost) (now : Time) (files : Archives) (db : Db) (agent : Agent)
    (row : AgentVersion) : Prop where
  search : ∀ filters sort limit offset subject, ∀ item ∈ searchAgents host db filters sort limit offset subject,
    item.namespaceName = agent.namespaceName → item.name = agent.name → item = summary agent row
  catalog : ∀ query cursor page, loadCatalogPage host db query cursor = .ok page → ∀ item ∈ page.items,
    item.namespaceName = agent.namespaceName → item.name = agent.name → item = catalogItem db (agent, row)
  agentSummary : ∀ subject, canView db agent subject = true →
    getAgentSummary db agent.namespaceName agent.name subject = .ok (summary agent row)
  versionDetail : ∀ subject, canView db agent subject = true →
    getVersionDetail now db agent.namespaceName agent.name "latest" subject =
      .ok (detail now row agent (signerKey db row))
  archive : ∀ subject, canView db agent subject = true →
    downloadArchive db files agent.namespaceName agent.name "latest" subject =
      serveArchive files agent.namespaceName agent.name agent row
  downloadUrl : ∀ subject after url,
    issueDownloadUrl host now db agent.namespaceName agent.name "latest" subject = .ok (after, url) →
      url.target = tokenTarget agent.namespaceName agent.name row

/-- The highest version by precedence and date, the first in the table among equals, is visible, and
    no visible version is above it by sort key, date and id. -/
def LatestAgrees (db : Db) (agent : Agent) : Prop :=
  ∃ row, Selection.Greatest semverOrder (versionsOf db agent) row ∧ visible row = true ∧
    ∀ other ∈ versionsOf db agent, visible other = true → sqlOrder row other ≠ .lt

section Agreement

variable {db : Db} {agent : Agent} {row : AgentVersion}

theorem latest_eq_some : latest db agent = some row ↔ Selection.Greatest semverOrder (versionsOf db agent) row :=
  Selection.maxBy_eq_some

theorem mem_visibleVersions :
    row ∈ (db.agentVersions.select visible).filter (·.agentId == agent.id) ↔
      row ∈ versionsOf db agent ∧ visible row = true := by
  simp only [versionsOf, List.mem_filter, Table.mem_select]
  tauto

theorem sqlOrder_eq {other : AgentVersion} (left : row ∈ db.agentVersions.rows) (right : other ∈ db.agentVersions.rows)
    (same : sqlOrder row other = .eq) : row = other := by
  have ids := (Ordering.then_eq_eq.mp (Ordering.then_eq_eq.mp same).2).2
  exact Table.eq_of_id left right (Nat.compare_eq_eq.mp ids)

theorem latestVisible_eq_some :
    latestVisible db agent.id = some row ↔
      row ∈ versionsOf db agent ∧ visible row = true ∧
        ∀ other ∈ versionsOf db agent, visible other = true → sqlOrder row other ≠ .lt := by
  unfold latestVisible
  rw [Selection.maxBy_eq_some_of_distinct]
  · simp only [mem_visibleVersions, and_imp, and_assoc]
  · intro first left second right
    exact sqlOrder_eq (Table.mem_select.mp (mem_visibleVersions.mp left).1).1
      (Table.mem_select.mp (mem_visibleVersions.mp right).1).1

theorem latestAgrees_iff :
    LatestAgrees db agent ↔ ∃ row, latest db agent = some row ∧ latestVisible db agent.id = some row := by
  unfold LatestAgrees
  simp only [latest_eq_some, latestVisible_eq_some]
  constructor
  · intro ⟨row, greatest, shown, above⟩
    exact ⟨row, greatest, greatest.mem, shown, above⟩
  · intro ⟨row, greatest, _, shown, above⟩
    exact ⟨row, greatest, shown, above⟩

end Agreement

section Reports

variable {host : PackageHost} {now : Time} {files : Archives} {db : Db} {agent : Agent} {row : AgentVersion}

theorem viewableAgent_of {subject : Option Subject} (stored : agent ∈ db.agents.rows)
    (seen : canView db agent subject = true) :
    viewableAgent db agent.namespaceName agent.name subject = .ok agent := by
  have found : agentByName db agent.namespaceName agent.name = some agent :=
    agentByName_eq_some.mpr ⟨stored, rfl, rfl⟩
  simp [viewableAgent, found, seen, Option.filter_some]

theorem agent_of_names {other : Agent} (left : other ∈ db.agents.rows) (right : agent ∈ db.agents.rows)
    (space : other.namespaceName = agent.namespaceName) (name : other.name = agent.name) : other = agent := by
  apply Table.eq_of_clash left right
  simp [Row.clash, space, name]

theorem mem_searchAgents {filters : Filters} {sort : SearchSort} {limit offset : Int} {subject : Option Subject}
    {item : AgentSummary} (found : item ∈ searchAgents host db filters sort limit offset subject) :
    ∃ agent ∈ db.agents.rows, ∃ row, latestVisible db agent.id = some row ∧ item = summary agent row := by
  unfold searchAgents at found
  have listed := (Selection.descending_perm _ _).mem_iff.mp (List.mem_of_mem_drop (List.mem_of_mem_take found))
  obtain ⟨agent, shown, reported⟩ := List.mem_filterMap.mp listed
  obtain ⟨row, latest, rfl⟩ := Option.map_eq_some_iff.mp reported
  exact ⟨agent, (Table.mem_select.mp (List.mem_of_mem_filter shown)).1, row, latest, rfl⟩

theorem gather_items {query : CatalogQuery} {limit index : Nat} {rows : List CatalogRow} {gathered : Gathered}
    {item : CatalogItem} (found : item ∈ (gather db query limit index rows gathered).items) :
    item ∈ gathered.items ∨ ∃ row ∈ rows, item = catalogItem db row := by
  induction rows generalizing index gathered with
  | nil => exact .inl found
  | cons row rest ih =>
    have onward : ∀ {gathered}, item ∈ (gather db query limit (index + 1) rest gathered).items →
        item ∈ gathered.items ∨ ∃ other ∈ row :: rest, item = catalogItem db other := by
      intro gathered later
      rcases ih later with before | ⟨other, member, same⟩
      · exact .inl before
      · exact .inr ⟨other, List.mem_cons_of_mem _ member, same⟩
    have added : item ∈ gathered.items ++ [catalogItem db row] →
        item ∈ gathered.items ∨ ∃ other ∈ row :: rest, item = catalogItem db other := by
      intro member
      rcases List.mem_append.mp member with before | last
      · exact .inl before
      · exact .inr ⟨row, List.mem_cons_self, List.mem_singleton.mp last⟩
    unfold gather at found
    split at found
    · dsimp only at found
      split at found
      · exact added found
      · rcases onward found with before | later
        · exact added before
        · exact .inr later
    · exact onward found

theorem mem_loadCatalogPage {query : CatalogQuery} {cursor : Option String} {page : Page} {item : CatalogItem}
    (loaded : loadCatalogPage host db query cursor = .ok page) (found : item ∈ page.items) :
    ∃ row ∈ catalogRows host db query, item = catalogItem db row := by
  unfold loadCatalogPage at loaded
  simp only [Outcome.bind_eq_ok, Outcome.pure_eq_ok] at loaded
  obtain ⟨_, _, rfl⟩ := loaded
  rcases gather_items found with before | ⟨row, member, same⟩
  · cases before
  · exact ⟨row, List.mem_of_mem_filter (List.mem_of_mem_take member), same⟩

theorem reportsLatest_of_agreement (stored : agent ∈ db.agents.rows) (highest : latest db agent = some row)
    (shown : latestVisible db agent.id = some row) : ReportsLatest host now files db agent row where
  search := by
    intro filters sort limit offset subject item found space name
    obtain ⟨other, member, version, latest', rfl⟩ := mem_searchAgents found
    have same : other = agent := agent_of_names member stored space name
    subst same
    rw [Option.some.inj (latest'.symm.trans shown)]
  catalog := by
    intro query cursor page loaded item found space name
    obtain ⟨⟨other, version⟩, member, rfl⟩ := mem_loadCatalogPage loaded found
    obtain ⟨known, latest'⟩ := mem_latestRows.mp (mem_catalogRows.mp member).1
    have same : other = agent := agent_of_names known stored space name
    subst same
    have versions : version = row := Option.some.inj (latest'.symm.trans shown)
    rw [versions]
  agentSummary := by
    intro subject seen
    simp [getAgentSummary, viewableAgent_of stored seen, highest, Pure.pure, Except.pure]
  versionDetail := by
    intro subject seen
    simp [getVersionDetail, viewableAgent_of stored seen, resolveVersion, highest, Pure.pure, Except.pure]
  archive := by
    intro subject seen
    simp [downloadArchive, viewableAgent_of stored seen, resolveVersion, highest]
  downloadUrl := by
    intro subject after url issued
    unfold issueDownloadUrl at issued
    simp only [Outcome.bind_eq_ok, Outcome.demand_eq_ok, Outcome.pure_eq_ok, Prod.mk.injEq] at issued
    obtain ⟨_, _, other, viewed, version, resolved, _, _, _, rfl⟩ := issued
    have found := (Option.filter_eq_some_iff.mp (Outcome.demand_eq_ok.mp viewed)).1
    have same : other = agent := by
      obtain ⟨member, space, name⟩ := agentByName_eq_some.mp found
      exact agent_of_names member stored space name
    rw [same, resolveVersion, if_pos rfl, highest] at resolved
    rw [Option.some.inj resolved]

def administrator : Subject := ⟨{ id := 0, username := "admin", role := .admin }, none⟩

theorem canView_administrator (db : Db) (agent : Agent) : canView db agent (some administrator) = true := by
  unfold canView
  simp [administrator, tokenExcludes, privileged]

theorem search_shows (host : PackageHost) (stored : agent ∈ db.agents.rows)
    (shown : latestVisible db agent.id = some row) :
    ∃ offset, summary agent row ∈ searchAgents host db {} .newest 100 offset (some administrator) := by
  have listed : summary agent row ∈ Selection.descending SearchSort.newest.order
      (((agentsMatching host db {} true).filter fun agent => canView db agent (some administrator)).filterMap
        fun agent => (latestVisible db agent.id).map (summary agent)) := by
    rw [(Selection.descending_perm _ _).mem_iff]
    refine List.mem_filterMap.mpr ⟨agent, ?_, by simp [shown]⟩
    refine List.mem_filter.mpr ⟨?_, canView_administrator db agent⟩
    exact Table.mem_select.mpr ⟨stored, by simp [Filters.matches, given]⟩
  obtain ⟨index, bound, here⟩ := List.mem_iff_getElem.mp listed
  refine ⟨index, ?_⟩
  unfold searchAgents
  have atIndex : (max 0 (index : Int)).toNat = index := by omega
  have room : clamp 1 100 100 = 99 + 1 := by decide
  dsimp only [Option.isSome_some]
  rw [atIndex, room, List.drop_eq_getElem_cons bound, here, List.take_succ_cons]
  exact List.mem_cons_self

theorem version_of_name {first second : AgentVersion} (left : first ∈ versionsOf db agent)
    (right : second ∈ versionsOf db agent) (same : first.version = second.version) : first = second := by
  obtain ⟨leftStored, leftTheirs⟩ := Table.mem_select.mp left
  obtain ⟨rightStored, rightTheirs⟩ := Table.mem_select.mp right
  apply Table.eq_of_clash leftStored rightStored
  simp [Row.clash, same, beq_iff_eq.mp leftTheirs, beq_iff_eq.mp rightTheirs]

theorem agreement_of_reportsLatest {visibleRow : AgentVersion} (stored : agent ∈ db.agents.rows)
    (shown : latestVisible db agent.id = some visibleRow) (reports : ReportsLatest host now files db agent row) :
    latest db agent = some visibleRow := by
  have summarized := reports.agentSummary (some administrator) (canView_administrator db agent)
  unfold getAgentSummary at summarized
  rw [viewableAgent_of stored (canView_administrator db agent)] at summarized
  simp only [Outcome.bind_eq_ok, Outcome.demand_eq_ok, Outcome.pure_eq_ok, Except.ok.injEq] at summarized
  obtain ⟨_, rfl, highest, found, same⟩ := summarized
  obtain ⟨offset, searched⟩ := search_shows host stored shown
  have searchedSame := reports.search _ _ _ _ _ _ searched rfl rfl
  have names : highest.version = visibleRow.version :=
    (congrArg AgentSummary.version same).trans (congrArg AgentSummary.version searchedSame).symm
  have member := (latest_eq_some.mp found).mem
  have member' := (latestVisible_eq_some.mp shown).1
  rw [found, version_of_name member member' names]

end Reports

/-- Every request means the same version of the agent by the latest one, and it is a visible one. -/
def OneLatest (host : PackageHost) (now : Time) (files : Archives) (db : Db) (agent : Agent) : Prop :=
  ∃ row ∈ versionsOf db agent, visible row = true ∧ ReportsLatest host now files db agent row

/-- With a visible version at hand, the requests agree on the latest version exactly when the two
    orders do. -/
theorem one_latest_iff (host : PackageHost) (now : Time) (files : Archives) (db : Db) (agent : Agent)
    (stored : agent ∈ db.agents.rows) (some_visible : ∃ row ∈ versionsOf db agent, visible row = true) :
    OneLatest host now files db agent ↔ LatestAgrees db agent := by
  rw [latestAgrees_iff]
  constructor
  · intro ⟨row, _, _, reports⟩
    cases shown : latestVisible db agent.id with
    | none =>
      obtain ⟨other, member, isVisible⟩ := some_visible
      have listed := mem_visibleVersions.mpr ⟨member, isVisible⟩
      unfold latestVisible at shown
      cases rows : (db.agentVersions.select visible).filter (·.agentId == agent.id) with
      | nil =>
        rw [rows] at listed
        cases listed
      | cons first rest =>
        rw [rows] at shown
        cases shown
    | some visibleRow => exact ⟨visibleRow, agreement_of_reportsLatest stored shown reports, rfl⟩
  · intro ⟨row, highest, shown⟩
    obtain ⟨member, isVisible, _⟩ := latestVisible_eq_some.mp shown
    exact ⟨row, member, isVisible, reportsLatest_of_agreement stored highest shown⟩

def tool : Agent where
  id := 1
  namespaceName := "acme"
  name := "tool"
  ownerId := 1
  author := "founder"
  description := "A tool."
  license := "MIT"
  models := ["local"]

/-- The workshop with a second version, and the first one withdrawn. -/
def replaced : Store :=
  [byColleague 5 (.publishVersion (secondBuild.submission "public" none)),
    byFounder 6 (.manage (.yankVersion "acme" "tool" "1.0.0" true))].foldl (serve workshopHost) workshop

theorem one_latest_workshop : OneLatest workshopHost 7 replaced.files replaced.db tool := by
  obtain ⟨stored, shown, ordered⟩ : tool ∈ replaced.db.agents.rows ∧
      (versionsOf replaced.db tool).map visible = [false, true] ∧
      (versionsOf replaced.db tool).Pairwise (semverOrder · · = .lt) := by
    decide +kernel
  have two : (versionsOf replaced.db tool).length = 2 := by
    rw [← List.length_map visible, shown]
    rfl
  obtain ⟨first, second, rows⟩ := List.length_eq_two.mp two
  obtain ⟨hidden, isVisible⟩ : visible first = false ∧ visible second = true := by simpa [rows] using shown
  have below : semverOrder first second = .lt := by simpa [rows] using ordered
  apply (one_latest_iff workshopHost 7 replaced.files replaced.db tool stored ⟨second, by simp [rows], isVisible⟩).mpr
  refine ⟨second, ⟨[first], [], rows, by simpa using below, by simp⟩, isVisible, ?_⟩
  intro other member its
  rw [rows, List.mem_pair] at member
  rcases member with rfl | rfl
  · rw [hidden] at its
    cases its
  · have itself : sqlOrder other other = .eq := Std.ReflCmp.compare_self
    rw [itself]
    decide

def withdrawn : Store :=
  [byColleague 5 (.publishVersion (secondBuild.submission "public" none)),
    byFounder 6 (.manage (.yankVersion "acme" "tool" "2.0.0" true))].foldl (serve workshopHost) workshop

/-- Search shows the first version, the summary the yanked one. -/
theorem yanked_version_stays_latest :
    Runs.Reaches (Runs.steps (serve workshopHost)) workshop withdrawn ∧ tool ∈ withdrawn.db.agents.rows ∧
      (∃ row ∈ versionsOf withdrawn.db tool, visible row = true) ∧
      ¬ OneLatest workshopHost 7 withdrawn.files withdrawn.db tool := by
  obtain ⟨stored, shown, reported, searched⟩ : tool ∈ withdrawn.db.agents.rows ∧
      (versionsOf withdrawn.db tool).any visible = true ∧
      (getAgentSummary withdrawn.db "acme" "tool" none).toOption.map AgentSummary.version = some "2.0.0" ∧
      (searchAgents workshopHost withdrawn.db {} .newest 100 0 none).head?.map
        (fun item => (item.namespaceName, item.name, item.version)) = some ("acme", "tool", "1.0.0") := by
    decide +kernel
  refine ⟨Runs.reaches_foldl (serve workshopHost) _ workshop, stored, List.any_eq_true.mp shown, ?_⟩
  intro ⟨row, _, _, reports⟩
  obtain ⟨item, first, names⟩ := Option.map_eq_some_iff.mp searched
  obtain ⟨space, name, version⟩ : item.namespaceName = "acme" ∧ item.name = "tool" ∧ item.version = "1.0.0" := by
    simpa using names
  have same := reports.search {} .newest 100 0 none item (List.mem_of_mem_head? first) space name
  have summarized : getAgentSummary withdrawn.db "acme" "tool" none = .ok (summary tool row) :=
    reports.agentSummary none rfl
  rw [summarized] at reported
  have isSecond : (summary tool row).version = "2.0.0" := Option.some.inj reported
  rw [← same, version] at isSecond
  exact absurd isSecond (by decide)

end Registry.Packages
