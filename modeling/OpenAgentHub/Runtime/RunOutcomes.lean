import OpenAgentHub.Runtime.UsageStats

namespace Runtime

def failingReasons : List String := ["crashed", "oom", "container-gone", "signal", "timeout"]

def RunRow.EndedBadly (row : RunRow) : Prop := active row.state = false ∧ ∃ reason ∈ row.exitReason, reason ∈ failingReasons

/-- For every range, no run that has ended badly is the last successful one, and the failed runs would be one fewer
    without it. -/
def UsageDatabase.OutcomesReported (host : StatsHost) (db : UsageDatabase) : Prop :=
  ∀ range now stats, computeUsageStats host db range now = some stats →
    (∀ summary ∈ stats.runs.lastSuccessfulRun, ∀ reason ∈ summary.exitReason, reason ∉ failingReasons) ∧
      ∀ runs, selectRuns host db.runs range = some runs → ∀ entry ∈ runs, entry.2.EndedBadly →
        ∀ others, computeUsageStats host (db.pruneById entry.1).db range now = some others →
          stats.runs.failed = others.runs.failed + 1

section Selection

variable {host : StatsHost} {range : StatsRange} {runs : Record RunRow} {selected : List (String × RunRow)}

def inRange (host : StatsHost) (range : StatsRange) (entry : String × RunRow) : Bool :=
  ((rangeBound host range.start).getD none).all (fun start => decide (start ≤ entry.2.startedAt)) &&
    ((rangeBound host range.stop).getD none).all (fun stop => decide (entry.2.startedAt ≤ stop)) &&
    (given range.agent).all (· == entry.2.agentKey)

theorem selectRuns_eq_some : selectRuns host runs range = some selected ↔
    ((rangeBound host range.start).isSome ∧ (rangeBound host range.stop).isSome) ∧
      selected = (runs.entries.filter (inRange host range)).mergeSort fun one other =>
        decide (one.2.startedAt ≤ other.2.startedAt) := by
  unfold selectRuns inRange
  cases rangeBound host range.start with
  | none => simp
  | some start =>
    cases rangeBound host range.stop with
    | none => simp
    | some stop => simp [eq_comm]

theorem mem_selectRuns (selects : selectRuns host runs range = some selected) {entry : String × RunRow} :
    entry ∈ selected ↔ entry ∈ runs.entries ∧ inRange host range entry = true := by
  obtain ⟨_, rfl⟩ := selectRuns_eq_some.mp selects
  rw [List.mem_mergeSort, List.mem_filter]

theorem countP_selectRuns (selects : selectRuns host runs range = some selected) (counts : String × RunRow → Bool) :
    selected.countP counts = runs.entries.countP fun entry => counts entry && inRange host range entry := by
  obtain ⟨_, rfl⟩ := selectRuns_eq_some.mp selects
  rw [(List.mergeSort_perm _ _).countP_eq, List.countP_filter]

end Selection

section Counting

variable {host : StatsHost} {db : UsageDatabase} {range : StatsRange} {now : Int} {stats others : UsageStats}
  {entry : String × RunRow}

theorem runs_pruneById (runId : String) :
    (db.pruneById runId).db.runs.entries = (db.runs.discard (· == runId)).entries := by
  apply List.filter_congr
  intro entry present
  by_cases same : entry.1 = runId
  · simp only [same, beq_self_eq_true, Bool.not_true, Bool.not_eq_false', List.contains_iff_mem, List.mem_map, List.mem_filter]
    exact ⟨entry, ⟨present, by simp [same]⟩, same⟩
  · simp only [beq_false_of_ne same, Bool.not_false, Bool.not_eq_true', ← Bool.not_eq_true, List.contains_iff_mem, List.mem_map,
      List.mem_filter]
    rintro ⟨other, ⟨_, chosen⟩, its⟩
    have isRun : other.1 = runId := by simpa using chosen
    exact same (its.symm.trans isRun)

theorem failed_eq (computed : computeUsageStats host db range now = some stats) :
    stats.runs.failed = db.runs.entries.countP fun entry => entry.2.state == "failed" && inRange host range entry := by
  obtain ⟨_, selected, selects, rfl⟩ := computeUsageStats_eq_some.mp computed
  exact countP_selectRuns selects _

theorem failed_pruneById (computed : computeUsageStats host db range now = some stats)
    (without : computeUsageStats host (db.pruneById entry.1).db range now = some others) (present : entry ∈ db.runs.entries)
    (within : inRange host range entry = true) :
    stats.runs.failed = others.runs.failed + 1 ↔ entry.2.state = "failed" := by
  rw [failed_eq computed, failed_eq without, runs_pruneById, Record.countP_discard (show (entry.1, entry.2) ∈ _ from present)]
  by_cases failed : entry.2.state = "failed" <;> simp [failed, within]

theorem readable_pruneById (readable : db.readable = true) (runId : String) : (db.pruneById runId).db.readable = true := by
  rw [UsageDatabase.readable, List.all_eq_true] at readable ⊢
  intro row kept
  exact readable row (List.mem_filter.mp kept).1

theorem outcomesReported_iff (readable : db.readable = true) : db.OutcomesReported host ↔
    ∀ entry ∈ db.runs.entries, entry.2.EndedBadly → entry.2.state = "failed" := by
  constructor
  · intro reported entry present badly
    have computed : computeUsageStats host db {} 0 = some _ := computeUsageStats_eq_some.mpr ⟨readable, _, rfl, rfl⟩
    obtain ⟨_, runs, selects, _⟩ := computeUsageStats_eq_some.mp computed
    have without : computeUsageStats host (db.pruneById entry.1).db {} 0 = some _ :=
      computeUsageStats_eq_some.mpr ⟨readable_pruneById readable entry.1, _, rfl, rfl⟩
    have chosen : entry ∈ runs := (mem_selectRuns selects).mpr ⟨present, rfl⟩
    exact (failed_pruneById computed without present rfl).mp ((reported {} 0 _ computed).2 runs selects entry chosen badly _ without)
  · intro consistent range now stats computed
    refine ⟨?_, ?_⟩
    · intro summary last reason isReason bad
      obtain ⟨_, selected, selects, rfl⟩ := computeUsageStats_eq_some.mp computed
      obtain ⟨entry, isLast, rfl⟩ := Option.map_eq_some_iff.mp last
      obtain ⟨chosen, succeeded⟩ := List.mem_filter.mp (List.mem_of_getLast? isLast)
      have exited : entry.2.state = "exited" := by simpa using succeeded
      have badly : entry.2.EndedBadly := by
        refine ⟨by rw [exited]; decide, reason, ?_, bad⟩
        exact (Option.filter_eq_some_iff.mp isReason).1
      have failed := consistent entry ((mem_selectRuns selects).mp chosen).1 badly
      rw [exited] at failed
      exact absurd failed (by decide)
    · intro runs selects entry chosen badly others without
      obtain ⟨present, within⟩ := (mem_selectRuns selects).mp chosen
      exact (failed_pruneById computed without present within).mpr (consistent entry present badly)

end Counting

end Runtime
