import Mathlib.Data.List.TakeWhile
import OpenAgentHub.Lib.Tally
import OpenAgentHub.Lib.Text
import OpenAgentHub.Runtime.RunOutcomes

namespace Runtime

inductive StoreCall where
  | syncRun (run : RunFacts)
  | recordUsage (sample : UsageSample) (now : Int)

namespace StoreCall

def apply (host : StatsHost) (db : UsageDatabase) : StoreCall → UsageDatabase
  | syncRun run => (db.syncRun run).db
  | recordUsage sample now => (db.recordUsage host now sample).db

def store (host : StatsHost) (calls : List StoreCall) : UsageDatabase := calls.foldl (apply host) {}

/-- The provider's name holds no colon. -/
def Plain : StoreCall → Prop
  | syncRun _ => True
  | recordUsage sample _ => ':' ∉ sample.modelProvider.toList

instance : DecidablePred Plain := fun call => by cases call <;> unfold Plain <;> infer_instance

end StoreCall

def ValidRange (host : StatsHost) (range : StatsRange) : Prop :=
  (rangeBound host range.start).isSome = true ∧ (rangeBound host range.stop).isSome = true

def UsageDatabase.inScope (host : StatsHost) (db : UsageDatabase) (range : StatsRange) : List TokenUsageRow :=
  db.tokenUsage.filter fun row => db.runs.entries.any fun entry => entry.1 == row.runId && inRange host range entry

/-- No run is lost or counted twice, whatever the runs are grouped by, and there is one entry for each model. -/
structure CountsAgree (rows : List TokenUsageRow) (stats : UsageStats) : Prop where
  states : stats.runs.running + stats.runs.stopped + stats.runs.failed = stats.runs.allTime
  sandboxes : (stats.sandboxes.map Prod.snd).sum = stats.runs.allTime
  agents : (stats.perAgent.map AgentUsage.runs).sum = stats.runs.allTime
  running : (stats.perAgent.map AgentUsage.running).sum = stats.runs.running
  active : stats.activeRuns.length = stats.runs.running
  distinct : (stats.models.map fun usage => (usage.provider, usage.model)).Nodup
  pairs : ∀ provider model, (∃ usage ∈ stats.models, usage.provider = provider ∧ usage.model = model) ↔
    ∃ row ∈ rows, row.modelProvider = provider ∧ row.modelName = model

structure TokensAgree (rows : List TokenUsageRow) (stats : UsageStats) : Prop where
  input : stats.tokens.input = (rows.map TokenUsageRow.tokensIn).sum
  output : stats.tokens.output = (rows.map TokenUsageRow.tokensOut).sum
  modelsInput : (stats.models.map ModelUsage.tokensIn).sum = stats.tokens.input
  modelsOutput : (stats.models.map ModelUsage.tokensOut).sum = stats.tokens.output

/-- Together the counts stay within what a double adds without rounding. -/
def Summable (rows : List TokenUsageRow) : Prop :=
  (rows.map fun row => row.tokensIn.natAbs).sum ≤ 2 ^ 53 ∧ (rows.map fun row => row.tokensOut.natAbs).sum ≤ 2 ^ 53

instance : DecidablePred Summable := fun _ => inferInstanceAs (Decidable (_ ∧ _))

section Runs

variable {runs : List (String × RunRow)}

theorem states_sum : (runs.filter fun entry => active entry.2.state).length +
    runs.countP (fun entry => !active entry.2.state && entry.2.state != "failed") +
      runs.countP (fun entry => entry.2.state == "failed") = runs.length := by
  induction runs with
  | nil => rfl
  | cons entry rest ih =>
    rw [List.filter_cons, List.countP_cons, List.countP_cons, List.length_cons]
    by_cases failed : entry.2.state = "failed"
    · have ended : active "failed" = false := by decide
      simp only [failed, ended]
      simp
      omega
    · cases isActive : active entry.2.state with
      | true =>
        simp [failed]
        omega
      | false =>
        simp [failed]
        omega

theorem sum_units : (runs.map fun _ => 1).sum = runs.length := by simp

theorem countSandboxes_eq : countSandboxes runs =
    Record.tally (fun entry => entry.2.sandbox) (fun _ => 0) (fun count _ => count + 1) runs := rfl

theorem tallyAgents_eq : tallyAgents runs = Record.tally (fun entry => entry.2.agentKey)
    (fun entry => { agentKey := entry.2.agentKey, runs := 0, running := 0, lastRunAt := none })
    (fun usage entry => usage.add entry.2) runs := rfl

theorem sandboxes_sum : ((countSandboxes runs).entries.map Prod.snd).sum = runs.length := by
  have total : ((countSandboxes runs).entries.map fun entry => id entry.2).sum = (runs.map fun _ => 1).sum := by
    rw [countSandboxes_eq]
    exact Record.sum_tally id (fun _ => 1) (fun _ => rfl) (fun _ _ => rfl) runs
  rw [sum_units] at total
  exact total

theorem agentRuns_sum : ((tallyAgents runs).entries.map fun entry => entry.2.runs).sum = runs.length := by
  rw [tallyAgents_eq, Record.sum_tally AgentUsage.runs (fun _ => 1) (fun _ => rfl) (fun _ _ => rfl) runs, sum_units]

theorem sum_ones (counts : String × RunRow → Bool) : (runs.map fun entry => if counts entry then 1 else 0).sum =
    (runs.filter counts).length := by
  induction runs with
  | nil => rfl
  | cons entry rest ih =>
    rw [List.map_cons, List.sum_cons, ih, List.filter_cons]
    split
    · rw [List.length_cons, Nat.add_comm]
    · exact Nat.zero_add _

theorem agentRunning_sum : ((tallyAgents runs).entries.map fun entry => entry.2.running).sum =
    (runs.filter fun entry => active entry.2.state).length := by
  rw [tallyAgents_eq, Record.sum_tally AgentUsage.running (fun entry => if active entry.2.state then 1 else 0)
    (fun _ => rfl) (fun _ _ => rfl) runs]
  exact sum_ones fun entry => active entry.2.state

end Runs

section Tokens

variable {rows : List TokenUsageRow}

theorem tokens_foldl (tokens : TokenCounts) :
    (rows.foldl TokenCounts.add tokens).input = (rows.map TokenUsageRow.tokensIn).foldl Double.add tokens.input ∧
      (rows.foldl TokenCounts.add tokens).output = (rows.map TokenUsageRow.tokensOut).foldl Double.add tokens.output := by
  induction rows generalizing tokens with
  | nil => exact ⟨rfl, rfl⟩
  | cons row rest ih => exact ih (tokens.add row)

theorem tokens_sum (summable : Summable rows) :
    (rows.foldl TokenCounts.add {}).input = (rows.map TokenUsageRow.tokensIn).sum ∧
      (rows.foldl TokenCounts.add {}).output = (rows.map TokenUsageRow.tokensOut).sum := by
  obtain ⟨input, output⟩ := @tokens_foldl rows {}
  have exact : ∀ column : TokenUsageRow → Int, (rows.map fun row => (column row).natAbs).sum ≤ 2 ^ 53 →
      (rows.map column).foldl Double.add 0 = (rows.map column).sum := by
    intro column small
    rw [Double.foldl_add_of_le (by rw [List.map_map]; simpa [Function.comp_def] using small), zero_add]
  rw [input, output]
  exact ⟨exact _ summable.1, exact _ summable.2⟩

def modelKey (row : TokenUsageRow) : String := row.modelProvider ++ ":" ++ row.modelName

theorem tallyModels_eq : tallyModels rows = Record.tally modelKey
    (fun row => { provider := row.modelProvider, model := row.modelName }) ModelTally.add rows := rfl

theorem models_sum (total : ModelTally → Int) {column : TokenUsageRow → Int}
    (zero : ∀ row : TokenUsageRow, total { provider := row.modelProvider, model := row.modelName } = 0)
    (adds : ∀ tally row, total (ModelTally.add tally row) = Double.add (total tally) (column row))
    (small : (rows.map fun row => (column row).natAbs).sum ≤ 2 ^ 53) :
    ((tallyModels rows).entries.map fun entry => total entry.2).sum = (rows.map column).sum := by
  rw [tallyModels_eq]
  refine Record.sum_tally_within total column zero (fun row => (column row).natAbs) (2 ^ 53)
    (fun size tally => (total tally).natAbs ≤ size) ?_ (fun larger within => Nat.le_trans within larger) ?_ small
  · intro row
    rw [zero]
    exact Nat.le_refl 0
  · intro size tally row within fits
    have exact : total (tally.add row) = total tally + column row := by
      rw [adds]
      apply Double.ofInt_of_le
      omega
    rw [exact]
    exact ⟨rfl, by omega⟩

theorem tallyModels_named : ∀ entry ∈ (tallyModels rows).entries, ∃ row ∈ rows, modelKey row = entry.1 ∧
    entry.2.provider = row.modelProvider ∧ entry.2.model = row.modelName := by
  rw [tallyModels_eq]
  refine Record.forall_tally (fun key (tally : ModelTally) => ∃ row ∈ rows, modelKey row = key ∧
    tally.provider = row.modelProvider ∧ tally.model = row.modelName) ?_ ?_
  · intro row isRow
    exact ⟨row, isRow, rfl, rfl, rfl⟩
  · rintro row _ tally ⟨first, isFirst, key, names⟩
    exact ⟨first, isFirst, key, names⟩

end Tokens

section Models

variable {rows : List TokenUsageRow}

def Colonless (rows : List TokenUsageRow) : Prop := ∀ row ∈ rows, ':' ∉ row.modelProvider.toList

theorem modelKey_chars (row : TokenUsageRow) : (modelKey row).toList = row.modelProvider.toList ++ ':' :: row.modelName.toList := by
  simp only [modelKey, String.toList_append, List.append_assoc]
  rfl

/-- Without colons in the providers, a key is of one pair. -/
theorem modelKey_inj {row other : TokenUsageRow} (plain : ':' ∉ row.modelProvider.toList) (plainOther : ':' ∉ other.modelProvider.toList)
    (same : modelKey row = modelKey other) : row.modelProvider = other.modelProvider ∧ row.modelName = other.modelName := by
  have whole : ∀ {chars : List Char}, ':' ∉ chars → chars.takeWhile (· ≠ ':') = chars := by
    intro chars absent
    rw [List.takeWhile_eq_self_iff]
    intro char listed
    exact decide_eq_true fun isColon => absent (isColon ▸ listed)
  have chars := congrArg String.toList same
  rw [modelKey_chars, modelKey_chars] at chars
  have providers := congrArg (List.takeWhile (· ≠ ':')) chars
  rw [Text.takeWhile_before, Text.takeWhile_before, whole plain, whole plainOther] at providers
  rw [providers] at chars
  have models := List.append_cancel_left chars
  exact ⟨String.toList_inj.mp providers, String.toList_inj.mp (List.cons.inj models).2⟩

theorem models_distinct :
    ((tallyModels rows).entries.map fun entry => (entry.2.provider, entry.2.model)).Nodup := by
  have distinct := (tallyModels rows).distinct
  refine (List.Nodup.of_map _ distinct).map_on fun entry present other otherPresent same => ?_
  obtain ⟨row, _, key, names⟩ := tallyModels_named entry present
  obtain ⟨otherRow, _, otherKey, otherNames⟩ := tallyModels_named other otherPresent
  rw [Prod.mk.injEq, names.1, names.2, otherNames.1, otherNames.2] at same
  have sameKey : entry.1 = other.1 := by
    rw [← key, ← otherKey, modelKey, modelKey, same.1, same.2]
  exact List.inj_on_of_nodup_map distinct present otherPresent sameKey

theorem models_pairs (plain : Colonless rows) (provider model : String) :
    (∃ entry ∈ (tallyModels rows).entries, entry.2.provider = provider ∧ entry.2.model = model) ↔
      ∃ row ∈ rows, row.modelProvider = provider ∧ row.modelName = model := by
  constructor
  · rintro ⟨entry, present, rfl, rfl⟩
    obtain ⟨row, isRow, _, names⟩ := tallyModels_named entry present
    exact ⟨row, isRow, names.1.symm, names.2.symm⟩
  · rintro ⟨row, isRow, rfl, rfl⟩
    have isKey : modelKey row ∈ (tallyModels rows).keys := by
      rw [tallyModels_eq]
      exact Record.mem_keys_tally.mpr ⟨row, isRow, rfl⟩
    obtain ⟨entry, present, key⟩ := List.mem_map.mp isKey
    obtain ⟨other, isOther, otherKey, names⟩ := tallyModels_named entry present
    obtain ⟨provider, model⟩ := modelKey_inj (plain other isOther) (plain row isRow) (otherKey.trans key)
    exact ⟨entry, present, names.1.trans provider, names.2.trans model⟩

end Models

section Computed

variable {host : StatsHost} {db : UsageDatabase} {range : StatsRange} {now : Int} {stats : UsageStats}

theorem sum_mergeSort {M α : Type} [AddCommMonoid M] {before : α → α → Bool} (measure : α → M) (items : List α) :
    ((items.mergeSort before).map measure).sum = (items.map measure).sum :=
  ((List.mergeSort_perm items before).map measure).sum_eq

theorem computed_isSome : (computeUsageStats host db range now).isSome = true ↔
    ValidRange host range ∧ db.readable = true := by
  rw [Option.isSome_iff_exists]
  simp only [computeUsageStats_eq_some, selectRuns_eq_some]
  constructor
  · rintro ⟨_, readable, _, ⟨valid, _⟩, _⟩
    exact ⟨valid, readable⟩
  · rintro ⟨valid, readable⟩
    exact ⟨_, readable, _, ⟨valid, rfl⟩, rfl⟩

theorem inScope_eq {runs : List (String × RunRow)} (selects : selectRuns host db.runs range = some runs) :
    db.tokenUsage.filter (fun row => runs.any fun entry => entry.1 == row.runId) = db.inScope host range := by
  apply List.filter_congr
  intro row _
  rw [Bool.eq_iff_iff, List.any_eq_true, List.any_eq_true]
  simp only [mem_selectRuns selects, Bool.and_eq_true]
  constructor
  · rintro ⟨entry, ⟨present, within⟩, same⟩
    exact ⟨entry, present, same, within⟩
  · rintro ⟨entry, present, same, within⟩
    exact ⟨entry, ⟨present, within⟩, same⟩

theorem computed_counts (plain : Colonless db.tokenUsage) (computed : computeUsageStats host db range now = some stats) :
    CountsAgree (db.inScope host range) stats := by
  obtain ⟨_, runs, selects, rfl⟩ := computeUsageStats_eq_some.mp computed
  have scope := inScope_eq selects
  have colonless : Colonless (db.inScope host range) := fun row isRow => plain row (List.mem_filter.mp isRow).1
  unfold aggregate
  dsimp only
  rw [scope]
  constructor
  · exact states_sum
  · exact sandboxes_sum
  · rw [sum_mergeSort, List.map_map]
    exact agentRuns_sum
  · rw [sum_mergeSort, List.map_map]
    exact agentRunning_sum
  · rw [List.length_mergeSort, List.length_map]
  · refine (((List.mergeSort_perm _ _).map _).nodup_iff).mpr ?_
    rw [List.map_map]
    exact models_distinct
  · intro provider model
    rw [← models_pairs colonless]
    simp only [List.mem_mergeSort, List.mem_map]
    constructor
    · rintro ⟨_, ⟨entry, present, rfl⟩, names⟩
      exact ⟨entry, present, names⟩
    · rintro ⟨entry, present, names⟩
      exact ⟨_, ⟨entry, present, rfl⟩, names⟩

theorem computed_tokens (summable : Summable (db.inScope host range)) (computed : computeUsageStats host db range now = some stats) :
    TokensAgree (db.inScope host range) stats := by
  obtain ⟨_, runs, selects, rfl⟩ := computeUsageStats_eq_some.mp computed
  have tokens := tokens_sum summable
  unfold aggregate
  dsimp only
  rw [inScope_eq selects]
  constructor
  · exact tokens.1
  · exact tokens.2
  · rw [sum_mergeSort, List.map_map, tokens.1]
    exact models_sum ModelTally.tokensIn (fun _ => rfl) (fun _ _ => rfl) summable.1
  · rw [sum_mergeSort, List.map_map, tokens.2]
    exact models_sum ModelTally.tokensOut (fun _ => rfl) (fun _ _ => rfl) summable.2

end Computed

section Stores

variable {host : StatsHost} {calls : List StoreCall}

theorem StoreCall.apply_colonless {db : UsageDatabase} {call : StoreCall} (plain : call.Plain) (before : Colonless db.tokenUsage) :
    Colonless (call.apply host db).tokenUsage := by
  cases call with
  | syncRun run => exact before
  | recordUsage sample now =>
    intro row isRow
    rcases List.mem_append.mp isRow with older | added
    · exact before row older
    · rw [List.mem_singleton.mp added]
      exact plain

theorem StoreCall.store_colonless (plain : ∀ call ∈ calls, call.Plain) : Colonless (StoreCall.store host calls).tokenUsage := by
  have run : ∀ db : UsageDatabase, Colonless db.tokenUsage → Colonless (calls.foldl (StoreCall.apply host) db).tokenUsage := by
    induction calls with
    | nil => exact fun _ before => before
    | cons call rest ih =>
      rw [List.forall_mem_cons] at plain
      exact fun db before => ih plain.2 _ (StoreCall.apply_colonless plain.1 before)
  exact run {} fun row isRow => absurd isRow List.not_mem_nil

private def yearlyHost : StatsHost where
  isoDate text := some text
  isoTime _ := none
  dateParse _ := none
  clockText _ := "2026"
  dayStart _ := "2026"
  number _ := none

private def pairedCalls : List StoreCall := [
  .syncRun ⟨⟨"a/b@1", "1", "cli", "container", "running", "ok", none, none, none, none, none, "2024", "2024", none⟩, "r1"⟩,
  .syncRun ⟨⟨"a/b@1", "1", "cli", "process", "failed", "ok", none, none, none, none, none, "2025", "2025", none⟩, "r2"⟩,
  .recordUsage { runId := "r1", modelProvider := "x", modelName := "y:z", tokensIn := 3, tokensOut := 4 } 0,
  .recordUsage { runId := "r2", modelProvider := "x", modelName := "y", tokensIn := 5, tokensOut := 6 } 0]

private def counted (tokens : List Int) : List StoreCall :=
  .syncRun ⟨⟨"a/b@1", "1", "cli", "process", "exited", "ok", none, none, none, none, none, "2025", "2025", none⟩, "r1"⟩ ::
    tokens.map fun count => .recordUsage { runId := "r1", modelProvider := "x", modelName := "y", tokensIn := count, tokensOut := 0 } 0

end Stores

end Runtime
