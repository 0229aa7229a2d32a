import OpenAgentHub.Runtime.ExactlyOnce

namespace Runtime

/-- A line of a Codex log with cumulative totals, its counts not negative. -/
structure CumulativeLine (host : UsageHost) where
  source : String
  item : Json
  now : Int
  total : CumulativeTotal
  found : findCumulativeTotal host item = some total
  nonneg : 0 ≤ total.tokensIn ∧ 0 ≤ total.tokensOut

/-- Lines that are processed in order. There are no observations once the store has thrown. -/
structure TotalsRun (host : UsageHost) where
  past : List (CumulativeLine host) := []
  store : UsageStore := {}
  usage : Option (List UsageObservation) := some []

section Sequences

variable {host : UsageHost}

def remembered (store : UsageStore) (source model : String) : CodexTotal :=
  (store.codexTotals source model).getD ⟨0, 0⟩

def observeTotals (store : UsageStore) (line : CumulativeLine host) : Except Unit (Option UsageObservation × UsageStore) := do
  let (observation, totals) ← totalsToObservation host line.source (store.codexTotals line.source) line.total line.now
  .ok (observation, store.setModelTotals line.source totals)

def TotalsRun.read (run : TotalsRun host) (line : CumulativeLine host) : TotalsRun host :=
  match run.usage, observeTotals run.store line with
  | some usage, .ok (observation, store) => ⟨run.past ++ [line], store, some (usage ++ observation.toList)⟩
  | _, _ => { run with past := run.past ++ [line], usage := none }

def UsageObservation.NonNegative (obs : UsageObservation) : Prop := 0 ≤ obs.tokensIn ∧ 0 ≤ obs.tokensOut

def CumulativeLine.concerns (line : CumulativeLine host) (source model : String) : Bool :=
  line.source == source && line.total.model == model

def UsageObservation.concerns (obs : UsageObservation) (source model : String) : Bool :=
  obs.source == source && obs.model == some model

def tokensInOf (source model : String) (usage : List UsageObservation) : Int :=
  ((usage.filter (·.concerns source model)).map UsageObservation.tokensIn).sum

def tokensOutOf (source model : String) (usage : List UsageObservation) : Int :=
  ((usage.filter (·.concerns source model)).map UsageObservation.tokensOut).sum

def Growing (lines : List (CumulativeLine host)) : Prop :=
  lines.Pairwise fun first second =>
    first.total.tokensIn ≤ second.total.tokensIn ∧ first.total.tokensOut ≤ second.total.tokensOut

def lastTotals (lines : List (CumulativeLine host)) : CodexTotal :=
  match lines.getLast? with
  | some line => ⟨line.total.tokensIn, line.total.tokensOut⟩
  | none => ⟨0, 0⟩

/-- For every source and model whose counters never fall, the sums are the last totals. -/
def SumsMatch (lines : List (CumulativeLine host)) (usage : List UsageObservation) : Prop :=
  ∀ source model, Growing (lines.filter (·.concerns source model)) →
    tokensInOf source model usage = (lastTotals (lines.filter (·.concerns source model))).lastInput ∧
      tokensOutOf source model usage = (lastTotals (lines.filter (·.concerns source model))).lastOutput

/-- The lines are processed, no observation counts negative, and the sums are right. -/
def TotalsRun.Right (run : TotalsRun host) : Prop :=
  ∃ usage, run.usage = some usage ∧ (∀ obs ∈ usage, obs.NonNegative) ∧ SumsMatch run.past usage

def CumulativeLine.Splits (line : CumulativeLine host) (store : UsageStore) : Prop :=
  let last := remembered store line.source line.total.model
  (line.total.tokensIn < last.lastInput ∧ last.lastOutput < line.total.tokensOut) ∨
    (line.total.tokensOut < last.lastOutput ∧ last.lastInput < line.total.tokensIn)

/-- What the line adds to the remembered totals is not rounded. -/
def CumulativeLine.Exact (line : CumulativeLine host) (store : UsageStore) : Prop :=
  let last := remembered store line.source line.total.model
  Double.add line.total.tokensIn (-last.lastInput) = line.total.tokensIn - last.lastInput ∧
    Double.add line.total.tokensOut (-last.lastOutput) = line.total.tokensOut - last.lastOutput

/-- The remembered totals can be read, the line does not split against them, and it adds to them without
    rounding where neither counter has fallen so far. -/
def TotalsRun.Meets (run : TotalsRun host) (line : CumulativeLine host) : Prop :=
  (Sqlite.readable (remembered run.store line.source line.total.model).lastInput = true ∧
      Sqlite.readable (remembered run.store line.source line.total.model).lastOutput = true) ∧
    ¬ line.Splits run.store ∧
    (Growing ((run.past ++ [line]).filter (·.concerns line.source line.total.model)) → line.Exact run.store)

end Sequences

section Observations

variable {host : UsageHost} {store : UsageStore} {line : CumulativeLine host}

def CumulativeLine.Stalls (line : CumulativeLine host) (store : UsageStore) : Prop :=
  line.total.tokensIn ≤ (remembered store line.source line.total.model).lastInput ∧
    line.total.tokensOut ≤ (remembered store line.source line.total.model).lastOutput

instance : Decidable (line.Stalls store) := inferInstanceAs (Decidable (_ ∧ _))

theorem growth_nonpos {total last : Int} : Double.add total (-last) ≤ 0 ↔ total ≤ last := by
  rw [Double.add, Double.ofInt_nonpos]
  omega

theorem growth_nonneg {total last : Int} : 0 ≤ Double.add total (-last) ↔ last ≤ total := by
  rw [Double.add, Double.ofInt_nonneg]
  omega

theorem getCodexTotal_ok {source model : String} {last : Option CodexTotal} :
    UsageStore.getCodexTotal (store.codexTotals source) model = .ok last ↔
      (Sqlite.readable (remembered store source model).lastInput = true ∧
        Sqlite.readable (remembered store source model).lastOutput = true) ∧ store.codexTotals source model = last := by
  unfold UsageStore.getCodexTotal remembered
  cases known : store.codexTotals source model with
  | none => simp [Sqlite.readable]
  | some total =>
    dsimp only [Option.getD_some]
    cases one : Sqlite.readable total.lastInput <;> cases other : Sqlite.readable total.lastOutput <;> simp

/-- A line is processed where the remembered totals can be read. -/
theorem observeTotals_ok {observation : Option UsageObservation} {after : UsageStore} :
    observeTotals store line = .ok (observation, after) ↔
      (Sqlite.readable (remembered store line.source line.total.model).lastInput = true ∧
          Sqlite.readable (remembered store line.source line.total.model).lastOutput = true) ∧
        (codexGrowth host line.source (store.codexTotals line.source) line.total line.now).1 = observation ∧
        store.setModelTotals line.source
          (codexGrowth host line.source (store.codexTotals line.source) line.total line.now).2 = after := by
  unfold observeTotals totalsToObservation codexGrowth
  cases read : UsageStore.getCodexTotal (store.codexTotals line.source) line.total.model with
  | error thrown =>
    refine iff_of_false (fun ok => ?_) fun told => ?_
    · cases ok
    · have ok := getCodexTotal_ok.mpr ⟨told.1, rfl⟩
      rw [read] at ok
      cases ok
  | ok last =>
    obtain ⟨readable, rfl⟩ := getCodexTotal_ok.mp read
    simp [bind, Except.bind, readable]

theorem observed_of_stalls (stalls : line.Stalls store) :
    codexGrowth host line.source (store.codexTotals line.source) line.total line.now =
      (none, store.codexTotals line.source) := by
  unfold codexGrowth totalsGrowth
  dsimp only
  rw [if_pos ⟨growth_nonpos.mpr stalls.1, growth_nonpos.mpr stalls.2⟩]

/-- The observation counts from the remembered totals, and the totals of the line replace them. -/
theorem observed_of_grows (grows : ¬ line.Stalls store) :
    codexGrowth host line.source (store.codexTotals line.source) line.total line.now =
      (some { provider := .codex, source := line.source, model := some line.total.model
              tokensIn := Double.add line.total.tokensIn (-(remembered store line.source line.total.model).lastInput)
              tokensOut := Double.add line.total.tokensOut (-(remembered store line.source line.total.model).lastOutput)
              occurredAt := host.iso line.now, eventKey := cumulativeKey line.total },
        Function.update (store.codexTotals line.source) line.total.model
          (some ⟨line.total.tokensIn, line.total.tokensOut⟩)) := by
  unfold codexGrowth totalsGrowth
  dsimp only
  rw [if_neg]
  · rfl
  · rintro ⟨notIn, notOut⟩
    exact grows ⟨growth_nonpos.mp notIn, growth_nonpos.mp notOut⟩

/-- A line gives an observation with a negative count exactly where its counters split. -/
theorem observed_nonNegative {observation : Option UsageObservation} {after : UsageStore}
    (observed : observeTotals store line = .ok (observation, after)) :
    (∀ obs ∈ observation, obs.NonNegative) ↔ ¬ line.Splits store := by
  obtain ⟨_, rfl, _⟩ := observeTotals_ok.mp observed
  unfold CumulativeLine.Splits UsageObservation.NonNegative
  by_cases stalls : line.Stalls store
  · rw [observed_of_stalls stalls]
    apply iff_of_true
    · intro obs absent
      cases absent
    · have bounds := stalls
      unfold CumulativeLine.Stalls at bounds
      dsimp only
      omega
  · rw [observed_of_grows stalls]
    simp only [Option.mem_def, Option.some.injEq, forall_eq', growth_nonneg]
    unfold CumulativeLine.Stalls at stalls
    omega

/-- The remembered totals after the line: a line that stalls leaves them. -/
theorem observed_remembered {observation : Option UsageObservation} {after : UsageStore}
    (observed : observeTotals store line = .ok (observation, after)) (source model : String) :
    remembered after source model =
      if line.concerns source model ∧ ¬ line.Stalls store then ⟨line.total.tokensIn, line.total.tokensOut⟩
      else remembered store source model := by
  obtain ⟨_, _, rfl⟩ := observeTotals_ok.mp observed
  unfold remembered UsageStore.setModelTotals CumulativeLine.concerns
  by_cases stalls : line.Stalls store
  · rw [observed_of_stalls stalls, Function.update_eq_self]
    simp [stalls]
  · rw [observed_of_grows stalls]
    by_cases here : source = line.source
    · subst here
      by_cases same : model = line.total.model
      · subst same
        simp [stalls]
      · simp [same, Ne.symm same]
    · simp [here, Ne.symm here]

end Observations

section Steps

variable {host : UsageHost} {source model : String} {line : CumulativeLine host} {store after : UsageStore}
  {observation : Option UsageObservation}

theorem CumulativeLine.concerns_iff : line.concerns source model = true ↔ line.source = source ∧ line.total.model = model := by
  simp [CumulativeLine.concerns]

theorem lastTotals_snoc (lines : List (CumulativeLine host)) (line : CumulativeLine host) :
    lastTotals (lines ++ [line]) = ⟨line.total.tokensIn, line.total.tokensOut⟩ := by
  simp [lastTotals]

theorem growing_snoc {lines : List (CumulativeLine host)} (growing : Growing (lines ++ [line])) :
    Growing lines ∧ (lastTotals lines).lastInput ≤ line.total.tokensIn ∧
      (lastTotals lines).lastOutput ≤ line.total.tokensOut := by
  obtain ⟨before, _, below⟩ := List.pairwise_append.mp growing
  refine ⟨before, ?_⟩
  unfold lastTotals
  cases found : lines.getLast? with
  | none => exact line.nonneg
  | some last => exact below last (List.mem_of_getLast? found) line (List.mem_singleton.mpr rfl)

def Remembers (run : TotalsRun host) : Prop :=
  ∀ source model, Growing (run.past.filter (·.concerns source model)) →
    remembered run.store source model = lastTotals (run.past.filter (·.concerns source model))

variable {past : List (CumulativeLine host)} {usage : List UsageObservation}

theorem filter_snoc_of_concerns (here : line.concerns source model = true) :
    (past ++ [line]).filter (·.concerns source model) = past.filter (·.concerns source model) ++ [line] := by
  rw [List.filter_append, List.filter_singleton, here]
  rfl

theorem filter_snoc_of_other (elsewhere : line.concerns source model = false) :
    (past ++ [line]).filter (·.concerns source model) = past.filter (·.concerns source model) := by
  rw [List.filter_append, List.filter_singleton, elsewhere]
  exact List.append_nil _

theorem Remembers.step (remembers : Remembers ⟨past, store, some usage⟩)
    (observed : observeTotals store line = .ok (observation, after)) :
    Remembers ⟨past ++ [line], after, some (usage ++ observation.toList)⟩ := by
  intro source model growing
  dsimp only at growing ⊢
  rw [observed_remembered observed]
  cases here : line.concerns source model with
  | false =>
    rw [filter_snoc_of_other here] at growing ⊢
    rw [if_neg (fun told => Bool.false_ne_true told.1)]
    exact remembers source model growing
  | true =>
    rw [filter_snoc_of_concerns here] at growing ⊢
    rw [lastTotals_snoc]
    by_cases stalls : line.Stalls store
    · obtain ⟨before, notIn, notOut⟩ := growing_snoc growing
      have known : remembered store source model = _ := remembers source model before
      obtain ⟨rfl, rfl⟩ := CumulativeLine.concerns_iff.mp here
      rw [if_neg (fun told => told.2 stalls), known]
      unfold CumulativeLine.Stalls at stalls
      rw [known] at stalls
      cases told : lastTotals (past.filter (·.concerns line.source line.total.model)) with
      | mk lastInput lastOutput =>
        rw [told] at notIn notOut stalls
        rw [CodexTotal.mk.injEq]
        dsimp only at notIn notOut stalls
        omega
    · rw [if_pos ⟨rfl, stalls⟩]

/-- What a line adds to the sums of its source and model: nothing where it stalls, else its rounded differences. -/
theorem observed_tokens (observed : observeTotals store line = .ok (observation, after)) :
    (line.concerns source model = false →
      tokensInOf source model observation.toList = 0 ∧ tokensOutOf source model observation.toList = 0) ∧
    (¬ line.Stalls store →
      tokensInOf line.source line.total.model observation.toList =
          Double.add line.total.tokensIn (-(remembered store line.source line.total.model).lastInput) ∧
        tokensOutOf line.source line.total.model observation.toList =
          Double.add line.total.tokensOut (-(remembered store line.source line.total.model).lastOutput)) ∧
    (line.Stalls store → observation = none) := by
  obtain ⟨_, rfl, _⟩ := observeTotals_ok.mp observed
  unfold tokensInOf tokensOutOf
  by_cases stalls : line.Stalls store
  · rw [observed_of_stalls stalls]
    exact ⟨fun _ => ⟨rfl, rfl⟩, fun grows => absurd stalls grows, fun _ => rfl⟩
  · rw [observed_of_grows stalls]
    refine ⟨fun elsewhere => ?_, fun _ => ?_, fun stalled => absurd stalled stalls⟩
    · unfold CumulativeLine.concerns at elsewhere
      simp [UsageObservation.concerns, elsewhere]
    · simp [UsageObservation.concerns]

theorem tokensInOf_append (first second : List UsageObservation) :
    tokensInOf source model (first ++ second) = tokensInOf source model first + tokensInOf source model second := by
  simp [tokensInOf]

theorem tokensOutOf_append (first second : List UsageObservation) :
    tokensOutOf source model (first ++ second) = tokensOutOf source model first + tokensOutOf source model second := by
  simp [tokensOutOf]

/-- The sums stay right exactly where the line is added without rounding, as far as the law asks for it. -/
theorem sumsMatch_step (remembers : Remembers ⟨past, store, some usage⟩) (right : SumsMatch past usage)
    (observed : observeTotals store line = .ok (observation, after)) :
    SumsMatch (past ++ [line]) (usage ++ observation.toList) ↔
      (Growing ((past ++ [line]).filter (·.concerns line.source line.total.model)) → line.Exact store) := by
  have own : line.concerns line.source line.total.model = true := CumulativeLine.concerns_iff.mpr ⟨rfl, rfl⟩
  obtain ⟨silent, counted, stalled⟩ := @observed_tokens _ line.source line.total.model _ _ _ _ observed
  have turn : Growing ((past ++ [line]).filter (·.concerns line.source line.total.model)) →
      ((tokensInOf line.source line.total.model (usage ++ observation.toList) = line.total.tokensIn ∧
        tokensOutOf line.source line.total.model (usage ++ observation.toList) = line.total.tokensOut) ↔
          line.Exact store) := by
    intro growing
    rw [filter_snoc_of_concerns own] at growing
    obtain ⟨before, notIn, notOut⟩ := growing_snoc growing
    have known : remembered store line.source line.total.model =
        lastTotals (past.filter (·.concerns line.source line.total.model)) := remembers _ _ before
    obtain ⟨sumIn, sumOut⟩ := right _ _ before
    rw [tokensInOf_append, tokensOutOf_append, sumIn, sumOut]
    unfold CumulativeLine.Exact
    dsimp only
    by_cases stalls : line.Stalls store
    · rw [stalled stalls]
      unfold CumulativeLine.Stalls at stalls
      rw [known] at stalls ⊢
      have sameIn : line.total.tokensIn = (lastTotals (past.filter (·.concerns line.source line.total.model))).lastInput := by omega
      have sameOut : line.total.tokensOut = (lastTotals (past.filter (·.concerns line.source line.total.model))).lastOutput := by omega
      rw [sameIn, sameOut]
      simp [tokensInOf, tokensOutOf, Double.add, Double.ofInt_zero]
    · rw [(counted stalls).1, (counted stalls).2, known]
      omega
  constructor
  · intro match_ growing
    have sums := match_ line.source line.total.model growing
    rw [filter_snoc_of_concerns own, lastTotals_snoc] at sums
    exact (turn growing).mp sums
  · intro exact_ source model growing
    cases here : line.concerns source model with
    | false =>
      obtain ⟨noneIn, noneOut⟩ := (@observed_tokens _ source model _ _ _ _ observed).1 here
      rw [filter_snoc_of_other here] at growing ⊢
      rw [tokensInOf_append, tokensOutOf_append, noneIn, noneOut, add_zero, add_zero]
      exact right source model growing
    | true =>
      obtain ⟨rfl, rfl⟩ := CumulativeLine.concerns_iff.mp here
      have sums := (turn growing).mpr (exact_ growing)
      rw [filter_snoc_of_concerns here, lastTotals_snoc]
      exact sums

theorem right_step {run : TotalsRun host} (remembers : Remembers run) (right : run.Right) :
    (run.read line).Right ↔ run.Meets line := by
  obtain ⟨past, store, usage⟩ := run
  obtain ⟨usage, rfl, nonNegative, sums⟩ := right
  unfold TotalsRun.read TotalsRun.Meets
  dsimp only
  cases observed : observeTotals store line with
  | error thrown =>
    refine iff_of_false ?_ fun meets => ?_
    · rintro ⟨_, absent, _⟩
      cases absent
    · have ok := observeTotals_ok.mpr ⟨meets.1, rfl, rfl⟩
      rw [observed] at ok
      cases ok
  | ok outcome =>
    obtain ⟨observation, after⟩ := outcome
    rw [and_iff_right (observeTotals_ok.mp observed).1, ← observed_nonNegative observed, ← sumsMatch_step remembers sums observed]
    unfold TotalsRun.Right
    constructor
    · rintro ⟨_, same, signs, match_⟩
      cases same
      exact ⟨fun obs present => signs obs (List.mem_append_right _ (Option.mem_toList.mpr present)), match_⟩
    · rintro ⟨signs, match_⟩
      refine ⟨_, rfl, fun obs listed => ?_, match_⟩
      rcases List.mem_append.mp listed with earlier | last
      · exact nonNegative obs earlier
      · exact signs obs (Option.mem_toList.mp last)

end Steps

section Law

variable {host : UsageHost}

/-- From an empty store, after every line the observations so far count nothing negative and add up to the last totals,
    exactly where every line meets the condition. -/
theorem codex_totals_iff (lines : List (CumulativeLine host)) :
    Runs.Along TotalsRun.read TotalsRun.Right {} lines ↔ Runs.AllMeet TotalsRun.read TotalsRun.Meets {} lines := by
  have blank : Remembers ({} : TotalsRun host) := fun _ _ _ => rfl
  have first : ({} : TotalsRun host).Right := ⟨[], rfl, by simp, fun _ _ _ => ⟨rfl, rfl⟩⟩
  refine Runs.along_iff_allMeet (fun run => run.usage.isSome = true → Remembers run) ?_ ?_ (fun _ => blank) first
  · intro run line remembers right still
    obtain ⟨past, store, usage⟩ := run
    obtain ⟨usage, rfl, _⟩ := right
    unfold TotalsRun.read at still ⊢
    dsimp only at still ⊢
    cases observed : observeTotals store line with
    | error thrown =>
      rw [observed] at still
      cases still
    | ok outcome => exact (remembers rfl).step observed
  · intro run line remembers right
    obtain ⟨usage, isUsage, _⟩ := right
    exact right_step (remembers (by rw [isUsage]; rfl)) ⟨usage, isUsage, ‹_›⟩

def totalsItem (tokensIn tokensOut : Int) : Json :=
  .obj [("payload", .obj [("totals",
    .obj [("model", .str "gpt-5"), ("input_tokens", .num tokensIn), ("output_tokens", .num tokensOut)])])]

theorem totalsItem_found (tokensIn tokensOut : Int) :
    findCumulativeTotal host (totalsItem tokensIn tokensOut) = some ⟨"gpt-5", tokensIn, tokensOut⟩ := by
  rfl

def restarted : List (CumulativeLine (asciiHost [])) :=
  [⟨"s.jsonl", totalsItem 100 50, 0, _, totalsItem_found 100 50, by decide⟩,
    ⟨"s.jsonl", totalsItem 40 60, 0, _, totalsItem_found 40 60, by decide⟩]

theorem restart_counted_negative : ¬ Runs.Along TotalsRun.read TotalsRun.Right {} restarted := by
  intro along
  obtain ⟨usage, isUsage, nonNegative, _⟩ := along.final
  have counts : (restarted.foldl TotalsRun.read {}).usage.map (List.map UsageObservation.tokensIn) = some [100, -60] := by
    decide +kernel
  rw [isUsage, Option.map_some, Option.some.injEq] at counts
  have negative : (-60 : Int) ∈ usage.map UsageObservation.tokensIn := by
    rw [counts]
    decide
  obtain ⟨obs, listed, tokens⟩ := List.mem_map.mp negative
  have positive := (nonNegative obs listed).1
  rw [tokens] at positive
  exact absurd positive (by decide)

end Law

end Runtime
