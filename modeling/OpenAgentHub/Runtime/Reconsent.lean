import OpenAgentHub.Runtime.Collection
import OpenAgentHub.Runtime.ExactlyOnce

namespace Runtime

section Visiting

variable {host : UsageHost} {sources : SessionSources} {provider : ProviderName} {path : String} {ticks : Nat → Tick}
  {store : UsageStore}

structure Visited (sources : SessionSources) (path : String) (before after : UsageStore) : Prop where
  rows : after.externalUsage = before.externalUsage
  cursors : after.sourceCursors = before.sourceCursors ∨ ∃ offset, after.sourceCursors =
    Function.update before.sourceCursors path (some ⟨(sources.stat path).size, (sources.stat path).mtimeMs, offset⟩)
  totals : ∀ other, other ≠ path → after.codexTotals other = before.codexTotals other

theorem Visited.refl : Visited sources path store store := ⟨rfl, Or.inl rfl, fun _ _ => rfl⟩

theorem readLog_visited (adapter : Adapter host) :
    Visited sources adapter.source store (readLog host sources adapter ticks store).1 := by
  unfold readLog parseSessionFile
  dsimp only
  by_cases known : unchanged (store.sourceCursors adapter.source) (sources.stat adapter.source) = true
  · rw [if_pos known]
    exact .refl
  · rw [if_neg known]
    have elsewhere : ∀ other totals, other ≠ adapter.source →
        (store.setModelTotals adapter.source totals).codexTotals other = store.codexTotals other := by
      intro other totals apart
      exact Function.update_of_ne apart _ _
    split
    · exact ⟨rfl, Or.inl rfl, fun other apart => elsewhere other _ apart⟩
    · exact ⟨rfl, Or.inr ⟨_, rfl⟩, fun other apart => elsewhere other _ apart⟩

theorem readSource_visited : Visited sources path store (readSource host sources provider path ticks store).1 := by
  cases provider with
  | claude => exact readLog_visited (claudeAdapter host path)
  | codex => exact readLog_visited (codexAdapter host path)
  | opencode =>
    unfold readSource parseDb
    dsimp only
    split
    · exact .refl
    · split
      · exact .refl
      · split
        · exact .refl
        · split
          · exact .refl
          · split
            · exact .refl
            · exact ⟨rfl, Or.inr ⟨_, rfl⟩, fun _ _ => rfl⟩

/-! ### The cursors and the totals of unchanged sources -/

def logLines (host : UsageHost) (sources : SessionSources) (path : String) : List (List Char) :=
  linesOf (complete (host.decode (sources.log path)))

/-- Every cursor has the size and the time of its source, and there are totals only for a log with usage events. -/
structure Consistent (host : UsageHost) (sources : SessionSources) (store : UsageStore) : Prop where
  current : ∀ path cursor, store.sourceCursors path = some cursor → unchanged (some cursor) (sources.stat path) = true
  founded : ∀ path, numbered (codexAdapter host path) 1 (logLines host sources path) noTotals = [] →
    store.codexTotals path = noTotals

theorem Visited.current {after : UsageStore} (visited : Visited sources path store after)
    (current : ∀ path cursor, store.sourceCursors path = some cursor → unchanged (some cursor) (sources.stat path) = true) :
    ∀ path cursor, after.sourceCursors path = some cursor → unchanged (some cursor) (sources.stat path) = true := by
  intro other cursor placed
  rcases visited.cursors with same | ⟨offset, moved⟩
  · rw [same] at placed
    exact current other cursor placed
  · rw [moved] at placed
    by_cases here : other = path
    · subst here
      rw [Function.update_self] at placed
      cases placed
      simp [unchanged]
    · rw [Function.update_of_ne here] at placed
      exact current other cursor placed

theorem parseLines_quiet {adapter : Adapter host} {known : UsageObservation → Bool} {lines : List (List Char)} {lineNo : Nat}
    {tally : Tally} (silent : numbered adapter lineNo lines tally.totals = []) :
    (parseLines adapter known ticks lineNo lines tally).1.totals = tally.totals := by
  cases looped : parseLines adapter known ticks lineNo lines tally with
  | mk final ended =>
    obtain ⟨read, rest, rfl, totals, _, _⟩ := parseLines_cases looped
    rw [numbered_append, List.append_eq_nil_iff] at silent
    exact totals.trans (totalsAfter_quiet silent.1)

theorem numbered_claude {source : String} {lines : List (List Char)} : ∀ {lineNo : Nat} {totals other : ModelTotals},
    numbered (claudeAdapter host source) lineNo lines totals = numbered (claudeAdapter host source) lineNo lines other ∧
      totalsAfter (claudeAdapter host source) lines totals = totals := by
  induction lines with
  | nil => exact fun {_ _ _} => ⟨rfl, rfl⟩
  | cons line rest step =>
    intro lineNo totals other
    have kept : ∀ totals, lineTotals (claudeAdapter host source) totals line = totals := by
      intro totals
      unfold lineTotals
      cases itemOf host line <;> rfl
    refine ⟨?_, ?_⟩
    · unfold numbered
      rw [kept, kept]
      exact congrArg _ step.1
    · show totalsAfter _ rest (lineTotals _ totals line) = totals
      rw [kept]
      exact (@step lineNo totals totals).2

theorem parseLines_claude {source : String} {known : UsageObservation → Bool} {lines : List (List Char)} {lineNo : Nat}
    {tally : Tally} : (parseLines (claudeAdapter host source) known ticks lineNo lines tally).1.totals = tally.totals := by
  cases looped : parseLines (claudeAdapter host source) known ticks lineNo lines tally with
  | mk final ended =>
    obtain ⟨read, rest, _, totals, _, _⟩ := parseLines_cases looped
    exact totals.trans (@numbered_claude _ _ _ 0 tally.totals tally.totals).2

/-- A log that is read for the first time is read from its start. -/
theorem readLog_totals (adapter : Adapter host)
    (current : ∀ path cursor, store.sourceCursors path = some cursor → unchanged (some cursor) (sources.stat path) = true)
    (quiet : (parseLines adapter (fun obs => store.hasExternal obs.provider obs.source obs.eventKey) ticks 1
      (logLines host sources adapter.source) { totals := store.codexTotals adapter.source }).1.totals =
        store.codexTotals adapter.source) :
    (readLog host sources adapter ticks store).1.codexTotals adapter.source = store.codexTotals adapter.source := by
  unfold readLog parseSessionFile
  dsimp only
  cases placed : store.sourceCursors adapter.source with
  | some cursor =>
    rw [if_pos (current _ _ placed)]
  | none =>
    have new : ¬ unchanged none (sources.stat adapter.source) = true := Bool.false_ne_true
    rw [if_neg new, sliceOf_none]
    unfold logLines at quiet
    split
    · exact (Function.update_self _ _ _).trans quiet
    · exact (Function.update_self _ _ _).trans quiet

theorem Consistent.read (consistent : Consistent host sources store) :
    Consistent host sources (readSource host sources provider path ticks store).1 where
  current := readSource_visited.current consistent.current
  founded := by
    intro other silent
    have before := consistent.founded other silent
    by_cases here : other = path
    · subst here
      cases provider with
      | claude => exact (readLog_totals (claudeAdapter host other) consistent.current parseLines_claude).trans before
      | codex =>
        refine (readLog_totals (codexAdapter host other) consistent.current ?_).trans before
        apply parseLines_quiet
        rw [show store.codexTotals (codexAdapter host other).source = noTotals from before]
        exact silent
      | opencode =>
        have frame : ∀ {stat db}, (parseDb host other store stat db ticks).1.codexTotals = store.codexTotals := by
          intro stat db
          unfold parseDb
          dsimp only
          repeat' split
          all_goals rfl
        show (parseDb host other store (some (sources.stat other)) (some (sources.database other)) ticks).1.codexTotals other = _
        exact (congrFun frame other).trans before
    · exact (readSource_visited.totals other here).trans before

theorem readSources_consistent {visits : Visits} {files : List String} : ∀ {store : UsageStore},
    Consistent host sources store → Consistent host sources (readSources host sources provider visits files store).1 := by
  induction files with
  | nil => exact fun consistent => consistent
  | cons path rest step =>
    intro store consistent
    unfold readSources
    cases visits path with
    | none => exact step consistent
    | some ticks =>
      have read : Consistent host sources (readSource host sources provider path ticks store).1 := consistent.read
      dsimp only
      split
      · rename_i after result
        rw [result] at read
        exact read
      · rename_i after output result
        rw [result] at read
        exact step read

theorem collectSources_consistent {pass : Pass} (consistent : Consistent host sources store) :
    Consistent host sources (collectSources host sources pass store).1 := by
  unfold collectSources
  dsimp only
  split
  · exact readSources_consistent consistent
  · exact readSources_consistent consistent

end Visiting

section History

variable {host : UsageHost} {sources : SessionSources} {db : UsageDatabase}

theorem upsertLimits_store {limits : List LimitRow} {now : String} : ∀ {db : UsageDatabase},
    (limits.foldl (fun db limit => (db.upsertLimit { limit with observedAt := now }).db) db).toUsageStore =
      db.toUsageStore := by
  induction limits with
  | nil => exact fun {_} => rfl
  | cons limit rest step => exact fun {_} => step

theorem recordOutput_store {output : AdapterOutput} {now : String} :
    (recordOutput now db output).toUsageStore = db.toUsageStore.recordAll output.usage now := by
  unfold recordOutput
  dsimp only
  rw [upsertLimits_store]

theorem recordOutput_consistent {output : AdapterOutput} {now : String} (consistent : Consistent host sources db.toUsageStore) :
    Consistent host sources (recordOutput now db output).toUsageStore := by
  rw [recordOutput_store]
  constructor
  · intro path cursor placed
    rw [recordAll_frame.1] at placed
    exact consistent.current path cursor placed
  · intro path silent
    rw [recordAll_frame.2]
    exact consistent.founded path silent

theorem runPass_consistent {run : UsageDatabase × List AdapterOutput} {pass : Pass}
    (consistent : Consistent host sources run.1.toUsageStore) :
    Consistent host sources (runPass host sources run pass).1.toUsageStore := by
  unfold runPass
  dsimp only
  split
  · exact collectSources_consistent consistent
  · exact consistent

theorem collect_consistent {collection : Collection} (consistent : Consistent host sources db.toUsageStore) :
    Consistent host sources (collectProvidersSync host sources db collection).toUsageStore := by
  unfold collectProvidersSync
  dsimp only
  have passed : Consistent host sources (collection.passes.foldl (runPass host sources) (db, [])).1.toUsageStore :=
    List.foldlRecOn (motive := fun run : UsageDatabase × List AdapterOutput => Consistent host sources run.1.toUsageStore)
      _ _ consistent fun _ before _ _ => runPass_consistent before
  split
  · exact List.foldlRecOn (motive := fun db : UsageDatabase => Consistent host sources db.toUsageStore) _ _ passed
      fun _ before _ _ => recordOutput_consistent before
  · exact passed

theorem perform_consistent {step : UsageStep} (consistent : Consistent host sources db.toUsageStore) :
    Consistent host sources (step.perform host sources db).toUsageStore := by
  cases step with
  | collect collection => exact collect_consistent consistent
  | setEnabled provider enabled => exact ⟨consistent.current, consistent.founded⟩
  | setConsent provider kind granted => exact ⟨consistent.current, consistent.founded⟩
  | revoke provider => exact ⟨consistent.current, consistent.founded⟩

theorem empty_consistent : Consistent host sources {} where
  current := by
    intro path cursor placed
    cases placed
  founded := fun _ _ => rfl

theorem history_consistent {history : List UsageStep} :
    Consistent host sources (history.foldl (UsageStep.perform host sources) {}).toUsageStore :=
  List.foldlRecOn (motive := fun db : UsageDatabase => Consistent host sources db.toUsageStore) _ _ empty_consistent
    fun _ before _ _ => perform_consistent before

end History

/-! ### What a reading without a cut gives -/

section Lines

variable {host : UsageHost} {adapter : Adapter host}

theorem readLine_error_iff {known : UsageObservation → Bool} {tally : Tally} {line : List Char} {lineNo : Nat} {now : Int} :
    readLine adapter known tally line lineNo now = .error () ↔
      ∃ item, itemOf host line = some item ∧ adapter.read tally.totals item lineNo now = .error () := by
  constructor
  · exact readLine_error
  · rintro ⟨item, found, thrown⟩
    unfold itemOf at found
    unfold readLine
    split at found
    · cases found
    · rename_i filled
      rw [if_neg filled, found]
      dsimp only
      rw [thrown]

/-- How the loop ends is a matter of where the adapter throws, not of what is known. -/
theorem parseLines_ended {alike : ModelTotals → ModelTotals → Prop} {known other : UsageObservation → Bool}
    {ticks : Nat → Tick} {lines : List (List Char)}
    (throws : ∀ one two, alike one two → ∀ item lineNo now,
      (adapter.read one item lineNo now = .error () ↔ adapter.read two item lineNo now = .error ()))
    (stays : ∀ one two, alike one two → ∀ line, alike (lineTotals adapter one line) (lineTotals adapter two line)) :
    ∀ {lineNo : Nat} {one two : Tally}, alike one.totals two.totals →
    (parseLines adapter known ticks lineNo lines one).2 = (parseLines adapter other ticks lineNo lines two).2 := by
  induction lines with
  | nil => exact fun {_ _ _} _ => rfl
  | cons line rest step =>
    intro lineNo one two before
    unfold parseLines
    cases ticks lineNo with
    | late => rfl
    | stopped => rfl
    | reached now =>
      dsimp only
      have same : readLine adapter known one line lineNo now = .error () ↔
          readLine adapter other two line lineNo now = .error () := by
        rw [readLine_error_iff, readLine_error_iff]
        apply exists_congr
        intro item
        exact and_congr_right fun _ => throws _ _ before item lineNo now
      cases first : readLine adapter known one line lineNo now with
      | error thrown =>
        rw [same.mp first]
      | ok next =>
        cases second : readLine adapter other two line lineNo now with
        | error thrown =>
          rw [same.mpr second] at first
          cases first
        | ok after =>
          apply step
          rw [(readLine_ok first).1, (readLine_ok second).1]
          exact stays _ _ before line

end Lines

section Unseen

variable {host : UsageHost} {sources : SessionSources} {adapter : Adapter host} {path : String} {ticks : Nat → Tick}
  {store : UsageStore}

def logUsage (sources : SessionSources) (adapter : Adapter host) (ticks : Nat → Tick) (totals : ModelTotals) :
    List UsageObservation :=
  (numbered adapter 1 (logLines host sources adapter.source) totals).map (UsageEvent.at adapter ticks)

theorem readLog_loop {final : Tally} {ended : LoopEnd} (unseen : store.sourceCursors adapter.source = none)
    (looped : parseLines adapter (fun obs => store.hasExternal obs.provider obs.source obs.eventKey) ticks 1
      (logLines host sources adapter.source) { totals := store.codexTotals adapter.source } = (final, ended)) :
    (readLog host sources adapter ticks store).2 =
      if ended = .broken then none
      else some { usage := final.usage, limits := final.limits.map LimitObservation.limitRow } := by
  unfold readLog parseSessionFile
  dsimp only
  rw [unseen, sliceOf_none]
  have loop : parseLines adapter (fun obs => store.hasExternal obs.provider obs.source obs.eventKey) ticks 1
      (linesOf (complete (host.decode (sources.log adapter.source)))) { totals := store.codexTotals adapter.source } =
        (final, ended) := looped
  have new : ¬ unchanged none (sources.stat adapter.source) = true := Bool.false_ne_true
  rw [if_neg new, loop]
  dsimp only
  by_cases broken : ended = .broken
  · rw [if_pos broken, if_pos broken]
    rfl
  · rw [if_neg broken, if_neg broken]
    rfl

theorem hasExternal_clear {obs : UsageObservation} (clear : ∀ row ∈ store.externalUsage, row.provider ≠ obs.provider) :
    store.hasExternal obs.provider obs.source obs.eventKey = false := by
  apply List.any_eq_false.mpr
  intro row stored
  simp [clear row stored]

theorem readLog_unseen (adapter : Adapter host) (running : ∀ place, ∃ now, ticks place = .reached now)
    (unseen : store.sourceCursors adapter.source = none) (clear : ∀ row ∈ store.externalUsage, row.provider ≠ adapter.provider) :
    (readLog host sources adapter ticks store).2.map AdapterOutput.usage =
      if (readLog host sources adapter ticks { codexTotals := fun _ => store.codexTotals adapter.source }).2.isSome then
        some (logUsage sources adapter ticks (store.codexTotals adapter.source))
      else none := by
  cases looped : parseLines adapter (fun obs => store.hasExternal obs.provider obs.source obs.eventKey) ticks 1
      (logLines host sources adapter.source) { totals := store.codexTotals adapter.source } with
  | mk final ended =>
    cases alone : parseLines adapter (fun obs => ({} : UsageStore).hasExternal obs.provider obs.source obs.eventKey) ticks 1
        (logLines host sources adapter.source) { totals := store.codexTotals adapter.source } with
    | mk other last =>
      have same : last = ended := by
        have throws : ∀ one two, one = two → ∀ item lineNo now,
            (adapter.read one item lineNo now = .error () ↔ adapter.read two item lineNo now = .error ()) := by
          rintro one _ rfl item lineNo now
          exact Iff.rfl
        have ends := congrArg Prod.snd looped
        rw [parseLines_ended throws (fun _ _ same line => congrArg (lineTotals adapter · line) same) rfl] at ends
        exact (congrArg Prod.snd alone).symm.trans ends
      rw [readLog_loop unseen looped, readLog_loop rfl alone, same]
      by_cases broken : ended = .broken
      · rw [if_pos broken, if_pos broken]
        rfl
      · rw [if_neg broken, if_neg broken]
        obtain ⟨read, rest, lines, totals, usage, ends⟩ := parseLines_cases looped
        have finished : rest = [] := by
          cases ended with
          | finished => exact ends
          | broken => exact absurd rfl broken
          | cutShort =>
            obtain ⟨now, reached⟩ := running (1 + read.length)
            rw [ends.2] at reached
            cases reached
        rw [finished, List.append_nil] at lines
        apply congrArg some
        show final.usage = _
        rw [usage, List.nil_append, logUsage, lines]
        apply List.filter_eq_self.mpr
        intro obs member
        have belongs := (at_belongs obs member).1
        rw [hasExternal_clear (belongs ▸ clear)]
        rfl

end Unseen

section Messages

variable {host : UsageHost} {sources : SessionSources} {path : String} {ticks : Nat → Tick} {cost : Bool}

def messagesLoop (host : UsageHost) (path : String) (db : OpencodeDb) (ticks : Nat → Tick) : Option (DbTally × LoopEnd) :=
  (schemaOf db).bind fun (schema, rows) =>
    let selected := selectMessages schema.timeCol 0 rows
    if schema.hasTokens && selected.all readableRow then
      some (readRows host schema.hasCost path ticks 1 selected { maxTime := 0 })
    else none

def databaseUsage (host : UsageHost) (sources : SessionSources) (path : String) (ticks : Nat → Tick) : List UsageObservation :=
  ((messagesLoop host path (sources.database path) ticks).map fun loop => loop.1.usage).getD []

def messagesFromStart (db : OpencodeDb) : List MessageRow :=
  match schemaOf db with
  | some (schema, rows) =>
    let selected := selectMessages schema.timeCol 0 rows
    if schema.hasTokens && selected.all readableRow then selected else []
  | none => []

theorem parseDb_unseen {store : UsageStore} {stat : FileStat} {db : OpencodeDb}
    (unseen : store.sourceCursors path = none) :
    (parseDb host path store (some stat) (some db) ticks).2.map ParsedDb.usage =
      match messagesLoop host path db ticks with
      | none => some []
      | some (tally, ended) => if ended = .broken then none else some tally.usage := by
  have new : ¬ unchanged none stat = true := Bool.false_ne_true
  unfold parseDb messagesLoop
  dsimp only
  rw [unseen, if_neg new]
  cases schemaOf db with
  | none => rfl
  | some found =>
    obtain ⟨schema, rows⟩ := found
    rw [Option.bind_some]
    dsimp only
    cases schema.hasTokens with
    | false => rfl
    | true =>
      rw [Bool.true_and, if_neg (by decide)]
      show (if (!(selectMessages schema.timeCol 0 rows).all readableRow) = true then _ else _ : UsageStore × Option ParsedDb).2.map
        ParsedDb.usage = _
      cases (selectMessages schema.timeCol 0 rows).all readableRow with
      | false => rfl
      | true =>
        rw [if_neg (by decide), if_pos rfl]
        dsimp only
        split
        · rename_i broken
          exact (if_pos broken).symm
        · rename_i unbroken
          exact (if_neg unbroken).symm

theorem readRows_belongs {rows : List MessageRow} : ∀ {index : Nat} {tally : DbTally},
    (∀ obs ∈ tally.usage, obs.provider = .opencode ∧ obs.source = path) →
    ∀ obs ∈ (readRows host cost path ticks index rows tally).1.usage, obs.provider = .opencode ∧ obs.source = path := by
  induction rows with
  | nil => exact fun belong => belong
  | cons row rest step =>
    intro index tally belong
    unfold readRows
    cases ticks index with
    | late => exact belong
    | stopped => exact belong
    | reached now =>
      dsimp only
      unfold readRow
      cases bearing host row with
      | false => exact step belong
      | true =>
        cases occurred host row now with
        | error thrown => exact belong
        | ok occurredAt =>
          apply step
          intro obs member
          rcases List.mem_append.mp member with earlier | last
          · exact belong obs earlier
          · rw [List.mem_singleton.mp last]
            exact ⟨rfl, rfl⟩

theorem readRows_empty {rows : List MessageRow} : ∀ {index : Nat} {tally final : DbTally},
    readRows host cost path ticks index rows tally = (final, .finished) →
    (final.usage = [] ↔ tally.usage = [] ∧ ∀ row ∈ rows, bearing host row = false) := by
  induction rows with
  | nil =>
    intro index tally final read
    obtain ⟨rfl, _⟩ := Prod.mk.inj read
    simp
  | cons row rest step =>
    intro index tally final read
    unfold readRows at read
    cases tick : ticks index with
    | late =>
      rw [tick] at read
      cases read
    | stopped =>
      rw [tick] at read
      cases read
    | reached now =>
      rw [tick] at read
      dsimp only at read
      unfold readRow at read
      cases bears : bearing host row with
      | false =>
        rw [bears, if_neg Bool.false_ne_true] at read
        rw [step read]
        simp [bears]
      | true =>
        rw [bears, if_pos rfl] at read
        cases dated : occurred host row now with
        | error thrown =>
          rw [dated] at read
          cases read
        | ok occurredAt =>
          rw [dated] at read
          rw [step read]
          simp [bears]

theorem readRows_running (running : ∀ place, ∃ now, ticks place = .reached now) {rows : List MessageRow} :
    ∀ {index : Nat} {tally : DbTally}, (readRows host cost path ticks index rows tally).2 ≠ .cutShort := by
  induction rows with
  | nil =>
    intro index tally cut
    cases cut
  | cons row rest step =>
    intro index tally
    obtain ⟨now, reached⟩ := running index
    unfold readRows
    rw [reached]
    dsimp only
    split
    · intro cut
      cases cut
    · exact step

theorem databaseUsage_belongs :
    ∀ obs ∈ databaseUsage host sources path ticks, obs.provider = .opencode ∧ obs.source = path := by
  intro obs member
  unfold databaseUsage messagesLoop at member
  cases found : schemaOf (sources.database path) with
  | none =>
    rw [found] at member
    cases member
  | some found' =>
    rw [found, Option.bind_some] at member
    dsimp only at member
    split at member
    · refine readRows_belongs ?_ obs member
      intro old absent
      cases absent
    · cases member

/-- A database that is read to its end gives nothing exactly when no message carries tokens. -/
theorem databaseUsage_empty (running : ∀ place, ∃ now, ticks place = .reached now)
    (whole : (parseDb host path {} (some (sources.stat path)) (some (sources.database path)) ticks).2.isSome = true) :
    databaseUsage host sources path ticks = [] ↔
      ∀ row ∈ messagesFromStart (sources.database path), bearing host row = false := by
  have parsed := @parseDb_unseen host path ticks {} (sources.stat path) (sources.database path) rfl
  unfold databaseUsage messagesFromStart
  unfold messagesLoop at parsed ⊢
  cases opened : schemaOf (sources.database path) with
  | none => simp
  | some found =>
    obtain ⟨schema, rows⟩ := found
    rw [opened, Option.bind_some] at parsed
    rw [Option.bind_some]
    dsimp only at parsed ⊢
    cases told : schema.hasTokens && (selectMessages schema.timeCol 0 rows).all readableRow with
    | false => simp
    | true =>
      rw [if_pos told] at parsed
      rw [if_pos rfl, if_pos rfl]
      cases read : readRows host schema.hasCost path ticks 1 (selectMessages schema.timeCol 0 rows) { maxTime := 0 } with
      | mk final ended =>
        rw [read] at parsed
        have unbroken : ended ≠ .broken := by
          rintro rfl
          rw [Option.map_eq_none_iff.mp parsed] at whole
          cases whole
        have finished : ended = .finished := by
          cases ended with
          | finished => rfl
          | broken => exact absurd rfl unbroken
          | cutShort => exact absurd (congrArg Prod.snd read) (readRows_running running)
        rw [finished] at read
        show final.usage = [] ↔ _
        rw [readRows_empty read]
        exact and_iff_right rfl

end Messages

/-! ### A collection without a cut -/

section Uncut

variable {host : UsageHost} {sources : SessionSources} {provider : ProviderName} {ticks : String → Nat → Tick}
  {store : UsageStore} {path : String}

structure Uncut (host : UsageHost) (sources : SessionSources) (provider : ProviderName) (ticks : String → Nat → Tick) :
    Prop where
  running : ∀ path place, ∃ now, ticks path place = .reached now
  whole : ∀ path ∈ sources.files provider, (readSource host sources provider path (ticks path) {}).2.isSome = true

def returns (host : UsageHost) (sources : SessionSources) (provider : ProviderName) (path : String) (ticks : Nat → Tick)
    (totals : ModelTotals) : Bool :=
  (readSource host sources provider path ticks { codexTotals := fun _ => totals }).2.isSome

def freshUsage (host : UsageHost) (sources : SessionSources) (provider : ProviderName) (path : String) (ticks : Nat → Tick)
    (totals : ModelTotals) : List UsageObservation :=
  match provider with
  | .claude => logUsage sources (claudeAdapter host path) ticks totals
  | .codex => logUsage sources (codexAdapter host path) ticks totals
  | .opencode => databaseUsage host sources path ticks

theorem freshUsage_belongs {totals : ModelTotals} : ∀ obs ∈ freshUsage host sources provider path (ticks path) totals,
    obs.provider = provider ∧ obs.source = path := by
  cases provider with
  | claude => exact at_belongs
  | codex => exact at_belongs
  | opencode => exact databaseUsage_belongs

theorem readSource_seen {cursor : SourceCursor} {ticks : Nat → Tick} (consistent : Consistent host sources store)
    (seen : store.sourceCursors path = some cursor) :
    readSource host sources provider path ticks store = (store, some {}) := by
  have known : unchanged (store.sourceCursors path) (sources.stat path) = true := by
    rw [seen]
    exact consistent.current path cursor seen
  have logged : ∀ adapter : Adapter host, adapter.source = path →
      readLog host sources adapter ticks store = (store, some {}) := by
    rintro adapter rfl
    unfold readLog parseSessionFile
    dsimp only
    rw [if_pos known]
    rfl
  cases provider with
  | claude => exact logged (claudeAdapter host path) rfl
  | codex => exact logged (codexAdapter host path) rfl
  | opencode =>
    unfold readSource parseDb
    dsimp only
    rw [if_pos known]
    rfl

theorem readSource_unseen (running : ∀ path place, ∃ now, ticks path place = .reached now)
    (unseen : store.sourceCursors path = none) (clear : ∀ row ∈ store.externalUsage, row.provider ≠ provider) :
    (readSource host sources provider path (ticks path) store).2.map AdapterOutput.usage =
      if returns host sources provider path (ticks path) (store.codexTotals path) then
        some (freshUsage host sources provider path (ticks path) (store.codexTotals path))
      else none := by
  cases provider with
  | claude => exact readLog_unseen (claudeAdapter host path) (running path) unseen clear
  | codex => exact readLog_unseen (codexAdapter host path) (running path) unseen clear
  | opencode =>
    have fresh := @parseDb_unseen host path (ticks path) { codexTotals := fun _ => store.codexTotals path } (sources.stat path)
      (sources.database path) rfl
    have parsed := @parseDb_unseen host path (ticks path) store (sources.stat path) (sources.database path) unseen
    have output : ∀ {store : UsageStore}, (readSource host sources .opencode path (ticks path) store).2.map AdapterOutput.usage =
        (parseDb host path store (some (sources.stat path)) (some (sources.database path)) (ticks path)).2.map ParsedDb.usage := by
      intro store
      exact Option.map_map _ _ _
    unfold returns
    rw [← Option.isSome_map, output, output, fresh, parsed]
    show _ = if _ then some (databaseUsage host sources path (ticks path)) else none
    unfold databaseUsage
    cases messagesLoop host path (sources.database path) (ticks path) with
    | none => rfl
    | some loop =>
      obtain ⟨tally, ended⟩ := loop
      cases ended with
      | finished => rfl
      | cutShort => rfl
      | broken => rfl

def passes (host : UsageHost) (sources : SessionSources) (provider : ProviderName) (ticks : String → Nat → Tick)
    (store : UsageStore) (path : String) : Bool :=
  (store.sourceCursors path).isSome || returns host sources provider path (ticks path) (store.codexTotals path)

/-- What a source adds when it is read with a store: nothing, once it has a cursor. -/
def renewedUsage (host : UsageHost) (sources : SessionSources) (provider : ProviderName) (ticks : String → Nat → Tick)
    (store : UsageStore) (path : String) : List UsageObservation :=
  match store.sourceCursors path with
  | some _ => []
  | none => freshUsage host sources provider path (ticks path) (store.codexTotals path)

theorem renewedUsage_belongs : ∀ obs ∈ renewedUsage host sources provider ticks store path,
    obs.provider = provider ∧ obs.source = path := by
  unfold renewedUsage
  cases store.sourceCursors path with
  | some cursor => exact fun obs absent => nomatch absent
  | none => exact freshUsage_belongs

theorem Visited.renewed {after : UsageStore} (visited : Visited sources path store after) {other : String}
    (apart : other ≠ path) :
    passes host sources provider ticks after other = passes host sources provider ticks store other ∧
      renewedUsage host sources provider ticks after other = renewedUsage host sources provider ticks store other := by
  unfold passes renewedUsage
  have cursors : after.sourceCursors other = store.sourceCursors other := by
    rcases visited.cursors with same | ⟨offset, moved⟩
    · rw [same]
    · rw [moved, Function.update_of_ne apart]
  rw [cursors, visited.totals other apart]
  exact ⟨rfl, rfl⟩

theorem readSource_renewed (running : ∀ path place, ∃ now, ticks path place = .reached now)
    (consistent : Consistent host sources store) (clear : ∀ row ∈ store.externalUsage, row.provider ≠ provider) :
    (readSource host sources provider path (ticks path) store).2.map AdapterOutput.usage =
      if passes host sources provider ticks store path then some (renewedUsage host sources provider ticks store path)
      else none := by
  unfold passes renewedUsage
  cases placed : store.sourceCursors path with
  | some cursor =>
    rw [readSource_seen consistent placed]
    rfl
  | none => exact readSource_unseen running placed clear

/-- The collection adds what the sources up to the first one that it does not come past add. -/
theorem readSources_renewed (running : ∀ path place, ∃ now, ticks path place = .reached now) {files : List String} :
    ∀ {store : UsageStore}, files.Nodup → Consistent host sources store →
    (∀ row ∈ store.externalUsage, row.provider ≠ provider) →
    ∃ after output ended,
      readSources host sources provider (fun path => some (ticks path)) files store = (after, output, ended) ∧
      after.externalUsage = store.externalUsage ∧
      output.usage = (files.takeWhile (passes host sources provider ticks store)).flatMap
        (renewedUsage host sources provider ticks store) := by
  induction files with
  | nil => exact fun _ _ _ => ⟨_, _, _, rfl, rfl, rfl⟩
  | cons path rest step =>
    intro store distinct consistent clear
    obtain ⟨fresh, later⟩ := List.nodup_cons.mp distinct
    have usage := @readSource_renewed _ _ _ _ _ path running consistent clear
    have visited : Visited sources path store (readSource host sources provider path (ticks path) store).1 :=
      readSource_visited
    have reread : Consistent host sources (readSource host sources provider path (ticks path) store).1 := consistent.read
    unfold readSources
    dsimp only
    cases read : readSource host sources provider path (ticks path) store with
    | mk middle result =>
      rw [read] at usage visited reread
      cases past : passes host sources provider ticks store path with
      | false =>
        rw [past] at usage
        obtain rfl : result = none := Option.map_eq_none_iff.mp usage
        refine ⟨middle, {}, false, rfl, visited.rows, ?_⟩
        rw [List.takeWhile_cons_of_neg (by rw [past]; exact Bool.false_ne_true)]
        rfl
      | true =>
        rw [past] at usage
        obtain ⟨output, rfl, added⟩ := Option.map_eq_some_iff.mp usage
        have still : ∀ row ∈ middle.externalUsage, row.provider ≠ provider := by
          rw [visited.rows]
          exact clear
        obtain ⟨after, more, ended, others, rows, further⟩ := step later reread still
        have elsewhere : ∀ other ∈ rest, other ≠ path := by
          rintro other member rfl
          exact fresh member
        have same : (rest.takeWhile (passes host sources provider ticks middle)).flatMap
            (renewedUsage host sources provider ticks middle) =
              (rest.takeWhile (passes host sources provider ticks store)).flatMap
                (renewedUsage host sources provider ticks store) := by
          rw [Distinct.takeWhile_congr fun other member => (visited.renewed (elsewhere other member)).1]
          apply List.flatMap_congr
          intro other member
          exact (visited.renewed (elsewhere other ((List.takeWhile_sublist _).subset member))).2
        refine ⟨after, output.append more, ended, ?_, rows.trans visited.rows, ?_⟩
        · dsimp only
          rw [others]
        · show output.usage ++ more.usage = _
          rw [added, further, same, List.takeWhile_cons_of_pos past, List.flatMap_cons]

end Uncut

section Rows

variable {host : UsageHost} {sources : SessionSources} {provider : ProviderName} {ticks : String → Nat → Tick}
  {db : UsageDatabase}

def ExternalUsageRow.lasting (row : ExternalUsageRow) : ExternalUsageRow := { row with ingestedAt := "" }

def UsageDatabase.externalRows (db : UsageDatabase) (provider : ProviderName) : List ExternalUsageRow :=
  (db.externalUsage.filter (·.provider == provider)).map ExternalUsageRow.lasting

def recordedRows (usage : List UsageObservation) : List ExternalUsageRow :=
  Distinct.enterAll ExternalUsageRow.clashes [] (usage.map (·.row ""))

theorem recorded_lasting {rows : List ExternalUsageRow} {usage : List UsageObservation} {now : String}
    (clear : ∀ row ∈ rows, row.provider ≠ provider) (mine : ∀ obs ∈ usage, obs.provider = provider) :
    ((Distinct.enterAll ExternalUsageRow.clashes rows (usage.map (·.row now))).filter (·.provider == provider)).map
        ExternalUsageRow.lasting = recordedRows usage := by
  have apart : ∀ old ∈ rows, ∀ row ∈ usage.map (·.row now), ExternalUsageRow.clashes old row = false := by
    intro old stored row added
    obtain ⟨obs, member, rfl⟩ := List.mem_map.mp added
    have different : (old.provider == (obs.row now).provider) = false :=
      beq_false_of_ne fun same => clear old stored (same.trans (mine obs member))
    simp only [ExternalUsageRow.clashes, different, Bool.false_and]
  have joined := @Distinct.enterAll_apart _ _ _ _ [] apart
  rw [List.append_nil] at joined
  have others : rows.filter (·.provider == provider) = [] := by
    apply List.filter_eq_nil_iff.mpr
    intro row stored same
    exact clear row stored (beq_iff_eq.mp same)
  have own : (Distinct.enterAll ExternalUsageRow.clashes [] (usage.map (·.row now))).filter (·.provider == provider) =
      Distinct.enterAll ExternalUsageRow.clashes [] (usage.map (·.row now)) := by
    apply List.filter_eq_self.mpr
    intro row kept
    rcases Distinct.mem_enterAll kept with absent | added
    · cases absent
    · obtain ⟨obs, member, rfl⟩ := List.mem_map.mp added
      exact beq_iff_eq.mpr (mine obs member)
  have undated : (usage.map (·.row now)).map ExternalUsageRow.lasting = usage.map (·.row "") := by
    rw [List.map_map]
    rfl
  rw [joined, List.filter_append, others, List.nil_append, own, recordedRows, ← undated]
  exact @Distinct.map_enterAll _ _ ExternalUsageRow.clashes ExternalUsageRow.lasting (usage.map (·.row now)) []

theorem recordedRows_source {usage : List UsageObservation} {path : String} (mine : ∀ obs ∈ usage, obs.source = path) :
    ∀ row ∈ recordedRows usage, row.source = path := by
  intro row kept
  rcases Distinct.mem_enterAll kept with absent | added
  · cases absent
  · obtain ⟨obs, member, rfl⟩ := List.mem_map.mp added
    exact mine obs member

/-- The sources are told apart by their paths. -/
theorem recordedRows_flatMap {files : List String} {usage : String → List UsageObservation} (distinct : files.Nodup)
    (mine : ∀ path, ∀ obs ∈ usage path, obs.source = path) :
    recordedRows (files.flatMap usage) = files.flatMap fun path => recordedRows (usage path) := by
  unfold recordedRows
  rw [List.map_flatMap]
  apply Distinct.enterAll_flatMap
  apply distinct.imp
  intro one other different old stored row added
  obtain ⟨first, member, rfl⟩ := List.mem_map.mp stored
  obtain ⟨second, present, rfl⟩ := List.mem_map.mp added
  have sources : ((first.row "").source == (second.row "").source) = false :=
    beq_false_of_ne fun same => different (((mine one first member).symm.trans same).trans (mine other second present))
  simp only [ExternalUsageRow.clashes, sources, Bool.and_false, Bool.false_and]

def renewal (provider : ProviderName) (ticks : String → Nat → Tick) (now : String) : Collection where
  passes := [{ provider := provider, visits := fun path => some (ticks path) }]
  now := now

theorem renewal_rows {now : String} (running : ∀ path place, ∃ now, ticks path place = .reached now)
    (enabled : db.enabled provider = true) (consented : db.consent provider .credentials = true)
    (consistent : Consistent host sources db.toUsageStore) (clear : ∀ row ∈ db.externalUsage, row.provider ≠ provider) :
    (collectProvidersSync host sources db (renewal provider ticks now)).externalRows provider =
      ((sources.files provider).takeWhile (passes host sources provider ticks db.toUsageStore)).flatMap fun path =>
        recordedRows (renewedUsage host sources provider ticks db.toUsageStore path) := by
  obtain ⟨after, output, ended, read, rows, usage⟩ :=
    readSources_renewed running (sources.distinct provider) consistent clear
  have collected : ∃ limits, collectSources host sources ⟨provider, fun path => some (ticks path)⟩ db.toUsageStore =
      (after, { usage := output.usage, limits := limits }) := by
    unfold collectSources
    dsimp only
    rw [read]
    dsimp only
    split
    · exact ⟨output.limits ++ sources.claudeLimits, by rw [AdapterOutput.append, List.append_nil]⟩
    · exact ⟨output.limits, rfl⟩
  obtain ⟨limits, collected⟩ := collected
  have stored : (collectProvidersSync host sources db (renewal provider ticks now)).externalUsage =
      Distinct.enterAll ExternalUsageRow.clashes db.externalUsage (output.usage.map (·.row now)) := by
    unfold collectProvidersSync renewal
    rw [List.foldl_cons, List.foldl_nil]
    unfold runPass
    dsimp only
    rw [enabled, consented, if_pos (by decide), collected]
    show (recordOutput now _ _).toUsageStore.externalUsage = _
    rw [recordOutput_store, recordAll_rows]
    show Distinct.enterAll ExternalUsageRow.clashes after.externalUsage _ = _
    rw [rows]
  have mine : ∀ obs ∈ output.usage, obs.provider = provider := by
    rw [usage]
    intro obs member
    obtain ⟨path, _, belongs⟩ := List.mem_flatMap.mp member
    exact (renewedUsage_belongs obs belongs).1
  unfold UsageDatabase.externalRows
  rw [stored, recorded_lasting clear mine, usage]
  have distinct : ((sources.files provider).takeWhile (passes host sources provider ticks db.toUsageStore)).Nodup :=
    (sources.distinct provider).sublist (List.takeWhile_sublist _)
  exact recordedRows_flatMap distinct fun path obs member => (renewedUsage_belongs obs member).2

end Rows

/-! ### Revoking and consenting again -/

section Reconsent

variable {host : UsageHost} {sources : SessionSources} {provider : ProviderName} {ticks : String → Nat → Tick}
  {db : UsageDatabase}

def HoldsUsage (host : UsageHost) (sources : SessionSources) (provider : ProviderName) (path : String) : Prop :=
  match provider with
  | .claude => eventsIn (claudeAdapter host path) (complete (host.decode (sources.log path))) noTotals ≠ []
  | .codex => eventsIn (codexAdapter host path) (complete (host.decode (sources.log path))) noTotals ≠ []
  | .opencode => ∃ row ∈ messagesFromStart (sources.database path), bearing host row = true

/-- A source with a cursor tells of no usage, and with the Codex totals that a broken reading has left behind for
    a source without one its reading returns and gives the same rows. -/
def Renewable (host : UsageHost) (sources : SessionSources) (provider : ProviderName) (ticks : Nat → Tick)
    (db : UsageDatabase) (path : String) : Prop :=
  match db.sourceCursors path with
  | some _ => ¬ HoldsUsage host sources provider path
  | none => provider = .codex →
      returns host sources .codex path ticks (db.codexTotals path) = true ∧
        recordedRows (logUsage sources (codexAdapter host path) ticks (db.codexTotals path)) =
          recordedRows (logUsage sources (codexAdapter host path) ticks noTotals)

theorem recordedRows_empty {usage : List UsageObservation} : recordedRows usage = [] ↔ usage = [] := by
  unfold recordedRows
  rw [Distinct.enterAll_eq_nil, List.map_eq_nil_iff]

theorem logUsage_empty {adapter : Adapter host} {ticks : Nat → Tick} :
    logUsage sources adapter ticks noTotals = [] ↔
      ¬ eventsIn adapter (complete (host.decode (sources.log adapter.source))) noTotals ≠ [] := by
  unfold logUsage eventsIn
  rw [not_not, List.map_eq_nil_iff, List.map_eq_nil_iff]
  rfl

theorem freshUsage_empty {path : String} (uncut : Uncut host sources provider ticks)
    (listed : path ∈ sources.files provider) :
    freshUsage host sources provider path (ticks path) noTotals = [] ↔ ¬ HoldsUsage host sources provider path := by
  have whole := uncut.whole path listed
  cases provider with
  | claude => exact logUsage_empty
  | codex => exact logUsage_empty
  | opencode =>
    have returned : (parseDb host path {} (some (sources.stat path)) (some (sources.database path)) (ticks path)).2.isSome =
        true := by
      rw [← whole]
      exact Option.isSome_map.symm
    refine (databaseUsage_empty (uncut.running path) returned).trans ?_
    unfold HoldsUsage
    simp

/-- Only a Codex source can tell the totals apart. -/
theorem freshUsage_totals {path : String} {totals : ModelTotals} (other : provider ≠ .codex) :
    freshUsage host sources provider path (ticks path) totals = freshUsage host sources provider path (ticks path) noTotals := by
  cases provider with
  | claude => exact congrArg (List.map _) numbered_claude.1
  | codex => exact absurd rfl other
  | opencode => rfl

theorem returns_totals {path : String} {totals : ModelTotals} (other : provider ≠ .codex) :
    returns host sources provider path (ticks path) totals = returns host sources provider path (ticks path) noTotals := by
  cases provider with
  | claude =>
    have ends : (parseLines (claudeAdapter host path)
        (fun obs => ({} : UsageStore).hasExternal obs.provider obs.source obs.eventKey) (ticks path) 1
        (logLines host sources path) { totals := totals }).2 =
      (parseLines (claudeAdapter host path)
        (fun obs => ({} : UsageStore).hasExternal obs.provider obs.source obs.eventKey) (ticks path) 1
        (logLines host sources path) { totals := noTotals }).2 := by
      have never : ∀ totals item lineNo now, (claudeAdapter host path).read totals item lineNo now ≠ .error () := by
        intro totals item lineNo now thrown
        cases thrown
      refine @parseLines_ended _ _ (fun _ _ => True) _ _ _ _ ?_ (fun _ _ _ _ => trivial) 1 _ _ trivial
      exact fun one two _ item lineNo now => iff_of_false (never one item lineNo now) (never two item lineNo now)
    have returned : ∀ totals, returns host sources .claude path (ticks path) totals = decide ((parseLines (claudeAdapter host path)
        (fun obs => ({} : UsageStore).hasExternal obs.provider obs.source obs.eventKey) (ticks path) 1
        (logLines host sources path) { totals := totals }).2 ≠ .broken) := by
      intro totals
      have loop := @readLog_loop host sources (claudeAdapter host path) (ticks path) { codexTotals := fun _ => totals } _ _ rfl rfl
      unfold returns
      show (readLog host sources (claudeAdapter host path) (ticks path) { codexTotals := fun _ => totals }).2.isSome = _
      rw [loop]
      split
      · rename_i broken
        exact (decide_eq_false (not_not.mpr broken)).symm
      · rename_i unbroken
        exact (decide_eq_true unbroken).symm
    rw [returned, returned, ends]
  | codex => exact absurd rfl other
  | opencode =>
    have returned : ∀ totals, returns host sources .opencode path (ticks path) totals =
        ((parseDb host path { codexTotals := fun _ => totals } (some (sources.stat path)) (some (sources.database path))
          (ticks path)).2.map ParsedDb.usage).isSome := by
      intro totals
      rw [Option.isSome_map]
      exact Option.isSome_map
    rw [returned, returned, parseDb_unseen rfl, parseDb_unseen rfl]

theorem Uncut.returns_fresh {path : String} (uncut : Uncut host sources provider ticks) (listed : path ∈ sources.files provider) :
    returns host sources provider path (ticks path) noTotals = true :=
  uncut.whole path listed

/-- A source that the collection does not come past has left totals behind, and so tells of usage. -/
theorem freshUsage_stuck {path : String} (uncut : Uncut host sources provider ticks) (listed : path ∈ sources.files provider)
    (consistent : Consistent host sources db.toUsageStore)
    (stuck : passes host sources provider ticks db.toUsageStore path = false) :
    freshUsage host sources provider path (ticks path) noTotals ≠ [] := by
  intro empty
  have thrown : returns host sources provider path (ticks path) (db.codexTotals path) = false := (Bool.or_eq_false_iff.mp stuck).2
  have same : returns host sources provider path (ticks path) (db.codexTotals path) =
      returns host sources provider path (ticks path) noTotals := by
    by_cases codex : provider = .codex
    · subst codex
      have quiet : numbered (codexAdapter host path) 1 (logLines host sources path) noTotals = [] := List.map_eq_nil_iff.mp empty
      rw [consistent.founded path quiet]
    · exact returns_totals codex
  rw [same, uncut.returns_fresh listed] at thrown
  cases thrown

theorem renewable_iff {path : String} (uncut : Uncut host sources provider ticks) (listed : path ∈ sources.files provider) :
    (passes host sources provider ticks db.toUsageStore path = true ∧
      recordedRows (renewedUsage host sources provider ticks db.toUsageStore path) =
        recordedRows (freshUsage host sources provider path (ticks path) noTotals)) ↔
      Renewable host sources provider (ticks path) db path := by
  unfold passes renewedUsage Renewable
  cases db.sourceCursors path with
  | some cursor =>
    dsimp only
    rw [← freshUsage_empty uncut listed, ← recordedRows_empty]
    exact (and_iff_right rfl).trans eq_comm
  | none =>
    dsimp only
    rw [Option.isSome_none, Bool.false_or]
    by_cases codex : provider = .codex
    · subst codex
      constructor
      · exact fun same _ => same
      · exact fun same => same rfl
    · rw [freshUsage_totals codex, returns_totals codex, uncut.returns_fresh listed]
      exact iff_of_true ⟨rfl, rfl⟩ fun isCodex => absurd isCodex codex

theorem enabledKey_ne (other : ProviderName) : enabledKey provider ≠ consentKey other .credentials := by
  cases provider <;> cases other <;> decide

theorem grant_enabled : (db.grant provider).enabled provider = true := by
  unfold UsageDatabase.enabled UsageDatabase.grant UsageDatabase.setConsent UsageDatabase.setEnabled UsageDatabase.setSetting
  dsimp only
  rw [Function.update_of_ne (enabledKey_ne provider), Function.update_self]
  rfl

theorem grant_consent : (db.grant provider).consent provider .credentials = true := by
  unfold UsageDatabase.consent UsageDatabase.grant UsageDatabase.setConsent UsageDatabase.setSetting
  dsimp only
  rw [Function.update_self]
  rfl

/-- After a revocation and a new consent, a collection records what it records in a fresh store
    exactly when every source is renewable. -/
theorem reconsent_iff {history : List UsageStep} {later first : String} (uncut : Uncut host sources provider ticks) :
    let db := history.foldl (UsageStep.perform host sources) {}
    (collectProvidersSync host sources ((db.revokeProvider provider).grant provider) (renewal provider ticks later)).externalRows
        provider =
      (collectProvidersSync host sources (({} : UsageDatabase).grant provider) (renewal provider ticks first)).externalRows
        provider ↔
    ∀ path ∈ sources.files provider, Renewable host sources provider (ticks path) db path := by
  intro db
  have settled : Consistent host sources db.toUsageStore := history_consistent
  have consistent : Consistent host sources ((db.revokeProvider provider).grant provider).toUsageStore :=
    ⟨settled.current, settled.founded⟩
  have clear : ∀ row ∈ ((db.revokeProvider provider).grant provider).externalUsage, row.provider ≠ provider := by
    intro row stored
    exact bne_iff_ne.mp (List.mem_filter.mp stored).2
  have again : (collectProvidersSync host sources ((db.revokeProvider provider).grant provider)
      (renewal provider ticks later)).externalRows provider = _ :=
    renewal_rows uncut.running grant_enabled grant_consent consistent clear
  have absent : ∀ row ∈ (({} : UsageDatabase).grant provider).externalUsage, row.provider ≠ provider := by
    intro row absent
    cases absent
  have fresh : (collectProvidersSync host sources (({} : UsageDatabase).grant provider)
      (renewal provider ticks first)).externalRows provider = _ :=
    renewal_rows uncut.running grant_enabled grant_consent empty_consistent absent
  have whole : (sources.files provider).takeWhile
      (passes host sources provider ticks (({} : UsageDatabase).grant provider).toUsageStore) = sources.files provider :=
    List.takeWhile_eq_self_iff.mpr fun path listed => uncut.returns_fresh listed
  rw [again, fresh, whole]
  have apart : ∀ store path, ∀ row ∈ recordedRows (renewedUsage host sources provider ticks store path), row.source = path :=
    fun store path => recordedRows_source fun obs member => (renewedUsage_belongs obs member).2
  rw [Distinct.takeWhile_flatMap_eq_iff (sources.distinct provider) (apart _) (apart _)]
  · apply forall_congr'
    intro path
    apply forall_congr'
    intro listed
    exact renewable_iff uncut listed
  · intro path listed stuck empty
    exact freshUsage_stuck uncut listed consistent stuck (recordedRows_empty.mp empty)

def messageSources : SessionSources where
  files provider := if provider = .claude then ["s.jsonl"] else []
  distinct provider := by cases provider <;> decide
  stat _ := ⟨71, 1⟩
  log _ := bytesOf firstMessage ++ [10]
  database _ := { messages := none }

def promptTicks : String → Nat → Tick := fun _ _ => .reached 0

theorem messageSources_uncut : Uncut messageHost messageSources .claude promptTicks where
  running _ _ := ⟨0, rfl⟩
  whole := by
    have whole : ∀ path ∈ ["s.jsonl"], (readSource messageHost messageSources .claude path (promptTicks path) {}).2.isSome = true := by
      decide +kernel
    exact whole

/-- The deadline of the only earlier collection has passed before the log is reached. -/
theorem reconsent_unread :
    let db := [UsageStep.setConsent .claude .credentials true,
      .collect { passes := [⟨.claude, fun _ => none⟩], now := "2026-01-01T00:00:00.000Z" }].foldl
        (UsageStep.perform messageHost messageSources) {}
    (collectProvidersSync messageHost messageSources ((db.revokeProvider .claude).grant .claude)
        (renewal .claude promptTicks "2026-01-02T00:00:00.000Z")).externalRows .claude =
      (collectProvidersSync messageHost messageSources (({} : UsageDatabase).grant .claude)
        (renewal .claude promptTicks "2026-01-03T00:00:00.000Z")).externalRows .claude := by
  refine (reconsent_iff messageSources_uncut).mpr ?_
  intro path listed
  obtain rfl := List.mem_singleton.mp listed
  intro codex
  cases codex

/-- The log that has been collected once has a cursor, and is not read again. -/
theorem reconsent_lost :
    let db := [UsageStep.setConsent .claude .credentials true,
      .collect (renewal .claude promptTicks "2026-01-01T00:00:00.000Z")].foldl
        (UsageStep.perform messageHost messageSources) {}
    (collectProvidersSync messageHost messageSources ((db.revokeProvider .claude).grant .claude)
        (renewal .claude promptTicks "2026-01-02T00:00:00.000Z")).externalRows .claude ≠
      (collectProvidersSync messageHost messageSources (({} : UsageDatabase).grant .claude)
        (renewal .claude promptTicks "2026-01-03T00:00:00.000Z")).externalRows .claude := by
  decide +kernel

end Reconsent

end Runtime
