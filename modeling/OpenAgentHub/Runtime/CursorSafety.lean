import OpenAgentHub.Runtime.ExactlyOnce

namespace Runtime

section Law

variable {host : UsageHost} (adapter : Adapter host)

def coveredText (state : SessionState) : List Char :=
  (host.decode state.content).take (((state.store.sourceCursors adapter.source).map SourceCursor.offset).getD 0)

def RowsHold (state : SessionState) (text : List Char) : Prop :=
  ((usageEvents adapter text).map UsageEvent.facts).Subperm
    ((state.store.rowsOf adapter.provider adapter.source).map ExternalUsageRow.facts)

/-- What the cursor covers is recorded. The stored totals are those of complete lines that begin with what the cursor
    covers, and these are recorded as well. -/
structure Recorded (state : SessionState) : Prop where
  cursor : RowsHold adapter state (coveredText adapter state)
  totals : ∃ front, Complete front ∧ coveredText adapter state <+: front ∧ front <+: host.decode state.content ∧
    state.store.codexTotals adapter.source = totalsAfter adapter (linesOf front) noTotals ∧ RowsHold adapter state front

def nextReadings (state : SessionState) (visit : Visit) : List Reading :=
  state.readings ++ (unread adapter state visit).toList.map fun text => ⟨text, visit.ticks, visit.now⟩

def Keeps (state : SessionState) : SessionStep → Prop
  | .append _ => True
  | .collect visit => Lossless adapter state visit ∧ KeysApart adapter (nextReadings adapter state visit)

end Law

section Proof

variable {host : UsageHost} {adapter : Adapter host} {state : SessionState} {visit : Visit}

theorem Ingested.covered_eq (ingested : Ingested adapter state) : coveredText adapter state = covered state.readings := by
  obtain ⟨rest, decoded⟩ := ingested.settled.2 []
  rw [List.append_nil] at decoded
  unfold coveredText
  cases placed : state.store.sourceCursors adapter.source with
  | none =>
    rw [ingested.unseen placed]
    rfl
  | some cursor =>
    rw [Option.map_some, Option.getD_some, decoded, ingested.cursor cursor placed]
    exact List.take_left

theorem totalsAfter_text {text rest : List Char} {totals : ModelTotals} (ends : Complete text) :
    totalsAfter adapter (linesOf (text ++ rest)) totals =
      totalsAfter adapter (linesOf rest) (totalsAfter adapter (linesOf text) totals) := by
  rcases ends with rfl | ⟨body, rfl⟩
  · rfl
  · have closed : linesOf (body ++ ['\n']) = linesOf body ++ [[]] := linesOf_append
    rw [List.append_assoc, List.singleton_append, linesOf_append, closed, totalsAfter_append, totalsAfter_append,
      totalsAfter_blank]

theorem totalsOver_covered {readings : List Reading} : ∀ {totals : ModelTotals},
    (∀ reading ∈ readings, Complete reading.text) →
    totalsOver adapter readings totals = totalsAfter adapter (linesOf (covered readings)) totals := by
  induction readings with
  | nil => exact fun _ => rfl
  | cons reading rest step =>
    intro totals whole
    have spread : covered (reading :: rest) = reading.text ++ covered rest := rfl
    rw [spread, totalsAfter_text (whole reading List.mem_cons_self)]
    exact step fun other member => whole other (List.mem_cons_of_mem _ member)

theorem Ingested.recorded (ingested : Ingested adapter state) (apart : KeysApart adapter state.readings) :
    Recorded adapter state := by
  have hold : RowsHold adapter state (covered state.readings) := by
    unfold RowsHold
    rw [ingested.facts_iff.mpr apart]
  obtain ⟨rest, decoded⟩ := ingested.settled.2 []
  rw [List.append_nil] at decoded
  have covers := ingested.covered_eq
  refine ⟨covers ▸ hold, covered state.readings, ingested.settled.1, ?_, ?_, ?_, hold⟩
  · simp only [covers, List.prefix_rfl]
  · rw [decoded]
    exact List.prefix_append _ _
  · rw [ingested.totals, totalsOver_covered ingested.whole]

theorem collect_readings : (collectSession adapter state visit).readings = state.readings ∨
    (collectSession adapter state visit).readings = nextReadings adapter state visit := by
  cases found : unread adapter state visit with
  | none =>
    rw [collectSession_idle found]
    exact Or.inl rfl
  | some text =>
    cases looped : visitLoop adapter state visit text with
    | mk final ended =>
      obtain ⟨mtimeMs, collected⟩ := collectSession_read found looped
      rw [collected, nextReadings, found]
      split
      · exact Or.inl rfl
      · exact Or.inr rfl

theorem Keeps.step {step : SessionStep} (holds : Ingested adapter state ∧ KeysApart adapter state.readings)
    (keeps : Keeps adapter state step) :
    Ingested adapter (sessionStep adapter state step) ∧ KeysApart adapter (sessionStep adapter state step).readings := by
  obtain ⟨ingested, apart⟩ := holds
  cases step with
  | append bytes => exact ⟨ingested.append bytes, apart⟩
  | collect visit =>
    obtain ⟨lossless, next⟩ := keeps
    refine ⟨ingested.collect lossless, ?_⟩
    show KeysApart adapter (collectSession adapter state visit).readings
    rcases @collect_readings _ adapter state visit with same | added
    · rw [same]
      exact apart
    · rw [added]
      exact next

/-- In every run whose visits lose nothing, the cursor and the totals never pass what is recorded. -/
theorem cursor_covers_recorded {start : SessionState} {steps : List SessionStep} (untouched : Untouched adapter start)
    (keeps : Runs.AllMeet (sessionStep adapter) (Keeps adapter) start steps) :
    Runs.Along (sessionStep adapter) (Recorded adapter) start steps := by
  have none : KeysApart adapter start.readings := by
    rw [untouched.readings]
    exact List.Pairwise.nil
  have kept := keeps.along ⟨untouched.ingested, none⟩ fun _ _ => Keeps.step
  exact kept.imp fun _ holds => holds.1.recorded holds.2

end Proof

def cutCollection : List SessionStep :=
  [.append (bytesOf firstMessage ++ 10 :: (bytesOf secondMessage ++ [10])),
   .collect { promptly 1 with ticks := fun lineNo => if lineNo < 2 then .reached 0 else .late }, .collect (promptly 1)]

def cutSession : SessionState := runSession (claudeAdapter messageHost "s.jsonl") {} cutCollection

theorem cut_passes_message :
    ¬ Runs.Along (sessionStep (claudeAdapter messageHost "s.jsonl")) (Recorded (claudeAdapter messageHost "s.jsonl")) {}
      cutCollection := by
  intro along
  have last : Recorded (claudeAdapter messageHost "s.jsonl") cutSession := along.final
  have told : ((usageEvents (claudeAdapter messageHost "s.jsonl")
      (coveredText (claudeAdapter messageHost "s.jsonl") cutSession)).map UsageEvent.facts).length = 2 := by decide +kernel
  have rows : ((cutSession.store.rowsOf (claudeAdapter messageHost "s.jsonl").provider
      (claudeAdapter messageHost "s.jsonl").source).map ExternalUsageRow.facts).length = 1 := by decide +kernel
  have fits := last.cursor.length_le
  omega

theorem half_written_line_covered :
    Runs.Along (sessionStep (claudeAdapter messageHost "s.jsonl")) (Recorded (claudeAdapter messageHost "s.jsonl")) {}
      halfWrittenLine := by
  have untouched : Untouched (claudeAdapter messageHost "s.jsonl") {} := ⟨rfl, rfl, rfl, rfl, rfl⟩
  apply cursor_covers_recorded untouched
  exact ⟨trivial, ⟨promptly_uncut.lossless claude_readsThrough, by decide +kernel⟩, trivial,
    ⟨promptly_uncut.lossless claude_readsThrough, by decide +kernel⟩, trivial⟩

end Runtime
