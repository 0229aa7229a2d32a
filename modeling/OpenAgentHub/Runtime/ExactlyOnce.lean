import Mathlib.Data.List.TakeWhile
import OpenAgentHub.Lib.Runs
import OpenAgentHub.Runtime.Ingestion

namespace Runtime

section Rows

variable {host : UsageHost} {adapter : Adapter host}

theorem sightings_belong {readings : List Reading} : ∀ {totals : ModelTotals},
    ∀ sighting ∈ sightings adapter readings totals,
      sighting.event.base.provider = adapter.provider ∧ sighting.event.base.source = adapter.source := by
  induction readings with
  | nil => exact fun sighting member => absurd member List.not_mem_nil
  | cons reading rest step =>
    intro totals sighting member
    rcases List.mem_append.mp member with here | later
    · obtain ⟨entry, found, rfl⟩ := List.mem_map.mp here
      exact numbered_belongs entry found
    · exact step sighting later

theorem clashes_iff_key {old new : Sighting}
    (one : old.event.base.provider = adapter.provider ∧ old.event.base.source = adapter.source)
    (other : new.event.base.provider = adapter.provider ∧ new.event.base.source = adapter.source) :
    ExternalUsageRow.clashes (old.row adapter) (new.row adapter) = Distinct.sameKey (Sighting.key adapter) old new := by
  have provider : (old.row adapter).provider = (new.row adapter).provider := one.1.trans other.1.symm
  have source : (old.row adapter).source = (new.row adapter).source := one.2.trans other.2.symm
  rw [ExternalUsageRow.clashes, provider, source, beq_self_eq_true, beq_self_eq_true, Bool.true_and, Bool.true_and]
  exact beq_eq_decide _ _

theorem sameEvent_key {old new : Sighting} (same : sameEvent old.event new.event = true) :
    old.key adapter = new.key adapter := by
  obtain ⟨own, equal⟩ := Bool.and_eq_true_iff.mp same
  obtain ⟨key, named⟩ := Option.isSome_iff_exists.mp own
  have both : new.event.own = some key := (beq_iff_eq.mp equal).symm.trans named
  show old.event.own.getD _ = new.event.own.getD _
  rw [named, both, Option.getD_some, Option.getD_some]

theorem sameEvent_symm {old new : UsageEvent} (same : sameEvent old new = true) : sameEvent new old = true := by
  obtain ⟨own, equal⟩ := Bool.and_eq_true_iff.mp same
  have one := beq_iff_eq.mp equal
  rw [sameEvent, ← one, own, beq_self_eq_true]
  rfl

theorem sameEvent_trans {first second third : UsageEvent} (one : sameEvent first second = true)
    (two : sameEvent second third = true) : sameEvent first third = true := by
  obtain ⟨own, equal⟩ := Bool.and_eq_true_iff.mp one
  have next := beq_iff_eq.mp (Bool.and_eq_true_iff.mp two).2
  rw [sameEvent, own, beq_iff_eq.mp equal, next, beq_self_eq_true]
  rfl

/-- The rows as the sightings that a key keeps. -/
theorem rows_by_key (readings : List Reading) :
    Distinct.enterAll ExternalUsageRow.clashes [] ((sightings adapter readings noTotals).map (Sighting.row adapter)) =
      (Distinct.enterAll (Distinct.sameKey (Sighting.key adapter)) [] (sightings adapter readings noTotals)).map
        (Sighting.row adapter) := by
  have viewed := @Distinct.map_enterAll _ _ ExternalUsageRow.clashes (Sighting.row adapter)
    (sightings adapter readings noTotals) []
  rw [List.map_nil] at viewed
  rw [← viewed]
  congr 1
  apply Distinct.enterAll_congr
  rw [List.nil_append]
  apply List.Pairwise.imp_of_mem _ (List.pairwise_of_forall (fun _ _ => trivial))
  intro old new one other _
  exact clashes_iff_key (sightings_belong old one) (sightings_belong new other)

def sameSighted (old new : Sighting) : Bool := sameEvent old.event new.event

/-- The facts of the events are those of the sightings that the events' own keys keep. -/
theorem events_by_sighting (seen : List Sighting) :
    (Distinct.enterAll sameEvent [] (seen.map Sighting.event)).map UsageEvent.facts =
      (Distinct.enterAll sameSighted [] seen).map fun sighting => sighting.event.facts := by
  have viewed := @Distinct.map_enterAll _ _ sameEvent Sighting.event seen []
  rw [List.map_nil] at viewed
  rw [← viewed, List.map_map]
  rfl

/-- The rows tell of each event once exactly where different events have different keys. -/
theorem facts_iff_keysApart (readings : List Reading) :
    (Distinct.enterAll ExternalUsageRow.clashes []
        ((sightings adapter readings noTotals).map (Sighting.row adapter))).map ExternalUsageRow.facts =
      (Distinct.enterAll sameEvent [] ((sightings adapter readings noTotals).map Sighting.event)).map UsageEvent.facts ↔
    KeysApart adapter readings := by
  have meets : ∀ {old new : Sighting}, sameSighted old new = true → old.key adapter = new.key adapter := sameEvent_key
  rw [rows_by_key, events_by_sighting, List.map_map]
  constructor
  · intro equal
    have lengths := congrArg List.length equal
    rw [List.length_map, List.length_map] at lengths
    have agree := @Distinct.pairwise_of_length _ _ _ (Sighting.key adapter) sameSighted meets sameEvent_symm sameEvent_trans _ _ _
      (fun _ member => absurd member List.not_mem_nil) (fun _ member => absurd member List.not_mem_nil)
      List.Pairwise.nil lengths
    rw [List.nil_append] at agree
    apply List.Pairwise.imp _ agree
    intro old new same keyed
    exact same.symm.trans (decide_eq_true keyed)
  · intro apart
    have kept : Distinct.enterAll (Distinct.sameKey (Sighting.key adapter)) [] (sightings adapter readings noTotals) =
        Distinct.enterAll sameSighted [] (sightings adapter readings noTotals) := by
      apply Distinct.enterAll_congr
      rw [List.nil_append]
      apply List.Pairwise.imp _ apart
      intro old new different
      rw [Bool.eq_iff_iff]
      exact ⟨fun keyed => different (of_decide_eq_true keyed), fun same => decide_eq_true (meets same)⟩
    rw [kept]
    rfl

theorem sightings_events {readings : List Reading} : ∀ {totals : ModelTotals},
    (∀ reading ∈ readings, Complete reading.text) →
    (sightings adapter readings totals).map Sighting.event = eventsIn adapter (covered readings) totals := by
  induction readings with
  | nil => exact fun _ => rfl
  | cons reading rest step =>
    intro totals whole
    have next := @step (totalsAfter adapter (linesOf reading.text) totals)
      fun other member => whole other (List.mem_cons_of_mem _ member)
    have spread : covered (reading :: rest) = reading.text ++ covered rest := rfl
    rw [sightings, List.map_append, next, spread, eventsIn_text (whole reading List.mem_cons_self)]
    congr 1
    simp [Reading.sightings, eventsIn]

/-- The recorded rows are one for one the usage events of the text that was read. -/
theorem Ingested.facts_iff {state : SessionState} (ingested : Ingested adapter state) :
    (state.store.rowsOf adapter.provider adapter.source).map ExternalUsageRow.facts =
      (usageEvents adapter (covered state.readings)).map UsageEvent.facts ↔ KeysApart adapter state.readings := by
  rw [ingested.rows, usageEvents, ← sightings_events ingested.whole]
  exact facts_iff_keysApart state.readings

end Rows

/-! ### Exactly once -/

section Batch

variable {host : UsageHost} (adapter : Adapter host)

def completeBytes (bytes : List UInt8) : List UInt8 := (bytes.reverse.dropWhile (· != 10)).reverse

/-- The deadline does not cut the visit, and it records what it has found. -/
def Visit.Uncut (visit : Visit) : Prop := (∀ lineNo, ∃ now, visit.ticks lineNo = .reached now) ∧ visit.recorded = none

/-- The file is there, can be read, and does not change. -/
def Visit.Plain (visit : Visit) : Prop :=
  visit.mtimeMs.isSome = true ∧ visit.readable = true ∧ visit.meanwhile = []

def ReadsThrough (state : SessionState) (visit : Visit) : Prop :=
  ∀ text, unread adapter state visit = some text → ∀ read line rest, linesOf text = read ++ line :: rest →
    ¬ ∃ now item, visit.ticks (1 + read.length) = .reached now ∧ itemOf host line = some item ∧
      adapter.read (totalsAfter adapter read (state.store.codexTotals adapter.source)) item (1 + read.length) now =
        .error ()

structure TokenTotals where
  tokensIn : Int
  tokensOut : Int
  cacheRead : Int
  cacheWrite : Int
  deriving DecidableEq

def tokenTotals (rows : List ExternalUsageRow) : TokenTotals where
  tokensIn := (rows.map (·.tokensIn)).sum
  tokensOut := (rows.map (·.tokensOut)).sum
  cacheRead := (rows.map (·.cacheRead)).sum
  cacheWrite := (rows.map (·.cacheWrite)).sum

/-- The complete lines alone, and an empty store. -/
def batchStart (bytes : List UInt8) : SessionState := { content := completeBytes bytes }

def batchRows (bytes : List UInt8) (batch : Visit) : List ExternalUsageRow :=
  (collectSession adapter (batchStart bytes) batch).store.rowsOf adapter.provider adapter.source

def ExactlyOnce (batch : Visit) (state : SessionState) : Prop :=
  let rows := state.store.rowsOf adapter.provider adapter.source
  rows.map ExternalUsageRow.facts =
      (usageEvents adapter (complete (host.decode state.read))).map UsageEvent.facts ∧
    tokenTotals rows = tokenTotals (batchRows adapter state.read batch)

/-- The batch parse throws at no line, and it gives no key to two different events. -/
def BatchSound (batch : Visit) (state : SessionState) : Prop :=
  ReadsThrough adapter (batchStart state.read) batch ∧
    KeysApart adapter [⟨complete (host.decode state.read), batch.ticks, batch.now⟩]

def Steady (state : SessionState) : SessionStep → Prop
  | .append _ => True
  | .collect visit => visit.Uncut ∧ ReadsThrough adapter state visit

structure Untouched (state : SessionState) : Prop where
  read : state.read = []
  readings : state.readings = []
  cursor : state.store.sourceCursors adapter.source = none
  totals : state.store.codexTotals adapter.source = noTotals
  rows : state.store.rowsOf adapter.provider adapter.source = []

end Batch

section Claims

variable {host : UsageHost} {adapter : Adapter host} {state : SessionState} {visit : Visit}

theorem tokenTotals_facts (rows : List ExternalUsageRow) : tokenTotals (rows.map ExternalUsageRow.facts) = tokenTotals rows := by
  simp only [tokenTotals, List.map_map]
  rfl

theorem decode_nil : host.decode [] = [] := by
  have bound := host.decode_length []
  exact List.length_eq_zero_iff.mp (Nat.le_zero.mp bound)

theorem complete_completeBytes (bytes : List UInt8) : complete (host.decode (completeBytes bytes)) = complete (host.decode bytes) := by
  rcases byte_cases bytes with missing | ⟨front, rest, rfl, last⟩
  · have none : completeBytes bytes = [] := by
      rw [completeBytes, List.dropWhile_eq_nil_iff.mpr, List.reverse_nil]
      intro byte member
      rw [bne_iff_ne]
      rintro rfl
      exact missing (List.mem_reverse.mp member)
    rw [none, decode_nil, complete_none (host.decode_plain bytes missing)]
    rfl
  · have taken : completeBytes (front ++ 10 :: rest) = front ++ 10 :: [] := by
      have skipped : (rest.reverse ++ 10 :: front.reverse).dropWhile (· != 10) = 10 :: front.reverse := by
        rw [List.dropWhile_append_of_pos]
        · simp
        · intro byte member
          rw [bne_iff_ne]
          rintro rfl
          exact last (List.mem_reverse.mp member)
      rw [completeBytes, List.reverse_append, List.reverse_cons, List.append_assoc, List.singleton_append, skipped]
      simp
    rw [taken, host.decode_newline, host.decode_newline, complete_of_cut (host.decode_plain rest last), decode_nil,
      complete_of_cut List.not_mem_nil]

theorem Untouched.ingested (untouched : Untouched adapter state) : Ingested adapter state where
  settled := by
    rw [untouched.readings]
    exact Settled.nil
  whole := by
    rw [untouched.readings]
    exact fun _ member => absurd member List.not_mem_nil
  cursor := by
    intro cursor placed
    rw [untouched.cursor] at placed
    cases placed
  unseen := fun _ => untouched.readings
  totals := by
    rw [untouched.totals, untouched.readings]
    rfl
  rows := by
    rw [untouched.rows, untouched.readings]
    rfl

theorem Visit.Uncut.lossless (uncut : visit.Uncut) (through : ReadsThrough adapter state visit) :
    Lossless adapter state visit where
  cut := by
    intro text _ read rest _ late
    obtain ⟨now, reached⟩ := uncut.1 (1 + read.length)
    rw [reached] at late
    cases late
  broken := by
    intro text found read line rest lines breaks
    exfalso
    rcases breaks with stopped | thrown
    · obtain ⟨now, reached⟩ := uncut.1 (1 + read.length)
      rw [reached] at stopped
      cases stopped
    · exact through text found read line rest lines thrown
  recorded := by
    intro text _ count stop
    rw [uncut.2] at stop
    cases stop

theorem ReadsThrough.unbroken {text : List Char} {final : Tally} {ended : LoopEnd} (through : ReadsThrough adapter state visit)
    (uncut : visit.Uncut) (found : unread adapter state visit = some text)
    (looped : visitLoop adapter state visit text = (final, ended)) : ended ≠ .broken := by
  rintro rfl
  obtain ⟨read, rest, lines, _, _, line, tail, rfl, breaks⟩ := parseLines_cases looped
  rcases breaks with stopped | thrown
  · obtain ⟨now, reached⟩ := uncut.1 (1 + read.length)
    rw [reached] at stopped
    cases stopped
  · exact through text found read line tail lines thrown

/-- After an uncut visit the readings cover the complete lines of the file as it was last read. -/
theorem collect_covered (ingested : Ingested adapter state) (synced : covered state.readings = complete (host.decode state.read))
    (uncut : visit.Uncut) (through : ReadsThrough adapter state visit) :
    covered (collectSession adapter state visit).readings =
      complete (host.decode (collectSession adapter state visit).read) := by
  cases found : unread adapter state visit with
  | none =>
    rw [collectSession_idle found]
    exact synced
  | some text =>
    cases looped : visitLoop adapter state visit text with
    | mk final ended =>
      obtain ⟨mtimeMs, collected⟩ := collectSession_read found looped
      rw [collected, if_neg (through.unbroken uncut found looped), covered_snoc]
      exact (ingested.resumes found).1

theorem unread_batch {bytes : List UInt8} {batch : Visit} (plain : batch.Plain) :
    unread adapter (batchStart bytes) batch = some (complete (host.decode bytes)) := by
  obtain ⟨timed, readable, still⟩ := plain
  obtain ⟨mtimeMs, timed⟩ := Option.isSome_iff_exists.mp timed
  unfold unread Visit.stat
  rw [timed, readable, still, List.append_nil]
  show some (sliceOf none _ (host.decode (completeBytes bytes))) = _
  rw [sliceOf_none, complete_completeBytes]

theorem batchStart_untouched {bytes : List UInt8} : Untouched adapter (batchStart bytes) := ⟨rfl, rfl, rfl, rfl, rfl⟩

/-- A sound batch parse records the usage events of the lines. -/
theorem batchRows_facts {bytes : List UInt8} {batch : Visit} (plain : batch.Plain) (uncut : batch.Uncut)
    (through : ReadsThrough adapter (batchStart bytes) batch)
    (apart : KeysApart adapter [⟨complete (host.decode bytes), batch.ticks, batch.now⟩]) :
    (batchRows adapter bytes batch).map ExternalUsageRow.facts =
      (usageEvents adapter (complete (host.decode bytes))).map UsageEvent.facts := by
  have found : unread adapter (batchStart bytes) batch = some (complete (host.decode bytes)) := unread_batch plain
  have parsed := batchStart_untouched.ingested.collect (uncut.lossless through)
  have readings : (collectSession adapter (batchStart bytes) batch).readings =
      [⟨complete (host.decode bytes), batch.ticks, batch.now⟩] := by
    cases looped : visitLoop adapter (batchStart bytes) batch (complete (host.decode bytes)) with
    | mk final ended =>
      obtain ⟨mtimeMs, collected⟩ := collectSession_read found looped
      rw [collected, if_neg (through.unbroken uncut found looped)]
      rfl
  have recorded := parsed.facts_iff.mpr (readings ▸ apart)
  have spread : covered [⟨complete (host.decode bytes), batch.ticks, batch.now⟩] = complete (host.decode bytes) :=
    List.append_nil _
  rw [readings, spread] at recorded
  exact recorded

def Synced (adapter : Adapter host) (state : SessionState) : Prop :=
  Ingested adapter state ∧ covered state.readings = complete (host.decode state.read)

theorem Untouched.synced (untouched : Untouched adapter state) : Synced adapter state := by
  refine ⟨untouched.ingested, ?_⟩
  rw [untouched.readings, untouched.read, decode_nil]
  rfl

theorem Synced.step {step : SessionStep} (synced : Synced adapter state) (steady : Steady adapter state step) :
    Synced adapter (sessionStep adapter state step) := by
  cases step with
  | append bytes => exact ⟨synced.1.append bytes, synced.2⟩
  | collect visit =>
    obtain ⟨uncut, through⟩ := steady
    exact ⟨synced.1.collect (uncut.lossless through), collect_covered synced.1 synced.2 uncut through⟩

theorem exactlyOnce_iff {batch : Visit} (plain : batch.Plain) (uncut : batch.Uncut) (synced : Synced adapter state)
    (sound : BatchSound adapter batch state) : ExactlyOnce adapter batch state ↔ KeysApart adapter state.readings := by
  have facts := synced.1.facts_iff
  rw [synced.2] at facts
  have alone := batchRows_facts plain uncut sound.1 sound.2
  constructor
  · exact fun once => facts.mp once.1
  · intro apart
    have equal := facts.mpr apart
    refine ⟨equal, ?_⟩
    rw [← tokenTotals_facts, equal, ← alone, tokenTotals_facts]

/-- Over every growth of the file and every schedule of uncut collections that throw at no line, the store holds the
    usage events of the complete lines exactly once, exactly where no two of them are given one key. -/
theorem session_ingested_once_iff {start : SessionState} {steps : List SessionStep} {batch : Visit}
    (untouched : Untouched adapter start) (steady : Runs.AllMeet (sessionStep adapter) (Steady adapter) start steps)
    (plain : batch.Plain) (uncut : batch.Uncut)
    (sound : Runs.Along (sessionStep adapter) (BatchSound adapter batch) start steps) :
    Runs.Along (sessionStep adapter) (ExactlyOnce adapter batch) start steps ↔
      Runs.Along (sessionStep adapter) (fun state => KeysApart adapter state.readings) start steps := by
  have synced := steady.along untouched.synced fun _ _ => Synced.step
  exact (synced.and sound).congr fun _ holds => exactlyOnce_iff plain uncut holds.1 holds.2

end Claims

/-! ### Two runs -/

def bytesOf (text : String) : List UInt8 := text.toList.map fun char => UInt8.ofNat char.toNat

def asciiHost (values : List (List Char × Json)) : UsageHost where
  decode := List.map Char.ofUInt8
  decode_newline := fun _ _ => List.map_append
  decode_plain := by
    intro bytes missing found
    obtain ⟨byte, member, same⟩ := List.mem_map.mp found
    have value : byte.toUInt32.toNat = 10 := congrArg Char.toNat same
    have newline : byte = 10 := UInt8.toNat_inj.mp (byte.toNat_toUInt32.symm.trans value)
    exact missing (newline ▸ member)
  decode_length := by simp
  jsonParse := fun text => values.lookup text
  number := fun _ => none
  iso := fun _ => "1970-01-01T00:00:00.000Z"

def promptly (mtimeMs : Int) : Visit where
  mtimeMs := some mtimeMs
  meanwhile := []
  readable := true
  ticks := fun _ => .reached 0
  recorded := none
  now := "1970-01-01T00:00:00.000Z"

theorem promptly_uncut {mtimeMs : Int} : (promptly mtimeMs).Uncut := ⟨fun _ => ⟨0, rfl⟩, rfl⟩

def bareRecord : String := "\x7b\"usage\":\x7b\"input_tokens\":5\x7d\x7d"

def bareHost : UsageHost := asciiHost [(bareRecord.toList, .obj [("usage", .obj [("input_tokens", .num 5)])])]

def twoCollections : List SessionStep :=
  [.append (bytesOf (bareRecord ++ "\n")), .collect (promptly 1), .append (bytesOf (bareRecord ++ "\n")), .collect (promptly 2)]

/-- Two records without a time and an id, each the first line that its collection reads. -/
theorem undated_record_lost : (∀ visit, .collect visit ∈ twoCollections → visit.Uncut) ∧
    ¬ Runs.Along (sessionStep (codexAdapter bareHost "s.jsonl")) (ExactlyOnce (codexAdapter bareHost "s.jsonl") (promptly 0))
      {} twoCollections := by
  constructor
  · intro visit member
    simp only [twoCollections, List.mem_cons, SessionStep.collect.injEq, reduceCtorEq, false_or, List.not_mem_nil, or_false]
      at member
    rcases member with rfl | rfl <;> exact promptly_uncut
  · intro along
    have lengths := congrArg List.length along.final.1
    rw [List.length_map, List.length_map] at lengths
    have one : ((twoCollections.foldl (sessionStep (codexAdapter bareHost "s.jsonl")) {}).store.rowsOf .codex
        "s.jsonl").length = 1 := by decide +kernel
    have two : (usageEvents (codexAdapter bareHost "s.jsonl") (complete (bareHost.decode
        (twoCollections.foldl (sessionStep (codexAdapter bareHost "s.jsonl")) {}).read))).length = 2 := by decide +kernel
    exact absurd (one.symm.trans (lengths.trans two)) (by decide)

instance {host : UsageHost} (adapter : Adapter host) (readings : List Reading) : Decidable (KeysApart adapter readings) :=
  inferInstanceAs (Decidable (List.Pairwise _ _))

def firstMessage : String := "\x7b\"type\":\"assistant\",\"message\":\x7b\"uuid\":\"a\",\"usage\":\x7b\"input_tokens\":5\x7d\x7d\x7d"

def secondMessage : String := "\x7b\"type\":\"assistant\",\"message\":\x7b\"uuid\":\"b\",\"usage\":\x7b\"input_tokens\":7\x7d\x7d\x7d"

def assistantMessage (uuid : String) (tokens : Int) : Json :=
  .obj [("type", .str "assistant"),
    ("message", .obj [("uuid", .str uuid), ("usage", .obj [("input_tokens", .num tokens)])])]

def messageHost : UsageHost :=
  asciiHost [(firstMessage.toList, assistantMessage "a" 5), (secondMessage.toList, assistantMessage "b" 7)]

def halfWrittenLine : List SessionStep :=
  [.append (bytesOf firstMessage ++ 10 :: (bytesOf secondMessage).take 20), .collect (promptly 1),
   .append ((bytesOf secondMessage).drop 20 ++ [10]), .collect (promptly 2)]

theorem claude_readsThrough {host : UsageHost} {source : String} {state : SessionState} {visit : Visit} :
    ReadsThrough (claudeAdapter host source) state visit := by
  rintro _ _ _ _ _ _ ⟨_, _, _, _, thrown⟩
  cases thrown

theorem half_written_line_once :
    Runs.Along (sessionStep (claudeAdapter messageHost "s.jsonl"))
      (ExactlyOnce (claudeAdapter messageHost "s.jsonl") (promptly 0)) {} halfWrittenLine := by
  have untouched : Untouched (claudeAdapter messageHost "s.jsonl") {} := ⟨rfl, rfl, rfl, rfl, rfl⟩
  have steady : Runs.AllMeet (sessionStep (claudeAdapter messageHost "s.jsonl")) (Steady (claudeAdapter messageHost "s.jsonl"))
      {} halfWrittenLine :=
    ⟨trivial, ⟨promptly_uncut, claude_readsThrough⟩, trivial, ⟨promptly_uncut, claude_readsThrough⟩, trivial⟩
  refine (session_ingested_once_iff untouched steady ⟨rfl, rfl, rfl⟩ promptly_uncut ?_).mpr ?_
  · exact ⟨⟨claude_readsThrough, by decide +kernel⟩, ⟨claude_readsThrough, by decide +kernel⟩,
      ⟨claude_readsThrough, by decide +kernel⟩, ⟨claude_readsThrough, by decide +kernel⟩,
      claude_readsThrough, by decide +kernel⟩
  · decide +kernel

end Runtime
