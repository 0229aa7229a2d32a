import OpenAgentHub.Runtime.SessionLogs

namespace Runtime

section Events

variable {host : UsageHost} (adapter : Adapter host)

def noTotals : ModelTotals := fun _ => none

def lineEvent (totals : ModelTotals) (line : List Char) : Option UsageEvent :=
  (itemOf host line).bind (adapter.event totals)

def lineTotals (totals : ModelTotals) (line : List Char) : ModelTotals :=
  ((itemOf host line).map (adapter.advance totals)).getD totals

def totalsAfter (lines : List (List Char)) (totals : ModelTotals) : ModelTotals := lines.foldl (lineTotals adapter) totals

def numbered : Nat → List (List Char) → ModelTotals → List (Nat × UsageEvent)
  | _, [], _ => []
  | lineNo, line :: rest, totals =>
    ((lineEvent adapter totals line).map fun event => (lineNo, event)).toList ++
      numbered (lineNo + 1) rest (lineTotals adapter totals line)

def eventsIn (text : List Char) (totals : ModelTotals) : List UsageEvent :=
  (numbered adapter 1 (linesOf text) totals).map Prod.snd

end Events

section Lines

variable {host : UsageHost} {adapter : Adapter host}

theorem lineTotals_quiet {totals : ModelTotals} {line : List Char} (silent : lineEvent adapter totals line = none) :
    lineTotals adapter totals line = totals := by
  unfold lineEvent at silent
  unfold lineTotals
  cases found : itemOf host line with
  | none => rfl
  | some item =>
    rw [found, Option.bind_some] at silent
    rw [Option.map_some, Option.getD_some]
    exact adapter.quiet totals item silent

theorem totalsAfter_append {first second : List (List Char)} {totals : ModelTotals} :
    totalsAfter adapter (first ++ second) totals = totalsAfter adapter second (totalsAfter adapter first totals) := by
  simp [totalsAfter, List.foldl_append]

theorem numbered_append {first second : List (List Char)} : ∀ {lineNo : Nat} {totals : ModelTotals},
    numbered adapter lineNo (first ++ second) totals =
      numbered adapter lineNo first totals ++
        numbered adapter (lineNo + first.length) second (totalsAfter adapter first totals) := by
  induction first with
  | nil => exact fun {_ _} => rfl
  | cons line rest step =>
    intro lineNo totals
    have next : lineNo + 1 + rest.length = lineNo + (rest.length + 1) := by omega
    rw [List.cons_append, numbered, step, numbered, List.append_assoc, List.length_cons, next]
    rfl

theorem totalsAfter_quiet {lines : List (List Char)} : ∀ {lineNo : Nat} {totals : ModelTotals},
    numbered adapter lineNo lines totals = [] → totalsAfter adapter lines totals = totals := by
  induction lines with
  | nil => exact fun _ => rfl
  | cons line rest step =>
    intro lineNo totals silent
    obtain ⟨first, later⟩ := List.append_eq_nil_iff.mp silent
    have none : lineEvent adapter totals line = none := by
      cases found : lineEvent adapter totals line with
      | none => rfl
      | some event =>
        rw [found] at first
        cases first
    rw [lineTotals_quiet none] at later
    show totalsAfter adapter rest (lineTotals adapter totals line) = totals
    rw [lineTotals_quiet none]
    exact step later

theorem numbered_snd {lines : List (List Char)} : ∀ {first second : Nat} {totals : ModelTotals},
    (numbered adapter first lines totals).map Prod.snd = (numbered adapter second lines totals).map Prod.snd := by
  induction lines with
  | nil => exact fun {_ _ _} => rfl
  | cons line rest step =>
    intro first second totals
    rw [numbered, numbered, List.map_append, List.map_append, @step (first + 1) (second + 1)]
    congr 1
    cases lineEvent adapter totals line <;> rfl

theorem numbered_blank {lineNo : Nat} {totals : ModelTotals} : numbered adapter lineNo [[]] totals = [] := rfl

theorem totalsAfter_blank {totals : ModelTotals} : totalsAfter adapter [[]] totals = totals := rfl

theorem linesOf_append {body rest : List Char} : linesOf (body ++ '\n' :: rest) = linesOf body ++ linesOf rest :=
  List.splitOn_append_cons_self body rest

theorem eventsIn_text {text rest : List Char} {totals : ModelTotals} (ends : Complete text) :
    eventsIn adapter (text ++ rest) totals =
      eventsIn adapter text totals ++ eventsIn adapter rest (totalsAfter adapter (linesOf text) totals) := by
  rcases ends with rfl | ⟨body, rfl⟩
  · rfl
  · have closed : linesOf (body ++ ['\n']) = linesOf body ++ [[]] := linesOf_append
    unfold eventsIn
    rw [List.append_assoc, List.singleton_append, linesOf_append, closed, numbered_append, numbered_append,
      totalsAfter_append, totalsAfter_blank, numbered_blank, List.append_nil, List.map_append]
    congr 1
    exact numbered_snd

/-- The loop cannot get past the line: the process is stopped, or the adapter throws. -/
def Breaks (adapter : Adapter host) (totals : ModelTotals) (line : List Char) (lineNo : Nat) (tick : Tick) : Prop :=
  tick = .stopped ∨ ∃ now item, tick = .reached now ∧ itemOf host line = some item ∧
    adapter.read totals item lineNo now = .error ()

def UsageEvent.at (adapter : Adapter host) (ticks : Nat → Tick) (entry : Nat × UsageEvent) : UsageObservation :=
  entry.2.observed host adapter.undated entry.1 (ticks entry.1).now

theorem readLine_error {known : UsageObservation → Bool} {tally : Tally} {line : List Char} {lineNo : Nat} {now : Int}
    (thrown : readLine adapter known tally line lineNo now = .error ()) :
    ∃ item, itemOf host line = some item ∧ adapter.read tally.totals item lineNo now = .error () := by
  unfold readLine at thrown
  unfold itemOf
  split at thrown
  · cases thrown
  · rename_i filled
    rw [if_neg filled]
    split at thrown
    · cases thrown
    · rename_i item parsed
      refine ⟨item, parsed, ?_⟩
      split at thrown
      · rename_i failed
        exact failed
      · dsimp only at thrown
        split at thrown
        · split at thrown <;> cases thrown
        · cases thrown

theorem readLine_ok {known : UsageObservation → Bool} {tally next : Tally} {line : List Char} {lineNo : Nat} {now : Int}
    (read : readLine adapter known tally line lineNo now = .ok next) :
    next.totals = lineTotals adapter tally.totals line ∧
      next.usage = tally.usage ++ (((lineEvent adapter tally.totals line).map fun event =>
        event.observed host adapter.undated lineNo now).toList.filter fun obs => !known obs) := by
  unfold readLine at read
  unfold lineTotals lineEvent itemOf
  split at read
  · rename_i blank
    obtain rfl := Except.ok.inj read
    rw [if_pos blank]
    exact ⟨rfl, (List.append_nil _).symm⟩
  · rename_i filled
    rw [if_neg filled]
    split at read
    · rename_i failed
      obtain rfl := Except.ok.inj read
      rw [failed]
      exact ⟨rfl, (List.append_nil _).symm⟩
    · rename_i item parsed
      rw [parsed, Option.map_some, Option.getD_some, Option.bind_some]
      split at read
      · cases read
      · rename_i result ok
        obtain ⟨observed, advanced⟩ := adapter.observes tally.totals item lineNo now result ok
        rw [← advanced, ← observed]
        dsimp only at read
        cases seen : result.observation with
        | some obs =>
          rw [seen] at read
          dsimp only at read
          cases kept : known obs with
          | true =>
            rw [kept] at read
            obtain rfl := Except.ok.inj read
            simp [kept]
          | false =>
            rw [kept] at read
            obtain rfl := Except.ok.inj read
            simp [kept]
        | none =>
          rw [seen] at read
          obtain rfl := Except.ok.inj read
          cases result.ignored <;> simp

/-- What the line loop has done when it ends: it has read the first lines, and nothing of the others. -/
theorem parseLines_cases {known : UsageObservation → Bool} {ticks : Nat → Tick} {lines : List (List Char)} :
    ∀ {lineNo : Nat} {tally final : Tally} {ended : LoopEnd},
    parseLines adapter known ticks lineNo lines tally = (final, ended) →
    ∃ read rest, lines = read ++ rest ∧ final.totals = totalsAfter adapter read tally.totals ∧
      final.usage = tally.usage ++
        ((numbered adapter lineNo read tally.totals).map (UsageEvent.at adapter ticks)).filter (fun obs => !known obs) ∧
      match ended with
      | .finished => rest = []
      | .cutShort => rest ≠ [] ∧ ticks (lineNo + read.length) = .late
      | .broken => ∃ line tail, rest = line :: tail ∧
          Breaks adapter (totalsAfter adapter read tally.totals) line (lineNo + read.length) (ticks (lineNo + read.length)) := by
  induction lines with
  | nil =>
    intro lineNo tally final ended parsed
    obtain ⟨rfl, rfl⟩ := Prod.mk.inj parsed
    exact ⟨[], [], rfl, rfl, (List.append_nil _).symm, rfl⟩
  | cons line rest step =>
    intro lineNo tally final ended parsed
    unfold parseLines at parsed
    cases tick : ticks lineNo with
    | late =>
      rw [tick] at parsed
      obtain ⟨rfl, rfl⟩ := Prod.mk.inj parsed
      exact ⟨[], line :: rest, rfl, rfl, (List.append_nil _).symm, by simp, tick⟩
    | stopped =>
      rw [tick] at parsed
      obtain ⟨rfl, rfl⟩ := Prod.mk.inj parsed
      exact ⟨[], line :: rest, rfl, rfl, (List.append_nil _).symm, line, rest, rfl, Or.inl tick⟩
    | reached now =>
      rw [tick] at parsed
      dsimp only at parsed
      cases one : readLine adapter known tally line lineNo now with
      | error thrown =>
        rw [one] at parsed
        obtain ⟨rfl, rfl⟩ := Prod.mk.inj parsed
        obtain ⟨item, found, failed⟩ := readLine_error one
        exact ⟨[], line :: rest, rfl, rfl, (List.append_nil _).symm, line, rest, rfl,
          Or.inr ⟨now, item, tick, found, failed⟩⟩
      | ok next =>
        rw [one] at parsed
        obtain ⟨advanced, recorded⟩ := readLine_ok one
        obtain ⟨read, left, rfl, totals, usage, ends⟩ := step parsed
        have place : lineNo + 1 + read.length = lineNo + (line :: read).length := by
          rw [List.length_cons]
          omega
        rw [advanced, place] at ends
        refine ⟨line :: read, left, rfl, ?_, ?_, ends⟩
        · rw [totals, advanced]
          rfl
        · rw [usage, recorded, advanced, numbered, List.map_append, List.filter_append, List.append_assoc]
          congr 2
          cases lineEvent adapter tally.totals line with
          | none => rfl
          | some event => simp [UsageEvent.at, tick, Tick.now]

end Lines

/-! ### The session machine -/

/-- One visit of the collector to the file. The file may grow by `meanwhile` before it is read, and the process may
    be stopped when it has recorded `recorded` observations. -/
structure Visit where
  mtimeMs : Option Int
  meanwhile : List UInt8
  readable : Bool
  ticks : Nat → Tick
  recorded : Option Nat
  now : String

structure Reading where
  text : List Char
  ticks : Nat → Tick
  ingestedAt : String

structure SessionState where
  content : List UInt8 := []
  store : UsageStore := {}
  read : List UInt8 := []
  readings : List Reading := []

inductive SessionStep where
  | append (bytes : List UInt8)
  | collect (visit : Visit)

section Machine

variable {host : UsageHost} (adapter : Adapter host)

def Visit.stat (visit : Visit) (state : SessionState) : Option FileStat :=
  visit.mtimeMs.map fun mtimeMs => ⟨state.content.length, mtimeMs⟩

def Visit.kept (visit : Visit) (usage : List UsageObservation) : List UsageObservation :=
  match visit.recorded with
  | none => usage
  | some count => usage.take count

def unread (state : SessionState) (visit : Visit) : Option (List Char) :=
  match visit.stat state with
  | none => none
  | some stat =>
    let cursor := state.store.sourceCursors adapter.source
    if unchanged cursor stat || !visit.readable then none
    else some (sliceOf cursor stat (host.decode (state.content ++ visit.meanwhile)))

def collectSession (state : SessionState) (visit : Visit) : SessionState :=
  let content := state.content ++ visit.meanwhile
  let raw := if visit.readable then some (host.decode content) else none
  let (store, parsed) := parseSessionFile adapter state.store (visit.stat state) raw visit.ticks
  let text := unread adapter state visit
  match parsed with
  | none => { state with content := content, store := store, read := content }
  | some parsed => {
      content := content
      store := store.recordAll (visit.kept parsed.usage) visit.now
      read := if text.isSome then content else state.read
      readings := state.readings ++ text.toList.map fun text => ⟨text, visit.ticks, visit.now⟩ }

def sessionStep (state : SessionState) : SessionStep → SessionState
  | .append bytes => { state with content := state.content ++ bytes }
  | .collect visit => collectSession adapter state visit

def runSession (state : SessionState) (steps : List SessionStep) : SessionState := steps.foldl (sessionStep adapter) state

end Machine

/-! ### What the readings have seen -/

structure Sighting where
  event : UsageEvent
  lineNo : Nat
  now : Int
  ingestedAt : String

section Sightings

variable {host : UsageHost} (adapter : Adapter host)

def Sighting.key (sighting : Sighting) : String :=
  (sighting.event.observed host adapter.undated sighting.lineNo sighting.now).eventKey

def Sighting.row (sighting : Sighting) : ExternalUsageRow :=
  (sighting.event.observed host adapter.undated sighting.lineNo sighting.now).row sighting.ingestedAt

def Reading.sightings (reading : Reading) (totals : ModelTotals) : List Sighting :=
  (numbered adapter 1 (linesOf reading.text) totals).map fun entry =>
    ⟨entry.2, entry.1, (reading.ticks entry.1).now, reading.ingestedAt⟩

def totalsOver (readings : List Reading) (totals : ModelTotals) : ModelTotals :=
  readings.foldl (fun totals reading => totalsAfter adapter (linesOf reading.text) totals) totals

def sightings : List Reading → ModelTotals → List Sighting
  | [], _ => []
  | reading :: rest, totals =>
    reading.sightings adapter totals ++ sightings rest (totalsAfter adapter (linesOf reading.text) totals)

def covered (readings : List Reading) : List Char := readings.flatMap Reading.text

/-- Two lines tell of one usage event where they carry one key of their own; a key that is made of counts is none. -/
def sameEvent (old new : UsageEvent) : Bool := old.own.isSome && old.own == new.own

def usageEvents (text : List Char) : List UsageEvent := Distinct.enterAll sameEvent [] (eventsIn adapter text noTotals)

def UsageEvent.facts (event : UsageEvent) : ExternalUsageRow := (event.base.row "").facts

def KeysApart (readings : List Reading) : Prop :=
  (sightings adapter readings noTotals).Pairwise fun old new =>
    old.key adapter = new.key adapter → sameEvent old.event new.event = true

end Sightings

/-! ### One visit -/

section Visits

variable {host : UsageHost} {adapter : Adapter host} {state : SessionState} {visit : Visit}

theorem kept_nil : visit.kept [] = [] := by
  unfold Visit.kept
  cases visit.recorded with
  | none => rfl
  | some count => exact List.take_nil

theorem kept_all {usage : List UsageObservation} (enough : ∀ count, visit.recorded = some count → usage.length ≤ count) :
    visit.kept usage = usage := by
  unfold Visit.kept
  cases stop : visit.recorded with
  | none => rfl
  | some count => exact List.take_of_length_le (enough count stop)

theorem collectSession_idle (idle : unread adapter state visit = none) :
    collectSession adapter state visit = { state with content := state.content ++ visit.meanwhile } := by
  have parsed : parseSessionFile adapter state.store (visit.stat state)
      (if visit.readable then some (host.decode (state.content ++ visit.meanwhile)) else none) visit.ticks =
        (state.store, some {}) := by
    unfold unread at idle
    unfold parseSessionFile
    cases timed : visit.stat state with
    | none => rfl
    | some stat =>
      rw [timed] at idle
      dsimp only at idle ⊢
      by_cases known : unchanged (state.store.sourceCursors adapter.source) stat = true
      · rw [if_pos known]
      · have shut : visit.readable = false := by
          by_contra readable
          rw [if_neg (by simp [known, readable])] at idle
          cases idle
        rw [if_neg known, shut]
        rfl
  unfold collectSession
  dsimp only
  rw [parsed, idle]
  simp [kept_nil, UsageStore.recordAll]

def visitLoop (adapter : Adapter host) (state : SessionState) (visit : Visit) (text : List Char) : Tally × LoopEnd :=
  parseLines adapter (fun obs => state.store.hasExternal obs.provider obs.source obs.eventKey) visit.ticks 1 (linesOf text)
    { totals := state.store.codexTotals adapter.source }

theorem unread_cases {text : List Char} (found : unread adapter state visit = some text) :
    ∃ mtimeMs, visit.mtimeMs = some mtimeMs ∧ visit.readable = true ∧
      unchanged (state.store.sourceCursors adapter.source) ⟨state.content.length, mtimeMs⟩ = false ∧
      text = sliceOf (state.store.sourceCursors adapter.source) ⟨state.content.length, mtimeMs⟩
        (host.decode (state.content ++ visit.meanwhile)) := by
  unfold unread Visit.stat at found
  cases timed : visit.mtimeMs with
  | none =>
    rw [timed] at found
    cases found
  | some mtimeMs =>
    rw [timed] at found
    dsimp only [Option.map_some] at found
    split at found
    · cases found
    · rename_i passes
      obtain ⟨changed, readable⟩ := not_or.mp (fun either => passes (by simpa using either))
      exact ⟨mtimeMs, rfl, by simpa using readable, by simpa using changed, (Option.some.inj found).symm⟩

theorem collectSession_read {text : List Char} {final : Tally} {ended : LoopEnd}
    (found : unread adapter state visit = some text) (looped : visitLoop adapter state visit text = (final, ended)) :
    ∃ mtimeMs, collectSession adapter state visit =
      if ended = .broken then
        { state with
          content := state.content ++ visit.meanwhile
          store := state.store.setModelTotals adapter.source final.totals
          read := state.content ++ visit.meanwhile }
      else {
        content := state.content ++ visit.meanwhile
        store := ((state.store.setModelTotals adapter.source final.totals).setSourceCursor adapter.source
          ⟨state.content.length, mtimeMs, completeEnd (host.decode (state.content ++ visit.meanwhile))⟩).recordAll
            (visit.kept final.usage) visit.now
        read := state.content ++ visit.meanwhile
        readings := state.readings ++ [⟨text, visit.ticks, visit.now⟩] } := by
  obtain ⟨mtimeMs, timed, readable, changed, rfl⟩ := unread_cases found
  refine ⟨mtimeMs, ?_⟩
  unfold visitLoop at looped
  unfold collectSession parseSessionFile Visit.stat
  rw [timed, readable, found]
  simp only [Option.map_some, changed, if_true, Bool.false_eq_true, if_false, looped]
  by_cases broken : ended = .broken
  · simp only [broken, if_true]
  · simp only [broken, if_false, Option.isSome_some, if_true]
    rfl

def news (adapter : Adapter host) (state : SessionState) (visit : Visit) (lines : List (List Char)) : List UsageObservation :=
  ((numbered adapter 1 lines (state.store.codexTotals adapter.source)).map (UsageEvent.at adapter visit.ticks)).filter
    fun obs => !state.store.hasExternal obs.provider obs.source obs.eventKey

/-- Nothing is lost when the visit is cut short, broken off or stopped: a cut leaves no event behind, a loop that breaks
    has met none, and a stop comes after the last recording. -/
structure Lossless (adapter : Adapter host) (state : SessionState) (visit : Visit) : Prop where
  cut : ∀ text, unread adapter state visit = some text → ∀ read rest, linesOf text = read ++ rest →
    visit.ticks (1 + read.length) = .late → numbered adapter (1 + read.length) rest
      (totalsAfter adapter read (state.store.codexTotals adapter.source)) = []
  broken : ∀ text, unread adapter state visit = some text → ∀ read line rest, linesOf text = read ++ line :: rest →
    Breaks adapter (totalsAfter adapter read (state.store.codexTotals adapter.source)) line (1 + read.length)
      (visit.ticks (1 + read.length)) → numbered adapter 1 read (state.store.codexTotals adapter.source) = []
  recorded : ∀ text, unread adapter state visit = some text → ∀ count, visit.recorded = some count →
    (news adapter state visit (linesOf text)).length ≤ count

structure Ingested (adapter : Adapter host) (state : SessionState) : Prop where
  settled : Settled host state.content (covered state.readings)
  whole : ∀ reading ∈ state.readings, Complete reading.text
  cursor : ∀ cursor, state.store.sourceCursors adapter.source = some cursor → cursor.offset = (covered state.readings).length
  unseen : state.store.sourceCursors adapter.source = none → state.readings = []
  totals : state.store.codexTotals adapter.source = totalsOver adapter state.readings noTotals
  rows : state.store.rowsOf adapter.provider adapter.source =
    Distinct.enterAll ExternalUsageRow.clashes [] ((sightings adapter state.readings noTotals).map (Sighting.row adapter))

theorem Ingested.resumes {text : List Char} (ingested : Ingested adapter state)
    (found : unread adapter state visit = some text) :
    covered state.readings ++ text = complete (host.decode (state.content ++ visit.meanwhile)) ∧ Complete text := by
  obtain ⟨mtimeMs, _, _, _, rfl⟩ := unread_cases found
  cases placed : state.store.sourceCursors adapter.source with
  | none =>
    rw [sliceOf_none, ingested.unseen placed]
    exact ⟨rfl, complete_complete _⟩
  | some cursor =>
    have whole := sliceOf_settled ingested.settled (ingested.cursor cursor placed) visit.meanwhile mtimeMs
    refine ⟨whole, ?_⟩
    obtain ⟨rest, decoded⟩ := ingested.settled.2 visit.meanwhile
    have kept := complete_append ingested.settled.1 rest
    rw [decoded, kept] at whole
    rw [decoded, List.append_cancel_left whole]
    exact complete_complete rest

theorem sightings_snoc {readings : List Reading} {reading : Reading} : ∀ {totals : ModelTotals},
    sightings adapter (readings ++ [reading]) totals =
      sightings adapter readings totals ++ reading.sightings adapter (totalsOver adapter readings totals) := by
  induction readings with
  | nil => exact fun {totals} => List.append_nil _
  | cons first rest step =>
    intro totals
    rw [List.cons_append, sightings, sightings, step, List.append_assoc]
    rfl

theorem covered_snoc {readings : List Reading} {reading : Reading} :
    covered (readings ++ [reading]) = covered readings ++ reading.text := by
  simp [covered]

theorem completeEnd_eq (raw : List Char) : completeEnd raw = (complete raw).length := by
  rcases newline_cases raw with missing | ⟨front, rest, rfl, last⟩
  · rw [completeEnd_none missing, complete_none missing, List.length_nil]
  · rw [completeEnd_append, complete_of_cut last, completeEnd_none last, List.length_append, List.length_singleton]

theorem setModelTotals_self {store : UsageStore} {source : String} :
    store.setModelTotals source (store.codexTotals source) = store := by
  simp [UsageStore.setModelTotals]

theorem numbered_belongs {lines : List (List Char)} : ∀ {lineNo : Nat} {totals : ModelTotals},
    ∀ entry ∈ numbered adapter lineNo lines totals,
      entry.2.base.provider = adapter.provider ∧ entry.2.base.source = adapter.source := by
  induction lines with
  | nil => exact fun entry member => absurd member List.not_mem_nil
  | cons line rest step =>
    intro lineNo totals entry member
    rw [numbered, List.mem_append] at member
    rcases member with here | later
    · cases found : lineEvent adapter totals line with
      | none =>
        rw [found] at here
        cases here
      | some event =>
        rw [found] at here
        obtain rfl := List.mem_singleton.mp here
        obtain ⟨item, _, read⟩ := Option.bind_eq_some_iff.mp found
        exact adapter.belongs totals item event read
    · exact step entry later

/-- A loop without a loss has met every event of the text, and its totals are those of the whole text. -/
theorem Lossless.loop {text : List Char} {final : Tally} {ended : LoopEnd} (lossless : Lossless adapter state visit)
    (found : unread adapter state visit = some text) (looped : visitLoop adapter state visit text = (final, ended)) :
    if ended = .broken then final.totals = state.store.codexTotals adapter.source
    else final.totals = totalsAfter adapter (linesOf text) (state.store.codexTotals adapter.source) ∧
      visit.kept final.usage = news adapter state visit (linesOf text) := by
  obtain ⟨read, rest, lines, totals, usage, ends⟩ := parseLines_cases looped
  rw [List.nil_append] at usage
  have kept : visit.kept (news adapter state visit (linesOf text)) = news adapter state visit (linesOf text) :=
    kept_all (lossless.recorded text found)
  cases ended with
  | broken =>
    rw [if_pos rfl]
    obtain ⟨line, tail, rfl, breaks⟩ := ends
    rw [totals]
    exact totalsAfter_quiet (lossless.broken text found read line tail lines breaks)
  | finished =>
    rw [if_neg (by decide)]
    obtain rfl : rest = [] := ends
    rw [List.append_nil] at lines
    rw [lines] at kept ⊢
    exact ⟨totals, usage ▸ kept⟩
  | cutShort =>
    rw [if_neg (by decide)]
    have silent := lossless.cut text found read rest lines ends.2
    have same : news adapter state visit (linesOf text) = final.usage := by
      rw [usage, news, lines, numbered_append, silent, List.append_nil]
    rw [same] at kept ⊢
    rw [lines, totalsAfter_append, totalsAfter_quiet silent]
    exact ⟨totals, kept⟩

theorem Ingested.append (ingested : Ingested adapter state) (bytes : List UInt8) :
    Ingested adapter { state with content := state.content ++ bytes } where
  settled := ingested.settled.grow
  whole := ingested.whole
  cursor := ingested.cursor
  unseen := ingested.unseen
  totals := ingested.totals
  rows := ingested.rows

theorem at_belongs {lines : List (List Char)} {lineNo : Nat} {totals : ModelTotals} {ticks : Nat → Tick} :
    ∀ obs ∈ (numbered adapter lineNo lines totals).map (UsageEvent.at adapter ticks),
      obs.provider = adapter.provider ∧ obs.source = adapter.source := by
  intro obs member
  obtain ⟨entry, found, rfl⟩ := List.mem_map.mp member
  exact numbered_belongs entry found

theorem recorded_rows {store base : UsageStore} {usage : List UsageObservation} (now : String)
    (same : base.rowsOf adapter.provider adapter.source = store.rowsOf adapter.provider adapter.source)
    (mine : ∀ obs ∈ usage, obs.provider = adapter.provider ∧ obs.source = adapter.source) :
    (base.recordAll (usage.filter fun obs => !store.hasExternal obs.provider obs.source obs.eventKey) now).rowsOf
        adapter.provider adapter.source =
      Distinct.enterAll ExternalUsageRow.clashes (store.rowsOf adapter.provider adapter.source)
        (usage.map (·.row now)) := by
  have left : ∀ obs ∈ usage.filter (fun obs => !store.hasExternal obs.provider obs.source obs.eventKey),
      obs.provider = adapter.provider ∧ obs.source = adapter.source :=
    fun obs member => mine obs (List.mem_filter.mp member).1
  have known : ∀ obs ∈ usage, store.hasExternal obs.provider obs.source obs.eventKey =
      (store.rowsOf adapter.provider adapter.source).any (ExternalUsageRow.clashes · (obs.row now)) := by
    intro obs member
    obtain ⟨provider, source⟩ := mine obs member
    rw [← provider, ← source]
    exact hasExternal_eq
  have passed : (usage.filter fun obs => !store.hasExternal obs.provider obs.source obs.eventKey).map (·.row now) =
      (usage.map (·.row now)).filter fun row =>
        !(store.rowsOf adapter.provider adapter.source).any (ExternalUsageRow.clashes · row) := by
    rw [List.filter_map]
    congr 1
    apply List.filter_congr
    intro obs member
    rw [known obs member]
    rfl
  rw [rowsOf_recordAll left, passed, same]
  exact Distinct.enterAll_filter fun row seen => seen

theorem Ingested.collect (ingested : Ingested adapter state) (lossless : Lossless adapter state visit) :
    Ingested adapter (collectSession adapter state visit) := by
  cases found : unread adapter state visit with
  | none =>
    rw [collectSession_idle found]
    exact ingested.append visit.meanwhile
  | some text =>
    obtain ⟨goesOn, ends⟩ := ingested.resumes found
    cases looped : visitLoop adapter state visit text with
    | mk final ended =>
      have loop := lossless.loop found looped
      obtain ⟨mtimeMs, collected⟩ := collectSession_read found looped
      rw [collected]
      by_cases broken : ended = .broken
      · rw [if_pos broken] at loop ⊢
        rw [loop, setModelTotals_self]
        exact ⟨ingested.settled.grow, ingested.whole, ingested.cursor, ingested.unseen, ingested.totals, ingested.rows⟩
      · rw [if_neg broken] at loop ⊢
        obtain ⟨totals, kept⟩ := loop
        rw [kept]
        have grown : covered (state.readings ++ [⟨text, visit.ticks, visit.now⟩]) =
            complete (host.decode (state.content ++ visit.meanwhile)) := covered_snoc.trans goesOn
        refine ⟨?_, ?_, ?_, ?_, ?_, ?_⟩
        · rw [grown]
          exact settled_complete host _
        · intro reading member
          rcases List.mem_append.mp member with earlier | last
          · exact ingested.whole reading earlier
          · rw [List.mem_singleton.mp last]
            exact ends
        · intro cursor placed
          rw [recordAll_frame.1] at placed
          simp only [UsageStore.setSourceCursor, Function.update_self, Option.some.injEq] at placed
          rw [← placed, grown]
          exact completeEnd_eq _
        · intro placed
          rw [recordAll_frame.1] at placed
          simp [UsageStore.setSourceCursor] at placed
        · rw [recordAll_frame.2]
          simp only [UsageStore.setSourceCursor, UsageStore.setModelTotals, Function.update_self]
          rw [totals, ingested.totals]
          simp [totalsOver]
        · apply Eq.trans
          · apply recorded_rows visit.now ?_ at_belongs
            rfl
          dsimp only
          rw [sightings_snoc, List.map_append, Distinct.enterAll_append, ← ingested.rows, ← ingested.totals]
          simp only [Reading.sightings, List.map_map]
          rfl

end Visits

end Runtime
