import OpenAgentHub.Runtime.ExactlyOnce
import OpenAgentHub.Runtime.Opencode

namespace Runtime

structure DbVisit where
  stat : Option FileStat
  opened : Bool
  ticks : Nat → Tick
  now : String

structure DbState where
  table : MessagesTable
  store : UsageStore := {}

inductive DbStep where
  | insert (row : MessageRow)
  | collect (visit : DbVisit)

section Machine

variable (host : UsageHost) (dbPath : String)

def collectDb (state : DbState) (visit : DbVisit) : DbState :=
  let db : OpencodeDb := { messages := some state.table }
  let (store, parsed) := parseDb host dbPath state.store visit.stat (if visit.opened then some db else none) visit.ticks
  match parsed with
  | none => { state with store := store }
  | some parsed => { state with store := store.recordAll parsed.usage visit.now }

def dbStep (state : DbState) : DbStep → DbState
  | .insert row => { state with table := { state.table with rows := state.table.rows ++ [row] } }
  | .collect visit => collectDb host dbPath state visit

def storedTime (state : DbState) : Nat := ((state.store.sourceCursors dbPath).map SourceCursor.offset).getD 0

end Machine

section Rows

variable (host : UsageHost) (dbPath column : String)

def timeColOf (columns : List String) : Option String := ["time", "created_at", "timestamp"].find? (columns.contains ·)

def hasCost (table : MessagesTable) : Bool := table.columns.contains "cost"

def hasTokens (table : MessagesTable) : Bool :=
  table.columns.contains "tokens" || table.columns.contains "input_tokens" || table.columns.contains "tokens_in"

def messageTime (row : MessageRow) : Int :=
  match row.lookup column with
  | some (.num time) => time
  | _ => 0

def messageFacts (cost : Bool) (row : MessageRow) : ExternalUsageRow :=
  ((messageObservation host cost dbPath row "" 0).row "").facts

/-- A row of the table: it has the columns of the schema, and a number for its time. -/
structure Fits (columns : List String) (row : MessageRow) : Prop where
  shape : ∀ name, (row.lookup name).isSome = columns.contains name
  timed : ∃ time, row.lookup column = some (.num time)

end Rows

section Lemmas

variable {host : UsageHost} {dbPath column : String}

theorem messageTime_eq {columns : List String} {row : MessageRow} (fits : Fits column columns row) :
    row.lookup column = some (.num (messageTime column row)) := by
  obtain ⟨time, found⟩ := fits.timed
  rw [messageTime, found]

theorem rowTime_eq {columns : List String} {row : MessageRow} (fits : Fits column columns row)
    (chosen : timeColOf columns = some column) : rowTime host row = some (messageTime column row) := by
  have absent : ∀ name, columns.contains name = false → row.lookup name = none := by
    intro name missing
    have shape := fits.shape name
    rw [missing] at shape
    exact Option.not_isSome_iff_eq_none.mp (by rw [shape]; decide)
  have found := messageTime_eq fits
  unfold timeColOf at chosen
  rw [List.find?_cons] at chosen
  cases first : columns.contains "time" with
  | true =>
    rw [first] at chosen
    obtain rfl := Option.some.inj chosen
    simp [rowTime, found, num]
  | false =>
    rw [first, List.find?_cons] at chosen
    have none := absent "time" first
    cases second : columns.contains "created_at" with
    | true =>
      rw [second] at chosen
      obtain rfl := Option.some.inj chosen
      simp [rowTime, found, none, num]
    | false =>
      rw [second, List.find?_cons] at chosen
      have noneEither := absent "created_at" second
      cases third : columns.contains "timestamp" with
      | true =>
        rw [third] at chosen
        obtain rfl := Option.some.inj chosen
        simp [rowTime, found, none, noneEither, num]
      | false =>
        rw [third] at chosen
        cases chosen

/-- Rows in the order of their times are selected in the order of the table. -/
theorem selectMessages_eq {columns : List String} {rows : List MessageRow} {time : Nat}
    (fits : ∀ row ∈ rows, Fits column columns row)
    (sorted : rows.Pairwise fun one other => messageTime column one ≤ messageTime column other) :
    selectMessages (some column) time rows = rows.filter fun row => (time : Int) < messageTime column row := by
  have after : rows.filter (fun row => sqlAfter time (row.lookup column)) =
      rows.filter fun row => (time : Int) < messageTime column row := by
    apply List.filter_congr
    intro row member
    rw [messageTime_eq (fits row member)]
    rfl
  show List.mergeSort _ _ = _
  rw [after]
  apply List.mergeSort_of_pairwise
  apply List.Pairwise.imp_of_mem _ (sorted.filter _)
  intro one other first second le
  rw [messageTime_eq (fits one (List.mem_filter.mp first).1), messageTime_eq (fits other (List.mem_filter.mp second).1)]
  exact decide_eq_true le

structure Datable (host : UsageHost) (column : String) (row : MessageRow) : Prop where
  id : (row.lookup "id").isSome = true
  time : rowTime host row = some (messageTime column row)
  valid : validTime (messageTime column row) = true

def storedObservation (host : UsageHost) (dbPath column : String) (cost : Bool) (row : MessageRow) : UsageObservation :=
  messageObservation host cost dbPath row (host.iso (messageTime column row)) 0

theorem Datable.observation {cost : Bool} {row : MessageRow} (datable : Datable host column row) (count : Nat) :
    messageObservation host cost dbPath row (host.iso (messageTime column row)) count =
      storedObservation host dbPath column cost row := by
  obtain ⟨id, named⟩ := Option.isSome_iff_exists.mp datable.id
  simp only [storedObservation, messageObservation, messageKey, named]

def latest (column : String) (time : Int) (rows : List MessageRow) : Int :=
  rows.foldl (fun time row => max time (messageTime column row)) time

theorem readRows_cases {cost : Bool} {ticks : Nat → Tick} {rows : List MessageRow} :
    ∀ {index : Nat} {tally final : DbTally} {ended : LoopEnd},
    (∀ row ∈ rows, bearing host row = true → Datable host column row) →
    readRows host cost dbPath ticks index rows tally = (final, ended) →
    ∃ read left, rows = read ++ left ∧
      final.usage = tally.usage ++ (read.filter (bearing host)).map (storedObservation host dbPath column cost) ∧
      final.maxTime = latest column tally.maxTime (read.filter (bearing host)) ∧
      match ended with
      | .finished => left = []
      | .cutShort => ticks (index + read.length) = .late
      | .broken => ticks (index + read.length) = .stopped := by
  induction rows with
  | nil =>
    intro index tally final ended _ parsed
    obtain ⟨rfl, rfl⟩ := Prod.mk.inj parsed
    exact ⟨[], [], rfl, (List.append_nil _).symm, rfl, rfl⟩
  | cons row rest step =>
    intro index tally final ended datable parsed
    have later := fun other member => datable other (List.mem_cons_of_mem row member)
    unfold readRows at parsed
    cases tick : ticks index with
    | late =>
      rw [tick] at parsed
      obtain ⟨rfl, rfl⟩ := Prod.mk.inj parsed
      exact ⟨[], row :: rest, rfl, (List.append_nil _).symm, rfl, tick⟩
    | stopped =>
      rw [tick] at parsed
      obtain ⟨rfl, rfl⟩ := Prod.mk.inj parsed
      exact ⟨[], row :: rest, rfl, (List.append_nil _).symm, rfl, tick⟩
    | reached now =>
      rw [tick] at parsed
      cases bears : bearing host row with
      | false =>
        simp only [readRow, bears, Bool.false_eq_true, if_false] at parsed
        obtain ⟨read, left, rfl, usage, time, ends⟩ := step later parsed
        have place : index + 1 + read.length = index + (row :: read).length := by
          rw [List.length_cons]
          omega
        rw [place] at ends
        refine ⟨row :: read, left, rfl, ?_, ?_, ends⟩
        · rw [List.filter_cons_of_neg (by simp [bears])]
          exact usage
        · rw [List.filter_cons_of_neg (by simp [bears])]
          exact time
      | true =>
        have dated := datable row List.mem_cons_self bears
        simp only [readRow, bears, if_true, occurred, dated.time, dated.valid, Option.getD_some] at parsed
        obtain ⟨read, left, rfl, usage, time, ends⟩ := step later parsed
        have place : index + 1 + read.length = index + (row :: read).length := by
          rw [List.length_cons]
          omega
        rw [place] at ends
        refine ⟨row :: read, left, rfl, ?_, ?_, ends⟩
        · rw [List.filter_cons_of_pos bears, List.map_cons, usage, dated.observation, List.append_assoc]
          rfl
        · rw [List.filter_cons_of_pos bears]
          exact time

/-! ### The runs -/

def idText (row : MessageRow) : Option String := (row.lookup "id").map Json.toText

/-- What the table and the schedule are like: the time column is numeric, ids are distinct, times do not decrease, and
    only the deadline ends a collection early. -/
def Admissible (column : String) (state : DbState) : DbStep → Prop
  | .insert row => Fits column state.table.columns row ∧ (row.lookup "id").isSome = true ∧
      (∀ old ∈ state.table.rows, old.lookup "id" ≠ row.lookup "id") ∧
      ∀ old ∈ state.table.rows, messageTime column old ≤ messageTime column row
  | .collect visit => ∀ index, visit.ticks index ≠ .stopped

def unreadMessages (dbPath column : String) (state : DbState) : List MessageRow :=
  selectMessages (some column) (storedTime dbPath state) state.table.rows

/-- No row is passed over: a row with token data comes after the stored time, and a cut does not part rows of one time. -/
def Spared (host : UsageHost) (dbPath column : String) (state : DbState) : DbStep → Prop
  | .insert row => bearing host row = true →
      (storedTime dbPath state : Int) < messageTime column row ∧ validTime (messageTime column row) = true ∧
        ∀ old ∈ state.table.rows, idText old ≠ idText row
  | .collect visit => ∀ read left, unreadMessages dbPath column state = read ++ left →
      visit.ticks (1 + read.length) = .late → ∀ one ∈ read, ∀ other ∈ left, bearing host one = true →
        bearing host other = true → messageTime column one < messageTime column other

def keyedFacts (row : ExternalUsageRow) : ExternalUsageRow × String := (row.facts, row.eventKey)

def keyedMessage (host : UsageHost) (dbPath : String) (cost : Bool) (row : MessageRow) : ExternalUsageRow × String :=
  (messageFacts host dbPath cost row, "messages#" ++ (idText row).getD "")

structure DbIngested (host : UsageHost) (dbPath column : String) (state : DbState) : Prop where
  chosen : timeColOf state.table.columns = some column
  fits : ∀ row ∈ state.table.rows, Fits column state.table.columns row
  sorted : state.table.rows.Pairwise fun one other => messageTime column one ≤ messageTime column other
  datable : ∀ row ∈ state.table.rows, bearing host row = true → Datable host column row
  named : state.table.rows.Pairwise fun old row => bearing host row = true → idText old ≠ idText row
  split : ∃ done rest, state.table.rows.filter (bearing host) = done ++ rest ∧
    (state.store.rowsOf .opencode dbPath).map keyedFacts =
      done.map (keyedMessage host dbPath (hasCost state.table)) ∧
    (∀ row ∈ done, messageTime column row ≤ storedTime dbPath state) ∧
    ∀ row ∈ rest, (storedTime dbPath state : Int) < messageTime column row

theorem le_latest {rows : List MessageRow} : ∀ {time : Int}, time ≤ latest column time rows ∧
    ∀ row ∈ rows, messageTime column row ≤ latest column time rows := by
  induction rows with
  | nil => exact fun {time} => ⟨le_refl time, fun _ member => absurd member List.not_mem_nil⟩
  | cons row rest step =>
    intro time
    obtain ⟨base, others⟩ := @step (max time (messageTime column row))
    refine ⟨(le_max_left _ _).trans base, fun other member => ?_⟩
    rcases List.mem_cons.mp member with rfl | later
    · exact (le_max_right _ _).trans base
    · exact others other later

theorem latest_lt {time bound : Int} {rows : List MessageRow} (first : time < bound)
    (all : ∀ row ∈ rows, messageTime column row < bound) : latest column time rows < bound := by
  induction rows generalizing time with
  | nil => exact first
  | cons row rest step =>
    exact step (max_lt first (all row List.mem_cons_self)) fun other member => all other (List.mem_cons_of_mem _ member)

variable {state : DbState}

theorem DbIngested.insert (ingested : DbIngested host dbPath column state) {row : MessageRow}
    (admissible : Admissible column state (.insert row)) (spared : Spared host dbPath column state (.insert row)) :
    DbIngested host dbPath column (dbStep host dbPath state (.insert row)) := by
  obtain ⟨fits, id, _, after⟩ := admissible
  have member : ∀ other ∈ state.table.rows ++ [row], other ∈ state.table.rows ∨ other = row := by
    intro other present
    rcases List.mem_append.mp present with old | new
    · exact Or.inl old
    · exact Or.inr (List.mem_singleton.mp new)
  refine ⟨ingested.chosen, ?_, ?_, ?_, ?_, ?_⟩
  · intro other present
    rcases member other present with old | rfl
    · exact ingested.fits other old
    · exact fits
  · exact List.pairwise_append.mpr ⟨ingested.sorted, List.pairwise_singleton _ _, fun old earlier new last =>
      List.mem_singleton.mp last ▸ after old earlier⟩
  · intro other present bears
    rcases member other present with old | rfl
    · exact ingested.datable other old bears
    · exact ⟨id, rowTime_eq fits ingested.chosen, (spared bears).2.1⟩
  · exact List.pairwise_append.mpr ⟨ingested.named, List.pairwise_singleton _ _, fun old earlier new last bears =>
      List.mem_singleton.mp last ▸ (spared (List.mem_singleton.mp last ▸ bears)).2.2 old earlier⟩
  · obtain ⟨done, rest, whole, recorded, passed, ahead⟩ := ingested.split
    show ∃ done rest, (state.table.rows ++ [row]).filter (bearing host) = done ++ rest ∧ _
    rw [List.filter_append, whole]
    cases bears : bearing host row with
    | false =>
      refine ⟨done, rest, ?_, recorded, passed, ahead⟩
      rw [List.filter_cons_of_neg (by simp [bears]), List.filter_nil, List.append_nil]
    | true =>
      refine ⟨done, rest ++ [row], ?_, recorded, passed, ?_⟩
      · rw [List.filter_cons_of_pos bears, List.filter_nil, List.append_assoc]
      · intro other present
        rcases List.mem_append.mp present with old | new
        · exact ahead other old
        · rw [List.mem_singleton.mp new]
          exact (spared bears).1

variable {visit : DbVisit}

def Reads (dbPath column : String) (state : DbState) (visit : DbVisit) (stat : FileStat) : Prop :=
  visit.stat = some stat ∧ visit.opened = true ∧ unchanged (state.store.sourceCursors dbPath) stat = false ∧
    hasTokens state.table = true ∧ (unreadMessages dbPath column state).all readableRow = true

theorem collectDb_idle (chosen : timeColOf state.table.columns = some column)
    (idle : ∀ stat, ¬ Reads dbPath column state visit stat) : collectDb host dbPath state visit = state := by
  unfold timeColOf at chosen
  unfold collectDb parseDb
  cases timed : visit.stat with
  | none => rfl
  | some stat =>
    by_cases same : unchanged (state.store.sourceCursors dbPath) stat = true
    · simp only [same, if_true]
      rfl
    · cases opened : visit.opened with
      | false =>
        simp only [same, Bool.false_eq_true, if_false]
        rfl
      | true =>
        cases has : hasTokens state.table with
        | false =>
          unfold hasTokens at has
          simp only [same, if_true, schemaOf, Option.map_some, has, Bool.not_false]
          rfl
        | true =>
          have unread : (unreadMessages dbPath column state).all readableRow = false := by
            by_contra readable
            exact idle stat ⟨timed, opened, by simpa using same, has, by simpa using readable⟩
          unfold hasTokens at has
          unfold unreadMessages storedTime at unread
          simp only [same, if_true, if_false, schemaOf, Option.map_some, has, Bool.not_true, Bool.not_false, chosen, unread,
            Bool.false_eq_true]
          rfl

theorem collectDb_read {stat : FileStat} {final : DbTally} {ended : LoopEnd} (chosen : timeColOf state.table.columns = some column)
    (reads : Reads dbPath column state visit stat)
    (looped : readRows host (hasCost state.table) dbPath visit.ticks 1 (unreadMessages dbPath column state)
      { maxTime := storedTime dbPath state } = (final, ended)) (whole : ended ≠ .broken) :
    collectDb host dbPath state visit =
      { state with
        store := (state.store.setSourceCursor dbPath ⟨stat.size, stat.mtimeMs, final.maxTime.toNat⟩).recordAll
          final.usage visit.now } := by
  obtain ⟨timed, opened, changed, has, readable⟩ := reads
  unfold timeColOf at chosen
  unfold hasTokens at has
  unfold unreadMessages storedTime hasCost at looped
  unfold unreadMessages storedTime at readable
  unfold collectDb parseDb
  simp only [timed, opened, changed, if_true, Bool.false_eq_true, if_false, schemaOf, Option.map_some, has, Bool.not_true,
    chosen, readable, looped, whole, Option.isSome_some]

theorem DbIngested.keys (ingested : DbIngested host dbPath column state) :
    (state.table.rows.filter (bearing host)).Pairwise fun old row => idText old ≠ idText row := by
  apply List.Pairwise.imp_of_mem _ (ingested.named.filter _)
  intro old row _ later apart
  exact apart (List.mem_filter.mp later).2

theorem keyedMessage_stored {cost : Bool} {row : MessageRow} {now : String} (datable : Datable host column row) :
    keyedFacts ((storedObservation host dbPath column cost row).row now) = keyedMessage host dbPath cost row := by
  obtain ⟨id, named⟩ := Option.isSome_iff_exists.mp datable.id
  simp only [keyedFacts, keyedMessage, storedObservation, messageObservation, messageFacts, messageKey, UsageObservation.row,
    ExternalUsageRow.facts, idText, named, Option.map_some, Option.getD_some]

/-- Messages with different ids do not clash. -/
theorem message_apart {old row : MessageRow} {one other : ExternalUsageRow} {cost : Bool}
    (first : keyedFacts one = keyedMessage host dbPath cost old) (second : keyedFacts other = keyedMessage host dbPath cost row)
    (id : (old.lookup "id").isSome = true) (otherId : (row.lookup "id").isSome = true) (apart : idText old ≠ idText row) :
    ExternalUsageRow.clashes one other = false := by
  have keys : one.eventKey ≠ other.eventKey := by
    intro same
    have one : "messages#" ++ (idText old).getD "" = "messages#" ++ (idText row).getD "" :=
      (congrArg Prod.snd first).symm.trans (same.trans (congrArg Prod.snd second))
    have texts := (String.append_right_inj _).mp one
    obtain ⟨value, named⟩ := Option.isSome_iff_exists.mp id
    obtain ⟨otherValue, otherNamed⟩ := Option.isSome_iff_exists.mp otherId
    simp only [idText, named, otherNamed, Option.map_some, Option.getD_some] at texts apart
    exact apart (congrArg some texts)
  rw [ExternalUsageRow.clashes, beq_false_of_ne keys, Bool.and_false]

theorem unread_bearing (ingested : DbIngested host dbPath column state) {done rest : List MessageRow}
    (whole : state.table.rows.filter (bearing host) = done ++ rest)
    (passed : ∀ row ∈ done, messageTime column row ≤ storedTime dbPath state)
    (ahead : ∀ row ∈ rest, (storedTime dbPath state : Int) < messageTime column row) :
    (unreadMessages dbPath column state).filter (bearing host) = rest := by
  rw [unreadMessages, selectMessages_eq ingested.fits ingested.sorted, List.filter_filter]
  have swapped : state.table.rows.filter (fun row => bearing host row && decide ((storedTime dbPath state : Int) < messageTime column row)) =
      (done ++ rest).filter fun row => (storedTime dbPath state : Int) < messageTime column row := by
    rw [← whole, List.filter_filter]
    apply List.filter_congr
    intro row _
    exact Bool.and_comm _ _
  have before : done.filter (fun row => (storedTime dbPath state : Int) < messageTime column row) = [] := by
    rw [List.filter_eq_nil_iff]
    intro row member
    have bound := passed row member
    simp only [decide_eq_true_eq]
    omega
  have kept : rest.filter (fun row => (storedTime dbPath state : Int) < messageTime column row) = rest :=
    List.filter_eq_self.mpr fun row member => decide_eq_true (ahead row member)
  rw [swapped, List.filter_append, before, kept, List.nil_append]

theorem mem_unread {row : MessageRow} (ingested : DbIngested host dbPath column state)
    (member : row ∈ unreadMessages dbPath column state) : row ∈ state.table.rows := by
  rw [unreadMessages, selectMessages_eq ingested.fits ingested.sorted] at member
  exact (List.mem_filter.mp member).1

theorem record_messages (ingested : DbIngested host dbPath column state) {done fresh rest : List MessageRow}
    (base : UsageStore) (now : String) (same : base.rowsOf .opencode dbPath = state.store.rowsOf .opencode dbPath)
    (whole : state.table.rows.filter (bearing host) = done ++ (fresh ++ rest))
    (recorded : (state.store.rowsOf .opencode dbPath).map keyedFacts =
      done.map (keyedMessage host dbPath (hasCost state.table))) :
    ((base.recordAll (fresh.map (storedObservation host dbPath column (hasCost state.table))) now).rowsOf .opencode
      dbPath).map keyedFacts = (done ++ fresh).map (keyedMessage host dbPath (hasCost state.table)) := by
  have datable : ∀ row ∈ done ++ fresh, Datable host column row := by
    intro row member
    have present : row ∈ state.table.rows.filter (bearing host) := by
      rw [whole, ← List.append_assoc]
      exact List.mem_append_left _ member
    obtain ⟨inside, bears⟩ := List.mem_filter.mp present
    exact ingested.datable row inside bears
  have keys := ingested.keys
  rw [whole, ← List.append_assoc, List.pairwise_append] at keys
  obtain ⟨_, freshKeys, across⟩ := List.pairwise_append.mp keys.1
  have mine : ∀ obs ∈ fresh.map (storedObservation host dbPath column (hasCost state.table)),
      obs.provider = .opencode ∧ obs.source = dbPath := by
    intro obs member
    obtain ⟨row, _, rfl⟩ := List.mem_map.mp member
    exact ⟨rfl, rfl⟩
  have stored : ∀ row ∈ fresh, keyedFacts ((storedObservation host dbPath column (hasCost state.table) row).row now) =
      keyedMessage host dbPath (hasCost state.table) row :=
    fun row member => keyedMessage_stored (datable row (List.mem_append_right _ member))
  rw [rowsOf_recordAll mine, same, List.map_map, Distinct.enterAll_fresh]
  · rw [List.map_append, recorded, List.map_append, List.map_map]
    congr 1
    exact List.map_congr_left stored
  · intro one member other new
    obtain ⟨row, present, rfl⟩ := List.mem_map.mp new
    have listed : keyedFacts one ∈ done.map (keyedMessage host dbPath (hasCost state.table)) :=
      recorded ▸ List.mem_map_of_mem member
    obtain ⟨old, earlier, told⟩ := List.mem_map.mp listed
    exact message_apart told.symm (stored row present) (datable old (List.mem_append_left _ earlier)).id
      (datable row (List.mem_append_right _ present)).id (across old earlier row present)
  · rw [List.pairwise_map]
    apply List.Pairwise.imp_of_mem _ freshKeys
    intro old row first second apart
    exact message_apart (stored old first) (stored row second) (datable old (List.mem_append_right _ first)).id
      (datable row (List.mem_append_right _ second)).id apart

/-- A visit that reads the table records a first part of what is left, and the stored time moves to its end. -/
theorem DbIngested.read {stat : FileStat} (ingested : DbIngested host dbPath column state)
    (reads : Reads dbPath column state visit stat) (going : ∀ index, visit.ticks index ≠ .stopped)
    (spared : Spared host dbPath column state (.collect visit)) :
    DbIngested host dbPath column (collectDb host dbPath state visit) ∧
      ((∀ index, ∃ now, visit.ticks index = .reached now) →
        ((collectDb host dbPath state visit).store.rowsOf .opencode dbPath).map keyedFacts =
          (state.table.rows.filter (bearing host)).map (keyedMessage host dbPath (hasCost state.table))) := by
  obtain ⟨done, rest, whole, recorded, passed, ahead⟩ := ingested.split
  cases looped : readRows host (hasCost state.table) dbPath visit.ticks 1 (unreadMessages dbPath column state)
      { maxTime := storedTime dbPath state } with
  | mk final ended =>
    have datable : ∀ row ∈ unreadMessages dbPath column state, bearing host row = true → Datable host column row :=
      fun row member => ingested.datable row (mem_unread ingested member)
    obtain ⟨read, left, selected, usage, time, ends⟩ := readRows_cases datable looped
    have unbroken : ended ≠ .broken := by
      rintro rfl
      exact going _ ends
    have remaining := unread_bearing ingested whole passed ahead
    rw [selected, List.filter_append] at remaining
    have partition : state.table.rows.filter (bearing host) =
        done ++ (read.filter (bearing host) ++ left.filter (bearing host)) := by rw [whole, remaining]
    have collected := collectDb_read ingested.chosen reads looped unbroken
    rw [List.nil_append] at usage
    have rows := record_messages ingested
      (state.store.setSourceCursor dbPath ⟨stat.size, stat.mtimeMs, final.maxTime.toNat⟩) visit.now rfl partition recorded
    have moved : (storedTime dbPath (collectDb host dbPath state visit) : Int) =
        latest column (storedTime dbPath state) (read.filter (bearing host)) := by
      have stored : storedTime dbPath (collectDb host dbPath state visit) = final.maxTime.toNat := by
        rw [collected, storedTime]
        dsimp only
        rw [recordAll_frame.1]
        simp [UsageStore.setSourceCursor]
      have grows : (storedTime dbPath state : Int) ≤ final.maxTime := time ▸ le_latest.1
      rw [stored, ← time]
      omega
    rw [usage] at collected
    constructor
    · rw [collected] at moved ⊢
      refine ⟨ingested.chosen, ingested.fits, ingested.sorted, ingested.datable, ingested.named,
        done ++ read.filter (bearing host), left.filter (bearing host), ?_, rows, ?_, ?_⟩
      · rw [partition, List.append_assoc]
      · intro row member
        rw [moved]
        rcases List.mem_append.mp member with earlier | fresh
        · exact (passed row earlier).trans le_latest.1
        · exact le_latest.2 row fresh
      · intro row member
        obtain ⟨inside, bears⟩ := List.mem_filter.mp member
        rw [moved]
        cases ended with
        | broken => exact absurd rfl unbroken
        | finished =>
          obtain rfl : left = [] := ends
          cases inside
        | cutShort =>
          apply latest_lt
          · exact ahead row (remaining ▸ List.mem_append_right _ member)
          · intro other fresh
            obtain ⟨first, firstBears⟩ := List.mem_filter.mp fresh
            exact spared read left selected ends other first row inside firstBears bears
    · intro uncut
      have none : left = [] := by
        cases ended with
        | broken => exact absurd rfl unbroken
        | finished => exact ends
        | cutShort =>
          obtain ⟨now, reached⟩ := uncut (1 + read.length)
          rw [reached] at ends
          cases ends
      rw [collected, partition, none, List.filter_nil, List.append_nil]
      exact rows

theorem DbIngested.step {step : DbStep} (ingested : DbIngested host dbPath column state)
    (admissible : Admissible column state step) (spared : Spared host dbPath column state step) :
    DbIngested host dbPath column (dbStep host dbPath state step) := by
  cases step with
  | insert row => exact ingested.insert admissible spared
  | collect visit =>
    by_cases reads : ∃ stat, Reads dbPath column state visit stat
    · obtain ⟨stat, reads⟩ := reads
      exact (ingested.read reads admissible spared).1
    · show DbIngested host dbPath column (collectDb host dbPath state visit)
      rw [collectDb_idle ingested.chosen (not_exists.mp reads)]
      exact ingested

/-- The last collection: it finds and opens the file, and the deadline does not cut it. -/
structure Final (visit : DbVisit) : Prop where
  found : visit.stat.isSome = true
  opened : visit.opened = true
  uncut : ∀ index, ∃ now, visit.ticks index = .reached now

/-- Where a message is left, the last collection does not take the file for unchanged or unsupported: `.all()` throws
    where a row above the stored time holds a number that `node:sqlite` does not read. -/
def Noticed (host : UsageHost) (dbPath column : String) (state : DbState) (visit : DbVisit) : Prop :=
  (∃ row ∈ state.table.rows, bearing host row = true ∧ (storedTime dbPath state : Int) < messageTime column row) →
    hasTokens state.table = true ∧
      (∀ row ∈ state.table.rows, (storedTime dbPath state : Int) < messageTime column row → readableRow row = true) ∧
      ∀ stat, visit.stat = some stat → unchanged (state.store.sourceCursors dbPath) stat = false

structure Empty (dbPath column : String) (state : DbState) : Prop where
  chosen : timeColOf state.table.columns = some column
  rows : state.table.rows = []
  recorded : state.store.rowsOf .opencode dbPath = []

theorem Empty.ingested (empty : Empty dbPath column state) : DbIngested host dbPath column state where
  chosen := empty.chosen
  fits := fun _ member => absurd (empty.rows ▸ member) List.not_mem_nil
  sorted := empty.rows ▸ List.Pairwise.nil
  datable := fun _ member => absurd (empty.rows ▸ member) List.not_mem_nil
  named := empty.rows ▸ List.Pairwise.nil
  split := by
    refine ⟨[], [], ?_, ?_, fun _ member => absurd member List.not_mem_nil, fun _ member => absurd member List.not_mem_nil⟩
    · rw [empty.rows]
      rfl
    · rw [empty.recorded]
      rfl

theorem DbIngested.last (ingested : DbIngested host dbPath column state) (final : Final visit)
    (noticed : Noticed host dbPath column state visit) :
    ((collectDb host dbPath state visit).store.rowsOf .opencode dbPath).map keyedFacts =
      (state.table.rows.filter (bearing host)).map (keyedMessage host dbPath (hasCost state.table)) := by
  have going : ∀ index, visit.ticks index ≠ .stopped := by
    intro index stopped
    obtain ⟨now, reached⟩ := final.uncut index
    rw [reached] at stopped
    cases stopped
  have spared : Spared host dbPath column state (.collect visit) := by
    intro read left _ late
    obtain ⟨now, reached⟩ := final.uncut (1 + read.length)
    rw [reached] at late
    cases late
  by_cases reads : ∃ stat, Reads dbPath column state visit stat
  · obtain ⟨stat, reads⟩ := reads
    exact (ingested.read reads going spared).2 final.uncut
  · obtain ⟨done, rest, whole, recorded, _, ahead⟩ := ingested.split
    have none : rest = [] := by
      by_contra some
      obtain ⟨row, member⟩ := List.exists_mem_of_ne_nil rest some
      have inside : row ∈ state.table.rows.filter (bearing host) := whole ▸ List.mem_append_right _ member
      obtain ⟨present, bears⟩ := List.mem_filter.mp inside
      obtain ⟨has, readable, changed⟩ := noticed ⟨row, present, bears, ahead row member⟩
      obtain ⟨stat, timed⟩ := Option.isSome_iff_exists.mp final.found
      refine reads ⟨stat, timed, final.opened, changed stat timed, has, List.all_eq_true.mpr fun other unread => ?_⟩
      rw [unreadMessages, selectMessages_eq ingested.fits ingested.sorted] at unread
      obtain ⟨listed, later⟩ := List.mem_filter.mp unread
      exact readable other listed (of_decide_eq_true later)
    rw [collectDb_idle ingested.chosen (not_exists.mp reads), whole, none, List.append_nil]
    exact recorded

theorem collectDb_table :
    (collectDb host dbPath state visit).table = state.table := by
  unfold collectDb
  dsimp only
  split <;> rfl

/-- The rows of the database are one for one its messages with token data. -/
def MessagesRecorded (host : UsageHost) (dbPath : String) (state : DbState) : Prop :=
  ((state.store.rowsOf .opencode dbPath).map ExternalUsageRow.facts).Perm
    ((state.table.rows.filter (bearing host)).map (messageFacts host dbPath (hasCost state.table)))

end Lemmas

/-! ### Two runs -/

theorem lookup_isSome {row : MessageRow} {name : String} :
    (row.lookup name).isSome = (row.map Prod.fst).contains name := by
  induction row with
  | nil => rfl
  | cons entry rest step =>
    rw [List.lookup_cons, List.map_cons, List.contains_cons]
    cases name == entry.1 with
    | true => rfl
    | false => exact step

def messageAt (id time : Int) : MessageRow := [("id", .num id), ("tokens", .num 5), ("time", .num time)]

theorem messageAt_fits {id time : Int} : Fits "time" ["id", "tokens", "time"] (messageAt id time) where
  shape := fun _ => lookup_isSome
  timed := ⟨time, rfl⟩

def emptyTable : DbState := { table := { columns := ["id", "tokens", "time"], rows := [] } }

def dbVisit (mtimeMs : Int) : DbVisit where
  stat := some ⟨4096, mtimeMs⟩
  opened := true
  ticks := fun _ => .reached 0
  now := "1970-01-01T00:00:00.000Z"

theorem dbVisit_final {mtimeMs : Int} : Final (dbVisit mtimeMs) := ⟨rfl, rfl, fun _ => ⟨0, rfl⟩⟩

theorem emptyTable_empty : Empty "storage.sqlite" "time" emptyTable := ⟨by decide, rfl, rfl⟩

def messagesAt (first second : Int) : List DbStep :=
  [.insert (messageAt 1 first), .collect (dbVisit 1), .insert (messageAt 2 second)]

theorem messagesAt_admissible {first second : Int} (ordered : first ≤ second) :
    Runs.AllMeet (dbStep (asciiHost []) "storage.sqlite") (Admissible "time") emptyTable (messagesAt first second) := by
  have table : (dbStep (asciiHost []) "storage.sqlite" (dbStep (asciiHost []) "storage.sqlite" emptyTable
      (.insert (messageAt 1 first))) (.collect (dbVisit 1))).table =
        { columns := ["id", "tokens", "time"], rows := [messageAt 1 first] } := collectDb_table
  refine ⟨⟨messageAt_fits, rfl, ?_, ?_⟩, ?_, ?_, trivial⟩
  · exact fun _ member => absurd member List.not_mem_nil
  · exact fun _ member => absurd member List.not_mem_nil
  · exact fun _ stopped => by cases stopped
  · unfold Admissible
    rw [table]
    refine ⟨messageAt_fits, rfl, ?_, ?_⟩
    all_goals
      intro old member
      obtain rfl : old = messageAt 1 first := List.mem_singleton.mp member
    · simp [messageAt]
    · exact ordered

end Runtime
