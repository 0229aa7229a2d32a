import OpenAgentHub.Cli.DaemonLog

/-! The tail of a run's log, and the usage file that the supervisor keeps beside it. -/

namespace Cli

open LogFiles

def RUN_LOG_MAX_BYTES : Nat := LOG_MAX_BYTES

def RUN_LOG_MAX_FILES : Nat := LOG_MAX_FILES

def runLogName (runId : String) : String := runId ++ ".log"

def usageFileName (runId : String) : String := runLogName runId ++ ".usage.jsonl"

def rotateRunLog (runId : String) (dir : Directory) : Directory :=
  rotate (runLogName runId) RUN_LOG_MAX_BYTES RUN_LOG_MAX_FILES dir

def runLogFilenames (runId : String) (dir : Directory) : List String := listing (runLogName runId) dir

def chomp (text : List Char) : List Char := if text.getLast? = some '\n' then text.dropLast else text

/-- The slice from a negative index, which is the whole list for zero. -/
def sliceLast {α : Type} (items : List α) (count : Nat) : List α := if count = 0 then items else items.rtake count

def readRunLogTail (dir : Directory) (runId : String) (lines : Nat) : List Char :=
  let text := (runLogFilenames runId dir).flatMap dir.text
  let trimmed := chomp text
  if trimmed = [] then [] else joinLines (sliceLast (trimmed.splitOn '\n') lines)

/-- Under the prefix of a run's log the supervisor keeps only the run's usage file. -/
def BesideRunLog (runId name : String) : Prop :=
  Text.startsWith name (runLogName runId) = true → name = usageFileName runId

abbrev RunLogEvent (runId : String) := Event (BesideRunLog runId)

def runLogs {runId : String} (history : List (RunLogEvent runId)) : Directory :=
  history.foldl (handle (runLogName runId) RUN_LOG_MAX_BYTES RUN_LOG_MAX_FILES) {}

def ownLog (dir : Directory) (runId : String) : List Char := retained (runLogName runId) RUN_LOG_MAX_FILES dir

/-- The usage file does not reach into the last lines, which the run's own log fills. -/
def UsageOutOfReach (usage own : List Char) (lines : Nat) : Prop :=
  usage = [] ∨
    if own = [] then usage = ['\n'] ∨ lines = 1 ∧ ['\n', '\n'] <:+ usage
    else lines < (linesOf own).length ∨ lines = (linesOf own).length ∧ usage.getLast? = some '\n'

theorem splitOn_chomp {text : List Char} (nonempty : text ≠ []) : (chomp text).splitOn '\n' = linesOf text := by
  unfold chomp
  by_cases ends : text.getLast? = some '\n'
  · obtain ⟨lines, rfl⟩ := List.getLast?_eq_some_iff.mp ends
    rw [if_pos ends, List.dropLast_concat, linesOf_line, linesOf_nil, List.append_nil]
  · obtain ⟨whole, part, rfl, terminated, plain⟩ := exists_terminated_append text
    have some : part ≠ [] := by
      rintro rfl
      rw [List.append_nil] at ends nonempty
      exact ends (terminated.resolve_left nonempty)
    rw [if_neg ends]
    rcases terminated with rfl | last
    · rw [List.nil_append, linesOf_plain plain, if_neg some, List.splitOn_eq_singleton plain]
    · obtain ⟨lines, rfl⟩ := List.getLast?_eq_some_iff.mp last
      rw [List.append_assoc, List.singleton_append, List.splitOn_append_cons_self, linesOf_line, linesOf_plain plain,
        if_neg some, List.splitOn_eq_singleton plain]

theorem tail_of_text {text : List Char} {lines : Nat} (positive : 1 ≤ lines) :
    (if chomp text = [] then [] else joinLines (sliceLast ((chomp text).splitOn '\n') lines)) =
      joinLines ((linesOf text).rtake lines) := by
  by_cases empty : text = []
  · subst empty
    rw [linesOf_nil, List.rtake_nil]
    rfl
  · by_cases blank : chomp text = []
    · have only : linesOf text = [[]] := by rw [← splitOn_chomp empty, blank, List.splitOn_nil]
      rw [if_pos blank, only, List.rtake, List.length_singleton, Nat.sub_eq_zero_of_le positive, List.drop_zero,
        joinLines_singleton]
    · rw [if_neg blank, splitOn_chomp empty, sliceLast, if_neg (Nat.ne_of_gt positive)]

theorem tail_after_usage_own {usage own : List Char} {lines : Nat} (terminated : Terminated own) (nonempty : own ≠ [])
    (positive : 1 ≤ lines) :
    joinLines ((linesOf (usage ++ own)).rtake lines) = joinLines ((linesOf own).rtake lines) ↔
      usage = [] ∨ lines < (linesOf own).length ∨ lines = (linesOf own).length ∧ usage.getLast? = some '\n' := by
  obtain ⟨whole, part, rfl, before, plain⟩ := exists_terminated_append usage
  obtain ⟨line, rest, rfl, unbroken, read⟩ := terminated.exists_first nonempty
  have merged : '\n' ∉ part ++ line := fun present => (List.mem_append.mp present).elim plain unbroken
  have readAll : linesOf (whole ++ part ++ (line ++ '\n' :: rest)) = linesOf whole ++ (part ++ line) :: linesOf rest := by
    rw [List.append_assoc, linesOf_append before, ← List.append_assoc, linesOf_plain_line merged]
  have same : part ++ line = line ↔ part = [] := by simp
  have some : linesOf (whole ++ part ++ (line ++ '\n' :: rest)) ≠ [] := by
    rw [readAll]
    exact List.append_ne_nil_of_right_ne_nil _ (List.cons_ne_nil _ _)
  have own : linesOf (line ++ '\n' :: rest) ≠ [] := by
    rw [read]
    exact List.cons_ne_nil _ _
  rw [before.getLast?_append plain, List.append_eq_nil_iff, joinLines_inj (fun _ => plain_rtake) (fun _ => plain_rtake)
    (rtake_ne_nil positive some) (rtake_ne_nil positive own), readAll, read, List.length_cons]
  rcases Nat.lt_trichotomy lines ((linesOf rest).length + 1) with few | exactly | many
  · have later : lines ≤ (linesOf rest).length := Nat.le_of_lt_succ few
    rw [← List.singleton_append, ← List.append_assoc, rtake_append_of_le later, ← List.singleton_append,
      rtake_append_of_le later]
    simp [few]
  · subst exactly
    have entire (first : List Char) : (first :: linesOf rest).rtake ((linesOf rest).length + 1) = first :: linesOf rest :=
      rtake_of_length_le (Nat.le_refl _)
    have within : (linesOf rest).length + 1 ≤ ((part ++ line) :: linesOf rest).length := Nat.le_refl _
    rw [rtake_append_of_le within, entire, entire, List.cons.injEq, same]
    simp only [and_true, Nat.lt_irrefl, true_and, false_or]
    tauto
  · have entire (first : List Char) : (first :: linesOf rest).rtake lines = first :: linesOf rest :=
      rtake_of_length_le (Nat.le_of_lt many)
    rw [rtake_append, List.length_cons, entire, entire]
    have beyond : ¬ lines < (linesOf rest).length + 1 ∧ ¬ lines = (linesOf rest).length + 1 := by omega
    simp only [beyond.1, beyond.2, false_and, or_false]
    constructor
    · intro equal
      have lengths := congrArg List.length equal
      rw [List.length_append, List.length_cons, List.length_cons] at lengths
      have none : (linesOf whole).rtake (lines - ((linesOf rest).length + 1)) = [] :=
        List.length_eq_zero_iff.mp (by omega)
      rw [none, List.nil_append, List.cons.injEq, same] at equal
      refine ⟨linesOf_eq_nil.mp ((rtake_eq_nil.mp none).resolve_left (by omega)), equal.1⟩
    · rintro ⟨rfl, rfl⟩
      rw [linesOf_nil, List.rtake_nil, List.nil_append, List.nil_append]

theorem tail_of_usage {usage : List Char} {lines : Nat} (positive : 1 ≤ lines) :
    joinLines ((linesOf usage).rtake lines) = [] ↔
      usage = [] ∨ usage = ['\n'] ∨ lines = 1 ∧ ['\n', '\n'] <:+ usage := by
  rw [joinLines_eq_nil, rtake_eq_nil, linesOf_eq_nil]
  obtain ⟨whole, part, rfl, terminated, plain⟩ := exists_terminated_append usage
  by_cases ends : part = []
  · subst ends
    rw [List.append_nil]
    by_cases empty : whole = []
    · simp [empty]
    · obtain ⟨earlier, line, rfl, before, unbroken, read⟩ := terminated.exists_last empty
      have only : (linesOf earlier ++ [line]).rtake lines = [[]] ↔ line = [] ∧ (lines = 1 ∨ earlier = []) := by
        have first : lines - 1 = 0 ↔ lines = 1 := by omega
        rw [rtake_append, rtake_singleton positive, List.length_singleton, List.append_eq_singleton_iff, rtake_eq_nil,
          linesOf_eq_nil, first]
        simp only [List.cons_ne_nil, and_false, or_false, List.cons.injEq, and_true]
        exact and_comm
      have alone : earlier ++ line ++ ['\n'] = ['\n'] ↔ earlier = [] ∧ line = [] := by
        rw [List.append_left_eq_self, List.append_eq_nil_iff]
      rw [read, only, breaks_suffix, before.getLast?_append unbroken, alone]
      have never : ¬ lines = 0 := Nat.ne_of_gt positive
      simp only [empty, never, false_or]
      tauto
  · have last : (whole ++ part).getLast? ≠ some '\n' := fun breaks =>
      ends ((terminated.getLast?_append plain).mp breaks).2
    have read : linesOf (whole ++ part) = linesOf whole ++ [part] := by
      rw [linesOf_append terminated, linesOf_plain plain, if_neg ends]
    apply iff_of_false
    · rw [read, rtake_append, rtake_singleton positive, List.append_eq_singleton_iff]
      simp [ends, Nat.ne_of_gt positive]
    · rintro (none | only | ⟨_, lead, breaks⟩)
      · exact ends (List.append_eq_nil_iff.mp none).2
      · exact last (by rw [only]; rfl)
      · exact last (by rw [← breaks, List.getLast?_append_of_ne_nil _ (List.cons_ne_nil _ _)]; rfl)

theorem tail_after_usage {usage own : List Char} {lines : Nat} (terminated : Terminated own) (positive : 1 ≤ lines) :
    joinLines ((linesOf (usage ++ own)).rtake lines) = joinLines ((linesOf own).rtake lines) ↔
      UsageOutOfReach usage own lines := by
  unfold UsageOutOfReach
  by_cases empty : own = []
  · rw [if_pos empty, empty, List.append_nil, linesOf_nil, List.rtake_nil]
    exact tail_of_usage positive
  · rw [if_neg empty]
    exact tail_after_usage_own terminated empty positive

theorem generation_suffix {base : String} {index : Nat} :
    generation base index = base ++ if index = 0 then "" else "." ++ toString index := by
  unfold generation
  split
  · rw [String.append_empty]
  · rw [String.append_assoc]

theorem not_beside_generation {runId : String} {index : Nat} (within : index < RUN_LOG_MAX_FILES) :
    ¬ BesideRunLog runId (generation (runLogName runId) index) := by
  intro beside
  have same := congrArg String.toList (beside startsWith_generation)
  rw [generation_suffix, usageFileName, String.toList_append, String.toList_append, List.append_cancel_left_eq] at same
  have cases : index = 0 ∨ index = 1 ∨ index = 2 := by
    unfold RUN_LOG_MAX_FILES LOG_MAX_FILES at within
    omega
  rcases cases with rfl | rfl | rfl <;> exact absurd same (by decide)

abbrev RunLogKept (runId : String) : Directory → Prop :=
  Kept (runLogName runId) RUN_LOG_MAX_FILES (BesideRunLog runId)

theorem runLogs_kept {runId : String} (history : List (RunLogEvent runId)) : RunLogKept runId (runLogs history) :=
  kept_history (fun _ => not_beside_generation) (by decide) (by decide) history

def shownFiles (runId : String) : List String :=
  [usageFileName runId, generation (runLogName runId) 2, generation (runLogName runId) 1, generation (runLogName runId) 0]

theorem runLogFilenames_kept {dir : Directory} {runId : String} (kept : RunLogKept runId dir) :
    runLogFilenames runId dir = (shownFiles runId).filter fun name => (dir.get name).isSome := by
  apply listing_eq
  · rw [shownFiles, usageFileName, generation_suffix, generation_suffix, generation_suffix]
    have less {first second : String} := @append_lt_append (runLogName runId) first second
    simp only [List.pairwise_cons, List.mem_cons, List.not_mem_nil, or_false, forall_eq_or_imp, forall_eq]
    refine ⟨⟨less ?_, less ?_, less ?_⟩, ⟨less ?_, less ?_⟩, less ?_, fun _ none => none.elim, List.Pairwise.nil⟩ <;> decide
  · intro name member
    simp only [shownFiles, List.mem_cons, List.not_mem_nil, or_false] at member
    rcases member with rfl | rfl | rfl | rfl
    · unfold Text.startsWith usageFileName
      rw [List.isPrefixOf_iff_prefix, String.toList_append]
      exact List.prefix_append _ _
    all_goals exact startsWith_generation
  · intro name present leads
    rcases kept.known name present with ⟨index, below, rfl⟩ | outside
    · have cases : index = 0 ∨ index = 1 ∨ index = 2 := by
        unfold RUN_LOG_MAX_FILES LOG_MAX_FILES at below
        omega
      rcases cases with rfl | rfl | rfl <;> simp [shownFiles]
    · rw [outside leads]
      exact List.mem_cons_self

theorem shownText {dir : Directory} {runId : String} (kept : RunLogKept runId dir) :
    (runLogFilenames runId dir).flatMap dir.text = dir.text (usageFileName runId) ++ ownLog dir runId := by
  have texts : ownLog dir runId = [generation (runLogName runId) 2, generation (runLogName runId) 1,
      generation (runLogName runId) 0].flatMap dir.text := by
    simp [ownLog, retained, RUN_LOG_MAX_FILES, LOG_MAX_FILES, List.range_succ]
  have skipped (names : List String) :
      (names.filter fun name => (dir.get name).isSome).flatMap dir.text = names.flatMap dir.text := by
    induction names with
    | nil => rfl
    | cons name rest ih =>
      cases found : dir.get name with
      | none =>
        have missing : dir.text name = [] := by rw [Directory.text, found, Option.getD_none]
        rw [List.filter_cons_of_neg (by simp [found]), ih, List.flatMap_cons, missing, List.nil_append]
      | some text => rw [List.filter_cons_of_pos (by simp [found]), List.flatMap_cons, List.flatMap_cons, ih]
  rw [runLogFilenames_kept kept, skipped, shownFiles, List.flatMap_cons, texts]

theorem ownLog_terminated {dir : Directory} {runId : String} (kept : RunLogKept runId dir) : Terminated (ownLog dir runId) := by
  have texts : ownLog dir runId = dir.text (generation (runLogName runId) 2) ++ dir.text (generation (runLogName runId) 1) ++
      dir.text (generation (runLogName runId) 0) := by
    simp [ownLog, retained, RUN_LOG_MAX_FILES, LOG_MAX_FILES, List.range_succ]
  rw [texts]
  exact ((kept.terminated 2 (by decide)).append (kept.terminated 1 (by decide))).append (kept.terminated 0 (by decide))

theorem readRunLogTail_eq_iff {dir : Directory} {runId : String} {lines : Nat} (kept : RunLogKept runId dir)
    (positive : 1 ≤ lines) :
    readRunLogTail dir runId lines = joinLines ((linesOf (ownLog dir runId)).rtake lines) ↔
      UsageOutOfReach (dir.text (usageFileName runId)) (ownLog dir runId) lines := by
  rw [readRunLogTail, shownText kept, tail_of_text positive]
  exact tail_after_usage (ownLog_terminated kept) positive

theorem readRunLogTail_exact_iff {runId : String} (history : List (RunLogEvent runId)) (lines : Nat) (positive : 1 ≤ lines) :
    readRunLogTail (runLogs history) runId lines = joinLines ((linesOf (ownLog (runLogs history) runId)).rtake lines) ↔
      UsageOutOfReach ((runLogs history).text (usageFileName runId)) (ownLog (runLogs history) runId) lines :=
  readRunLogTail_eq_iff (runLogs_kept history) positive

def meteredRun : List (RunLogEvent "r-1") :=
  [.append ⟨['a', '\n'], .inr rfl⟩, .place ⟨usageFileName "r-1", fun _ => rfl⟩ (some ['u', '\n'])]

theorem readRunLogTail_exact_metered :
    1 ≤ 1 ∧ (readRunLogTail (runLogs meteredRun) "r-1" 1 = joinLines ((linesOf (ownLog (runLogs meteredRun) "r-1")).rtake 1) ↔
      UsageOutOfReach ((runLogs meteredRun).text (usageFileName "r-1")) (ownLog (runLogs meteredRun) "r-1") 1) :=
  ⟨Nat.le_refl 1, readRunLogTail_exact_iff meteredRun 1 (Nat.le_refl 1)⟩

/-- The usage sample is shown as a line of the run's log. -/
theorem usage_shown_as_log : ¬ readRunLogTail (runLogs meteredRun) "r-1" 2 =
    joinLines ((linesOf (ownLog (runLogs meteredRun) "r-1")).rtake 2) := by
  have usage : (runLogs meteredRun).text (usageFileName "r-1") = ['u', '\n'] := by decide +kernel
  have own : ownLog (runLogs meteredRun) "r-1" = ['a', '\n'] := by decide +kernel
  rw [readRunLogTail_eq_iff (runLogs_kept meteredRun) (by decide), usage, own]
  rintro (none | reach)
  · cases none
  · rw [if_neg (List.cons_ne_nil _ _)] at reach
    revert reach
    decide

end Cli
