import OpenAgentHub.Lib.LogFiles

/-! The tail of the daemon's log over its rotated files. -/

namespace Cli

open LogFiles

def LOG_MAX_BYTES : Nat := 5 * 1024 * 1024

def LOG_MAX_FILES : Nat := 3

def CONTROL_LOG : String := "daemon.log"

def rotateLogs (dir : Directory) : Directory := rotate CONTROL_LOG LOG_MAX_BYTES LOG_MAX_FILES dir

def logFilenames (dir : Directory) : List String := listing CONTROL_LOG dir

def tailChunks (dir : Directory) : List String → Nat → List (List Char)
  | [], _ => []
  | file :: rest, remaining =>
    if remaining = 0 then []
    else
      match dir.get file with
      | none => tailChunks dir rest remaining
      | some text =>
        let tail := (linesOf text).rtake remaining
        joinLines tail :: tailChunks dir rest (remaining - tail.length)

def readLogTail (dir : Directory) (lines : Nat) : List Char :=
  let files := (logFilenames dir).reverse
  if files = [] then [] else (joinLines (tailChunks dir files lines)).dropWhile (· == '\n')

/-- The control directory holds no other file under the prefix of the log. -/
abbrev DaemonLogEvent := Event fun name => ¬ Text.startsWith name CONTROL_LOG

def daemonLogs (history : List DaemonLogEvent) : Directory :=
  history.foldl (handle CONTROL_LOG LOG_MAX_BYTES LOG_MAX_FILES) {}

def newestFirst : List String := [generation CONTROL_LOG 0, generation CONTROL_LOG 1, generation CONTROL_LOG 2]

def lastLines (dir : Directory) (lines : Nat) : List (List Char) :=
  (linesOf (retained CONTROL_LOG LOG_MAX_FILES dir)).rtake lines

def fileLines (dir : Directory) (index : Nat) : List (List Char) := linesOf (dir.text (generation CONTROL_LOG index))

def share (dir : Directory) (index newer lines : Nat) : List (List Char) := (fileLines dir index).rtake (lines - newer)

/-- The last lines stay the same when the files that they are in change places,
    and no empty line leads them. -/
structure OrderFree (dir : Directory) (lines : Nat) : Prop where
  symmetric :
    let current := share dir 0 0 lines
    let older := share dir 1 (fileLines dir 0).length lines
    let oldest := share dir 2 ((fileLines dir 0).length + (fileLines dir 1).length) lines
    current ++ older ++ oldest = oldest ++ older ++ current
  led : (lastLines dir lines).length ≤ 1 ∨ (lastLines dir lines).head? ≠ some []

abbrev DaemonLogKept : Directory → Prop := Kept CONTROL_LOG LOG_MAX_FILES fun name => ¬ Text.startsWith name CONTROL_LOG

theorem daemonLogs_kept (history : List DaemonLogEvent) : DaemonLogKept (daemonLogs history) :=
  kept_history (fun _ _ outside => outside startsWith_generation) (by decide) (by decide) history

theorem logFilenames_kept {dir : Directory} (kept : DaemonLogKept dir) :
    logFilenames dir = newestFirst.reverse.filter fun name => (dir.get name).isSome := by
  apply listing_eq
  · decide +kernel
  · intro name member
    simp only [newestFirst, List.mem_reverse, List.mem_cons, List.not_mem_nil, or_false] at member
    rcases member with rfl | rfl | rfl <;> exact startsWith_generation
  · intro name present leads
    rcases kept.known name present with ⟨index, below, rfl⟩ | outside
    · have cases : index = 0 ∨ index = 1 ∨ index = 2 := by
        unfold LOG_MAX_FILES at below
        omega
      rcases cases with rfl | rfl | rfl <;> simp [newestFirst]
    · exact absurd leads outside

def linesRead (dir : Directory) : List String → Nat → List (List Char)
  | [], _ => []
  | file :: rest, remaining =>
    (linesOf (dir.text file)).rtake remaining ++ linesRead dir rest (remaining - (linesOf (dir.text file)).length)

theorem linesRead_zero {dir : Directory} {files : List String} : linesRead dir files 0 = [] := by
  induction files with
  | nil => rfl
  | cons file rest ih => rw [linesRead, Nat.zero_sub, ih, List.rtake_zero, List.append_nil]

theorem tailChunks_filter {dir : Directory} {files : List String} {remaining : Nat} :
    tailChunks dir (files.filter fun name => (dir.get name).isSome) remaining = tailChunks dir files remaining := by
  induction files generalizing remaining with
  | nil => rfl
  | cons file rest ih =>
    cases found : dir.get file with
    | none =>
      rw [List.filter_cons_of_neg (by simp [found]), ih, tailChunks, found]
      split
      · rename_i used
        subst used
        cases rest <;> simp [tailChunks]
      · rfl
    | some text =>
      rw [List.filter_cons_of_pos (by simp [found])]
      simp only [tailChunks, found, ih]

/-- A file without a text adds no line, and one with a text adds at least one. -/
theorem joinLines_tailChunks {dir : Directory} {files : List String} {remaining : Nat}
    (filled : ∀ file ∈ files, dir.get file ≠ some []) :
    joinLines (tailChunks dir files remaining) = joinLines (linesRead dir files remaining) ∧
      (tailChunks dir files remaining = [] ↔ linesRead dir files remaining = []) := by
  induction files generalizing remaining with
  | nil => exact ⟨rfl, Iff.rfl⟩
  | cons file rest ih =>
    have later (count : Nat) := @ih count fun other member => filled other (List.mem_cons_of_mem file member)
    by_cases used : remaining = 0
    · rw [used, linesRead_zero, tailChunks, if_pos rfl]
      exact ⟨rfl, Iff.rfl⟩
    · rw [tailChunks, if_neg used, linesRead, Directory.text]
      cases found : dir.get file with
      | none => simpa [linesOf_nil] using later remaining
      | some text =>
        have some : linesOf text ≠ [] :=
          fun none => filled file List.mem_cons_self (found.trans (congrArg Option.some (linesOf_eq_nil.mp none)))
        have positive := List.length_pos_iff.mpr some
        have tail : (linesOf text).rtake remaining ≠ [] := by
          rw [ne_eq, ← List.length_eq_zero_iff, length_rtake]
          omega
        have count : remaining - ((linesOf text).rtake remaining).length = remaining - (linesOf text).length := by
          rw [length_rtake]
          omega
        obtain ⟨same, empty⟩ := later (remaining - (linesOf text).length)
        simp only [Option.getD_some, count]
        refine ⟨?_, by simp [tail]⟩
        by_cases last : linesRead dir rest (remaining - (linesOf text).length) = []
        · rw [last, empty.mpr last, List.append_nil, joinLines_singleton]
        · rw [joinLines_cons (mt empty.mp last), same, joinLines_append tail last]

theorem readLogTail_kept {dir : Directory} (kept : DaemonLogKept dir) (lines : Nat) :
    readLogTail dir lines = (joinLines (linesRead dir newestFirst lines)).dropWhile (· == '\n') := by
  have chunks : readLogTail dir lines = (joinLines (tailChunks dir newestFirst lines)).dropWhile (· == '\n') := by
    rw [readLogTail, logFilenames_kept kept, ← List.filter_reverse, List.reverse_reverse]
    split
    · rename_i none
      rw [← tailChunks_filter, none]
      rfl
    · rw [tailChunks_filter]
  have rotated : ∀ file ∈ [generation CONTROL_LOG 1, generation CONTROL_LOG 2], dir.get file ≠ some [] := by
    intro file member
    rcases List.mem_cons.mp member with rfl | last
    · exact kept.filled 1 (by decide) (by decide)
    · rw [List.mem_singleton.mp last]
      exact kept.filled 2 (by decide) (by decide)
  rw [chunks, newestFirst]
  by_cases opened : dir.get (generation CONTROL_LOG 0) = some []
  · by_cases used : lines = 0
    · rw [used, linesRead_zero, tailChunks, if_pos rfl]
    · obtain ⟨same, empty⟩ := @joinLines_tailChunks dir _ lines rotated
      rw [tailChunks, if_neg used, opened, linesRead, Directory.text, opened]
      simp only [Option.getD_some, linesOf_nil, List.rtake_nil, List.length_nil, Nat.sub_zero, List.nil_append]
      by_cases last : linesRead dir [generation CONTROL_LOG 1, generation CONTROL_LOG 2] lines = []
      · rw [last, empty.mpr last]
        rfl
      · rw [joinLines_cons (mt empty.mp last), same]
        rfl
  · rw [(joinLines_tailChunks fun file member => ?_).1]
    rcases List.mem_cons.mp member with rfl | later
    · exact opened
    · exact rotated file later

theorem lastLines_kept {dir : Directory} (kept : DaemonLogKept dir) (lines : Nat) :
    lastLines dir lines =
      share dir 2 ((fileLines dir 0).length + (fileLines dir 1).length) lines ++ share dir 1 (fileLines dir 0).length lines ++
        share dir 0 0 lines := by
  have texts : retained CONTROL_LOG LOG_MAX_FILES dir =
      dir.text (generation CONTROL_LOG 2) ++ (dir.text (generation CONTROL_LOG 1) ++ dir.text (generation CONTROL_LOG 0)) := by
    simp [retained, LOG_MAX_FILES, List.range_succ]
  rw [lastLines, texts, linesOf_append (kept.terminated 2 (by decide)), linesOf_append (kept.terminated 1 (by decide)),
    rtake_append, rtake_append, List.length_append, ← List.append_assoc, Nat.add_comm (linesOf _).length]
  rfl

theorem linesRead_kept {dir : Directory} (lines : Nat) :
    linesRead dir newestFirst lines =
      share dir 0 0 lines ++ share dir 1 (fileLines dir 0).length lines ++
        share dir 2 ((fileLines dir 0).length + (fileLines dir 1).length) lines := by
  simp only [newestFirst, linesRead, share, fileLines, Nat.sub_zero, Nat.sub_sub, List.append_nil, List.append_assoc]

theorem readLogTail_eq_iff {dir : Directory} (kept : DaemonLogKept dir) (lines : Nat) :
    readLogTail dir lines = joinLines (lastLines dir lines) ↔ OrderFree dir lines := by
  have read := readLogTail_kept kept lines
  rw [linesRead_kept lines] at read
  have last := lastLines_kept kept lines
  generalize newest : share dir 0 0 lines ++ share dir 1 (fileLines dir 0).length lines ++
        share dir 2 ((fileLines dir 0).length + (fileLines dir 1).length) lines = files at read
  have perm : files.Perm (lastLines dir lines) := by
    rw [← newest, last]
    exact (List.perm_append_comm.trans (List.perm_append_comm.append_left _)).trans (by rw [List.append_assoc])
  have plain : ∀ line ∈ lastLines dir lines, '\n' ∉ line :=
    fun line member => not_mem_linesOf ((List.drop_sublist _ _).subset member)
  have lengths : (joinLines files).length = (joinLines (lastLines dir lines)).length := by
    rw [length_joinLines, length_joinLines, perm.length_eq, (perm.map List.length).sum_nat]
  rw [read]
  constructor
  · intro same
    have whole : (joinLines files).dropWhile (· == '\n') = joinLines files :=
      (List.dropWhile_sublist _).eq_of_length (by rw [same, lengths])
    have joined : joinLines files = joinLines (lastLines dir lines) := whole.symm.trans same
    have equal : files = lastLines dir lines := by
      by_cases empty : files = []
      · rw [empty]
        exact (List.nil_perm.mp (empty ▸ perm)).symm
      · have other : lastLines dir lines ≠ [] := fun none => empty (List.perm_nil.mp (none ▸ perm))
        exact (joinLines_inj (fun line member => plain line (perm.mem_iff.mp member)) plain empty other).mp joined
    refine ⟨?_, (dropWhile_joinLines plain).mp (equal ▸ whole)⟩
    exact newest.trans (equal.trans last)
  · rintro ⟨symmetric, led⟩
    have equal : files = lastLines dir lines := newest.symm.trans (symmetric.trans last.symm)
    rw [equal]
    exact (dropWhile_joinLines plain).mpr led

def restartedHistory : List DaemonLogEvent :=
  [.append ⟨List.replicate LOG_MAX_BYTES 'x' ++ ['\n'], .inr (by rw [List.getLast?_concat])⟩, .rotate,
    .append ⟨['c', '\n'], .inr rfl⟩]

theorem restarted_texts : (daemonLogs restartedHistory).text (generation CONTROL_LOG 0) = ['c', '\n'] ∧
    (daemonLogs restartedHistory).text (generation CONTROL_LOG 1) = List.replicate LOG_MAX_BYTES 'x' ++ ['\n'] ∧
    (daemonLogs restartedHistory).text (generation CONTROL_LOG 2) = [] := by
  let full : Directory := Directory.append {} CONTROL_LOG (List.replicate LOG_MAX_BYTES 'x' ++ ['\n'])
  have found : full.get CONTROL_LOG = some (List.replicate LOG_MAX_BYTES 'x' ++ ['\n']) :=
    Directory.get_append.trans (if_pos rfl)
  have ascii : ∀ char ∈ List.replicate LOG_MAX_BYTES 'x' ++ ['\n'], char.toNat < 128 := by
    intro char member
    rcases List.mem_append.mp member with filling | last
    · rw [List.eq_of_mem_replicate filling]
      decide
    · rw [List.mem_singleton.mp last]
      decide
  have reached : LOG_MAX_BYTES ≤ size (List.replicate LOG_MAX_BYTES 'x' ++ ['\n']) := by
    rw [size_ascii ascii, List.length_append, List.length_replicate]
    exact Nat.le_add_right _ _
  have apart : generation CONTROL_LOG 1 ≠ CONTROL_LOG := generation_ne (show 1 ≠ 0 by decide)
  obtain ⟨first, later, _⟩ := rotate_reached found reached (show 1 < LOG_MAX_FILES by decide)
  have ends : daemonLogs restartedHistory =
      (rotate CONTROL_LOG LOG_MAX_BYTES LOG_MAX_FILES full).append (generation CONTROL_LOG 0) ['c', '\n'] := rfl
  refine ⟨?_, ?_, ?_⟩
  · rw [ends, Directory.text, Directory.get_append, if_pos rfl, Directory.text, first]
    rfl
  · rw [ends, Directory.text, Directory.get_append, if_neg (generation_ne (by decide)), later 0 (by decide),
      show generation CONTROL_LOG 0 = CONTROL_LOG from rfl, found]
    rfl
  · rw [ends, Directory.text, Directory.get_append, if_neg (generation_ne (by decide)), later 1 (by decide),
      Directory.get_append, if_neg apart]
    rfl

theorem readLogTail_exact_iff (history : List DaemonLogEvent) (lines : Nat) :
    readLogTail (daemonLogs history) lines = joinLines (lastLines (daemonLogs history) lines) ↔
      OrderFree (daemonLogs history) lines :=
  readLogTail_eq_iff (daemonLogs_kept history) lines

/-- The line that was written last is shown before the older one. -/
theorem restarted_tail_reversed : ¬ readLogTail (daemonLogs restartedHistory) 2 =
    joinLines (lastLines (daemonLogs restartedHistory) 2) := by
  intro same
  have symmetric := ((readLogTail_eq_iff (daemonLogs_kept restartedHistory) 2).mp same).symmetric
  obtain ⟨current, older, oldest⟩ := restarted_texts
  have filling : '\n' ∉ List.replicate LOG_MAX_BYTES 'x' := by
    rw [List.mem_replicate]
    decide
  have rotated : linesOf (List.replicate LOG_MAX_BYTES 'x' ++ ['\n']) = [List.replicate LOG_MAX_BYTES 'x'] := by
    rw [linesOf_line, List.splitOn_eq_singleton filling]
    rfl
  have written : linesOf ['c', '\n'] = [['c']] := rfl
  have none : linesOf [] = [] := rfl
  have newest : share (daemonLogs restartedHistory) 0 0 2 = [['c']] := by
    rw [share, fileLines, current, written]
    rfl
  have before : share (daemonLogs restartedHistory) 1 1 2 = [List.replicate LOG_MAX_BYTES 'x'] := by
    rw [share, fileLines, older, rotated]
    rfl
  have last : share (daemonLogs restartedHistory) 2 2 2 = [] := by
    rw [share, fileLines, oldest, none, List.rtake_nil]
  have counts : (fileLines (daemonLogs restartedHistory) 0).length = 1 ∧
      (fileLines (daemonLogs restartedHistory) 1).length = 1 := by
    rw [fileLines, fileLines, current, older, written, rotated]
    exact ⟨rfl, rfl⟩
  rw [counts.1, counts.2] at symmetric
  dsimp only at symmetric
  rw [newest, before, last] at symmetric
  have heads : ['c'] = List.replicate LOG_MAX_BYTES 'x' := (List.cons.inj symmetric).1
  have member : 'c' ∈ List.replicate LOG_MAX_BYTES 'x' := heads ▸ List.mem_cons_self
  exact absurd (List.eq_of_mem_replicate member) (by decide)

end Cli
