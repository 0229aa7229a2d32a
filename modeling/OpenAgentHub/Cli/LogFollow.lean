import OpenAgentHub.Cli.RunLog

/-! Following a log that grows, one system call at a time. -/

namespace Cli

open LogFiles

/-- A file that is only appended to; its identity is the device and the inode. -/
structure GrowingFile where
  identity : String
  bytes : List UInt8
  deriving DecidableEq

structure LogFollowState where
  offset : Nat
  identity : String
  deriving DecidableEq

def initLogFollow (file : GrowingFile) : LogFollowState := { offset := file.bytes.length, identity := file.identity }

inductive Poll
  | idle
  | statted (size offset : Nat) (identity : String)
  | opened (size offset : Nat) (identity : String)
  | read (identity : String) (line : Option (List Char))
  deriving DecidableEq

structure Following where
  file : GrowingFile
  state : LogFollowState
  poll : Poll := .idle
  /-- The chunks that the polls have delivered. -/
  delivered : List (List Char) := []
  deriving DecidableEq

/-- `readLogFollow`, up to and including its next system call. -/
def readLogFollow (run : Following) : Following :=
  match run.poll with
  | .idle =>
    let identity := run.file.identity
    let size := run.file.bytes.length
    let offset := if identity ≠ run.state.identity ∨ size < run.state.offset then 0 else run.state.offset
    if size ≤ offset then { run with state := { offset, identity } } else { run with poll := .statted size offset identity }
  | .statted size offset identity => { run with poll := .opened size offset identity }
  | .opened size offset identity =>
    let buffer := (run.file.bytes.drop offset).take (size - offset)
    let line := if 0 < buffer.length then some (chomp (Utf8.decodeReplace buffer)) else none
    { run with poll := .read identity line }
  | .read identity line =>
    { run with
      state := { offset := run.file.bytes.length, identity }
      poll := .idle
      delivered := run.delivered ++ line.toList }

inductive FollowEvent
  | append (bytes : List UInt8)
  | advance

def handleFollow (run : Following) : FollowEvent → Following
  | .append bytes => { run with file := { run.file with bytes := run.file.bytes ++ bytes } }
  | .advance => readLogFollow run

def startFollowing (file : GrowingFile) : Following := { file, state := initLogFollow file }

def Strips (bytes : List UInt8) (line : List Char) : Prop :=
  bytes = Utf8.encode line ∨ bytes = Utf8.encode (line ++ ['\n'])

/-- Between two polls, the chunks are the bytes from the first offset to the current one. -/
def DeliversAll (first : Nat) (run : Following) : Prop :=
  run.poll = .idle → ∃ chunks, chunks.flatten = (run.file.bytes.take run.state.offset).drop first ∧
    List.Forall₂ Strips chunks run.delivered

/-- Nothing is appended while a poll is between its calls, and what it reads is UTF-8. -/
def Undisturbed (run : Following) : FollowEvent → Prop
  | .append bytes => run.poll = .idle ∨ bytes = []
  | .advance => ∀ size offset identity, run.poll = .opened size offset identity →
      ∃ text, (run.file.bytes.drop offset).take (size - offset) = Utf8.encode text

structure Gathered (first : Nat) (run : Following) : Prop where
  same : run.state.identity = run.file.identity
  started : first ≤ run.state.offset
  within : run.state.offset ≤ run.file.bytes.length
  chunks : ∃ chunks, chunks.flatten = (run.file.bytes.take run.state.offset).drop first ∧
    List.Forall₂ Strips chunks run.delivered

def Current (run : Following) : Prop :=
  match run.poll with
  | .idle => True
  | .statted size offset identity | .opened size offset identity =>
    size = run.file.bytes.length ∧ offset = run.state.offset ∧ identity = run.file.identity ∧ offset < size
  | .read identity line =>
    identity = run.file.identity ∧ ∃ text, line = some text ∧ Strips (run.file.bytes.drop run.state.offset) text

theorem strips_chomp (text : List Char) : Strips (Utf8.encode text) (chomp text) := by
  unfold chomp
  split
  · rename_i ends
    obtain ⟨lines, rfl⟩ := List.getLast?_eq_some_iff.mp ends
    rw [List.dropLast_concat]
    exact .inr rfl
  · exact .inl rfl

theorem Gathered.append {first : Nat} {run : Following} (gathered : Gathered first run) (bytes : List UInt8) :
    Gathered first (handleFollow run (.append bytes)) where
  same := gathered.same
  started := gathered.started
  within := by
    rw [handleFollow, List.length_append]
    exact gathered.within.trans (Nat.le_add_right _ _)
  chunks := by
    obtain ⟨chunks, all, strips⟩ := gathered.chunks
    refine ⟨chunks, ?_, strips⟩
    rw [handleFollow, List.take_append_of_le_length gathered.within]
    exact all

theorem gathered_append {first : Nat} {run : Following} {bytes : List UInt8} (gathered : Gathered first run)
    (current : Current run) (undisturbed : Undisturbed run (.append bytes)) :
    Gathered first (handleFollow run (.append bytes)) ∧ Current (handleFollow run (.append bytes)) := by
  refine ⟨gathered.append bytes, ?_⟩
  rcases undisturbed with idle | rfl
  · simp only [Current, handleFollow, idle]
  · rwa [handleFollow, List.append_nil]

theorem gathered_advance {first : Nat} {run : Following} (gathered : Gathered first run) (current : Current run)
    (undisturbed : Undisturbed run .advance) :
    Gathered first (handleFollow run .advance) ∧ Current (handleFollow run .advance) := by
  obtain ⟨⟨identity, bytes⟩, ⟨offset, known⟩, poll, delivered⟩ := run
  obtain ⟨same, started, within, chunks, all, strips⟩ := gathered
  dsimp only at same started within all strips
  subst same
  cases poll with
  | idle =>
    have kept : ¬ (known ≠ known ∨ bytes.length < offset) := by simp [within]
    simp only [handleFollow, readLogFollow, if_neg kept]
    split
    · exact ⟨⟨rfl, started, within, chunks, all, strips⟩, trivial⟩
    · rename_i more
      exact ⟨⟨rfl, started, within, chunks, all, strips⟩, rfl, rfl, rfl, Nat.lt_of_not_le more⟩
  | statted size start opened => exact ⟨⟨rfl, started, within, chunks, all, strips⟩, current⟩
  | opened size start opened =>
    obtain ⟨isSize, isOffset, isFile, more⟩ := current
    dsimp only at isSize isOffset isFile
    subst isSize isOffset isFile
    refine ⟨⟨rfl, started, within, chunks, all, strips⟩, rfl, ?_⟩
    obtain ⟨text, encoded⟩ := undisturbed _ _ _ rfl
    have whole : (bytes.drop start).take (bytes.length - start) = bytes.drop start :=
      List.take_of_length_le (Nat.le_of_eq List.length_drop)
    have some : 0 < (bytes.drop start).length := by
      rw [List.length_drop]
      exact Nat.sub_pos_of_lt more
    dsimp only at encoded ⊢
    rw [whole] at encoded ⊢
    rw [if_pos some, encoded, Utf8.decodeReplace_encode]
    refine ⟨chomp text, rfl, ?_⟩
    show Strips (bytes.drop start) (chomp text)
    rw [encoded]
    exact strips_chomp text
  | read opened line =>
    obtain ⟨isFile, text, isText, stripped⟩ := current
    dsimp only at isFile stripped
    subst isFile isText
    refine ⟨⟨rfl, started.trans within, Nat.le_refl _, chunks ++ [bytes.drop offset], ?_, ?_⟩, trivial⟩
    · have shorter : first ≤ (bytes.take offset).length := by
        rw [List.length_take]
        omega
      show (chunks ++ [bytes.drop offset]).flatten = (bytes.take bytes.length).drop first
      rw [List.flatten_append, all, List.flatten_singleton, ← List.drop_append_of_le_length shorter,
        List.take_append_drop, List.take_length]
    · exact List.rel_append strips (List.Forall₂.cons stripped List.Forall₂.nil)

theorem gathered_start (file : GrowingFile) :
    Gathered file.bytes.length (startFollowing file) ∧ Current (startFollowing file) := by
  refine ⟨⟨rfl, Nat.le_refl _, Nat.le_refl _, [], ?_, List.Forall₂.nil⟩, trivial⟩
  show [] = (file.bytes.take file.bytes.length).drop file.bytes.length
  rw [List.take_length, List.drop_length]

/-- In a run that nothing disturbs, every poll ends with the chunks so far being the bytes so far. -/
theorem follow_delivers_all (file : GrowingFile) (events : List FollowEvent)
    (undisturbed : Runs.AllMeet handleFollow Undisturbed (startFollowing file) events) :
    Runs.Along handleFollow (DeliversAll file.bytes.length) (startFollowing file) events := by
  have along : Runs.Along handleFollow (fun run => Gathered file.bytes.length run ∧ Current run) (startFollowing file) events := by
    apply undisturbed.along (gathered_start file)
    rintro run event ⟨gathered, current⟩ meets
    cases event with
    | append bytes => exact gathered_append gathered current meets
    | advance => exact gathered_advance gathered current meets
  exact along.imp fun run holds _ => holds.1.chunks

def quietFollow : List FollowEvent := [.append [0x61, 0x0A], .advance, .advance, .advance, .advance]

theorem follow_delivers_all_quiet :
    Runs.AllMeet handleFollow Undisturbed (startFollowing { identity := "1:2", bytes := [] }) quietFollow ∧
      Runs.Along handleFollow (DeliversAll 0) (startFollowing { identity := "1:2", bytes := [] }) quietFollow := by
  have met : Runs.AllMeet handleFollow Undisturbed (startFollowing { identity := "1:2", bytes := [] }) quietFollow := by
    refine ⟨.inl rfl, ?_, ?_, ?_, ?_, trivial⟩
    · rintro size offset identity other
      cases other
    · rintro size offset identity other
      cases other
    · rintro size offset identity same
      cases same
      exact ⟨['a', '\n'], by decide⟩
    · rintro size offset identity other
      cases other
  exact ⟨met, follow_delivers_all { identity := "1:2", bytes := [] } quietFollow met⟩

def lateAppend : List FollowEvent :=
  [.append [0x61], .advance, .advance, .advance, .append [0x62], .advance]

theorem late_byte_lost :
    ¬ Runs.Along handleFollow (DeliversAll 0) (startFollowing { identity := "1:2", bytes := [] }) lateAppend := by
  intro along
  obtain ⟨chunks, all, strips⟩ := along.final rfl
  have ends : (lateAppend.foldl handleFollow (startFollowing { identity := "1:2", bytes := [] })).delivered = [['a']] := by
    decide +kernel
  rw [ends] at strips
  obtain ⟨chunk, none, stripped, last, rfl⟩ := List.forall₂_cons_right_iff.mp strips
  rw [List.forall₂_nil_right_iff.mp last, List.flatten_singleton] at all
  have bytes : chunk = [0x61, 0x62] := all
  rcases stripped with whole | broken
  · exact absurd (whole.symm.trans bytes) (by decide)
  · exact absurd (broken.symm.trans bytes) (by decide)

end Cli
