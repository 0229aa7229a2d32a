import OpenAgentHub.Sdk.Extraction
import Mathlib.Data.List.Forall2

namespace Sdk

/-- An entry of an archive, and the same one as the parser emits it. -/
def Emitted (entry emitted : Entry) : Prop := emitted = entry.buffering emitted.buffered

/-- The first bytes of an entry can be buffered when a file that can hold up the parser stands before it. -/
def Buffers (highWaterMark : Nat) (before : List Entry) (entry : Entry) (amount : Nat) : Prop :=
  amount = 0 ∨
    (amount ≤ entry.data.length ∧ ∃ big ∈ before, big.type = .file ∧ highWaterMark ≤ big.data.length)

variable {highWaterMark : Nat} {heldUp : Bool} {entry out : Entry} {before after rest entries emitted : List Entry}
  {amounts : List Nat} {amount : Nat}

@[simp] theorem buffering_piped : (entry.buffering amount).piped = entry.data.drop amount := rfl

theorem buffering_emitted : Emitted entry (entry.buffering amount) := rfl

theorem emit_nil : emit highWaterMark heldUp [] amounts = some emitted ↔ amounts = [] ∧ emitted = [] := by
  cases amounts with
  | nil => simp [emit, eq_comm]
  | cons amount more => simp [emit]

theorem emit_cons : emit highWaterMark heldUp (entry :: rest) amounts = some emitted ↔
    ∃ amount more others, amounts = amount :: more ∧ (amount = 0 ∨ (heldUp = true ∧ amount ≤ entry.data.length)) ∧
      emit highWaterMark ((entry.buffering amount).holdsUp highWaterMark heldUp) rest more = some others ∧
      emitted = entry.buffering amount :: others := by
  cases amounts with
  | nil => simp [emit]
  | cons amount more =>
    constructor
    · intro emits
      rw [emit] at emits
      split at emits
      · rename_i can
        obtain ⟨others, later, isEmitted⟩ := Option.bind_eq_some_iff.mp emits
        exact ⟨amount, more, others, rfl, can, later, (Option.some.inj isEmitted).symm⟩
      · cases emits
    · rintro ⟨_, _, others, same, can, later, rfl⟩
      cases same
      rw [emit, if_pos can]
      exact Option.bind_eq_some_iff.mpr ⟨others, later, rfl⟩

theorem emit_emitted (emits : emit highWaterMark heldUp entries amounts = some emitted) :
    List.Forall₂ Emitted entries emitted := by
  induction entries generalizing heldUp amounts emitted with
  | nil =>
    rw [(emit_nil.mp emits).2]
    exact .nil
  | cons entry rest ih =>
    obtain ⟨amount, more, others, _, _, later, rfl⟩ := emit_cons.mp emits
    exact .cons buffering_emitted (ih later)

/-- Nothing is lost exactly when nothing is buffered. -/
theorem emit_unlost (emits : emit highWaterMark heldUp entries amounts = some emitted)
    (unlost : List.Forall₂ (fun entry out => out.piped = entry.data) entries emitted) : ∀ amount ∈ amounts, amount = 0 := by
  induction entries generalizing heldUp amounts emitted with
  | nil => simp [(emit_nil.mp emits).1]
  | cons entry rest ih =>
    obtain ⟨amount, more, others, rfl, can, later, rfl⟩ := emit_cons.mp emits
    obtain ⟨first, others⟩ := List.forall₂_cons.mp unlost
    refine List.forall_mem_cons.mpr ⟨?_, ih later others⟩
    rcases can with none | ⟨_, bound⟩
    · exact none
    · have length := congrArg List.length first
      rw [buffering_piped, List.length_drop] at length
      omega

theorem emit_none_buffered (emits : emit highWaterMark heldUp entries amounts = some emitted)
    (none : ∀ amount ∈ amounts, amount = 0) : emitted = entries.map (·.buffering 0) := by
  induction entries generalizing heldUp amounts emitted with
  | nil => exact (emit_nil.mp emits).2
  | cons entry rest ih =>
    obtain ⟨amount, more, others, rfl, _, later, rfl⟩ := emit_cons.mp emits
    obtain ⟨rfl, others⟩ := List.forall_mem_cons.mp none
    rw [List.map_cons, ih later others]

theorem emit_whole : emit highWaterMark heldUp entries (List.replicate entries.length 0) =
    some (entries.map (·.buffering 0)) := by
  induction entries generalizing heldUp with
  | nil => rfl
  | cons entry rest ih =>
    rw [emit_cons]
    exact ⟨0, _, _, rfl, .inl rfl, ih, rfl⟩

theorem buffering_zero (whole : entry.buffered = 0) : entry.buffering 0 = entry := by
  rw [← whole]
  rfl

theorem map_buffering_zero (whole : ∀ entry ∈ entries, entry.buffered = 0) : entries.map (·.buffering 0) = entries := by
  conv => rhs; rw [← List.map_id entries]
  exact List.map_congr_left fun entry isEntry => buffering_zero (whole entry isEntry)

theorem emit_unbuffered (whole : ∀ entry ∈ entries, entry.buffered = 0) :
    emit highWaterMark heldUp entries (List.replicate entries.length 0) = some entries := by
  rw [emit_whole, map_buffering_zero whole]

theorem extracted_whole {host : Host} {limits : UnpackLimits} {destRoot : List String} {disk : Disk} {archive : Archive}
    {schedule : Schedule} {final : Extraction} (whole : ∀ entry ∈ archive.entries, entry.buffered = 0)
    (none : ∀ amount ∈ schedule.buffered, amount = 0)
    (extracts : extracted host limits destRoot disk archive schedule = some final) :
    (extractArchive disk archive).run limits destRoot schedule.events = some final := by
  obtain ⟨emitted, emits, ran⟩ := Option.bind_eq_some_iff.mp extracts
  rwa [emit_none_buffered emits none, map_buffering_zero whole] at ran

theorem big_of_holdsUp (holds : (entry.buffering amount).holdsUp highWaterMark heldUp = true) :
    heldUp = true ∨ (entry.type = .file ∧ highWaterMark ≤ entry.data.length) := by
  simp only [Entry.holdsUp, buffering_piped, List.length_drop, Bool.or_eq_true, Bool.and_eq_true, beq_iff_eq,
    decide_eq_true_eq] at holds
  rcases holds with ⟨isFile, enough⟩ | ⟨held, _⟩
  · exact .inr ⟨isFile, by omega⟩
  · exact .inl held

/-- An entry of which something is buffered stands behind a big file. -/
theorem emit_buffers (emits : emit highWaterMark heldUp entries amounts = some emitted)
    (split : emitted = before ++ entry :: after) :
    ∃ first whole later, entries = first ++ whole :: later ∧ List.Forall₂ Emitted first before ∧ Emitted whole entry ∧
      (Buffers highWaterMark first whole entry.buffered ∨ (heldUp = true ∧ entry.buffered ≤ whole.data.length)) := by
  induction entries generalizing heldUp amounts emitted before with
  | nil =>
    rw [(emit_nil.mp emits).2] at split
    simp at split
  | cons head rest ih =>
    obtain ⟨amount, more, others, _, can, later, rfl⟩ := emit_cons.mp emits
    cases before with
    | nil =>
      obtain ⟨rfl, rfl⟩ := List.cons_eq_cons.mp split
      refine ⟨[], head, rest, rfl, .nil, buffering_emitted, ?_⟩
      rcases can with none | held
      · exact .inl (.inl none)
      · exact .inr held
    | cons first before =>
      obtain ⟨rfl, followed⟩ := List.cons_eq_cons.mp split
      obtain ⟨others, whole, further, rfl, same, isWhole, loses⟩ := ih later followed
      refine ⟨head :: others, whole, further, rfl, .cons buffering_emitted same, isWhole, ?_⟩
      rcases loses with (none | ⟨bound, big, isBig, its⟩) | ⟨holds, bound⟩
      · exact .inl (.inl none)
      · exact .inl (.inr ⟨bound, big, List.mem_cons_of_mem _ isBig, its⟩)
      · rcases big_of_holdsUp holds with held | its
        · exact .inr ⟨held, bound⟩
        · exact .inl (.inr ⟨bound, head, List.mem_cons_self, its⟩)

/-- And behind a big file the first bytes of any entry can be buffered: what stands between is buffered whole. -/
theorem emit_of_buffers (loses : Buffers highWaterMark before entry amount ∨ (heldUp = true ∧ amount ≤ entry.data.length)) :
    ∃ amounts first, List.Forall₂ Emitted before first ∧ emit highWaterMark heldUp (before ++ entry :: after) amounts =
      some (first ++ entry.buffering amount :: after.map (·.buffering 0)) := by
  induction before generalizing heldUp with
  | nil =>
    refine ⟨amount :: List.replicate after.length 0, [], .nil, ?_⟩
    rw [List.nil_append, emit_cons]
    refine ⟨_, _, _, rfl, ?_, emit_whole, rfl⟩
    rcases loses with (none | ⟨_, big, isBig, _⟩) | held
    · exact .inl none
    · cases isBig
    · exact .inr held
  | cons head rest ih =>
    obtain ⟨drop, isDrop⟩ : ∃ drop, drop = if heldUp then head.data.length else 0 := ⟨_, rfl⟩
    have can : drop = 0 ∨ (heldUp = true ∧ drop ≤ head.data.length) := by
      cases heldUp with
      | true => exact .inr ⟨rfl, by simp [isDrop]⟩
      | false => exact .inl (by simp [isDrop])
    have next : Buffers highWaterMark rest entry amount ∨
        ((head.buffering drop).holdsUp highWaterMark heldUp = true ∧ amount ≤ entry.data.length) := by
      rcases loses with (none | ⟨bound, big, isBig, isFile, enough⟩) | ⟨held, bound⟩
      · exact .inl (.inl none)
      · cases heldUp with
        | true => exact .inr ⟨by simp [Entry.holdsUp, isDrop], bound⟩
        | false =>
          rcases List.mem_cons.mp isBig with rfl | later
          · exact .inr ⟨by simp [Entry.holdsUp, isDrop, isFile, enough, Entry.buffering, Entry.piped], bound⟩
          · exact .inl (.inr ⟨bound, big, later, isFile, enough⟩)
      · exact .inr ⟨by simp [Entry.holdsUp, isDrop, held], bound⟩
    obtain ⟨amounts, first, same, emits⟩ := ih next
    refine ⟨drop :: amounts, head.buffering drop :: first, .cons buffering_emitted same, ?_⟩
    rw [List.cons_append, emit_cons]
    exact ⟨drop, amounts, _, rfl, can, emits, rfl⟩

section Blank

variable {limits : UnpackLimits} {destRoot path : List String} {tally : Tally} {disk : Disk} {file : File}

def File.blank (file : File) : File := { file with data := [] }

def Entry.blank (entry : Entry) : Entry := { entry with data := [], buffered := 0 }

def Disk.blank (disk : Disk) : Disk := { disk with files := disk.files.map fun file => (file.1, file.2.blank) }

def Tally.blank (tally : Tally) : Tally := { tally with disk := tally.disk.blank }

theorem Emitted.blank (same : Emitted entry out) : out.blank = entry.blank := by
  rw [Emitted] at same
  rw [same]
  rfl

theorem blank_read : disk.blank.read path = (disk.read path).map File.blank := by
  unfold Disk.read Disk.blank
  dsimp only
  induction disk.files with
  | nil => rfl
  | cons first rest ih =>
    rw [List.map_cons, List.lookup_cons, List.lookup_cons, ih]
    cases path == first.1 <;> rfl

theorem blank_taken : disk.blank.taken path = disk.taken path := by
  unfold Disk.taken
  rw [blank_read, Option.isSome_map]
  rfl

theorem blank_makeDirectory : disk.blank.makeDirectory path = (disk.makeDirectory path).map Disk.blank := by
  unfold Disk.makeDirectory
  simp only [blank_read, Option.isSome_map]
  split <;> rfl

theorem blank_write : (disk.write path file).blank = disk.blank.write path file.blank := by
  simp [Disk.write, Disk.blank]

/-- The handler looks at no data. -/
theorem receive_blank : receive limits destRoot tally.blank entry.blank =
    (receive limits destRoot tally entry).map fun received => (received.1.blank, received.2) := by
  obtain ⟨path, type, size, data, mode, buffered⟩ := entry
  obtain ⟨disk, totalBytes, fileCount⟩ := tally
  show receive limits destRoot ⟨disk.blank, totalBytes, fileCount⟩ ⟨path, type, size, [], mode, 0⟩ = _
  unfold receive
  dsimp only
  cases assertSafeArchivePath (stripLead path) destRoot with
  | error thrown => rfl
  | ok safe =>
    simp only [Outcome.ok_bind]
    cases type with
    | directory =>
      simp only [blank_makeDirectory]
      cases disk.makeDirectory (segments (stripLead path)) <;> rfl
    | other name => rfl
    | file =>
      simp only [blank_makeDirectory]
      by_cases count : fileCount + 1 ≤ limits.maxFiles
      · by_cases single : size ≤ limits.maxSingleFileBytes
        · by_cases total : totalBytes + size ≤ limits.maxTotalBytes
          · simp only [Outcome.ensure_true count, Outcome.ensure_true single, Outcome.ensure_true total, Outcome.ok_bind]
            cases disk.makeDirectory (segments (stripLead path)).dropLast with
            | error thrown => rfl
            | ok disk =>
              simp only [Except.map, Outcome.ok_bind, blank_taken]
              cases disk.taken (segments (stripLead path)) with
              | true => rfl
              | false =>
                simp only [Bool.false_eq_true, if_false, pure, Except.pure, Tally.blank, blank_write]
                rfl
          · simp only [Outcome.ensure_true count, Outcome.ensure_true single, Outcome.ensure_false total, Outcome.ok_bind]
            rfl
        · simp only [Outcome.ensure_true count, Outcome.ensure_false single, Outcome.ok_bind]
          rfl
      · simp only [Outcome.ensure_false count]
        rfl

end Blank

end Sdk
