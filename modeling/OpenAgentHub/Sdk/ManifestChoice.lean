import OpenAgentHub.Sdk.Buffering
import OpenAgentHub.Registry.Packages.Host

namespace Sdk

def accept (limits : UnpackLimits) (destRoot : List String) (tally : Tally) (entry : Entry) : Option Tally :=
  match receive limits destRoot tally entry with
  | .ok (tally, none) => some tally
  | .ok (tally, some stream) => if stream.doomed then none else some tally
  | .error _ => none

def acceptAll (limits : UnpackLimits) (destRoot : List String) (tally : Tally) (entries : List Entry) : Option Tally :=
  entries.foldlM (accept limits destRoot) tally

def Entry.stream (entry : Entry) : Option WriteStream :=
  match entry.type with
  | .file => some ⟨stripLead entry.path, false⟩
  | _ => none

def Entry.isCandidate (entry : Entry) : Prop :=
  entry.type = .file ∧ isManifestName (baseName (stripLead entry.path)) = true

section Receiving

variable {limits : UnpackLimits} {destRoot : List String} {tally after : Tally} {entry : Entry} {entries : List Entry}

theorem receive_cases {stream : Option WriteStream} (received : receive limits destRoot tally entry = .ok (after, stream)) :
    (entry.type = .directory ∧ stream = none ∧ after.disk.files = tally.disk.files) ∨
      (entry.type = .file ∧ stream = some ⟨stripLead entry.path, true⟩ ∧ after.disk.files = tally.disk.files) ∨
      (entry.type = .file ∧ stream = some ⟨stripLead entry.path, false⟩ ∧
        tally.disk.read (segments (stripLead entry.path)) = none ∧
        after.disk.files = tally.disk.files ++
          [(segments (stripLead entry.path), ⟨entry.piped, sanitizeMode entry.mode⟩)]) := by
  have made : ∀ {disk : Disk} {path : List String}, tally.disk.makeDirectory path = .ok disk →
      disk.files = tally.disk.files := by
    intro disk path done
    unfold Disk.makeDirectory at done
    split at done
    · cases done
    · cases done
      rfl
  unfold receive at received
  simp only [Outcome.bind_eq_ok] at received
  obtain ⟨_, _, received⟩ := received
  split at received
  · rename_i type
    simp only [Outcome.bind_eq_ok, Outcome.pure_eq_ok, Prod.mk.injEq] at received
    obtain ⟨disk, directory, rfl, rfl⟩ := received
    exact .inl ⟨type, rfl, made directory⟩
  · cases received
  · rename_i type
    simp only [Outcome.bind_eq_ok, Outcome.ensure_eq_ok] at received
    obtain ⟨_, _, _, _, _, _, disk, directory, received⟩ := received
    split at received
    · cases received
      exact .inr (.inl ⟨type, rfl, made directory⟩)
    · rename_i free
      cases received
      refine .inr (.inr ⟨type, rfl, ?_, ?_⟩)
      · unfold Disk.taken Disk.read at free
        rw [made directory] at free
        simp only [Bool.or_eq_true, not_or, Option.not_isSome_iff_eq_none] at free
        exact free.1.2
      · change disk.files ++ _ = _
        rw [made directory]

theorem accept_eq_some (accepted : accept limits destRoot tally entry = some after) :
    receive limits destRoot tally entry = .ok (after, entry.stream) := by
  unfold accept at accepted
  split at accepted
  · rename_i received
    cases accepted
    rcases receive_cases received with ⟨type, _, _⟩ | ⟨_, isNone, _⟩ | ⟨_, isNone, _⟩
    · rw [received, Entry.stream, type]
    · cases isNone
    · cases isNone
  · rename_i stream received
    split at accepted
    · cases accepted
    · rename_i undoomed
      cases accepted
      rcases receive_cases received with ⟨_, isSome, _⟩ | ⟨_, isStream, _⟩ | ⟨type, isStream, _⟩
      · cases isSome
      · cases isStream
        exact absurd rfl undoomed
      · rw [received, isStream, Entry.stream, type]
  · cases accepted

theorem accept_keeps {path : List String} {file : File} (accepted : accept limits destRoot tally entry = some after)
    (present : tally.disk.read path = some file) : after.disk.read path = some file := by
  unfold Disk.read at present ⊢
  rcases receive_cases (accept_eq_some accepted) with ⟨_, _, files⟩ | ⟨_, _, files⟩ | ⟨_, _, _, files⟩
  · rw [files]
    exact present
  · rw [files]
    exact present
  · rw [files, List.lookup_append, present]
    rfl

theorem accept_writes (accepted : accept limits destRoot tally entry = some after) (type : entry.type = .file) :
    after.disk.read (segments (stripLead entry.path)) = some ⟨entry.piped, sanitizeMode entry.mode⟩ := by
  have received := accept_eq_some accepted
  rw [Entry.stream, type] at received
  rcases receive_cases received with ⟨_, isNone, _⟩ | ⟨_, isDoomed, _⟩ | ⟨_, _, free, files⟩
  · cases isNone
  · cases isDoomed
  · unfold Disk.read at free ⊢
    rw [files, List.lookup_append, free]
    simp

theorem acceptAll_keeps {path : List String} {file : File} (accepted : acceptAll limits destRoot tally entries = some after)
    (present : tally.disk.read path = some file) : after.disk.read path = some file := by
  induction entries generalizing tally with
  | nil =>
    cases accepted
    exact present
  | cons entry rest ih =>
    rw [acceptAll, List.foldlM_cons] at accepted
    obtain ⟨middle, first, accepted⟩ := Option.bind_eq_some_iff.mp accepted
    exact ih accepted (accept_keeps first present)

theorem acceptAll_writes (accepted : acceptAll limits destRoot tally entries = some after) (present : entry ∈ entries)
    (type : entry.type = .file) :
    after.disk.read (segments (stripLead entry.path)) = some ⟨entry.piped, sanitizeMode entry.mode⟩ := by
  induction entries generalizing tally with
  | nil => cases present
  | cons head rest ih =>
    rw [acceptAll, List.foldlM_cons] at accepted
    obtain ⟨middle, first, restAccepted⟩ := Option.bind_eq_some_iff.mp accepted
    rcases List.mem_cons.mp present with rfl | later
    · exact acceptAll_keeps restAccepted (accept_writes first type)
    · exact ih restAccepted later

theorem acceptAll_append {first second : List Entry} : acceptAll limits destRoot tally (first ++ second) =
    (acceptAll limits destRoot tally first).bind fun middle => acceptAll limits destRoot middle second := by
  unfold acceptAll
  rw [List.foldlM_append]
  rfl

theorem accept_blank : accept limits destRoot tally.blank entry.blank = (accept limits destRoot tally entry).map Tally.blank := by
  unfold accept
  rw [receive_blank]
  cases receive limits destRoot tally entry with
  | error thrown => rfl
  | ok received =>
    obtain ⟨after, stream⟩ := received
    cases stream with
    | none => rfl
    | some stream => cases doomed : stream.doomed <;> simp [Except.map, doomed]

theorem acceptAll_blank : acceptAll limits destRoot tally.blank (entries.map Entry.blank) =
    (acceptAll limits destRoot tally entries).map Tally.blank := by
  induction entries generalizing tally with
  | nil => rfl
  | cons entry rest ih =>
    unfold acceptAll at ih ⊢
    rw [List.map_cons, List.foldlM_cons, List.foldlM_cons, accept_blank]
    cases accept limits destRoot tally entry with
    | none => rfl
    | some middle => exact ih

theorem acceptAll_emitted {emitted : List Entry} (same : List.Forall₂ Emitted entries emitted) :
    (acceptAll limits destRoot tally emitted).map Tally.blank = (acceptAll limits destRoot tally entries).map Tally.blank := by
  have blanks : emitted.map Entry.blank = entries.map Entry.blank := by
    induction same with
    | nil => rfl
    | cons first _ ih => rw [List.map_cons, List.map_cons, first.blank, ih]
  rw [← acceptAll_blank, ← acceptAll_blank, blanks]

theorem acceptAll_emitted_isSome {emitted : List Entry} (same : List.Forall₂ Emitted entries emitted) :
    (acceptAll limits destRoot tally emitted).isSome = (acceptAll limits destRoot tally entries).isSome := by
  have blanks : ((acceptAll limits destRoot tally emitted).map Tally.blank).isSome = _ :=
    congrArg Option.isSome (acceptAll_emitted same)
  rwa [Option.isSome_map, Option.isSome_map] at blanks

end Receiving

def Resolved (limits : UnpackLimits) (destRoot : List String) (disk : Disk) (archive : Archive)
    (candidates : List String) (after : Disk) : Prop :=
  ∃ consumed rest tally, archive.entries = consumed ++ rest ∧
    acceptAll limits destRoot { disk } consumed = some tally ∧ tally.disk = after ∧
    ∀ path ∈ candidates, ∃ entry ∈ consumed, entry.isCandidate ∧ stripLead entry.path = path

structure Unsettled (limits : UnpackLimits) (destRoot : List String) (disk : Disk) (archive : Archive)
    (consumed : List Entry) (extraction : Extraction) : Prop where
  entries : archive.entries = consumed ++ extraction.incoming
  accepted : (∃ stream ∈ extraction.pending, stream.doomed = true) ∨
    acceptAll limits destRoot { disk } consumed = some extraction.tally
  pending : ∀ stream ∈ extraction.pending, ∃ entry ∈ consumed, entry.type = .file ∧ stripLead entry.path = stream.path
  candidates : ∀ path ∈ extraction.manifestCandidates, ∃ entry ∈ consumed, entry.isCandidate ∧ stripLead entry.path = path

def Sound (limits : UnpackLimits) (destRoot : List String) (disk : Disk) (archive : Archive) (extraction : Extraction) :
    Prop :=
  match extraction.settled with
  | none => ∃ consumed, Unsettled limits destRoot disk archive consumed extraction
  | some (.ok (candidates, after)) => Resolved limits destRoot disk archive candidates after
  | some (.error _) => True

section Events

variable {limits : UnpackLimits} {destRoot : List String} {disk : Disk} {archive : Archive}
  {extraction next : Extraction} {consumed : List Entry}

theorem Sound.of_settled {settled : Except Thrown (List String × Disk)}
    (sound : Sound limits destRoot disk archive extraction) (isSettled : extraction.settled = some settled)
    (same : next.settled = some settled) : Sound limits destRoot disk archive next := by
  unfold Sound at sound ⊢
  rw [isSettled] at sound
  rw [same]
  cases settled with
  | ok resolved => exact sound
  | error thrown => trivial

theorem fail_sound (error : Thrown) (sound : Sound limits destRoot disk archive extraction) :
    Sound limits destRoot disk archive (extraction.fail error) := by
  unfold Extraction.fail
  split
  · exact sound
  · trivial

theorem finish_sound (sound : Sound limits destRoot disk archive extraction) :
    Sound limits destRoot disk archive extraction.finish := by
  unfold Extraction.finish
  split
  · exact sound
  · rename_i unsettled
    split
    · rename_i idle
      have isNone : extraction.settled = none := by simpa using unsettled
      rw [Sound, isNone] at sound
      obtain ⟨consumed, sound⟩ := sound
      -- with no write pending, none has failed either
      have accepted : acceptAll limits destRoot { disk } consumed = some extraction.tally := by
        refine sound.accepted.resolve_left ?_
        rintro ⟨stream, present, _⟩
        rw [idle] at present
        cases present
      exact ⟨consumed, extraction.incoming, extraction.tally, sound.entries, accepted, rfl, sound.candidates⟩
    · exact sound

theorem onEntry_sound {entry : Entry} {rest : List Entry} (sound : Sound limits destRoot disk archive extraction)
    (incoming : extraction.incoming = entry :: rest) :
    Sound limits destRoot disk archive (extraction.onEntry limits destRoot entry rest) := by
  cases settled : extraction.settled with
  | some outcome =>
    refine sound.of_settled settled ?_
    unfold Extraction.onEntry Extraction.fail
    split
    · simp [settled]
    · exact settled
  | none =>
    rw [Sound, settled] at sound
    obtain ⟨consumed, sound⟩ := sound
    unfold Extraction.onEntry
    split
    · unfold Extraction.fail
      simp only [settled, Option.isSome_none, Bool.false_eq_true, if_false]
      trivial
    · rename_i tally stream received
      rw [Sound]
      simp only [settled]
      refine ⟨consumed ++ [entry], ?_, ?_, ?_, ?_⟩
      · rw [sound.entries, incoming]
        simp
      · rcases sound.accepted with ⟨doomed, present, isDoomed⟩ | accepted
        · exact .inl ⟨doomed, List.mem_append_left _ present, isDoomed⟩
        · rcases receive_cases received with ⟨_, rfl, _⟩ | ⟨_, rfl, _⟩ | ⟨_, rfl, _, _⟩
          · refine .inr ?_
            rw [acceptAll_append, accepted]
            simp [acceptAll, accept, received]
          · exact .inl ⟨_, List.mem_append_right _ (List.mem_singleton_self _), rfl⟩
          · refine .inr ?_
            rw [acceptAll_append, accepted]
            simp [acceptAll, accept, received]
      · intro other present
        rcases List.mem_append.mp present with old | new
        · obtain ⟨entry, came, its⟩ := sound.pending other old
          exact ⟨entry, List.mem_append_left _ came, its⟩
        · refine ⟨entry, by simp, ?_⟩
          rcases receive_cases received with ⟨_, rfl, _⟩ | ⟨type, rfl, _⟩ | ⟨type, rfl, _, _⟩
          · cases new
          · rw [List.mem_singleton.mp new]
            exact ⟨type, rfl⟩
          · rw [List.mem_singleton.mp new]
            exact ⟨type, rfl⟩
      · intro path present
        obtain ⟨entry, came, its⟩ := sound.candidates path present
        exact ⟨entry, List.mem_append_left _ came, its⟩

theorem onFinish_sound {index : Nat} {path : String} (sound : Sound limits destRoot disk archive extraction)
    (present : extraction.pending[index]? = some ⟨path, false⟩) :
    Sound limits destRoot disk archive (extraction.onFinish index path) := by
  unfold Extraction.onFinish
  apply finish_sound
  cases settled : extraction.settled with
  | some outcome => exact sound.of_settled settled rfl
  | none =>
    rw [Sound, settled] at sound
    obtain ⟨consumed, sound⟩ := sound
    refine ⟨consumed, sound.entries, ?_, ?_, ?_⟩
    · rcases sound.accepted with ⟨doomed, pending, isDoomed⟩ | accepted
      · refine .inl ⟨doomed, ?_, isDoomed⟩
        obtain ⟨place, its⟩ := List.mem_iff_getElem?.mp pending
        refine List.mem_eraseIdx_iff_getElem?.mpr ⟨place, ?_, its⟩
        rintro rfl
        rw [present] at its
        cases its
        cases isDoomed
      · exact .inr accepted
    · intro stream pending
      exact sound.pending stream (List.mem_of_mem_eraseIdx pending)
    · intro candidate isCandidate
      rcases List.mem_append.mp isCandidate with old | new
      · exact sound.candidates candidate old
      · split at new
        · rename_i named
          rw [List.mem_singleton.mp new]
          obtain ⟨entry, came, type, its⟩ := sound.pending _ (List.mem_of_getElem? present)
          refine ⟨entry, came, ⟨type, ?_⟩, its⟩
          rw [its]
          exact named
        · cases new

theorem step_cases {event : Event} (stepped : extraction.step limits destRoot event = some next) :
    (∃ entry rest, event = .entry ∧ extraction.incoming = entry :: rest ∧
        next = extraction.onEntry limits destRoot entry rest) ∨
      (∃ index path, event = .finish index ∧ extraction.pending[index]? = some ⟨path, false⟩ ∧
        next = extraction.onFinish index path) ∨
      (∃ index path error, event = .error index ∧ extraction.pending[index]? = some ⟨path, true⟩ ∧
        next = extraction.fail error) ∨
      (event = .end ∧ extraction.incoming = [] ∧ extraction.corrupt = none ∧ next = extraction.finish) ∨
      (∃ error, event = .end ∧ extraction.incoming = [] ∧ extraction.corrupt = some error ∧
        next = extraction.fail error) := by
  unfold Extraction.step at stepped
  split at stepped
  · split at stepped
    · rename_i entry rest incoming
      cases stepped
      exact .inl ⟨entry, rest, rfl, incoming, rfl⟩
    · cases stepped
  · rename_i index
    split at stepped
    · rename_i path present
      cases stepped
      exact .inr (.inl ⟨index, path, rfl, present, rfl⟩)
    · cases stepped
  · rename_i index
    split at stepped
    · rename_i path present
      cases stepped
      exact .inr (.inr (.inl ⟨index, path, _, rfl, present, rfl⟩))
    · cases stepped
  · split at stepped
    · rename_i drained intact
      cases stepped
      exact .inr (.inr (.inr (.inl ⟨rfl, drained, intact, rfl⟩)))
    · rename_i error drained corrupt
      cases stepped
      exact .inr (.inr (.inr (.inr ⟨error, rfl, drained, corrupt, rfl⟩)))
    · cases stepped

theorem step_sound {event : Event} (sound : Sound limits destRoot disk archive extraction)
    (stepped : extraction.step limits destRoot event = some next) : Sound limits destRoot disk archive next := by
  rcases step_cases stepped with ⟨entry, rest, _, incoming, rfl⟩ | ⟨index, path, _, present, rfl⟩ |
    ⟨_, _, error, _, _, rfl⟩ | ⟨_, _, _, rfl⟩ | ⟨error, _, _, _, rfl⟩
  · exact onEntry_sound sound incoming
  · exact onFinish_sound sound present
  · exact fail_sound error sound
  · exact finish_sound sound
  · exact fail_sound error sound

theorem run_invariant {events : List Event} (holds : Extraction → Prop)
    (kept : ∀ before event after, holds before → before.step limits destRoot event = some after → holds after)
    (initial : holds extraction) (ran : extraction.run limits destRoot events = some next) : holds next := by
  induction events generalizing extraction with
  | nil =>
    cases ran
    exact initial
  | cons event rest ih =>
    rw [Extraction.run, List.foldlM_cons] at ran
    obtain ⟨middle, stepped, ran⟩ := Option.bind_eq_some_iff.mp ran
    exact ih (kept extraction event middle initial stepped) ran

theorem run_sound {events : List Event} (sound : Sound limits destRoot disk archive extraction)
    (ran : extraction.run limits destRoot events = some next) : Sound limits destRoot disk archive next :=
  run_invariant (Sound limits destRoot disk archive) (fun _ _ _ => step_sound) sound ran

end Events

section Schedules

variable {limits : UnpackLimits} {destRoot : List String}

theorem run_cons {extraction middle : Extraction} {event : Event} {events : List Event}
    (stepped : extraction.step limits destRoot event = some middle) :
    extraction.run limits destRoot (event :: events) = middle.run limits destRoot events := by
  rw [Extraction.run, List.foldlM_cons, stepped]
  rfl

theorem run_append {extraction middle : Extraction} {first second : List Event}
    (ran : extraction.run limits destRoot first = some middle) :
    extraction.run limits destRoot (first ++ second) = middle.run limits destRoot second := by
  rw [Extraction.run] at ran
  rw [Extraction.run, List.foldlM_append, ran]
  rfl

theorem run_entries (consumed rest : List Entry) (tally : Tally) : ∀ extraction : Extraction,
    extraction.incoming = consumed ++ rest → acceptAll limits destRoot extraction.tally consumed = some tally →
    extraction.run limits destRoot (List.replicate consumed.length .entry) = some { extraction with
      incoming := rest, tally, pending := extraction.pending ++ consumed.filterMap Entry.stream } := by
  induction consumed with
  | nil =>
    intro extraction incoming accepted
    cases accepted
    rw [List.nil_append] at incoming
    simp [Extraction.run, ← incoming]
  | cons entry more ih =>
    intro extraction incoming accepted
    rw [acceptAll, List.foldlM_cons] at accepted
    obtain ⟨middle, first, accepted⟩ := Option.bind_eq_some_iff.mp accepted
    have received := accept_eq_some first
    obtain ⟨next, isNext⟩ : ∃ next : Extraction, next = { extraction with
      incoming := more ++ rest, tally := middle, pending := extraction.pending ++ entry.stream.toList } := ⟨_, rfl⟩
    have stepped : extraction.step limits destRoot .entry = some next := by
      unfold Extraction.step
      simp only [incoming, List.cons_append, Extraction.onEntry, received, isNext]
    rw [List.length_cons, List.replicate_succ, run_cons stepped, ih next (by rw [isNext]) (by rw [isNext]; exact accepted),
      isNext]
    cases stream : entry.stream with
    | none => simp [stream]
    | some opened => simp [stream]

theorem run_finishes (first : String) (others : List WriteStream) : ∀ (extraction : Extraction) (stream : WriteStream)
      (more : List String), extraction.settled = none → extraction.pending = stream :: others →
    (∀ stream ∈ extraction.pending, stream.doomed = false) → extraction.manifestCandidates = first :: more →
    ∃ events after later, extraction.run limits destRoot events = some after ∧
      after.settled = some (.ok (first :: later, extraction.tally.disk)) := by
  induction others with
  | nil =>
    intro extraction stream more unsettled pending fine candidates
    obtain ⟨path, doomed⟩ := stream
    have isFine : doomed = false := fine ⟨path, doomed⟩ (by simp [pending])
    refine ⟨[.finish 0], extraction.onFinish 0 path, more ++ if isManifestName (baseName path) then [path] else [], ?_, ?_⟩
    · simp [Extraction.run, Extraction.step, pending, isFine]
    · simp [Extraction.onFinish, Extraction.finish, pending, unsettled, candidates]
  | cons other rest ih =>
    intro extraction stream more unsettled pending fine candidates
    obtain ⟨path, doomed⟩ := stream
    have isFine : doomed = false := fine ⟨path, doomed⟩ (by simp [pending])
    obtain ⟨next, isNext⟩ : ∃ next : Extraction, next = { extraction with
      pending := other :: rest
      manifestCandidates := first :: (more ++ if isManifestName (baseName path) then [path] else []) } := ⟨_, rfl⟩
    have stepped : extraction.step limits destRoot (.finish 0) = some next := by
      simp [Extraction.step, Extraction.onFinish, Extraction.finish, pending, isFine, unsettled, candidates, isNext]
    have restFine : ∀ stream ∈ next.pending, stream.doomed = false := by
      intro stream present
      rw [isNext] at present
      exact fine stream (by rw [pending]; exact List.mem_cons_of_mem _ present)
    obtain ⟨events, after, later, ran, settled⟩ :=
      ih next other _ (by rw [isNext]; exact unsettled) (by rw [isNext]) restFine (by rw [isNext])
    refine ⟨.finish 0 :: events, after, later, by rw [run_cons stepped]; exact ran, ?_⟩
    rw [settled, isNext]

/-- Any candidate that the extractor reaches can be the first one to be written. -/
theorem run_chooses (archive : Archive) {disk : Disk} {before after : List Entry} {entry : Entry} {tally : Tally}
    (entries : archive.entries = before ++ entry :: after)
    (accepted : acceptAll limits destRoot { disk } (before ++ [entry]) = some tally) (candidate : entry.isCandidate) :
    ∃ events final later, (extractArchive disk archive).run limits destRoot events = some final ∧
      final.settled = some (.ok (stripLead entry.path :: later, tally.disk)) := by
  have incoming : (extractArchive disk archive).incoming = (before ++ [entry]) ++ after := by
    rw [List.append_assoc]
    exact entries
  have emitted := run_entries (before ++ [entry]) after tally (extractArchive disk archive) incoming accepted
  have streams : (extractArchive disk archive).pending ++ (before ++ [entry]).filterMap Entry.stream =
      before.filterMap Entry.stream ++ [⟨stripLead entry.path, false⟩] := by
    simp [extractArchive, Entry.stream, candidate.1]
  obtain ⟨middle, isMiddle⟩ : ∃ middle : Extraction, middle = { extractArchive disk archive with
    incoming := after, tally, pending := before.filterMap Entry.stream ++ [⟨stripLead entry.path, false⟩] } := ⟨_, rfl⟩
  rw [streams, ← isMiddle] at emitted
  -- the candidate finishes first, and then the writes before it
  have finished : ∃ events final later, middle.run limits destRoot events = some final ∧
      final.settled = some (.ok (stripLead entry.path :: later, tally.disk)) := by
    obtain ⟨next, isNext⟩ : ∃ next : Extraction, next = { middle with
      pending := before.filterMap Entry.stream, manifestCandidates := [stripLead entry.path] } := ⟨_, rfl⟩
    have fine : ∀ stream ∈ next.pending, stream.doomed = false := by
      intro stream present
      rw [isNext] at present
      obtain ⟨other, _, its⟩ := List.mem_filterMap.mp present
      unfold Entry.stream at its
      split at its
      · cases its
        rfl
      · cases its
    have stepped : middle.step limits destRoot (.finish (before.filterMap Entry.stream).length) = some next.finish := by
      simp [Extraction.step, Extraction.onFinish, isMiddle, isNext, candidate.2, List.eraseIdx_append_of_length_le,
        extractArchive]
    cases pending : before.filterMap Entry.stream with
    | nil =>
      refine ⟨[.finish (before.filterMap Entry.stream).length], next.finish, [], ?_, ?_⟩
      · rw [run_cons stepped]
        rfl
      · simp [Extraction.finish, isNext, isMiddle, pending, extractArchive]
    | cons stream others =>
      have waits : next.finish = next := by
        simp [Extraction.finish, isNext, isMiddle, pending, extractArchive]
      rw [waits] at stepped
      obtain ⟨events, final, later, ran, settled⟩ := run_finishes (stripLead entry.path) others next stream []
        (by rw [isNext, isMiddle]; rfl) (by rw [isNext]; exact pending) fine (by rw [isNext])
      refine ⟨_ :: events, final, later, by rw [run_cons stepped]; exact ran, ?_⟩
      rw [settled, isNext, isMiddle]
  obtain ⟨events, final, later, ran, settled⟩ := finished
  exact ⟨List.replicate (before ++ [entry]).length .entry ++ events, final, later, by rw [run_append emitted, ran], settled⟩

/-- And it can have lost whatever a file before it lets the parser buffer. -/
theorem unpackAgent_chooses (host : Host) (archive : Archive) {disk : Disk} {before after : List Entry} {entry : Entry}
    {amount : Nat} (entries : archive.entries = before ++ entry :: after) (loses : Buffers host.highWaterMark before entry amount)
    (accepted : (acceptAll limits destRoot { disk } (before ++ [entry])).isSome) (candidate : entry.isCandidate) :
    ∃ schedule, unpackAgent host limits destRoot disk archive schedule =
      some (loadManifest host (decodeText (entry.data.drop amount))) := by
  obtain ⟨buffered, first, same, emits⟩ : ∃ buffered first, List.Forall₂ Emitted before first ∧
      emit host.highWaterMark false (before ++ entry :: after) buffered =
        some (first ++ entry.buffering amount :: after.map (·.buffering 0)) := emit_of_buffers (.inl loses)
  have emittedToo : List.Forall₂ Emitted (before ++ [entry]) (first ++ [entry.buffering amount]) :=
    List.rel_append same (.cons buffering_emitted .nil)
  rw [← acceptAll_emitted_isSome emittedToo] at accepted
  obtain ⟨tally, accepted⟩ := Option.isSome_iff_exists.mp accepted
  obtain ⟨events, final, later, ran, settled⟩ := run_chooses
    { archive with entries := first ++ entry.buffering amount :: after.map (·.buffering 0) } rfl accepted candidate
  have written := acceptAll_writes accepted (List.mem_append_right _ (List.mem_singleton_self _)) candidate.1
  refine ⟨⟨buffered, events⟩, ?_⟩
  have reached : extracted host limits destRoot disk archive ⟨buffered, events⟩ = some final := by
    unfold extracted
    rw [entries, emits]
    exact ran
  have path : (entry.buffering amount).path = entry.path := rfl
  rw [path] at settled written
  unfold unpackAgent
  rw [reached]
  simp [settled, readManifest, written, File.text]

end Schedules

theorem run_returns {limits : UnpackLimits} {destRoot : List String} {disk written : Disk} {archive : Archive}
    {events : List Event} {final : Extraction} {candidates : List String} {host : Host} {result : Json}
    (ran : (extractArchive disk archive).run limits destRoot events = some final)
    (settled : final.settled = some (.ok (candidates, written))) (loaded : readManifest host candidates written = .ok result) :
    ∃ before entry after, archive.entries = before ++ entry :: after ∧ entry.isCandidate ∧
      (acceptAll limits destRoot { disk } (before ++ [entry])).isSome ∧
      loadManifest host (decodeText entry.piped) = .ok result := by
  have start : Sound limits destRoot disk archive (extractArchive disk archive) :=
    ⟨[], rfl, .inr rfl, by simp [extractArchive], by simp [extractArchive]⟩
  have sound := run_sound start ran
  rw [Sound, settled] at sound
  obtain ⟨consumed, rest, tally, entries, accepted, rfl, came⟩ := sound
  simp only [readManifest, Outcome.bind_eq_ok, Outcome.demand_eq_ok] at loaded
  obtain ⟨first, isFirst, file, isFile, loaded⟩ := loaded
  obtain ⟨entry, present, candidate, rfl⟩ := came first (List.mem_of_mem_head? isFirst)
  rw [acceptAll_writes accepted present candidate.1] at isFile
  cases isFile
  obtain ⟨before, more, rfl⟩ := List.append_of_mem present
  refine ⟨before, entry, more ++ rest, by rw [entries]; simp, candidate, ?_, loaded⟩
  rw [List.append_cons, acceptAll_append] at accepted
  obtain ⟨middle, reached, _⟩ := Option.bind_eq_some_iff.mp accepted
  rw [reached]
  rfl

/-- A manifest that is returned is what is left of the text of a file of the archive that is called like one. -/
theorem unpackAgent_returns {host : Host} {limits : UnpackLimits} {destRoot : List String} {disk : Disk} {archive : Archive}
    {schedule : Schedule} {result : Json}
    (unpacked : unpackAgent host limits destRoot disk archive schedule = some (.ok result)) :
    ∃ before entry after amount, archive.entries = before ++ entry :: after ∧ Buffers host.highWaterMark before entry amount ∧
      entry.isCandidate ∧ (acceptAll limits destRoot { disk } (before ++ [entry])).isSome ∧
      loadManifest host (decodeText (entry.data.drop amount)) = .ok result := by
  unfold unpackAgent extracted at unpacked
  obtain ⟨extraction, ran, unpacked⟩ := Option.bind_eq_some_iff.mp unpacked
  obtain ⟨emitted, emits, ran⟩ := Option.bind_eq_some_iff.mp ran
  obtain ⟨settled, isSettled, unpacked⟩ := Option.bind_eq_some_iff.mp unpacked
  cases settled with
  | error thrown => cases unpacked
  | ok resolved =>
    obtain ⟨first, out, later, split, candidate, accepted, loaded⟩ := run_returns ran isSettled (Option.some.inj unpacked)
    obtain ⟨before, entry, after, entries, same, isOut, loses⟩ := emit_buffers emits split
    rw [Emitted] at isOut
    rw [isOut] at candidate loaded
    refine ⟨before, entry, after, out.buffered, entries, ?_, candidate, ?_, loaded⟩
    · rcases loses with loses | ⟨held, _⟩
      · exact loses
      · cases held
    · rwa [acceptAll_emitted_isSome (List.rel_append same (.cons isOut .nil))] at accepted

open Registry.Packages in
/-- Both tar libraries read a regular file out of the same header and the same data. -/
structure Decodes (member : TarMember) (entry : Entry) : Prop where
  file : entry.type = .file ↔ member.kind = .regular
  path : entry.type = .file → entry.path = member.name
  text : entry.type = .file → ∀ text, member.text = some text → decodeText entry.data = text

open Registry.Packages in
/-- The place of the member that `extractfile` reads: the last one of its name. -/
def manifestPlace (members : List TarMember) : Nat :=
  members.length - 1 - members.reverse.findIdx (·.name == manifestFilename)

/-- Every other file that is called like a manifest and that the extractor reaches is not a manifest, or is the same
    one, and so is whatever is left of a file of which the parser can have buffered the first bytes. -/
def SoleManifest (host : Host) (limits : UnpackLimits) (destRoot : List String) (disk : Disk) (entries : List Entry)
    (place : Nat) (manifest : Json) : Prop :=
  ∀ before entry after amount, entries = before ++ entry :: after → Buffers host.highWaterMark before entry amount →
    (before.length ≠ place ∨ amount ≠ 0) → entry.isCandidate →
    (acceptAll limits destRoot { disk } (before ++ [entry])).isSome →
    ∀ other, loadManifest host (decodeText (entry.data.drop amount)) = .ok other → other = manifest

section Choice

open Registry.Packages

theorem findIdx_of_find {α : Type} {condition : α → Bool} {list : List α} {found : α}
    (isFound : list.find? condition = some found) : list[list.findIdx condition]? = some found := by
  induction list with
  | nil => cases isFound
  | cons head rest ih =>
    rw [List.find?_cons] at isFound
    rw [List.findIdx_cons]
    cases holds : condition head with
    | true =>
      rw [holds] at isFound
      simpa using isFound
    | false =>
      rw [holds] at isFound
      simpa using ih isFound

theorem manifestFromArchive_reads {host : PackageHost} {archive : Bytes} {members : List TarMember} {manifest : Json}
    (opened : host.openTar archive = .ok members) (read : manifestFromArchive host archive = .ok manifest) :
    ∃ member text, members[manifestPlace members]? = some member ∧ member.text = some text := by
  unfold manifestFromArchive at read
  simp only [opened, Outcome.ok_bind, Outcome.bind_eq_ok, Outcome.demand_eq_ok] at read
  obtain ⟨_, _, member, found, _, _, _, _, text, decoded, _⟩ := read
  refine ⟨member, text, ?_, decoded⟩
  have placed := findIdx_of_find found
  have inside : members.reverse.findIdx (·.name == manifestFilename) < members.length := by
    have bound := (List.getElem?_eq_some_iff.mp placed).1
    simpa using bound
  rw [List.getElem?_reverse inside] at placed
  exact placed

/-- The SDK returns the manifest that the registry has read, however the parser and the writes get on, exactly when
    nothing else of the archive can be taken for it: no other file, and no rest of one. -/
theorem same_manifest_iff (registry : PackageHost) (sdk : Host) (limits : UnpackLimits) (destRoot : List String)
    (disk : Disk) (archive : Archive) {bytes : Bytes} {members : List TarMember} {manifest : Json}
    (opened : registry.openTar bytes = .ok members) (same : List.Forall₂ Decodes members archive.entries)
    (read : manifestFromArchive registry bytes = .ok manifest)
    (agree : ∀ member text, members[manifestPlace members]? = some member → member.text = some text →
      sdk.parseManifest text = .ok manifest) :
    (∀ schedule result, unpackAgent sdk limits destRoot disk archive schedule = some (.ok result) → result = manifest) ↔
      SoleManifest sdk limits destRoot disk archive.entries (manifestPlace members) manifest := by
  obtain ⟨member, text, placed, decoded⟩ := manifestFromArchive_reads opened read
  constructor
  · intro returns before entry after amount entries loses _ candidate accepted other loaded
    obtain ⟨schedule, unpacked⟩ := unpackAgent_chooses sdk archive entries loses accepted candidate
    exact returns schedule other (by rw [unpacked, loaded])
  · intro sole schedule result unpacked
    obtain ⟨before, entry, after, amount, entries, loses, candidate, accepted, loaded⟩ := unpackAgent_returns unpacked
    by_cases whole : before.length = manifestPlace members ∧ amount = 0
    · -- the file that the registry has read itself
      obtain ⟨isPlace, rfl⟩ := whole
      have its : archive.entries[manifestPlace members]? = some entry := by
        rw [entries, ← isPlace]
        simp
      have decodes : Decodes member entry := by
        obtain ⟨bound, isMember⟩ := List.getElem?_eq_some_iff.mp placed
        obtain ⟨entryBound, isEntry⟩ := List.getElem?_eq_some_iff.mp its
        rw [← isMember, ← isEntry]
        exact same.get bound entryBound
      have sameText := decodes.text candidate.1 text decoded
      rw [List.drop_zero, loadManifest, sameText, agree member text placed decoded] at loaded
      simp only [Outcome.ok_bind, assertValidManifest, Outcome.bind_eq_ok, Outcome.pure_eq_ok] at loaded
      obtain ⟨_, _, rfl⟩ := loaded
      rfl
    · exact sole before entry after amount entries loses (not_and_or.mp whole) candidate accepted result loaded

def sampleText (permission : String) : String :=
  "manifestVersion: 1\nname: demo/hello\nversion: 1.0.0\nauthor: demo\ndescription: Says hello.\nlicense: MIT\n" ++
    "runtime:\n  language: python\nmodels:\n  supported:\n  - ollama\ninterfaces:\n  cli:\n    command: hello\n" ++
    "permissions:\n- " ++ permission ++ "\n"

def sampleManifest (permission : String) : Json :=
  .obj [("manifestVersion", .num 1), ("name", .str "demo/hello"), ("version", .str "1.0.0"), ("author", .str "demo"),
    ("description", .str "Says hello."), ("license", .str "MIT"), ("runtime", .obj [("language", .str "python")]),
    ("models", .obj [("supported", .arr [.str "ollama"])]), ("interfaces", .obj [("cli", .obj [("command", .str "hello")])]),
    ("permissions", .arr [.str permission])]

def parseSample (text : String) : Option Json :=
  if text = sampleText "none" then some (sampleManifest "none")
  else if text = sampleText "network" then some (sampleManifest "network")
  else none

def sampleRegistry (members : List TarMember) : PackageHost :=
  { plainHost with
    openTar := fun _ => .ok members
    parseYaml := fun text => Outcome.demand (parseSample text) "could not find the expected ':'" }

def sampleHost : Host where
  parseManifest text := Outcome.demand (parseSample text) ⟨.error, "end of the stream or a document separator is expected"⟩
  manifestErrors _ := []
  highWaterMark := 65536

theorem parseSample_none : parseSample (sampleText "none") = some (sampleManifest "none") := if_pos rfl

theorem parseSample_network : parseSample (sampleText "network") = some (sampleManifest "network") := by
  have other : sampleText "network" ≠ sampleText "none" := by decide +kernel
  rw [parseSample, if_neg other, if_pos rfl]

theorem loadManifest_sample {text : String} {manifest : Json} (parsed : parseSample text = some manifest) :
    loadManifest sampleHost text = .ok manifest := by
  simp [loadManifest, sampleHost, parsed, assertValidManifest, Outcome.ensure]

def rootMember : TarMember := ⟨"agent.yaml", .regular, 300, some (sampleText "none")⟩

def sampleData (permission : String) : List UInt8 := Utf8.encode (sampleText permission).toList

theorem decodeText_sample (permission : String) : decodeText (sampleData permission) = sampleText permission := by
  rw [sampleData, decodeText_encode]

theorem loadManifest_sampleData {permission : String} {manifest : Json}
    (parsed : parseSample (sampleText permission) = some manifest) :
    loadManifest sampleHost (decodeText (sampleData permission)) = .ok manifest := by
  rw [decodeText_sample, loadManifest_sample parsed]

def rootEntry : Entry := ⟨"agent.yaml", .file, 300, sampleData "none", none, 0⟩

theorem rootMember_decodes : Decodes rootMember rootEntry :=
  ⟨by simp [rootMember, rootEntry], fun _ => rfl, fun _ text its => by
    rw [rootEntry, decodeText_sample]
    exact Option.some.inj its⟩

def nestedMember : TarMember := ⟨"docs/manifest.yaml", .regular, 300, some (sampleText "network")⟩

def nestedEntry : Entry := ⟨"docs/manifest.yaml", .file, 300, sampleData "network", none, 0⟩

theorem nestedMember_decodes : Decodes nestedMember nestedEntry :=
  ⟨by simp [nestedMember, nestedEntry], fun _ => rfl, fun _ text its => by
    rw [nestedEntry, decodeText_sample]
    exact Option.some.inj its⟩

theorem manifestFromArchive_sample {members : List TarMember}
    (sole : (members.filter fun member => member.kind == .regular && isManifestPath member.name).map TarMember.name =
      [manifestFilename])
    (found : members.reverse.find? (·.name == manifestFilename) = some rootMember) :
    manifestFromArchive (sampleRegistry members) [] = .ok (sampleManifest "none") := by
  have quiet : plainHost.extractRaises [] = none ∧ plainHost.yamlRaises (sampleText "none") = none := ⟨rfl, rfl⟩
  simp [manifestFromArchive, sampleRegistry, sole, found, rootMember, Outcome.ensure, parseSample_none, quiet]

theorem rootEntry_loads : loadManifest sampleHost (decodeText rootEntry.data) = .ok (sampleManifest "none") := by
  rw [show rootEntry.data = sampleData "none" by simp only [rootEntry], loadManifest_sampleData parseSample_none]

theorem rootEntry_accepted : (acceptAll {} ["opt"] { disk := {} } ([] ++ [rootEntry])).isSome = true := by decide +kernel

/-- An archive with the manifest at its root, and nothing else. -/
theorem same_manifest_iff_root :
    (∃ schedule, unpackAgent sampleHost {} ["opt"] {} ⟨[rootEntry], none⟩ schedule = some (.ok (sampleManifest "none"))) ∧
      ∀ schedule result, unpackAgent sampleHost {} ["opt"] {} ⟨[rootEntry], none⟩ schedule = some (.ok result) →
        result = sampleManifest "none" := by
  obtain ⟨schedule, unpacked⟩ := unpackAgent_chooses sampleHost ⟨[rootEntry], none⟩ rfl (.inl rfl) rootEntry_accepted
    ⟨rfl, by decide +kernel⟩
  rw [List.drop_zero, rootEntry_loads] at unpacked
  refine ⟨⟨schedule, unpacked⟩, ?_⟩
  have read : manifestFromArchive (sampleRegistry [rootMember]) [] = .ok (sampleManifest "none") :=
    manifestFromArchive_sample (by decide +kernel) (by decide +kernel)
  refine (same_manifest_iff (sampleRegistry [rootMember]) sampleHost {} ["opt"] {} ⟨[rootEntry], none⟩ rfl
    (.cons rootMember_decodes .nil) read ?_).mpr ?_
  · intro member text placed decoded
    have isRoot : member = rootMember := by
      have its := List.mem_of_getElem? placed
      simpa using its
    rw [isRoot] at decoded
    cases decoded
    simp [sampleHost, parseSample_none]
  · intro before entry after amount entries loses elsewhere
    cases before with
    | nil =>
      rcases elsewhere with other | some
      · exact absurd (show 0 = manifestPlace [rootMember] by decide +kernel) other
      · rcases loses with none | ⟨_, big, isBig, _⟩
        · exact absurd none some
        · cases isBig
    | cons first rest => simp at entries

/-- The registry reads the manifest at the root, and the SDK returns the other one when its write finishes first. -/
theorem nested_manifest_wins_the_race :
    manifestFromArchive (sampleRegistry [rootMember, nestedMember]) [] = .ok (sampleManifest "none") ∧
      List.Forall₂ Decodes [rootMember, nestedMember] [rootEntry, nestedEntry] ∧
      (∃ schedule, unpackAgent sampleHost {} ["opt"] {} ⟨[rootEntry, nestedEntry], none⟩ schedule =
        some (.ok (sampleManifest "network"))) ∧
      sampleManifest "network" ≠ sampleManifest "none" := by
  refine ⟨manifestFromArchive_sample (by decide +kernel) (by decide +kernel),
    .cons rootMember_decodes (.cons nestedMember_decodes .nil), ?_, by simp [sampleManifest]⟩
  have accepted : (acceptAll {} ["opt"] { disk := {} } ([rootEntry] ++ [nestedEntry])).isSome = true := by decide +kernel
  obtain ⟨schedule, unpacked⟩ := unpackAgent_chooses sampleHost ⟨[rootEntry, nestedEntry], none⟩ rfl (.inl rfl) accepted
    ⟨rfl, by decide +kernel⟩
  rw [List.drop_zero, show nestedEntry.data = sampleData "network" by simp only [nestedEntry], loadManifest_sampleData parseSample_network] at unpacked
  exact ⟨schedule, unpacked⟩

end Choice

end Sdk
