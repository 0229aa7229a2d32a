import OpenAgentHub.Sdk.ManifestChoice
import Mathlib.Data.List.Perm.Basic

namespace Sdk

def WriteStream.candidate? (stream : WriteStream) : Option String :=
  if isManifestName (baseName stream.path) then some stream.path else none

def Entry.candidate? (entry : Entry) : Option String := entry.stream.bind WriteStream.candidate?

def Delivered (limits : UnpackLimits) (destRoot : List String) (disk : Disk) (archive : Archive)
    (candidates : List String) (written : Disk) : Prop :=
  ∃ tally, acceptAll limits destRoot { disk } archive.entries = some tally ∧ tally.disk = written ∧
    candidates.Perm (archive.entries.filterMap Entry.candidate?)

/-- If the promise has resolved after these events, the parser has ended, no write is pending, and nothing
    is missing from what it has resolved with. -/
def CompleteAt (limits : UnpackLimits) (destRoot : List String) (disk : Disk) (archive : Archive) (past : List Event)
    (extraction : Extraction) : Prop :=
  ∀ candidates written, extraction.settled = some (.ok (candidates, written)) →
    .end ∈ past ∧ extraction.incoming = [] ∧ extraction.pending = [] ∧
      Delivered limits destRoot disk archive candidates written

/-- The last pending write finishes after the parser has ended. -/
def Timely (past : List Event) (extraction : Extraction) : Event → Prop
  | .finish _ => extraction.settled = none → extraction.pending.length = 1 → .end ∈ past
  | .entry | .error _ | .end => True

section Progress

variable {limits : UnpackLimits} {destRoot : List String} {disk : Disk} {archive : Archive}
  {extraction next : Extraction} {past : List Event} {consumed : List Entry}

structure Accounted (limits : UnpackLimits) (destRoot : List String) (disk : Disk) (archive : Archive)
    (past : List Event) (consumed : List Entry) (extraction : Extraction) : Prop where
  entries : archive.entries = consumed ++ extraction.incoming
  ended : .end ∈ past → extraction.incoming = []
  accepted : (∃ stream ∈ extraction.pending, stream.doomed = true) ∨
    acceptAll limits destRoot { disk } consumed = some extraction.tally
  candidates : (extraction.manifestCandidates ++ extraction.pending.filterMap WriteStream.candidate?).Perm
    (consumed.filterMap Entry.candidate?)

def Tracked (limits : UnpackLimits) (destRoot : List String) (disk : Disk) (archive : Archive) (past : List Event)
    (extraction : Extraction) : Prop :=
  (extraction.settled = none → ∃ consumed, Accounted limits destRoot disk archive past consumed extraction) ∧
    CompleteAt limits destRoot disk archive past extraction

theorem Accounted.delivered (accounted : Accounted limits destRoot disk archive past consumed extraction)
    (drained : extraction.incoming = []) (idle : extraction.pending = []) :
    Delivered limits destRoot disk archive extraction.manifestCandidates extraction.tally.disk := by
  have all : archive.entries = consumed := by simpa [drained] using accounted.entries
  have accepted : acceptAll limits destRoot { disk } consumed = some extraction.tally := by
    refine accounted.accepted.resolve_left ?_
    rintro ⟨stream, present, _⟩
    rw [idle] at present
    cases present
  have candidates := accounted.candidates
  rw [idle, List.filterMap_nil, List.append_nil] at candidates
  rw [← all] at accepted candidates
  exact ⟨extraction.tally, accepted, rfl, candidates⟩

theorem fail_tracked {error : Thrown} (tracked : Tracked limits destRoot disk archive past extraction) :
    Tracked limits destRoot disk archive past (extraction.fail error) := by
  unfold Extraction.fail
  split
  · exact tracked
  · constructor
    · intro unsettled
      cases unsettled
    · intro candidates written resolved
      cases resolved

theorem finish_tracked (tracked : Tracked limits destRoot disk archive past extraction)
    (ended : extraction.settled = none → extraction.pending = [] → .end ∈ past) :
    Tracked limits destRoot disk archive past extraction.finish := by
  unfold Extraction.finish
  split
  · exact tracked
  · rename_i unsettled
    have isNone : extraction.settled = none := by simpa using unsettled
    split
    · rename_i idle
      obtain ⟨consumed, accounted⟩ := tracked.1 isNone
      have isEnded := ended isNone idle
      have drained := accounted.ended isEnded
      constructor
      · intro unsettled
        cases unsettled
      · intro candidates written resolved
        cases resolved
        exact ⟨isEnded, drained, idle, accounted.delivered drained idle⟩
    · exact tracked

theorem receive_stream {tally : Tally} {entry : Entry} {stream : Option WriteStream}
    (received : receive limits destRoot extraction.tally entry = .ok (tally, stream)) :
    stream.toList.filterMap WriteStream.candidate? = [entry].filterMap Entry.candidate? := by
  rcases receive_cases received with ⟨type, rfl, _⟩ | ⟨type, rfl, _⟩ | ⟨type, rfl, _, _⟩ <;>
    simp [List.filterMap_cons, Entry.candidate?, Entry.stream, type, WriteStream.candidate?]

theorem Accounted.received {tally : Tally} {entry : Entry} {rest : List Entry} {stream : Option WriteStream}
    (accounted : Accounted limits destRoot disk archive past consumed extraction)
    (incoming : extraction.incoming = entry :: rest)
    (received : receive limits destRoot extraction.tally entry = .ok (tally, stream)) :
    Accounted limits destRoot disk archive (past ++ [.entry]) (consumed ++ [entry])
      { extraction with incoming := rest, tally, pending := extraction.pending ++ stream.toList } where
  entries := by
    rw [accounted.entries, incoming]
    simp
  ended isEnded := by
    have earlier : .end ∈ past := by simpa using isEnded
    have drained := accounted.ended earlier
    rw [incoming] at drained
    cases drained
  accepted := by
    rcases accounted.accepted with ⟨doomed, present, isDoomed⟩ | accepted
    · exact .inl ⟨doomed, List.mem_append_left _ present, isDoomed⟩
    · rcases receive_cases received with ⟨_, rfl, _⟩ | ⟨_, rfl, _⟩ | ⟨_, rfl, _, _⟩
      · refine .inr ?_
        rw [acceptAll_append, accepted]
        simp [acceptAll, accept, received]
      · exact .inl ⟨_, List.mem_append_right _ (List.mem_singleton_self _), rfl⟩
      · refine .inr ?_
        rw [acceptAll_append, accepted]
        simp [acceptAll, accept, received]
  candidates := by
    show (extraction.manifestCandidates ++ (extraction.pending ++ stream.toList).filterMap _).Perm _
    rw [List.filterMap_append, List.filterMap_append, receive_stream received, ← List.append_assoc]
    exact accounted.candidates.append_right _

theorem onEntry_tracked {entry : Entry} {rest : List Entry} (tracked : Tracked limits destRoot disk archive past extraction)
    (incoming : extraction.incoming = entry :: rest) :
    Tracked limits destRoot disk archive (past ++ [.entry]) (extraction.onEntry limits destRoot entry rest) := by
  cases settled : extraction.settled with
  | none =>
    obtain ⟨consumed, accounted⟩ := tracked.1 settled
    unfold Extraction.onEntry
    split
    · unfold Extraction.fail
      simp only [settled, Option.isSome_none, Bool.false_eq_true, if_false]
      constructor
      · intro unsettled
        cases unsettled
      · intro candidates written resolved
        cases resolved
    · rename_i tally stream received
      refine ⟨fun _ => ⟨_, accounted.received incoming received⟩, fun _ _ resolved => ?_⟩
      rw [show extraction.settled = _ from resolved] at settled
      cases settled
  | some outcome =>
    have same : (extraction.onEntry limits destRoot entry rest).settled = some outcome := by
      unfold Extraction.onEntry Extraction.fail
      split
      · simp [settled]
      · exact settled
    constructor
    · intro unsettled
      rw [same] at unsettled
      cases unsettled
    · intro candidates written resolved
      -- a promise that has resolved has left no entry behind
      rw [same] at resolved
      obtain ⟨_, drained, _⟩ := tracked.2 candidates written (by rw [settled, resolved])
      rw [incoming] at drained
      cases drained

theorem Accounted.finished {index : Nat} {path : String}
    (accounted : Accounted limits destRoot disk archive past consumed extraction)
    (present : extraction.pending[index]? = some ⟨path, false⟩) :
    Accounted limits destRoot disk archive (past ++ [.finish index]) consumed
      { extraction with
        pending := extraction.pending.eraseIdx index
        manifestCandidates := extraction.manifestCandidates ++ if isManifestName (baseName path) then [path] else [] } where
  entries := accounted.entries
  ended isEnded := accounted.ended (by simpa using isEnded)
  accepted := by
    rcases accounted.accepted with ⟨doomed, pending, isDoomed⟩ | accepted
    · refine .inl ⟨doomed, ?_, isDoomed⟩
      obtain ⟨place, its⟩ := List.mem_iff_getElem?.mp pending
      refine List.mem_eraseIdx_iff_getElem?.mpr ⟨place, ?_, its⟩
      rintro rfl
      rw [present] at its
      cases its
      cases isDoomed
    · exact .inr accepted
  candidates := by
    obtain ⟨bound, isStream⟩ := List.getElem?_eq_some_iff.mp present
    have own : (if isManifestName (baseName path) then [path] else []) =
        [(⟨path, false⟩ : WriteStream)].filterMap WriteStream.candidate? := by
      by_cases named : isManifestName (baseName path) = true <;> simp [WriteStream.candidate?, named]
    show ((extraction.manifestCandidates ++ _) ++ (extraction.pending.eraseIdx index).filterMap _).Perm _
    rw [own, List.append_assoc, ← List.filterMap_append, ← isStream]
    refine List.Perm.trans (List.Perm.append_left _ ?_) accounted.candidates
    exact (List.getElem_cons_eraseIdx_perm bound).filterMap _

theorem onFinish_tracked {index : Nat} {path : String} (tracked : Tracked limits destRoot disk archive past extraction)
    (present : extraction.pending[index]? = some ⟨path, false⟩)
    (timely : Timely past extraction (.finish index)) :
    Tracked limits destRoot disk archive (past ++ [.finish index]) (extraction.onFinish index path) := by
  obtain ⟨bound, isStream⟩ := List.getElem?_eq_some_iff.mp present
  unfold Extraction.onFinish
  apply finish_tracked
  · constructor
    · intro unsettled
      obtain ⟨consumed, accounted⟩ := tracked.1 unsettled
      exact ⟨consumed, accounted.finished present⟩
    · intro candidates written resolved
      obtain ⟨_, _, idle, _⟩ := tracked.2 candidates written resolved
      rw [idle] at bound
      simp at bound
  · intro unsettled idle
    have erased := congrArg List.length (show extraction.pending.eraseIdx index = [] from idle)
    rw [List.length_eraseIdx_of_lt bound, List.length_nil] at erased
    exact List.mem_append_left _ (timely unsettled (by omega))

theorem Tracked.later {event : Event} (tracked : Tracked limits destRoot disk archive past extraction)
    (drained : event = .end → extraction.incoming = []) :
    Tracked limits destRoot disk archive (past ++ [event]) extraction := by
  constructor
  · intro unsettled
    obtain ⟨consumed, accounted⟩ := tracked.1 unsettled
    refine ⟨consumed, accounted.entries, fun isEnded => ?_, accounted.accepted, accounted.candidates⟩
    rcases List.mem_append.mp isEnded with earlier | now
    · exact accounted.ended earlier
    · exact drained (List.mem_singleton.mp now).symm
  · intro candidates written resolved
    obtain ⟨ended, rest⟩ := tracked.2 candidates written resolved
    exact ⟨List.mem_append_left _ ended, rest⟩

theorem step_tracked {event : Event} (tracked : Tracked limits destRoot disk archive past extraction)
    (timely : Timely past extraction event) (stepped : extraction.step limits destRoot event = some next) :
    Tracked limits destRoot disk archive (past ++ [event]) next := by
  rcases step_cases stepped with ⟨entry, rest, rfl, incoming, rfl⟩ | ⟨index, path, rfl, present, rfl⟩ |
    ⟨_, _, error, rfl, _, rfl⟩ | ⟨rfl, drained, _, rfl⟩ | ⟨error, rfl, drained, _, rfl⟩
  · exact onEntry_tracked tracked incoming
  · exact onFinish_tracked tracked present timely
  · exact fail_tracked (tracked.later (by simp))
  · exact finish_tracked (tracked.later fun _ => drained) fun _ _ => by simp
  · exact fail_tracked (tracked.later fun _ => drained)

theorem run_concat {earlier : List Event} {event : Event} :
    extraction.run limits destRoot (earlier ++ [event]) =
      (extraction.run limits destRoot earlier).bind (·.step limits destRoot event) := by
  unfold Extraction.run
  rw [List.foldlM_append]
  cases earlier.foldlM (Extraction.step · limits destRoot) extraction with
  | none => rfl
  | some state => simp

/-- What a step keeps when it meets a condition on the events before it and the state it finds. -/
theorem run_conditioned {events : List Event} (holds : List Event → Extraction → Prop)
    (meets : List Event → Extraction → Event → Prop)
    (kept : ∀ past before event after, holds past before → meets past before event →
      before.step limits destRoot event = some after → holds (past ++ [event]) after)
    (initial : holds [] extraction)
    (met : ∀ earlier event later state, events = earlier ++ event :: later →
      extraction.run limits destRoot earlier = some state → meets earlier state event)
    (ran : extraction.run limits destRoot events = some next) : holds events next := by
  induction events using List.reverseRecOn generalizing next with
  | nil =>
    cases ran
    exact initial
  | append_singleton earlier event ih =>
    rw [run_concat] at ran
    obtain ⟨state, reached, stepped⟩ := Option.bind_eq_some_iff.mp ran
    have before : holds earlier state := by
      refine ih (fun first other later middle split => ?_) reached
      exact met first other (later ++ [event]) middle (by rw [split]; simp)
    exact kept earlier state event next before (met earlier event [] state rfl reached) stepped

theorem extractArchive_tracked (limits : UnpackLimits) (destRoot : List String) (disk : Disk) (archive : Archive) :
    Tracked limits destRoot disk archive [] (extractArchive disk archive) := by
  refine ⟨fun _ => ⟨[], rfl, by simp, .inr rfl, by simp [extractArchive]⟩, fun _ _ resolved => ?_⟩
  cases resolved

end Progress

variable {limits : UnpackLimits} {destRoot : List String} {disk : Disk} {archive : Archive} {extraction : Extraction}

theorem onFinish_resolves {index : Nat} {path : String} (present : extraction.pending[index]? = some ⟨path, false⟩)
    (unsettled : extraction.settled = none) (alone : extraction.pending.length = 1) :
    ∃ candidates, (extraction.onFinish index path).settled = some (.ok (candidates, extraction.tally.disk)) := by
  obtain ⟨bound, _⟩ := List.getElem?_eq_some_iff.mp present
  have idle : extraction.pending.eraseIdx index = [] := by
    apply List.eq_nil_of_length_eq_zero
    rw [List.length_eraseIdx_of_lt bound]
    omega
  unfold Extraction.onFinish Extraction.finish
  simp [unsettled, idle]

/-- The promise resolves with all of the archive, along the whole run, exactly when no write finishes alone before
    the parser has ended. -/
theorem resolves_complete_iff {events : List Event}
    (consistent : ((extractArchive disk archive).run limits destRoot events).isSome) :
    (∀ earlier later state, events = earlier ++ later →
        (extractArchive disk archive).run limits destRoot earlier = some state →
        CompleteAt limits destRoot disk archive earlier state) ↔
      ∀ earlier event later state, events = earlier ++ event :: later →
        (extractArchive disk archive).run limits destRoot earlier = some state → Timely earlier state event := by
  constructor
  · intro complete earlier event later state split reached
    cases event with
    | finish index =>
      intro unsettled alone
      rw [split, run_append reached] at consistent
      obtain ⟨final, ran⟩ := Option.isSome_iff_exists.mp consistent
      rw [Extraction.run, List.foldlM_cons] at ran
      obtain ⟨next, stepped, _⟩ := Option.bind_eq_some_iff.mp ran
      have after : (extractArchive disk archive).run limits destRoot (earlier ++ [.finish index]) = some next := by
        rw [run_concat, reached]
        exact stepped
      unfold Extraction.step at stepped
      dsimp only at stepped
      split at stepped
      · rename_i path present
        cases stepped
        obtain ⟨candidates, resolved⟩ := onFinish_resolves present unsettled alone
        obtain ⟨ended, _⟩ := complete (earlier ++ [.finish index]) later _ (by rw [split]; simp) after _ _ resolved
        simpa using ended
      · cases stepped
    | _ => trivial
  · intro timely earlier later state split reached
    refine (run_conditioned (Tracked limits destRoot disk archive) Timely (fun _ _ _ _ => step_tracked)
      (extractArchive_tracked limits destRoot disk archive) (fun first event rest middle inner => ?_) reached).2
    exact timely first event (rest ++ later) middle (by rw [split, inner]; simp)

def readmeEntry : Entry := ⟨"README.md", .file, 10, Utf8.encode "# Weather\n".toList, none, 0⟩

/-- One file is written before the parser has ended, the manifest after it. -/
def timelyEvents : List Event := [.entry, .entry, .finish 1, .end, .finish 0]

theorem ended_first_complete :
    ((extractArchive {} ⟨[rootEntry, readmeEntry], none⟩).run {} ["opt"] timelyEvents).isSome = true ∧
      ∀ earlier later state, timelyEvents = earlier ++ later →
        (extractArchive {} ⟨[rootEntry, readmeEntry], none⟩).run {} ["opt"] earlier = some state →
        CompleteAt {} ["opt"] {} ⟨[rootEntry, readmeEntry], none⟩ earlier state := by
  have places : ∀ earlier index later, timelyEvents = earlier ++ .finish index :: later →
      earlier = [.entry, .entry] ∨ .end ∈ earlier := by
    intro earlier index later split
    unfold timelyEvents at split
    rcases earlier with _ | ⟨_, _ | ⟨_, _ | ⟨_, _ | ⟨_, rest⟩⟩⟩⟩ <;> grind
  have writing : ((extractArchive {} ⟨[rootEntry, readmeEntry], none⟩).run {} ["opt"] [.entry, .entry]).map
      (fun state => state.pending.length) = some 2 := by decide +kernel
  refine ⟨by decide +kernel, (resolves_complete_iff (by decide +kernel)).mpr ?_⟩
  intro earlier event later state split reached
  cases event with
  | finish index =>
    intro _ alone
    rcases places earlier index later split with rfl | ended
    · rw [reached, Option.map_some, alone] at writing
      cases writing
    · exact ended
  | _ => trivial

def hastyEvents : List Event := [.entry, .finish 0, .entry, .finish 0, .end]

def resolvedCandidates (reached : Option Extraction) : Option (List String) :=
  reached.bind fun state => state.settled.bind fun settled => settled.toOption.map Prod.fst

theorem resolvedCandidates_eq_some {reached : Option Extraction} {candidates : List String}
    (resolved : resolvedCandidates reached = some candidates) :
    ∃ state written, reached = some state ∧ state.settled = some (.ok (candidates, written)) := by
  unfold resolvedCandidates at resolved
  obtain ⟨state, isState, resolved⟩ := Option.bind_eq_some_iff.mp resolved
  obtain ⟨settled, isSettled, resolved⟩ := Option.bind_eq_some_iff.mp resolved
  cases settled with
  | error thrown => cases resolved
  | ok value =>
    cases resolved
    exact ⟨state, value.2, isState, isSettled⟩

/-- `unpackAgent` misses the manifest that is in the archive. -/
theorem early_finish_loses_manifest :
    ((extractArchive {} ⟨[readmeEntry, rootEntry], none⟩).run {} ["opt"] hastyEvents).isSome ∧
      (∃ earlier later state, hastyEvents = earlier ++ later ∧
        (extractArchive {} ⟨[readmeEntry, rootEntry], none⟩).run {} ["opt"] earlier = some state ∧
        ¬ CompleteAt {} ["opt"] {} ⟨[readmeEntry, rootEntry], none⟩ earlier state) ∧
      unpackAgent sampleHost {} ["opt"] {} ⟨[readmeEntry, rootEntry], none⟩ ⟨[0, 0], hastyEvents⟩ =
        some (.error (archiveError "archive is missing agent.yaml/manifest.yaml")) := by
  refine ⟨by decide +kernel, ?_, ?_⟩
  · have resolved : resolvedCandidates ((extractArchive {} ⟨[readmeEntry, rootEntry], none⟩).run {} ["opt"]
        [.entry, .finish 0]) = some [] := by decide +kernel
    obtain ⟨state, written, reached, settled⟩ := resolvedCandidates_eq_some resolved
    refine ⟨[.entry, .finish 0], [.entry, .finish 0, .end], state, rfl, reached, fun complete => ?_⟩
    have ended := (complete _ _ settled).1
    simp at ended
  · have resolved : resolvedCandidates ((extractArchive {} ⟨[readmeEntry, rootEntry], none⟩).run {} ["opt"]
        hastyEvents) = some [] := by decide +kernel
    obtain ⟨state, written, reached, settled⟩ := resolvedCandidates_eq_some resolved
    have emits : emit sampleHost.highWaterMark false [readmeEntry, rootEntry] [0, 0] = some [readmeEntry, rootEntry] :=
      emit_unbuffered (by simp [readmeEntry, rootEntry])
    have extracts : extracted sampleHost {} ["opt"] {} ⟨[readmeEntry, rootEntry], none⟩ ⟨[0, 0], hastyEvents⟩ = some state := by
      unfold extracted
      rw [emits]
      exact reached
    unfold unpackAgent
    rw [extracts]
    simp [settled, readManifest, Outcome.demand]

end Sdk
