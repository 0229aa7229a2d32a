import Mathlib.Algebra.Order.Ring.Rat
import Mathlib.Data.Rat.Lemmas
import OpenAgentHub.Lib.Rank
import OpenAgentHub.Runtime.UsageDatabase

namespace Runtime

structure PruneReport where
  runsRemoved : Nat
  usageRemoved : Nat
  deriving DecidableEq, Repr

namespace UsageDatabase

variable (host : StatsHost) (db : UsageDatabase) (now : Int)

def removedRows (ids : List String) : Nat := db.runs.entries.countP fun entry => ids.contains entry.1

def pruneReport (opts : PruneOptions) : Option (UsageDatabase × PruneReport) := do
  let ids ← db.pruneCandidates host now opts
  let _ ← db.removeRuns ids
  let removed := db.removedRows ids
  some ((db.prune host now opts).db, { runsRemoved := removed, usageRemoved := removed })

def outdated (opts : PruneOptions) (entry : String × RunRow) : Bool :=
  opts.olderThanDays.any fun days =>
    (host.isoTime (now - days * 86400000)).any fun cutoff => decide (entry.2.createdAt < cutoff)

def surplus (opts : PruneOptions) (entry : String × RunRow) : Bool :=
  opts.keep.any fun keep =>
    decide (keep ≤ ((db.ended.countP fun other => decide (entry.2.createdAt < other.2.createdAt) : Nat) : Rat))

def doomed (opts : PruneOptions) (entry : String × RunRow) : Bool :=
  !active entry.2.state && (outdated host now opts entry || db.surplus opts entry)

def doomedId (opts : PruneOptions) (runId : String) : Bool :=
  db.runs.entries.any fun entry => entry.1 == runId && db.doomed host now opts entry

/-- Exactly the doomed runs go, with their usage and samples, and the report counts the rows that went. -/
def PrunesExactly (opts : PruneOptions) : Prop :=
  ∃ after report, db.pruneReport host now opts = some (after, report) ∧
    after.runs.entries = db.runs.entries.filter (fun entry => !db.doomed host now opts entry) ∧
    after.tokenUsage = db.tokenUsage.filter (fun row => !db.doomedId host now opts row.runId) ∧
    after.resourceSamples = db.resourceSamples.filter (fun row => !db.doomedId host now opts row.runId) ∧
    (after.toUsageStore = db.toUsageStore ∧ after.settings = db.settings ∧ after.limits = db.limits) ∧
    report.runsRemoved + after.runs.entries.length = db.runs.entries.length ∧
    report.usageRemoved + after.tokenUsage.length = db.tokenUsage.length

def DistinctTimes : Prop := (db.runs.entries.map fun entry => entry.2.createdAt).Nodup

instance : Decidable db.DistinctTimes := by unfold DistinctTimes; infer_instance

end UsageDatabase

structure PruneOptions.Sound (opts : PruneOptions) : Prop where
  days : ∀ days ∈ opts.olderThanDays, 0 ≤ days
  keep : ∀ keep ∈ opts.keep, 0 ≤ keep

/-- The cutoff is a date, and the number of runs to keep is an offset. -/
structure PruneOptions.Dated (host : StatsHost) (now : Int) (opts : PruneOptions) : Prop where
  cutoff : ∀ days ∈ opts.olderThanDays, (host.isoTime (now - days * 86400000)).isSome = true
  whole : ∀ keep ∈ opts.keep, keep.isInt = true ∧ keep < 2 ^ 63

namespace UsageDatabase

section Candidates

variable {host : StatsHost} {db : UsageDatabase} {now : Int} {opts : PruneOptions} {ids : List String} {entry : String × RunRow}

theorem filter_sound {option : Option Rat} (sound : ∀ value ∈ option, 0 ≤ value) : option.filter (0 ≤ ·) = option := by
  cases option with
  | none => rfl
  | some value => exact Option.filter_some_pos (decide_eq_true (sound value rfl))

theorem mem_ended : entry ∈ db.ended ↔ entry ∈ db.runs.entries ∧ active entry.2.state = false := by
  rw [ended, List.mem_filter, Bool.not_eq_true']

theorem newestFirst_falling (distinct : db.DistinctTimes) : (newestFirst db.ended).Pairwise fun one other =>
    decide (other.2.createdAt < one.2.createdAt) = true ∧ decide (one.2.createdAt < other.2.createdAt) = false := by
  have sorted : (newestFirst db.ended).Pairwise fun one other => decide (other.2.createdAt ≤ one.2.createdAt) = true := by
    apply List.pairwise_mergeSort
    · intro one other third first second
      rw [decide_eq_true_eq] at first second ⊢
      exact String.le_trans second first
    · intro one other
      rw [Bool.or_eq_true, decide_eq_true_eq, decide_eq_true_eq]
      exact String.le_total _ _
  have apart : (newestFirst db.ended).Pairwise fun one other => one.2.createdAt ≠ other.2.createdAt := by
    have perm : (newestFirst db.ended).Perm db.ended := List.mergeSort_perm _ _
    refine (perm.pairwise_iff fun differ => differ.symm).mpr ?_
    exact List.pairwise_map.mp (distinct.sublist (List.filter_sublist.map _))
  refine (sorted.and apart).imp fun {one other} pair => ?_
  have below := of_decide_eq_true pair.1
  exact ⟨decide_eq_true (String.not_le.mp fun reverse => pair.2 (String.le_antisymm reverse below)),
    decide_eq_false (String.not_lt.mpr below)⟩

theorem mem_excess (distinct : db.DistinctTimes) {keep : Rat} (positive : 0 ≤ keep) (whole : keep.isInt = true) :
    entry ∈ (newestFirst db.ended).drop keep.num.toNat ↔ entry ∈ db.ended ∧
      keep ≤ ((db.ended.countP fun other => decide (entry.2.createdAt < other.2.createdAt) : Nat) : Rat) := by
  have perm : (newestFirst db.ended).Perm db.ended := List.mergeSort_perm _ _
  rw [Rank.mem_drop_iff (fun one other => decide (one.2.createdAt < other.2.createdAt)) (newestFirst_falling distinct)
    (fun _ => decide_eq_false (String.lt_irrefl _)), perm.mem_iff, perm.countP_eq]
  refine and_congr_right fun _ => ?_
  have value : (keep.num : Rat) = keep := Rat.den_eq_one_iff _ |>.mp (beq_iff_eq.mp whole)
  have number : 0 ≤ keep.num := Rat.num_nonneg.mpr positive
  rw [Int.toNat_le, ← value]
  norm_cast

def outdatedIds (host : StatsHost) (db : UsageDatabase) (now : Int) : Option Rat → Option (List String)
  | none => some []
  | some days => (host.isoTime (now - days * 86400000)).map fun cutoff =>
      (db.ended.filter fun entry => entry.2.createdAt < cutoff).map Prod.fst

def surplusIds (db : UsageDatabase) : Option Rat → Option (List String)
  | none => some []
  | some keep => (Sqlite.offset keep).map fun kept => ((newestFirst db.ended).drop kept).map Prod.fst

theorem candidates_eq (sound : opts.Sound) : db.pruneCandidates host now opts =
    (outdatedIds host db now opts.olderThanDays).bind fun old =>
      (surplusIds db opts.keep).map fun excess => Distinct.enterAll (· == ·) [] (old ++ excess) := by
  unfold pruneCandidates
  rw [filter_sound sound.days, filter_sound sound.keep]
  cases opts.keep with
  | none => cases opts.olderThanDays <;> rfl
  | some keep =>
    cases isOffset : Sqlite.offset keep with
    | none =>
      simp only [surplusIds, isOffset]
      cases opts.olderThanDays <;> rfl
    | some kept =>
      simp only [surplusIds, isOffset]
      cases opts.olderThanDays <;> rfl

theorem outdatedIds_isSome {days : Option Rat} : (outdatedIds host db now days).isSome = true ↔
    ∀ count ∈ days, (host.isoTime (now - count * 86400000)).isSome = true := by
  cases days with
  | none => simp [outdatedIds]
  | some count => simp [outdatedIds]

theorem surplusIds_isSome {keep : Option Rat} :
    (surplusIds db keep).isSome = true ↔ ∀ count ∈ keep, count.isInt = true ∧ count < 2 ^ 63 := by
  cases keep with
  | none => simp [surplusIds]
  | some count => simp [surplusIds, Sqlite.offset]

theorem candidates_isSome (sound : opts.Sound) : (db.pruneCandidates host now opts).isSome = true ↔ opts.Dated host now := by
  rw [candidates_eq sound]
  constructor
  · intro found
    obtain ⟨ids, found⟩ := Option.isSome_iff_exists.mp found
    obtain ⟨old, isOld, rest⟩ := Option.bind_eq_some_iff.mp found
    obtain ⟨excess, isExcess, _⟩ := Option.map_eq_some_iff.mp rest
    exact ⟨outdatedIds_isSome.mp (Option.isSome_iff_exists.mpr ⟨old, isOld⟩),
      surplusIds_isSome.mp (Option.isSome_iff_exists.mpr ⟨excess, isExcess⟩)⟩
  · rintro ⟨cutoff, whole⟩
    obtain ⟨old, isOld⟩ := Option.isSome_iff_exists.mp ((@outdatedIds_isSome host db now _).mpr cutoff)
    obtain ⟨excess, isExcess⟩ := Option.isSome_iff_exists.mp ((@surplusIds_isSome db _).mpr whole)
    rw [isOld, isExcess]
    rfl

theorem mem_ids {chosen : List (String × RunRow)} (known : ∀ other ∈ chosen, other ∈ db.runs.entries)
    (present : entry ∈ db.runs.entries) : entry.1 ∈ chosen.map Prod.fst ↔ entry ∈ chosen := by
  rw [List.mem_map]
  constructor
  · rintro ⟨other, isChosen, same⟩
    rwa [← List.inj_on_of_nodup_map db.runs.distinct (known other isChosen) present same]
  · intro isChosen
    exact ⟨entry, isChosen, rfl⟩

theorem mem_outdatedIds {days : Option Rat} (found : outdatedIds host db now days = some ids) (present : entry ∈ db.runs.entries) :
    entry.1 ∈ ids ↔ active entry.2.state = false ∧ days.any (fun count =>
      (host.isoTime (now - count * 86400000)).any fun cutoff => decide (entry.2.createdAt < cutoff)) = true := by
  cases days with
  | none =>
    cases found
    simp
  | some count =>
    obtain ⟨cutoff, isCutoff, rfl⟩ := Option.map_eq_some_iff.mp found
    rw [mem_ids (fun other isOld => (mem_ended.mp (List.mem_filter.mp isOld).1).1) present, List.mem_filter, mem_ended]
    simp [isCutoff, present]

theorem mem_surplusIds (distinct : db.DistinctTimes) {keep : Option Rat} (positive : ∀ count ∈ keep, 0 ≤ count)
    (found : surplusIds db keep = some ids) (present : entry ∈ db.runs.entries) :
    entry.1 ∈ ids ↔ active entry.2.state = false ∧ keep.any (fun count =>
      decide (count ≤ ((db.ended.countP fun other => decide (entry.2.createdAt < other.2.createdAt) : Nat) : Rat))) = true := by
  cases keep with
  | none =>
    cases found
    simp
  | some count =>
    obtain ⟨kept, isOffset, isExcess⟩ := Option.map_eq_some_iff.mp found
    obtain ⟨⟨whole, _⟩, isKept⟩ := Option.ite_none_right_eq_some.mp isOffset
    rw [← Option.some.inj isKept] at isExcess
    have known : ∀ other ∈ (newestFirst db.ended).drop count.num.toNat, other ∈ db.runs.entries := fun other isLater =>
      (mem_ended.mp ((List.mergeSort_perm _ _).mem_iff.mp (List.mem_of_mem_drop isLater))).1
    rw [← isExcess, mem_ids known present, mem_excess distinct (positive count rfl) whole, mem_ended, Option.any_some,
      decide_eq_true_eq]
    exact and_congr_left fun _ => and_iff_right present

theorem mem_candidates (distinct : db.DistinctTimes) (sound : opts.Sound) (found : db.pruneCandidates host now opts = some ids)
    (present : entry ∈ db.runs.entries) : entry.1 ∈ ids ↔ db.doomed host now opts entry = true := by
  rw [candidates_eq sound] at found
  obtain ⟨old, isOld, rest⟩ := Option.bind_eq_some_iff.mp found
  obtain ⟨excess, isExcess, rfl⟩ := Option.map_eq_some_iff.mp rest
  have entered : entry.1 ∈ Distinct.enterAll (· == ·) [] (old ++ excess) ↔ entry.1 ∈ old ++ excess := by
    constructor
    · intro isId
      exact (Distinct.mem_enterAll isId).resolve_left List.not_mem_nil
    · intro listed
      obtain ⟨same, isId, equal⟩ := @Distinct.enterAll_represents _ (· == ·) (fun item => beq_self_eq_true item) (old ++ excess) []
        entry.1 listed
      rwa [beq_iff_eq.mp equal] at isId
  rw [entered, List.mem_append, mem_outdatedIds isOld present, mem_surplusIds distinct sound.keep isExcess present, ← and_or_left,
    doomed, Bool.and_eq_true, Bool.or_eq_true, Bool.not_eq_true']
  rfl

theorem outdatedIds_known {days : Option Rat} (found : outdatedIds host db now days = some ids) : ids ⊆ db.runs.keys := by
  cases days with
  | none =>
    cases found
    exact List.nil_subset _
  | some count =>
    obtain ⟨cutoff, _, rfl⟩ := Option.map_eq_some_iff.mp found
    exact List.map_subset _ fun _ isOld => (mem_ended.mp (List.mem_filter.mp isOld).1).1

theorem surplusIds_known {keep : Option Rat} (found : surplusIds db keep = some ids) : ids ⊆ db.runs.keys := by
  cases keep with
  | none =>
    cases found
    exact List.nil_subset _
  | some count =>
    obtain ⟨kept, _, rfl⟩ := Option.map_eq_some_iff.mp found
    refine List.map_subset _ fun _ isLater => ?_
    exact (mem_ended.mp ((List.mergeSort_perm _ _).mem_iff.mp (List.mem_of_mem_drop isLater))).1

theorem candidates_length (distinct : db.DistinctTimes) (sound : opts.Sound) (found : db.pruneCandidates host now opts = some ids) :
    ids.length = db.runs.entries.countP (db.doomed host now opts) := by
  have known : ids ⊆ db.runs.keys ∧ ids.Nodup := by
    have listed := found
    rw [candidates_eq sound] at listed
    obtain ⟨old, isOld, rest⟩ := Option.bind_eq_some_iff.mp listed
    obtain ⟨excess, isExcess, rfl⟩ := Option.map_eq_some_iff.mp rest
    refine ⟨fun runId isId => ?_, Distinct.nodup_enterAll List.nodup_nil⟩
    rcases List.mem_append.mp ((Distinct.mem_enterAll isId).resolve_left List.not_mem_nil) with early | late
    · exact outdatedIds_known isOld early
    · exact surplusIds_known isExcess late
  have doomed : ((db.runs.entries.filter (db.doomed host now opts)).map Prod.fst).Nodup :=
    db.runs.distinct.sublist (List.filter_sublist.map _)
  have same : ids.Perm ((db.runs.entries.filter (db.doomed host now opts)).map Prod.fst) := by
    refine (List.perm_ext_iff_of_nodup known.2 doomed).mpr fun runId => ?_
    rw [List.mem_map]
    constructor
    · intro isId
      obtain ⟨entry, present, rfl⟩ := List.mem_map.mp (known.1 isId)
      exact ⟨entry, List.mem_filter.mpr ⟨present, (mem_candidates distinct sound found present).mp isId⟩, rfl⟩
    · rintro ⟨entry, isDoomed, rfl⟩
      obtain ⟨present, chosen⟩ := List.mem_filter.mp isDoomed
      exact (mem_candidates distinct sound found present).mpr chosen
  rw [same.length_eq, List.length_map, List.countP_eq_length_filter]

theorem contains_candidates (distinct : db.DistinctTimes) (sound : opts.Sound)
    (found : db.pruneCandidates host now opts = some ids) (present : entry ∈ db.runs.entries) :
    ids.contains entry.1 = db.doomed host now opts entry := by
  rw [Bool.eq_iff_iff, List.contains_iff_mem]
  exact mem_candidates distinct sound found present

end Candidates

section Removal

variable {host : StatsHost} {db : UsageDatabase} {now : Int} {opts : PruneOptions} {ids : List String}

theorem gone_contains {doomed : String × RunRow → Bool} (agree : ∀ entry ∈ db.runs.entries, ids.contains entry.1 = doomed entry)
    (runId : String) : ((db.runs.entries.filter fun entry => ids.contains entry.1).map Prod.fst).contains runId =
      db.runs.entries.any fun entry => entry.1 == runId && doomed entry := by
  rw [Bool.eq_iff_iff, List.contains_iff_mem, List.any_eq_true, List.mem_map]
  simp only [List.mem_filter, Bool.and_eq_true, beq_iff_eq]
  constructor
  · rintro ⟨entry, ⟨present, chosen⟩, same⟩
    rw [agree entry present] at chosen
    exact ⟨entry, present, same, chosen⟩
  · rintro ⟨entry, present, same, chosen⟩
    rw [← agree entry present] at chosen
    exact ⟨entry, ⟨present, chosen⟩, same⟩

theorem doomedId_own {entry : String × RunRow} (present : entry ∈ db.runs.entries) :
    db.doomedId host now opts entry.1 = db.doomed host now opts entry := by
  rw [Bool.eq_iff_iff, doomedId, List.any_eq_true]
  simp only [Bool.and_eq_true, beq_iff_eq]
  constructor
  · rintro ⟨other, isOther, same, chosen⟩
    rwa [List.inj_on_of_nodup_map db.runs.distinct isOther present same] at chosen
  · intro chosen
    exact ⟨entry, present, rfl, chosen⟩

structure Cleared (host : StatsHost) (db : UsageDatabase) (now : Int) (opts : PruneOptions) (after : UsageDatabase) : Prop where
  runs : after.runs.entries = db.runs.entries.filter fun entry => !db.doomed host now opts entry
  usage : after.tokenUsage = db.tokenUsage.filter fun row => !db.doomedId host now opts row.runId
  samples : after.resourceSamples = db.resourceSamples.filter fun row => !db.doomedId host now opts row.runId
  others : after.toUsageStore = db.toUsageStore ∧ after.settings = db.settings ∧ after.limits = db.limits

theorem removeRuns_cleared {removed : Mutated} (removes : db.removeRuns ids = some removed)
    (agree : ∀ entry ∈ db.runs.entries, ids.contains entry.1 = db.doomed host now opts entry) :
    Cleared host db now opts removed.db := by
  have gone := gone_contains agree
  obtain ⟨_, isRemoved⟩ := Option.ite_none_left_eq_some.mp removes
  rw [← Option.some.inj isRemoved]
  refine ⟨?_, ?_, ?_, rfl, rfl, rfl⟩
  · refine List.filter_congr fun entry present => ?_
    rw [gone]
    exact congrArg (!·) (doomedId_own present)
  · exact List.filter_congr fun row _ => congrArg (!·) (gone row.runId)
  · exact List.filter_congr fun row _ => congrArg (!·) (gone row.runId)

theorem cleared_of_none (agree : ∀ entry ∈ db.runs.entries, db.doomed host now opts entry = false) : Cleared host db now opts db := by
  have none : ∀ runId, db.doomedId host now opts runId = false := by
    intro runId
    rw [doomedId, List.any_eq_false]
    intro entry present
    rw [agree entry present]
    simp
  refine ⟨?_, ?_, ?_, rfl, rfl, rfl⟩
  · rw [eq_comm, List.filter_eq_self]
    intro entry present
    rw [agree entry present]
    rfl
  · rw [eq_comm, List.filter_eq_self]
    intro row _
    rw [none]
    rfl
  · rw [eq_comm, List.filter_eq_self]
    intro row _
    rw [none]
    rfl

theorem removeRuns_isSome : (db.removeRuns ids).isSome = true ↔ ids.length ≤ Sqlite.maxVariables := by
  unfold removeRuns
  split
  · rename_i exceeds
    exact iff_of_false (by simp) (Nat.not_le.mpr exceeds)
  · rename_i fits
    exact iff_of_true rfl (Nat.le_of_not_lt fits)

theorem prune_cleared (distinct : db.DistinctTimes) (sound : opts.Sound) (found : db.pruneCandidates host now opts = some ids)
    (fits : ids.length ≤ Sqlite.maxVariables) : Cleared host db now opts (db.prune host now opts).db := by
  have agree : ∀ entry ∈ db.runs.entries, ids.contains entry.1 = db.doomed host now opts entry :=
    fun entry present => contains_candidates distinct sound found present
  obtain ⟨removed, removes⟩ := Option.isSome_iff_exists.mp (@removeRuns_isSome db ids |>.mpr fits)
  unfold prune
  rw [found]
  cases ids with
  | nil => exact cleared_of_none fun entry present => (agree entry present).symm
  | cons first rest =>
    dsimp only
    rw [removes]
    exact removeRuns_cleared removes agree

theorem removedRows_eq (distinct : db.DistinctTimes) (sound : opts.Sound) (found : db.pruneCandidates host now opts = some ids) :
    db.removedRows ids = db.runs.entries.countP (db.doomed host now opts) :=
  List.countP_congr fun entry present => by rw [contains_candidates distinct sound found present]

theorem countP_add_kept {α : Type} (chosen : α → Bool) (items : List α) :
    items.countP chosen + (items.filter fun item => !chosen item).length = items.length := by
  rw [← List.countP_eq_length_filter, List.length_eq_countP_add_countP chosen]
  congr 1
  exact List.countP_congr fun item _ => by simp

theorem pruneReport_eq_some {result : UsageDatabase × PruneReport} : db.pruneReport host now opts = some result ↔
    ∃ ids, db.pruneCandidates host now opts = some ids ∧ ids.length ≤ Sqlite.maxVariables ∧
      result = ((db.prune host now opts).db, ⟨db.removedRows ids, db.removedRows ids⟩) := by
  constructor
  · intro reported
    obtain ⟨ids, found, rest⟩ := Option.bind_eq_some_iff.mp reported
    obtain ⟨removed, removes, isResult⟩ := Option.bind_eq_some_iff.mp rest
    exact ⟨ids, found, removeRuns_isSome.mp (Option.isSome_iff_exists.mpr ⟨removed, removes⟩), (Option.some.inj isResult).symm⟩
  · rintro ⟨ids, found, fits, rfl⟩
    obtain ⟨removed, removes⟩ := Option.isSome_iff_exists.mp (@removeRuns_isSome db ids |>.mpr fits)
    simp [pruneReport, found, removes]

/-- `prune` is exact when its dates and numbers are ones, one statement can name the runs that it removes, and these have
    one usage row each on average. -/
theorem prunesExactly_iff (distinct : db.DistinctTimes) (sound : opts.Sound) : db.PrunesExactly host now opts ↔
    opts.Dated host now ∧ db.runs.entries.countP (db.doomed host now opts) ≤ Sqlite.maxVariables ∧
      db.tokenUsage.countP (fun row => db.doomedId host now opts row.runId) = db.runs.entries.countP (db.doomed host now opts) := by
  constructor
  · rintro ⟨after, report, reported, runs, usage, _, _, _, usageRemoved⟩
    obtain ⟨ids, found, fits, result⟩ := pruneReport_eq_some.mp reported
    obtain ⟨rfl, rfl⟩ := Prod.mk.inj result
    rw [candidates_length distinct sound found] at fits
    refine ⟨(candidates_isSome sound).mp (Option.isSome_iff_exists.mpr ⟨ids, found⟩), fits, ?_⟩
    have whole := countP_add_kept (fun row : TokenUsageRow => db.doomedId host now opts row.runId) db.tokenUsage
    have removed := removedRows_eq distinct sound found
    rw [usage] at usageRemoved
    dsimp only at usageRemoved
    omega
  · rintro ⟨dated, fits, counts⟩
    obtain ⟨ids, found⟩ := Option.isSome_iff_exists.mp ((candidates_isSome sound).mpr dated)
    rw [← candidates_length distinct sound found] at fits
    have cleared := prune_cleared distinct sound found fits
    have removed := removedRows_eq distinct sound found
    have runs := countP_add_kept (db.doomed host now opts) db.runs.entries
    have usage := countP_add_kept (fun row : TokenUsageRow => db.doomedId host now opts row.runId) db.tokenUsage
    refine ⟨_, _, pruneReport_eq_some.mpr ⟨ids, found, fits, rfl⟩, cleared.runs, cleared.usage, cleared.samples, cleared.others,
      ?_, ?_⟩
    · rw [cleared.runs]
      dsimp only
      omega
    · rw [cleared.usage]
      dsimp only
      omega

private def dateless : StatsHost where
  isoDate _ := none
  isoTime _ := none
  dateParse _ := none
  clockText _ := ""
  dayStart _ := ""
  number _ := none

private def usageOf (runId model : String) : TokenUsageRow := ⟨runId, "openai", model, 1, 1, 0, 0, none, none, "2026"⟩

private def endedWith (rows : List TokenUsageRow) : UsageDatabase where
  runs := ⟨[("r1", ⟨"a/b@1", "1", "cli", "process", "exited", "ok", none, none, none, none, none, "2026", "2026", none⟩)], by decide⟩
  tokenUsage := rows

private theorem keepNone_sound : PruneOptions.Sound { keep := some 0 } := by
  constructor
  · intro days given
    cases given
  · intro keep given
    cases given
    exact le_refl 0

theorem prunesExactly_single : (endedWith [usageOf "r1" "m"]).PrunesExactly dateless 0 { keep := some 0 } := by
  refine (prunesExactly_iff (by decide) keepNone_sound).mpr ⟨⟨?_, ?_⟩, by decide +kernel, by decide +kernel⟩
  · intro days given
    cases given
  · intro keep given
    cases given
    exact ⟨rfl, by decide⟩

/-- Two usage rows go with one run, and the report says one. -/
theorem prune_miscounts_usage : (endedWith [usageOf "r1" "m", usageOf "r1" "n"]).DistinctTimes ∧
    PruneOptions.Sound { keep := some 0 } ∧
      ¬ (endedWith [usageOf "r1" "m", usageOf "r1" "n"]).PrunesExactly dateless 0 { keep := some 0 } := by
  refine ⟨by decide, keepNone_sound, ?_⟩
  rintro ⟨after, report, reported, _, _, _, _, _, usageRemoved⟩
  have shape : ((endedWith [usageOf "r1" "m", usageOf "r1" "n"]).pruneReport dateless 0 { keep := some 0 }).map (fun result =>
      (result.2, result.1.tokenUsage.length)) = some (⟨1, 1⟩, 0) := by decide +kernel
  rw [reported, Option.map_some, Option.some.injEq, Prod.mk.injEq] at shape
  dsimp only at shape
  rw [shape.1, shape.2] at usageRemoved
  exact absurd usageRemoved (by decide)

end Removal

end UsageDatabase

end Runtime
