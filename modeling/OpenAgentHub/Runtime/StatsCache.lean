import OpenAgentHub.Lib.Runs
import OpenAgentHub.Lib.Text
import OpenAgentHub.Runtime.UsageStats

namespace Runtime

inductive Mutation where
  | syncRun (run : RunFacts)
  | recordUsage (sample : UsageSample)
  | recordResourceSample (sample : ResourceSample)
  | setSetting (key value : String)
  | recordExternal (obs : UsageObservation)
  | upsertLimit (obs : LimitRow)
  | clearProviderUsage (provider : ProviderName)
  | setSourceCursor (source : String) (cursor : SourceCursor)
  | setCodexTotal (source model : String) (total : CodexTotal)
  | prune (opts : PruneOptions)
  | pruneById (runId : String)
  | pruneBySettings
  | deleteAll

/-- One that throws changes nothing and does not call `touch`. -/
def Mutation.apply (host : StatsHost) (db : UsageDatabase) (now : Int) : Mutation → Mutated
  | .syncRun run => db.syncRun run
  | .recordUsage sample => db.recordUsage host now sample
  | .recordResourceSample sample => db.recordResourceSample host now sample
  | .setSetting key value => db.setSetting key value
  | .recordExternal obs => db.recordExternalRow host now obs
  | .upsertLimit obs => db.upsertLimit obs
  | .clearProviderUsage provider => db.clearProviderUsage provider
  | .setSourceCursor source cursor => db.setCursor source cursor
  | .setCodexTotal source model total => db.setCodexTotal source model total
  | .prune opts => db.prune host now opts
  | .pruneById runId => db.pruneById runId
  | .pruneBySettings => db.pruneBySettings host now
  | .deleteAll => UsageDatabase.deleteAll

structure CacheEntry where
  time : Int
  stats : UsageStats

def CacheEntry.serves (entry : CacheEntry) (lastEventAt : Option String) (ttlMs now : Int) : Bool :=
  decide (now - entry.time < ttlMs) && entry.stats.lastEventAt == lastEventAt

def cacheKey (cacheKeyVersion : Nat) (range : StatsRange) : String :=
  toString cacheKeyVersion ++ "|" ++ range.start.getD "" ++ "|" ++ range.stop.getD "" ++ "|" ++ range.agent.getD ""

/-- The store of a process with the variables of the statistics module. -/
structure StatsSession where
  db : UsageDatabase
  cache : Record CacheEntry := {}
  /-- Whether `storeSnapshot` is this store. -/
  snapshot : Bool := false
  cacheKeyVersion : Nat := 0

namespace StatsSession

def invalidateUsageStats (session : StatsSession) : StatsSession :=
  { session with cache := {}, cacheKeyVersion := session.cacheKeyVersion + 1 }

def mutate (session : StatsSession) (mutated : Mutated) : StatsSession :=
  if mutated.touched then { session with db := mutated.db }.invalidateUsageStats else { session with db := mutated.db }

def takeStore (session : StatsSession) : StatsSession :=
  if session.snapshot then session else { session with cache := {}, snapshot := true }

def cached (session : StatsSession) (range : StatsRange) (ttlMs now : Int) : Option CacheEntry :=
  (session.cache.get (cacheKey session.cacheKeyVersion range)).filter (·.serves session.db.lastEventAt ttlMs now)

def getUsageStats (host : StatsHost) (session : StatsSession) (range : StatsRange) (ttlMs now : Int) :
    StatsSession × Option UsageStats :=
  let session := session.takeStore
  match session.cached range ttlMs now with
  | some entry => (session, some entry.stats)
  | none =>
    match computeUsageStats host session.db range now with
    | none => (session, none)
    | some stats =>
      ({ session with cache := session.cache.set (cacheKey session.cacheKeyVersion range) ⟨now, stats⟩ }, some stats)

end StatsSession

inductive StatsCall where
  | mutate (mutation : Mutation) (now : Int)
  | getUsageStats (range : StatsRange) (ttlMs now : Int)
  | invalidateUsageStats

def StatsCall.serve (host : StatsHost) (session : StatsSession) : StatsCall → StatsSession
  | .mutate mutation now => session.mutate (mutation.apply host session.db now)
  | .getUsageStats range ttlMs now => (session.getUsageStats host range ttlMs now).1
  | .invalidateUsageStats => session.invalidateUsageStats

/-- The statistics are those of the store at that moment, apart from what depends on the clock. -/
def StatsCall.Transparent (host : StatsHost) (session : StatsSession) : StatsCall → Prop
  | .getUsageStats range ttlMs now =>
    (session.getUsageStats host range ttlMs now).2.map UsageStats.untimed =
      (computeUsageStats host session.db range now).map UsageStats.untimed
  | _ => True

/-- A stored run is updated only behind entries that the update outdates or
    whose rows it leaves alone. -/
def Mutation.Spares (host : StatsHost) (session : StatsSession) : Mutation → Prop
  | .syncRun run =>
    let after := (session.db.syncRun run).db
    (session.db.runs.get run.runId).isSome = true → ∀ entry ∈ session.cache.entries,
      entry.2.stats.lastEventAt = after.lastEventAt →
        entry.2.stats.lastEventAt = session.db.lastEventAt ∧
          selectRuns host after.runs entry.2.stats.range = selectRuns host session.db.runs entry.2.stats.range
  | _ => True

/-- And no entry is served under the key of another range. -/
def StatsCall.Safe (host : StatsHost) (session : StatsSession) : StatsCall → Prop
  | .mutate mutation _ => mutation.Spares host session
  | .getUsageStats range ttlMs now =>
    ∀ entry ∈ session.takeStore.cached range ttlMs now, entry.stats.range = range
  | .invalidateUsageStats => True

instance (host : StatsHost) (session : StatsSession) (mutation : Mutation) : Decidable (mutation.Spares host session) :=
  match mutation with
  | .syncRun _ => inferInstanceAs (Decidable (_ → ∀ _ ∈ _, _ → _ ∧ _))
  | .recordUsage _ | .recordResourceSample _ | .setSetting _ _ | .recordExternal _ | .upsertLimit _
  | .clearProviderUsage _ | .setSourceCursor _ _ | .setCodexTotal _ _ _ | .prune _ | .pruneById _ | .pruneBySettings
  | .deleteAll => .isTrue trivial

instance (host : StatsHost) (session : StatsSession) (call : StatsCall) : Decidable (call.Safe host session) :=
  match call with
  | .mutate mutation _ => inferInstanceAs (Decidable (mutation.Spares host session))
  | .getUsageStats _ _ _ => inferInstanceAs (Decidable (∀ _ ∈ _, _))
  | .invalidateUsageStats => .isTrue trivial

/-! ### What a mutation without `touch` leaves alone -/

structure SameReads (before after : UsageDatabase) : Prop where
  runs : after.runs = before.runs
  usage : after.tokenUsage = before.tokenUsage

theorem SameReads.lastEventAt {before after : UsageDatabase} (same : SameReads before after) :
    after.lastEventAt = before.lastEventAt := by
  unfold UsageDatabase.lastEventAt
  rw [same.runs, same.usage]

section Untouched

variable {host : StatsHost} {db : UsageDatabase} {now : Int}

theorem removeRuns_untouched {ids : List String} (quiet : ((db.removeRuns ids).getD ⟨db, false⟩).touched = false) :
    SameReads db ((db.removeRuns ids).getD ⟨db, false⟩).db := by
  unfold UsageDatabase.removeRuns at quiet ⊢
  split
  · exact ⟨rfl, rfl⟩
  · rename_i fits
    rw [if_neg fits, Option.getD_some, Bool.not_eq_false', List.isEmpty_iff] at quiet
    dsimp only [Option.getD_some]
    rw [quiet]
    constructor
    · exact Record.discard_none fun _ _ => rfl
    · exact List.filter_eq_self.mpr fun _ _ => rfl

theorem prune_untouched {opts : PruneOptions} (quiet : (db.prune host now opts).touched = false) :
    SameReads db (db.prune host now opts).db := by
  unfold UsageDatabase.prune at quiet ⊢
  split at quiet
  · exact ⟨rfl, rfl⟩
  · exact ⟨rfl, rfl⟩
  · exact removeRuns_untouched quiet

theorem pruneBySettings_untouched (quiet : (db.pruneBySettings host now).touched = false) :
    SameReads db (db.pruneBySettings host now).db := by
  unfold UsageDatabase.pruneBySettings at quiet ⊢
  dsimp only at quiet ⊢
  split at quiet
  · rename_i unset
    rw [if_pos unset]
    exact ⟨rfl, rfl⟩
  · rename_i set
    rw [if_neg set]
    exact prune_untouched quiet

/-- Only an update of a stored run changes what the statistics read without `touch`. -/
theorem apply_untouched {mutation : Mutation} (quiet : (mutation.apply host db now).touched = false) :
    SameReads db (mutation.apply host db now).db ∨
      ∃ run, mutation = .syncRun run ∧ (db.runs.get run.runId).isSome = true := by
  cases mutation with
  | syncRun run =>
    right
    refine ⟨run, rfl, ?_⟩
    rw [← Option.not_isNone]
    exact (congrArg Bool.not quiet).trans rfl
  | recordUsage sample => cases quiet
  | prune opts => exact Or.inl (prune_untouched quiet)
  | pruneById runId => exact Or.inl (removeRuns_untouched quiet)
  | pruneBySettings => exact Or.inl (pruneBySettings_untouched quiet)
  | deleteAll => cases quiet
  | recordResourceSample | setSetting | recordExternal | upsertLimit | clearProviderUsage | setSourceCursor
  | setCodexTotal => exact Or.inl ⟨rfl, rfl⟩

end Untouched

/-! ### Coherence of the cache -/

def Coherent (host : StatsHost) (session : StatsSession) : Prop :=
  ∀ key entry, session.cache.get key = some entry → entry.stats.lastEventAt = session.db.lastEventAt →
    ∀ now, (computeUsageStats host session.db entry.stats.range now).map UsageStats.untimed = some entry.stats.untimed

section Coherence

variable {host : StatsHost} {session : StatsSession} {range : StatsRange} {ttlMs now : Int} {entry : CacheEntry}

theorem coherent_empty {db : UsageDatabase} {snapshot : Bool} {version : Nat} :
    Coherent host ⟨db, {}, snapshot, version⟩ := by
  intro key entry found
  cases found

theorem Coherent.same {db : UsageDatabase} (coherent : Coherent host session) (same : SameReads session.db db) :
    Coherent host { session with db := db } := by
  intro key entry found latest now
  have rows : selectRuns host db.runs entry.stats.range = selectRuns host session.db.runs entry.stats.range := by
    rw [same.runs]
  have before := coherent key entry found (latest.trans same.lastEventAt) now
  rw [← before]
  exact congrArg _ (computeUsageStats_congr rows same.usage same.lastEventAt)

theorem Coherent.syncRun {run : RunFacts} (coherent : Coherent host session)
    (spares : (Mutation.syncRun run).Spares host session) (stored : (session.db.runs.get run.runId).isSome = true) :
    Coherent host { session with db := (session.db.syncRun run).db } := by
  intro key entry found latest now
  obtain ⟨fresh, rows⟩ := spares stored (key, entry) (Record.mem_of_get found) latest
  have before := coherent key entry found fresh now
  rw [← before]
  exact congrArg _ (computeUsageStats_congr rows rfl (latest.symm.trans fresh))

theorem Coherent.mutate {mutation : Mutation} (coherent : Coherent host session)
    (spares : mutation.Spares host session) :
    Coherent host (session.mutate (mutation.apply host session.db now)) := by
  unfold StatsSession.mutate
  cases touched : (mutation.apply host session.db now).touched with
  | true => exact coherent_empty
  | false =>
    rcases apply_untouched touched with same | ⟨run, rfl, stored⟩
    · exact coherent.same same
    · exact coherent.syncRun spares stored

theorem takeStore_db : session.takeStore.db = session.db := by
  unfold StatsSession.takeStore
  split <;> rfl

theorem Coherent.takeStore (coherent : Coherent host session) : Coherent host session.takeStore := by
  unfold StatsSession.takeStore
  split
  · exact coherent
  · exact coherent_empty

theorem Coherent.getUsageStats (coherent : Coherent host session) :
    Coherent host (session.getUsageStats host range ttlMs now).1 := by
  unfold StatsSession.getUsageStats
  dsimp only
  split
  · exact coherent.takeStore
  · split
    · exact coherent.takeStore
    · rename_i stats computed
      intro key entry found latest later
      dsimp only at found latest ⊢
      rw [Record.get_set] at found
      split at found
      · cases found
        rw [computed_range computed, untimed_computeUsageStats, computed]
        rfl
      · exact coherent.takeStore key entry found latest later

theorem Coherent.serve {call : StatsCall} (coherent : Coherent host session) (safe : call.Safe host session) :
    Coherent host (call.serve host session) := by
  cases call with
  | mutate mutation now => exact coherent.mutate safe
  | getUsageStats range ttlMs now => exact coherent.getUsageStats
  | invalidateUsageStats => exact coherent_empty

theorem Coherent.cached (coherent : Coherent host session) (found : session.cached range ttlMs now = some entry) :
    (computeUsageStats host session.db entry.stats.range now).map UsageStats.untimed = some entry.stats.untimed := by
  obtain ⟨stored, serves⟩ := Option.filter_eq_some_iff.mp found
  have latest := (Bool.and_eq_true_iff.mp serves).2
  exact coherent _ entry stored (beq_iff_eq.mp latest) now

theorem answer_of_miss (missed : session.takeStore.cached range ttlMs now = none) :
    (session.getUsageStats host range ttlMs now).2 = computeUsageStats host session.db range now := by
  unfold StatsSession.getUsageStats
  dsimp only
  rw [missed, takeStore_db]
  dsimp only
  cases computeUsageStats host session.db range now <;> rfl

theorem answer_of_hit (found : session.takeStore.cached range ttlMs now = some entry) :
    (session.getUsageStats host range ttlMs now).2 = some entry.stats := by
  unfold StatsSession.getUsageStats
  dsimp only
  rw [found]

/-- A request is answered with the statistics of the store exactly when no entry of another range answers it. -/
theorem transparent_iff (coherent : Coherent host session) :
    (StatsCall.getUsageStats range ttlMs now).Transparent host session ↔
      (StatsCall.getUsageStats range ttlMs now).Safe host session := by
  unfold StatsCall.Transparent StatsCall.Safe
  dsimp only
  cases found : session.takeStore.cached range ttlMs now with
  | none =>
    rw [answer_of_miss found]
    exact iff_of_true rfl fun entry hit => nomatch hit
  | some entry =>
    rw [answer_of_hit found]
    have own := coherent.takeStore.cached found
    rw [takeStore_db] at own
    constructor
    · intro same other hit
      cases hit
      have whole : (computeUsageStats host session.db range now).map UsageStats.untimed = some entry.stats.untimed :=
        same.symm
      obtain ⟨stats, computed, equal⟩ := Option.map_eq_some_iff.mp whole
      rw [← computed_range computed]
      exact (congrArg UsageStats.range equal).symm
    · intro matched
      rw [← matched entry rfl, own]
      rfl

theorem Coherent.transparent {call : StatsCall} (coherent : Coherent host session) (safe : call.Safe host session) :
    call.Transparent host session := by
  cases call with
  | mutate mutation now => trivial
  | getUsageStats range ttlMs now => exact (transparent_iff coherent).mpr safe
  | invalidateUsageStats => trivial

end Coherence

/-- Every answer of a run is that of the store at its moment, where the
    updates of stored runs spare the cache and no range is served for another. -/
theorem stats_cache_transparent {host : StatsHost} {db : UsageDatabase} {calls : List StatsCall}
    (safe : Runs.AllMeet (fun session call => StatsCall.serve host session call)
      (fun session call => StatsCall.Safe host session call) ⟨db, {}, false, 0⟩ calls) :
    Runs.EachStep (fun session call => StatsCall.serve host session call)
      (fun session call _ => StatsCall.Transparent host session call) ⟨db, {}, false, 0⟩ calls :=
  safe.eachStep_of_kept (Coherent host) (fun _ _ coherent met => coherent.serve met)
    (fun _ _ coherent met => coherent.transparent met) coherent_empty

section Runs

private def plainHost : StatsHost where
  isoDate text := if Text.startsWith text "20" then some text else none
  isoTime _ := none
  dateParse _ := none
  clockText _ := "2026-01-02T00:00:00.000Z"
  dayStart _ := "2026-01-02T00:00:00.000Z"
  number _ := none

private def sampleRun (state : String) : RunFacts where
  runId := "run-1"
  agentKey := "demo/alpha"
  version := "1.0.0"
  interfaceName := "cli"
  sandbox := "process"
  state := state
  health := "ok"
  createdAt := "2026-01-01T10:00:00.000Z"
  startedAt := "2026-01-01T10:00:00.000Z"

/-- An update before the first request, one outside the cached range, and a request that the cache answers. -/
theorem stats_cache_transparent_example :
    Runs.EachStep (fun session call => StatsCall.serve plainHost session call)
      (fun session call _ => StatsCall.Transparent plainHost session call) ⟨{}, {}, false, 0⟩
      [.mutate (.syncRun (sampleRun "starting")) 0, .mutate (.syncRun (sampleRun "running")) 1,
       .getUsageStats { start := some "2026-01-02" } 5000 2, .mutate (.syncRun (sampleRun "exited")) 3,
       .getUsageStats { start := some "2026-01-02" } 5000 4, .getUsageStats {} 5000 5] :=
  stats_cache_transparent (by decide +kernel)

/-- A run that ends is still counted as running, and the ranges of an agent and of an invalid date share a key. -/
theorem stats_cache_stale :
    (¬ Runs.EachStep (fun session call => StatsCall.serve plainHost session call)
      (fun session call _ => StatsCall.Transparent plainHost session call) ⟨{}, {}, false, 0⟩
      [.mutate (.syncRun (sampleRun "running")) 0, .getUsageStats {} 5000 1,
       .mutate (.syncRun (sampleRun "exited")) 2, .getUsageStats {} 5000 3]) ∧
    ¬ Runs.EachStep (fun session call => StatsCall.serve plainHost session call)
      (fun session call _ => StatsCall.Transparent plainHost session call) ⟨{}, {}, false, 0⟩
      [.getUsageStats { agent := some "|demo" } 5000 0, .getUsageStats { stop := some "|", agent := some "demo" } 5000 1] := by
  constructor
  · rintro ⟨_, _, _, last, _⟩
    revert last
    unfold StatsCall.Transparent
    decide +kernel
  · rintro ⟨_, last, _⟩
    revert last
    unfold StatsCall.Transparent
    decide +kernel

end Runs

end Runtime
