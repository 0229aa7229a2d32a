import OpenAgentHub.Lib.Ledger
import OpenAgentHub.Lib.Runs
import OpenAgentHub.Registry.Downloads
import Mathlib.Algebra.Group.Nat.Defs

namespace Registry.Downloads

open Relational Ledger DownloadCountBuffer

def committedCount (db : Db) (versionId : Nat) : Nat :=
  ((db.agentVersions.byId versionId).map AgentVersion.downloadCount).getD 0

def committedTraffic (db : Db) (key : UsageKey) : Traffic :=
  ((monthlyUsage db key).map fun row => (row.downloadBytes, row.downloadCount)).getD 0

def Step.downloads (versionId : Nat) : Step → Nat
  | .record recorded _ _ _ => if recorded = versionId then 1 else 0
  | _ => 0

def Step.traffic (key : UsageKey) : Step → Traffic
  | .record _ (some organizationId) bytes period => if (organizationId, period) = key then (bytes, 1) else 0
  | _ => 0

section Commits

variable {db : Db}

def addDownloads (amount : Nat) (row : AgentVersion) : AgentVersion :=
  { row with downloadCount := row.downloadCount + amount }

theorem addDownloads_preserves (amount : Nat) : Table.Preserves (addDownloads amount) := fun _ => ⟨rfl, fun _ => rfl⟩

theorem setVersion_addDownloads (db : Db) (versionId amount other : Nat) :
    ((Packages.setVersion db versionId (addDownloads amount) (addDownloads_preserves amount)).agentVersions.byId
        other).map AgentVersion.downloadCount =
      ((db.agentVersions.byId other).map AgentVersion.downloadCount).map
        (if other = versionId then (· + amount) else id) := by
  rw [show (Packages.setVersion db versionId (addDownloads amount) (addDownloads_preserves amount)).agentVersions =
    db.agentVersions.modify (·.id == versionId) (addDownloads amount) (addDownloads_preserves amount) from rfl]
  rw [Table.byId_modify, Option.map_map, Option.map_map]
  apply Option.map_congr
  intro row found
  have isRow : row.id = other := (Table.byId_eq_some.mp found).2
  by_cases same : other = versionId
  · simp [isRow, same, addDownloads]
  · simp [isRow, same]

theorem flushDownloadCounts_at (counts : Dict Nat Nat) (db : Db) (versionId : Nat) :
    ((Packages.flushDownloadCounts db (counts.entries.map fun entry => (entry.1, entry.2))).agentVersions.byId
        versionId).map AgentVersion.downloadCount =
      ((db.agentVersions.byId versionId).map AgentVersion.downloadCount).map
        (· + (counts.lookup versionId).getD 0) := by
  have pass := Dict.foldl_at
    (fun db id amount => Packages.setVersion db id (addDownloads amount) (addDownloads_preserves amount))
    (fun db id => (db.agentVersions.byId id).map AgentVersion.downloadCount) (fun count amount => count.map (· + amount))
    (fun db id amount => by rw [setVersion_addDownloads, if_pos rfl])
    (fun db id amount other different => by rw [setVersion_addDownloads, if_neg different, Option.map_id]; rfl)
    counts db versionId
  unfold Packages.flushDownloadCounts
  rw [List.foldl_map]
  refine Eq.trans pass ?_
  cases counts.lookup versionId with
  | none => cases db.agentVersions.byId versionId <;> rfl
  | some amount => rfl

theorem monthlyUsage_eq_some {key : UsageKey} {row : OrgMonthlyUsage} (found : monthlyUsage db key = some row) :
    row ∈ db.orgMonthlyUsage.rows ∧ row.organizationId = key.1 ∧ row.period = key.2 := by
  refine ⟨Table.one_mem found, ?_⟩
  simpa using Table.one_holds found

theorem addTraffic_preserves (added : Traffic) : Table.Preserves (addTraffic added) := fun _ => ⟨rfl, fun _ => rfl⟩

/-- The branch of `_upsert_org_usage` that finds its row. -/
theorem monthlyUsage_addTraffic (db : Db) (id : Nat) (added : Traffic) (key : UsageKey) :
    monthlyUsage { db with orgMonthlyUsage := db.orgMonthlyUsage.modify (·.id == id) (addTraffic added) } key =
      (monthlyUsage db key).map fun row => if row.id == id then addTraffic added row else row :=
  Table.one_modify (addTraffic_preserves added) fun _ => rfl

theorem upsertOrgUsage_own (db : Db) (key : UsageKey) (added : Traffic) :
    committedTraffic (upsertOrgUsage db key added) key = committedTraffic db key + added := by
  unfold upsertOrgUsage
  split
  · rename_i missing
    split
    · rename_i row after inserted
      obtain ⟨_, _, rows, _⟩ := Table.insert_eq_some.mp inserted
      have found : monthlyUsage { db with orgMonthlyUsage := after } key = some
          { id := db.orgMonthlyUsage.next, organizationId := key.1, period := key.2
            downloadBytes := added.1, downloadCount := added.2 } := by
        show after.one _ = _
        rw [Table.one_append rows]
        rw [show db.orgMonthlyUsage.one (fun row => row.organizationId == key.1 && row.period == key.2) = none
          from missing]
        simp
      unfold committedTraffic
      rw [found, missing]
      exact (zero_add added).symm
    · rename_i clash
      have free := Table.one_none.mp missing
      exfalso
      unfold Table.insert at clash
      split at clash
      · cases clash
      · rename_i taken
        apply taken
        intro row stored
        exact free row stored
  · rename_i row found
    unfold committedTraffic
    rw [monthlyUsage_addTraffic, found]
    simp [addTraffic, Prod.ext_iff]

theorem upsertOrgUsage_others (db : Db) (key : UsageKey) (added : Traffic) (other : UsageKey) (different : other ≠ key) :
    committedTraffic (upsertOrgUsage db key added) other = committedTraffic db other := by
  have apart : ∀ row : OrgMonthlyUsage, row.organizationId = key.1 → row.period = key.2 →
      (row.organizationId == other.1 && row.period == other.2) = false := by
    intro row isOrganization isPeriod
    rw [isOrganization, isPeriod, Bool.and_eq_false_iff, beq_eq_false_iff_ne, beq_eq_false_iff_ne]
    by_contra same
    push Not at same
    exact different (Prod.ext same.1.symm same.2.symm)
  unfold upsertOrgUsage
  split
  · split
    · rename_i row after inserted
      obtain ⟨_, _, rows, _⟩ := Table.insert_eq_some.mp inserted
      have same : monthlyUsage { db with orgMonthlyUsage := after } other = monthlyUsage db other := by
        show after.one _ = _
        rw [Table.one_append rows, apart _ rfl rfl]
        simp [monthlyUsage]
      unfold committedTraffic
      rw [same]
    · rfl
  · rename_i row found
    obtain ⟨stored, isOrganization, isPeriod⟩ := monthlyUsage_eq_some found
    unfold committedTraffic
    rw [monthlyUsage_addTraffic, Option.map_map]
    congr 1
    apply Option.map_congr
    intro kept isFound
    have notRow : kept.id ≠ row.id := by
      intro equal
      have isRow : kept = row := Table.eq_of_id (Table.one_mem isFound) stored equal
      have holds := Table.one_holds isFound
      rw [isRow, apart row isOrganization isPeriod] at holds
      cases holds
    simp [notRow]

theorem Flush.apply_count (flush : Flush) (db : Db) (versionId : Nat)
    (existing : (db.agentVersions.byId versionId).isSome = true) :
    committedCount (flush.apply db) versionId = committedCount db versionId + (flush.counts.lookup versionId).getD 0 ∧
      ((flush.apply db).agentVersions.byId versionId).isSome = true := by
  have upserts : (flush.apply db).agentVersions =
      (Packages.flushDownloadCounts db (flush.counts.entries.map fun entry => (entry.1, entry.2))).agentVersions := by
    apply Dict.foldl_keeps upsertOrgUsage Db.agentVersions
    intro db key added
    unfold upsertOrgUsage
    split
    · split <;> rfl
    · rfl
  have counted := flushDownloadCounts_at flush.counts db versionId
  obtain ⟨row, found⟩ := Option.isSome_iff_exists.mp existing
  rw [found] at counted
  unfold committedCount
  rw [upserts, counted, found]
  refine ⟨rfl, ?_⟩
  obtain ⟨kept, isKept, _⟩ := Option.map_eq_some_iff.mp counted
  rw [isKept]
  rfl

theorem Flush.apply_traffic (flush : Flush) (db : Db) (key : UsageKey) :
    committedTraffic (flush.apply db) key = committedTraffic db key + (flush.usage.lookup key).getD 0 := by
  have counts : (Packages.flushDownloadCounts db (flush.counts.entries.map fun entry =>
      (entry.1, entry.2))).orgMonthlyUsage = db.orgMonthlyUsage := by
    unfold Packages.flushDownloadCounts
    rw [List.foldl_map]
    exact Dict.foldl_keeps
      (fun db id amount => Packages.setVersion db id (addDownloads amount) (addDownloads_preserves amount))
      Db.orgMonthlyUsage (fun _ _ _ => rfl) flush.counts db
  have pass := Dict.foldl_at upsertOrgUsage committedTraffic (· + ·) upsertOrgUsage_own upsertOrgUsage_others flush.usage
    (Packages.flushDownloadCounts db (flush.counts.entries.map fun entry => (entry.1, entry.2))) key
  refine Eq.trans pass ?_
  have same : committedTraffic (Packages.flushDownloadCounts db (flush.counts.entries.map fun entry =>
      (entry.1, entry.2))) key = committedTraffic db key := by
    unfold committedTraffic monthlyUsage
    rw [counts]
  rw [same]
  cases flush.usage.lookup key with
  | none => exact (add_zero _).symm
  | some added => rfl

end Commits

section Buffers

variable (buffer : DownloadCountBuffer)

theorem record_count (recorded versionId : Nat) (organizationId : Option Nat) (bytes : Nat) (period : String) :
    (buffer.record recorded organizationId bytes period).count versionId =
      buffer.count versionId + (Step.record recorded organizationId bytes period).downloads versionId := by
  unfold DownloadCountBuffer.record DownloadCountBuffer.count Step.downloads
  dsimp only
  by_cases same : recorded = versionId
  · rw [same, AList.lookup_insert, if_pos rfl]
    rfl
  · rw [AList.lookup_insert_ne (Ne.symm same), if_neg same]
    rfl

theorem record_traffic (versionId : Nat) (organizationId : Option Nat) (bytes : Nat) (period : String) (key : UsageKey) :
    (buffer.record versionId organizationId bytes period).traffic key =
      buffer.traffic key + (Step.record versionId organizationId bytes period).traffic key := by
  cases organizationId with
  | none => exact (add_zero _).symm
  | some organizationId =>
    unfold DownloadCountBuffer.record DownloadCountBuffer.traffic Step.traffic
    dsimp only
    by_cases same : (organizationId, period) = key
    · rw [same, AList.lookup_insert, if_pos rfl]
      rfl
    · rw [AList.lookup_insert_ne (Ne.symm same), if_neg same]
      exact (add_zero _).symm

theorem removeAfterSuccess_count (flushed : Dict Nat Nat) (versionId : Nat) :
    (buffer.removeAfterSuccess flushed).count versionId =
      buffer.count versionId - (flushed.lookup versionId).getD 0 := by
  have pass := Dict.foldl_at removeCount (fun counts id => (counts.lookup id).getD 0) (· - ·) ?_ ?_ flushed
    buffer.counts versionId
  · refine Eq.trans pass ?_
    cases flushed.lookup versionId <;> rfl
  · intro counts id amount
    unfold removeCount
    dsimp only
    split
    · rw [AList.lookup_insert]
      rfl
    · rename_i enough
      rw [AList.lookup_erase]
      show 0 = _
      omega
  · intro counts id amount other different
    unfold removeCount
    dsimp only
    split
    · rw [AList.lookup_insert_ne different]
    · rw [AList.lookup_erase_ne different]

theorem popUsage_traffic (flushed : Dict UsageKey Traffic) (key : UsageKey) :
    (buffer.popUsage flushed).traffic key = if (flushed.lookup key).isSome then 0 else buffer.traffic key := by
  have pass := Dict.foldl_at (fun usage key (_ : Traffic) => usage.erase key)
    (fun (usage : Dict UsageKey Traffic) key => (usage.lookup key).getD 0) (fun _ _ => 0) ?_ ?_ flushed buffer.usage key
  · refine Eq.trans pass ?_
    cases flushed.lookup key <;> rfl
  · intro usage key _
    rw [AList.lookup_erase]
    rfl
  · intro usage key _ other different
    rw [AList.lookup_erase_ne different]

end Buffers

section Projections

variable {M : Type} [AddCommMonoid M]

structure Projection (M : Type) where
  stored : Db → M
  pending : DownloadCountBuffer → M
  copied : Flush → M
  recorded : Step → M

structure Lawful (projection : Projection M) (present : Db → Prop) : Prop where
  copies : ∀ buffer remaining,
    projection.copied ⟨buffer.counts, buffer.usage, remaining, false⟩ = projection.pending buffer
  same : ∀ flush remaining committed,
    projection.copied { flush with remaining, committed } = projection.copied flush
  stores : ∀ flush db, present db →
    projection.stored (flush.apply db) = projection.stored db + projection.copied flush ∧ present (flush.apply db)
  records : ∀ (buffer : DownloadCountBuffer) versionId organizationId bytes period,
    projection.pending (buffer.record versionId organizationId bytes period) =
      projection.pending buffer + projection.recorded (.record versionId organizationId bytes period)
  silent : ∀ step, (∀ versionId organizationId bytes period, step ≠ .record versionId organizationId bytes period) →
    projection.recorded step = 0

def Projection.account (projection : Projection M) (server : Server) : Account M where
  stored := projection.stored server.db
  buffered := projection.pending server.buffer
  moving := server.flush.map fun flush => (projection.copied flush, flush.committed)

def Projection.action (projection : Projection M) (server : Server) : Step → Action M
  | .record versionId organizationId bytes period =>
    .collect (projection.recorded (.record versionId organizationId bytes period))
  | .snapshot => if server.flush.isNone && server.snapshot.flush.isSome then .copy else .none
  | .execute => .none
  | .commit => if server.flush.any fun flush => flush.remaining == 0 && !flush.committed then .store else .none
  | .raise => if server.flush.any fun flush => !flush.committed then .abandon else .none
  | .remove => if server.flush.any fun flush => flush.committed then .release (projection.pending server.remove.buffer)
      else .none

variable {projection : Projection M} {present : Db → Prop} {server : Server}

/-- The server simulates the ledger. -/
theorem step_account (lawful : Lawful projection present) (existing : present server.db) (step : Step) :
    projection.account (server.step step) = (projection.account server).act (projection.action server step) ∧
      (projection.action server step).fits (projection.account server) ∧ present (server.step step).db ∧
      (projection.action server step).collected = projection.recorded step := by
  have quiet : ∀ step : Step, (∀ versionId organizationId bytes period,
      step ≠ .record versionId organizationId bytes period) → 0 = projection.recorded step :=
    fun step notRecord => (lawful.silent step notRecord).symm
  obtain ⟨db, buffer, flush⟩ := server
  cases step with
  | record versionId organizationId bytes period =>
    refine ⟨?_, trivial, existing, rfl⟩
    simp [Projection.account, Projection.action, Account.act, Server.step, lawful.records]
  | snapshot =>
    cases flush with
    | some flush => exact ⟨rfl, trivial, existing, quiet _ (by simp)⟩
    | none =>
      by_cases nothing : (buffer.counts.entries.isEmpty && buffer.usage.entries.isEmpty) = true
      · have same : Server.snapshot ⟨db, buffer, none⟩ = ⟨db, buffer, none⟩ := by simp [Server.snapshot, nothing]
        have still : projection.action ⟨db, buffer, none⟩ .snapshot = .none := by simp [Projection.action, same]
        rw [still]
        exact ⟨congrArg _ same, trivial, by rw [Server.step, same]; exact existing, quiet _ (by simp)⟩
      · have opened : Server.snapshot ⟨db, buffer, none⟩ = ⟨db, buffer, some ⟨buffer.counts, buffer.usage,
            buffer.counts.entries.length + 2 * buffer.usage.entries.length, false⟩⟩ := by
          simp [Server.snapshot, nothing]
        have copies : projection.action ⟨db, buffer, none⟩ .snapshot = .copy := by simp [Projection.action, opened]
        rw [copies]
        refine ⟨?_, rfl, by rw [Server.step, opened]; exact existing, quiet _ (by simp)⟩
        rw [Server.step, opened]
        simp [Projection.account, Account.act, lawful.copies]
  | execute =>
    refine ⟨?_, trivial, existing, quiet _ (by simp)⟩
    cases flush with
    | none => rfl
    | some flush =>
      simp only [Server.step, Server.execute, Projection.account, Projection.action, Account.act, Option.map_some]
      rw [show projection.copied { flush with remaining := flush.remaining - 1 } = projection.copied flush from
        lawful.same flush _ flush.committed]
  | commit =>
    cases flush with
    | none => exact ⟨rfl, trivial, existing, quiet _ (by simp)⟩
    | some flush =>
      by_cases ready : flush.remaining = 0 ∧ flush.committed = false
      · have stores : projection.action ⟨db, buffer, some flush⟩ .commit = .store := by
          simp [Projection.action, ready.1, ready.2]
        rw [stores]
        refine ⟨?_, ?_, ?_, quiet _ (by simp)⟩
        · simp only [Server.step, Server.commit, ready, and_self, if_true, Projection.account, Account.act,
            Option.map_some]
          rw [(lawful.stores flush db existing).1, ← lawful.same flush flush.remaining true]
          simp [ready.1]
        · intro amount isStored
          simp [Projection.account, ready.2] at isStored
        · simp only [Server.step, Server.commit, ready, and_self, if_true]
          exact (lawful.stores flush db existing).2
      · have waits : projection.action ⟨db, buffer, some flush⟩ .commit = .none := by
          simp only [Projection.action, Option.any_some]
          rw [if_neg]
          simpa using ready
        rw [waits]
        have same : Server.commit ⟨db, buffer, some flush⟩ = ⟨db, buffer, some flush⟩ := by
          simp [Server.commit, ready]
        exact ⟨congrArg _ same, trivial, by rw [Server.step, same]; exact existing, quiet _ (by simp)⟩
  | raise =>
    cases flush with
    | none => exact ⟨rfl, trivial, existing, quiet _ (by simp)⟩
    | some flush =>
      obtain ⟨counts, usage, remaining, committed⟩ := flush
      cases committed with
      | true => exact ⟨rfl, trivial, existing, quiet _ (by simp)⟩
      | false =>
        refine ⟨rfl, ?_, existing, quiet _ (by simp)⟩
        intro amount isStored
        cases isStored
  | remove =>
    cases flush with
    | none => exact ⟨rfl, trivial, existing, quiet _ (by simp)⟩
    | some flush =>
      obtain ⟨counts, usage, remaining, committed⟩ := flush
      cases committed with
      | false => exact ⟨rfl, trivial, existing, quiet _ (by simp)⟩
      | true => exact ⟨rfl, ⟨_, rfl⟩, existing, quiet _ (by simp)⟩

end Projections

section Conservation

def versionCounts (versionId : Nat) : Projection Nat where
  stored db := committedCount db versionId
  pending buffer := buffer.count versionId
  copied flush := (flush.counts.lookup versionId).getD 0
  recorded step := step.downloads versionId

def orgTraffic (key : UsageKey) : Projection Traffic where
  stored db := committedTraffic db key
  pending buffer := buffer.traffic key
  copied flush := (flush.usage.lookup key).getD 0
  recorded step := step.traffic key

theorem versionCounts_lawful (versionId : Nat) :
    Lawful (versionCounts versionId) fun db => (db.agentVersions.byId versionId).isSome = true where
  copies _ _ := rfl
  same _ _ _ := rfl
  stores flush db existing := flush.apply_count db versionId existing
  records buffer recorded organizationId bytes period :=
    record_count buffer recorded versionId organizationId bytes period
  silent step notRecord := by
    cases step with
    | record versionId organizationId bytes period => exact absurd rfl (notRecord versionId organizationId bytes period)
    | _ => rfl

theorem orgTraffic_lawful (key : UsageKey) : Lawful (orgTraffic key) fun _ => True where
  copies _ _ := rfl
  same _ _ _ := rfl
  stores flush db _ := ⟨flush.apply_traffic db key, trivial⟩
  records buffer versionId organizationId bytes period := record_traffic buffer versionId organizationId bytes period key
  silent step notRecord := by
    cases step with
    | record versionId organizationId bytes period => exact absurd rfl (notRecord versionId organizationId bytes period)
    | _ => rfl

/-- What a flush has committed and not yet taken out of the buffer. Between these
    two moments, and only there, an amount is in both places. -/
def Server.unreleased {M : Type} [Zero M] (server : Server) (copied : Flush → M) : M :=
  match server.flush with
  | some flush => if flush.committed then copied flush else 0
  | none => 0

variable {M : Type} [AddCommMonoid M] {projection : Projection M}

theorem balanced_iff {total : M} {server : Server} : (projection.account server).Balanced total ↔
    projection.stored server.db + projection.pending server.buffer = total + server.unreleased projection.copied := by
  obtain ⟨db, buffer, flush⟩ := server
  cases flush with
  | none => exact Iff.rfl
  | some flush =>
    obtain ⟨counts, usage, remaining, committed⟩ := flush
    cases committed <;> exact Iff.rfl

def Backed (versionId : Nat) (server : Server) : Prop :=
  ∀ flush, server.flush = some flush → (flush.counts.lookup versionId).getD 0 ≤ server.buffer.count versionId

theorem step_backed {versionId : Nat} {server : Server} (backed : Backed versionId server) (step : Step) :
    Backed versionId (server.step step) := by
  obtain ⟨db, buffer, flush⟩ := server
  cases step with
  | record recorded organizationId bytes period =>
    intro flush isFlush
    rw [Server.step, record_count]
    exact Nat.le_trans (backed flush isFlush) (Nat.le_add_right _ _)
  | snapshot =>
    cases flush with
    | some flush => exact backed
    | none =>
      intro flush isFlush
      dsimp only [Server.step, Server.snapshot] at isFlush ⊢
      split at isFlush
      · cases isFlush
      · rename_i something
        cases isFlush
        rw [if_neg something]
        exact Nat.le_refl _
  | execute =>
    cases flush with
    | none => exact backed
    | some flush =>
      rintro _ ⟨⟩
      exact backed flush rfl
  | commit =>
    cases flush with
    | none => exact backed
    | some flush =>
      dsimp only [Server.step, Server.commit]
      split
      · rintro _ ⟨⟩
        exact backed flush rfl
      · exact backed
  | raise =>
    cases flush with
    | none => exact backed
    | some flush =>
      dsimp only [Server.step, Server.raise]
      split
      · exact backed
      · exact nofun
  | remove =>
    cases flush with
    | none => exact backed
    | some flush =>
      dsimp only [Server.step, Server.remove]
      split
      · exact nofun
      · exact backed

theorem versionCounts_exact {versionId : Nat} {server : Server} (backed : Backed versionId server) (step : Step) :
    ((versionCounts versionId).action server step).exact ((versionCounts versionId).account server) := by
  obtain ⟨db, buffer, flush⟩ := server
  cases step with
  | record recorded organizationId bytes period => trivial
  | execute => trivial
  | snapshot =>
    dsimp only [Projection.action]
    split <;> trivial
  | commit =>
    dsimp only [Projection.action]
    split <;> trivial
  | raise =>
    dsimp only [Projection.action]
    split <;> trivial
  | remove =>
    cases flush with
    | none => trivial
    | some flush =>
      obtain ⟨counts, usage, remaining, committed⟩ := flush
      cases committed with
      | false => trivial
      | true =>
        have enough : (counts.lookup versionId).getD 0 ≤ buffer.count versionId := backed _ rfl
        show (buffer.removeAfterSuccess counts).count versionId + (counts.lookup versionId).getD 0 =
          buffer.count versionId
        rw [removeAfterSuccess_count]
        omega

theorem run_versionCounts {versionId : Nat} (steps : List Step) : ∀ {server : Server} {total : Nat},
    (server.db.agentVersions.byId versionId).isSome = true → Backed versionId server →
      ((versionCounts versionId).account server).Balanced total →
      ((versionCounts versionId).account (steps.foldl Server.step server)).Balanced
        (total + (steps.map (Step.downloads versionId)).sum) := by
  induction steps with
  | nil => exact fun _ _ balanced => balanced
  | cons step rest ih =>
    intro server total existing backed balanced
    obtain ⟨simulated, fits, kept, collected⟩ := step_account (versionCounts_lawful versionId) existing step
    have next := (balanced_act_iff balanced fits).mpr (versionCounts_exact backed step)
    rw [← simulated, collected] at next
    rw [List.map_cons, List.sum_cons, ← Nat.add_assoc]
    exact ih kept (step_backed backed step) next

/-- Every download is counted once: committed and pending counts add up to the
    initial ones and the records, but for what a flush that has committed is
    about to remove. -/
theorem download_counts_are_conserved (start : Server) (idle : start.flush = none) (versionId : Nat)
    (existing : (start.db.agentVersions.byId versionId).isSome = true) (steps : List Step) :
    let server := steps.foldl Server.step start
    committedCount server.db versionId + server.buffer.count versionId =
      committedCount start.db versionId + start.buffer.count versionId + (steps.map (Step.downloads versionId)).sum +
        server.unreleased fun flush => (flush.counts.lookup versionId).getD 0 := by
  have balanced : ((versionCounts versionId).account start).Balanced
      (committedCount start.db versionId + start.buffer.count versionId) := by
    rw [balanced_iff]
    simp [Server.unreleased, idle, versionCounts]
  have backed : Backed versionId start := by simp [Backed, idle]
  exact balanced_iff.mp (run_versionCounts steps existing backed balanced)

def archived (id : Nat) : AgentVersion :=
  { id, agentId := 1, version := "1.0.0", sortKey := "", manifest := .null, sha256 := "", archiveName := "1.0.0.tgz"
    signature := ⟨1, "agent", "1.0.0", "", "", "", ""⟩, publishedById := 1, publishedAt := 0 }

def oneVersion : Server := ⟨{ agentVersions := ⟨[archived 1], 2, by decide, List.pairwise_singleton _ _⟩ }, {}, none⟩

def lateDownload : List Step :=
  [.record 1 (some 9) 100 "2026-01", .snapshot, .execute, .execute, .record 1 (some 9) 50 "2026-01", .execute, .commit,
    .remove]

theorem download_counts_are_conserved_late :
    let server := lateDownload.foldl Server.step oneVersion
    server.buffer.count 1 = 1 ∧
      committedCount server.db 1 + server.buffer.count 1 =
        committedCount oneVersion.db 1 + oneVersion.buffer.count 1 + (lateDownload.map (Step.downloads 1)).sum +
          server.unreleased fun flush => (flush.counts.lookup 1).getD 0 :=
  ⟨by decide +kernel, download_counts_are_conserved oneVersion rfl 1 rfl lateDownload⟩

def committedDownload : List Step := [.record 1 none 100 "2026-01", .snapshot, .execute, .commit]

theorem committed_download_counts_twice :
    ¬ ∀ start : Server, start.flush = none → ∀ versionId, (start.db.agentVersions.byId versionId).isSome = true →
        ∀ steps : List Step,
          let server := steps.foldl Server.step start
          committedCount server.db versionId + server.buffer.count versionId =
            committedCount start.db versionId + start.buffer.count versionId +
              (steps.map (Step.downloads versionId)).sum := by
  intro conserved
  have once := conserved oneVersion rfl 1 rfl committedDownload
  have twice : committedCount (committedDownload.foldl Server.step oneVersion).db 1 +
      (committedDownload.foldl Server.step oneVersion).buffer.count 1 = 2 := by decide +kernel
  have recorded : committedCount oneVersion.db 1 + oneVersion.buffer.count 1 +
      (committedDownload.map (Step.downloads 1)).sum = 1 := by decide +kernel
  simp only [twice, recorded] at once
  omega

end Conservation

section Usage

/-- Committed and pending usage add up to the initial usage and the records,
    but for what a flush that has committed is about to remove. -/
def UsageConserved (start server : Server) (past : List Step) (key : UsageKey) : Prop :=
  committedTraffic server.db key + server.buffer.traffic key =
    committedTraffic start.db key + start.buffer.traffic key + (past.map (Step.traffic key)).sum +
      server.unreleased fun flush => (flush.usage.lookup key).getD 0

/-- A removal finds every entry that it drops as the flush has copied it. -/
def dropsWhatItCopied (server : Server) : Step → Prop
  | .remove => ∀ flush ∈ server.flush, flush.committed = true →
      ∀ entry ∈ flush.usage.entries, server.buffer.traffic entry.1 = entry.2
  | _ => True

instance (server : Server) (step : Step) : Decidable (dropsWhatItCopied server step) :=
  match step with
  | .remove => inferInstanceAs (Decidable (∀ flush ∈ server.flush, _))
  | .record .. | .snapshot | .execute | .commit | .raise => isTrue trivial

theorem orgTraffic_exact_iff (server : Server) (step : Step) :
    (∀ key, ((orgTraffic key).action server step).exact ((orgTraffic key).account server)) ↔
      dropsWhatItCopied server step := by
  obtain ⟨db, buffer, flush⟩ := server
  cases step with
  | record versionId organizationId bytes period => exact iff_of_true (fun _ => trivial) trivial
  | execute => exact iff_of_true (fun _ => trivial) trivial
  | snapshot =>
    apply iff_of_true _ trivial
    intro key
    dsimp only [Projection.action]
    split <;> trivial
  | commit =>
    apply iff_of_true _ trivial
    intro key
    dsimp only [Projection.action]
    split <;> trivial
  | raise =>
    apply iff_of_true _ trivial
    intro key
    dsimp only [Projection.action]
    split <;> trivial
  | remove =>
    cases flush with
    | none => exact iff_of_true (fun _ => trivial) nofun
    | some flush =>
      obtain ⟨counts, usage, remaining, committed⟩ := flush
      cases committed with
      | false =>
        apply iff_of_true (fun _ => trivial)
        rintro _ ⟨⟩ ⟨⟩
      | true =>
        have entries : ∀ key, ((orgTraffic key).action ⟨db, buffer, some ⟨counts, usage, remaining, true⟩⟩ .remove).exact
            ((orgTraffic key).account ⟨db, buffer, some ⟨counts, usage, remaining, true⟩⟩) ↔
            ∀ copied, usage.lookup key = some copied → buffer.traffic key = copied := by
          intro key
          show (DownloadCountBuffer.popUsage (buffer.removeAfterSuccess counts) usage).traffic key +
            (usage.lookup key).getD 0 = buffer.traffic key ↔ _
          rw [popUsage_traffic]
          cases usage.lookup key with
          | none => simp [DownloadCountBuffer.traffic, removeAfterSuccess]
          | some copied => simp [eq_comm]
        constructor
        · rintro exact _ ⟨⟩ _ ⟨key, copied⟩ listed
          exact (entries key).mp (exact key) copied (AList.mem_lookup_iff.mpr listed)
        · intro drops key
          rw [entries]
          intro copied found
          exact drops _ rfl rfl ⟨key, copied⟩ (AList.mem_lookup_iff.mp found)

theorem step_usageConserved_iff {start server : Server} {past : List Step}
    (conserved : ∀ key, UsageConserved start server past key) (step : Step) :
    (∀ key, UsageConserved start (server.step step) (past ++ [step]) key) ↔ dropsWhatItCopied server step := by
  rw [← orgTraffic_exact_iff]
  apply forall_congr'
  intro key
  have balanced : ((orgTraffic key).account server).Balanced
      (committedTraffic start.db key + start.buffer.traffic key + (past.map (Step.traffic key)).sum) :=
    balanced_iff.mpr (conserved key)
  obtain ⟨simulated, fits, -, collected⟩ := step_account (orgTraffic_lawful key) trivial step
  rw [← balanced_act_iff balanced fits, ← simulated, collected, balanced_iff]
  simp only [UsageConserved, List.map_append, List.map_singleton, List.sum_append, List.sum_singleton, add_assoc]
  rfl

theorem usageConserved_start {start : Server} (idle : start.flush = none) (key : UsageKey) :
    UsageConserved start start [] key := by
  simp [UsageConserved, Server.unreleased, idle]

/-- The usage of every organization and month is conserved in every state of a
    run exactly when each removal drops what its flush has copied. -/
theorem usage_is_conserved_iff (start : Server) (idle : start.flush = none) (steps : List Step) :
    Runs.Along (Runs.logged Server.step) (fun run => ∀ key, UsageConserved start run.1 run.2 key) (start, []) steps ↔
      Runs.AllMeet Server.step dropsWhatItCopied start steps := by
  have unlogged : Runs.AllMeet (Runs.logged Server.step) (fun run => dropsWhatItCopied run.1) (start, []) steps ↔ _ :=
    Runs.allMeet_logged
  rw [← unlogged]
  apply Runs.along_iff_allMeet fun _ => True
  · exact fun _ _ _ _ => trivial
  · rintro ⟨server, past⟩ step - conserved
    exact step_usageConserved_iff conserved step
  · trivial
  · exact usageConserved_start idle

def otherDownload : List Step :=
  [.record 1 (some 9) 100 "2026-01", .snapshot, .execute, .execute, .record 1 (some 8) 50 "2026-01", .execute, .commit,
    .remove]

theorem usage_is_conserved_other :
    Runs.Along (Runs.logged Server.step) (fun run => ∀ key, UsageConserved oneVersion run.1 run.2 key) (oneVersion, [])
      otherDownload :=
  (usage_is_conserved_iff oneVersion rfl otherDownload).mpr (by decide +kernel)

theorem late_usage_is_lost :
    ¬ Runs.Along (Runs.logged Server.step) (fun run => ∀ key, UsageConserved oneVersion run.1 run.2 key)
      (oneVersion, []) lateDownload := by
  intro along
  have lost := along.final (9, "2026-01")
  revert lost
  unfold UsageConserved
  decide +kernel

end Usage

end Registry.Downloads
