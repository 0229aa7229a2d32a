import OpenAgentHub.Registry.Downloads.Conservation

namespace Registry.Downloads

open Relational

/-- The end of `enforce_download_quota`, once the limits and the usage are read. -/
def enforceDownloadQuota (limit : Int) (used pending bytesToServe : Nat) : Except Raised Unit :=
  let total := used + pending + bytesToServe
  Outcome.ensure ((total : Int) ≤ limit) (Quotas.quotaExceeded .downloadBytesPerMonth total limit)

structure Download where
  versionId : Nat
  organizationId : Nat
  bytes : Nat
  used : Nat

structure Gateway where
  server : Server
  downloads : Nat → Option Download := fun _ => none
  log : List Step := []

inductive Phase where
  | snapshot | execute | commit | raise | remove

def Phase.step : Phase → Step
  | .snapshot => .snapshot
  | .execute => .execute
  | .commit => .commit
  | .raise => .raise
  | .remove => .remove

inductive Event where
  | measure (number versionId organizationId bytes : Nat) (period : String)
  | serve (number : Nat) (period : String)
  | serveUnowned (versionId bytes : Nat) (period : String)
  | flush (phase : Phase)

namespace Gateway

def advance (gateway : Gateway) (step : Step) : Gateway :=
  { gateway with server := gateway.server.step step, log := gateway.log ++ [step] }

def setDownload (gateway : Gateway) (number : Nat) (download : Option Download) : Gateway :=
  { gateway with downloads := Function.update gateway.downloads number download }

/-- The download route from its first read on. Between the check and the record
    there is no suspension, so they are one event. -/
def handle (limits : Nat → Int) (gateway : Gateway) : Event → Gateway
  | .measure number versionId organizationId bytes period =>
    let used := (committedTraffic gateway.server.db (organizationId, period)).1
    gateway.setDownload number (some { versionId, organizationId, bytes, used })
  | .serve number period =>
    match gateway.downloads number with
    | none => gateway
    | some download =>
      let pending := gateway.server.buffer.pendingOrgBytes download.organizationId period
      match enforceDownloadQuota (limits download.organizationId) download.used pending download.bytes with
      | .error _ => gateway.setDownload number none
      | .ok () =>
        (gateway.advance (.record download.versionId (some download.organizationId) download.bytes period)).setDownload
          number none
  | .serveUnowned versionId bytes period => gateway.advance (.record versionId none bytes period)
  | .flush phase => gateway.advance phase.step

def served (gateway : Gateway) (key : UsageKey) : Nat := ((gateway.log.map (Step.traffic key)).sum).1

end Gateway

def knownBytes (server : Server) (key : UsageKey) : Nat :=
  (committedTraffic server.db key).1 + (server.buffer.traffic key).1

def WithinQuota (limits : Nat → Int) (start : Server) (gateway : Gateway) : Prop :=
  ∀ key, (knownBytes start key + gateway.served key : Int) ≤ max (limits key.1) (knownBytes start key)

/-- At a check, the bytes committed for the month are those that the download has
    read before, or are still in the buffer: since the read, no flush has taken
    them out. And a removal drops what was copied. -/
def seesAllBytes (gateway : Gateway) : Event → Prop
  | .serve number period => ∀ download ∈ gateway.downloads number,
      (committedTraffic gateway.server.db (download.organizationId, period)).1 ≤ download.used +
        (gateway.server.unreleased fun flush => (flush.usage.lookup (download.organizationId, period)).getD 0).1
  | .flush phase => dropsWhatItCopied gateway.server phase.step
  | _ => True

instance (gateway : Gateway) (event : Event) : Decidable (seesAllBytes gateway event) :=
  match event with
  | .serve number _ => inferInstanceAs (Decidable (∀ download ∈ gateway.downloads number, _))
  | .flush phase => inferInstanceAs (Decidable (dropsWhatItCopied gateway.server phase.step))
  | .measure .. | .serveUnowned .. => isTrue trivial

structure Accounted (limits : Nat → Int) (start : Server) (gateway : Gateway) : Prop where
  conserved : ∀ key, UsageConserved start gateway.server gateway.log key
  within : WithinQuota limits start gateway

variable {limits : Nat → Int} {start : Server} {gateway : Gateway}

theorem Gateway.served_advance (gateway : Gateway) (step : Step) (key : UsageKey) :
    (gateway.advance step).served key = gateway.served key + (step.traffic key).1 := by
  simp [served, advance]

theorem Accounted.advance (accounted : Accounted limits start gateway) (step : Step)
    (drops : dropsWhatItCopied gateway.server step)
    (fits : ∀ key, (step.traffic key).1 ≠ 0 →
      (knownBytes start key + gateway.served key + (step.traffic key).1 : Int) ≤ limits key.1) :
    Accounted limits start (gateway.advance step) where
  conserved := (step_usageConserved_iff accounted.conserved step).mpr drops
  within := by
    intro key
    rw [Gateway.served_advance]
    by_cases nothing : (step.traffic key).1 = 0
    · rw [nothing]
      exact accounted.within key
    · have bound := fits key nothing
      push_cast
      omega

theorem Accounted.setDownload (accounted : Accounted limits start gateway) (number : Nat) (download : Option Download) :
    Accounted limits start (gateway.setDownload number download) :=
  ⟨accounted.conserved, accounted.within⟩

theorem Accounted.serve (accounted : Accounted limits start gateway) {download : Download} {period : String}
    (sees : (committedTraffic gateway.server.db (download.organizationId, period)).1 ≤ download.used +
      (gateway.server.unreleased fun flush => (flush.usage.lookup (download.organizationId, period)).getD 0).1)
    (allowed : enforceDownloadQuota (limits download.organizationId) download.used
      (gateway.server.buffer.pendingOrgBytes download.organizationId period) download.bytes = .ok ()) :
    Accounted limits start
      (gateway.advance (.record download.versionId (some download.organizationId) download.bytes period)) := by
  apply accounted.advance (.record download.versionId (some download.organizationId) download.bytes period) trivial
  intro key something
  by_cases isKey : (download.organizationId, period) = key
  · subst isKey
    have conserved := congrArg Prod.fst (accounted.conserved (download.organizationId, period))
    simp only [enforceDownloadQuota, Outcome.ensure_eq_ok] at allowed
    simp only [Prod.fst_add] at conserved
    simp only [Step.traffic, if_true, knownBytes, Gateway.served, DownloadCountBuffer.pendingOrgBytes] at *
    omega
  · simp [Step.traffic, isKey] at something

theorem handle_accounted (accounted : Accounted limits start gateway) (event : Event)
    (sees : seesAllBytes gateway event) : Accounted limits start (gateway.handle limits event) := by
  cases event with
  | measure number versionId organizationId bytes period => exact accounted.setDownload _ _
  | serve number period =>
    dsimp only [Gateway.handle]
    split
    · exact accounted
    · rename_i download isOpen
      split
      · exact accounted.setDownload _ _
      · rename_i allowed
        exact (accounted.serve (sees download isOpen) allowed).setDownload _ _
  | serveUnowned versionId bytes period => exact accounted.advance (.record versionId none bytes period) trivial fun key => absurd rfl
  | flush phase =>
    apply accounted.advance _ sees
    intro key something
    cases phase <;> exact absurd rfl something

/-- In a run in which every check sees all bytes, the bytes served for an
    organization in a month never exceed its limit. -/
theorem bandwidth_stays_within_quota (limits : Nat → Int) (start : Server) (idle : start.flush = none)
    (events : List Event) (sees : Runs.AllMeet (Gateway.handle limits) seesAllBytes { server := start } events) :
    Runs.Along (Gateway.handle limits) (WithinQuota limits start) { server := start } events := by
  have initial : Accounted limits start { server := start } := by
    refine ⟨usageConserved_start idle, ?_⟩
    intro key
    simp [Gateway.served]
  apply (sees.along initial ?_).imp
  · exact fun gateway accounted => accounted.within
  · exact fun gateway event accounted met => handle_accounted accounted event met

def flushAll : List Event :=
  [.flush .snapshot, .flush .execute, .flush .execute, .flush .execute, .flush .commit, .flush .remove]

def inTurn : List Event :=
  [.measure 1 1 9 60 "2026-01", .serve 1 "2026-01"] ++ flushAll ++
    [.measure 2 1 9 60 "2026-01", .serve 2 "2026-01", .measure 3 1 9 40 "2026-01", .serve 3 "2026-01"]

theorem bandwidth_stays_within_quota_in_turn :
    Runs.Along (Gateway.handle fun _ => 100) (WithinQuota (fun _ => 100) oneVersion) { server := oneVersion } inTurn :=
  bandwidth_stays_within_quota (fun _ => 100) oneVersion rfl inTurn (by decide +kernel)

def acrossFlush : List Event :=
  [.measure 1 1 9 60 "2026-01", .serve 1 "2026-01", .measure 2 1 9 60 "2026-01"] ++ flushAll ++ [.serve 2 "2026-01"]

theorem flush_hides_bytes_from_the_check :
    ¬ Runs.Along (Gateway.handle fun _ => 100) (WithinQuota (fun _ => 100) oneVersion) { server := oneVersion }
      acrossFlush := by
  intro along
  have bound := along.final (9, "2026-01")
  revert bound
  decide +kernel

end Registry.Downloads
