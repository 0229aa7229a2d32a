import OpenAgentHub.Lib.Dict
import OpenAgentHub.Registry.Packages.Managing
import Mathlib.Algebra.Group.Prod

namespace Registry.Downloads

open Relational

abbrev UsageKey := Nat × String

abbrev Traffic := Nat × Nat

structure DownloadCountBuffer where
  counts : Dict Nat Nat := ∅
  usage : Dict UsageKey Traffic := ∅

namespace DownloadCountBuffer

def count (buffer : DownloadCountBuffer) (versionId : Nat) : Nat := (buffer.counts.lookup versionId).getD 0

def traffic (buffer : DownloadCountBuffer) (key : UsageKey) : Traffic := (buffer.usage.lookup key).getD 0

def record (buffer : DownloadCountBuffer) (versionId : Nat) (organizationId : Option Nat) (bytes : Nat)
    (period : String) : DownloadCountBuffer :=
  { counts := buffer.counts.insert versionId (buffer.count versionId + 1)
    usage :=
      match organizationId with
      | none => buffer.usage
      | some organizationId =>
        buffer.usage.insert (organizationId, period) (buffer.traffic (organizationId, period) + (bytes, 1)) }

def pendingOrgBytes (buffer : DownloadCountBuffer) (organizationId : Nat) (period : String) : Nat :=
  (buffer.traffic (organizationId, period)).1

def removeCount (counts : Dict Nat Nat) (versionId amount : Nat) : Dict Nat Nat :=
  let present := (counts.lookup versionId).getD 0
  if amount < present then counts.insert versionId (present - amount) else counts.erase versionId

def removeAfterSuccess (buffer : DownloadCountBuffer) (flushed : Dict Nat Nat) : DownloadCountBuffer :=
  { buffer with counts := flushed.foldl removeCount buffer.counts }

/-- `self._usage.pop(key, None)` for every key that was flushed. -/
def popUsage (buffer : DownloadCountBuffer) (flushed : Dict UsageKey Traffic) : DownloadCountBuffer :=
  { buffer with usage := flushed.foldl (fun usage key _ => usage.erase key) buffer.usage }

end DownloadCountBuffer

def monthlyUsage (db : Db) (key : UsageKey) : Option OrgMonthlyUsage :=
  db.orgMonthlyUsage.one fun row => row.organizationId == key.1 && row.period == key.2

def addTraffic (added : Traffic) (row : OrgMonthlyUsage) : OrgMonthlyUsage :=
  { row with downloadBytes := row.downloadBytes + added.1, downloadCount := row.downloadCount + added.2 }

def upsertOrgUsage (db : Db) (key : UsageKey) (added : Traffic) : Db :=
  match monthlyUsage db key with
  | none =>
    match db.orgMonthlyUsage.insert fun id =>
      { id, organizationId := key.1, period := key.2, downloadBytes := added.1, downloadCount := added.2 } with
    | some (_, orgMonthlyUsage) => { db with orgMonthlyUsage }
    | none => db
  | some row => { db with orgMonthlyUsage := db.orgMonthlyUsage.modify (·.id == row.id) (addTraffic added) }

/-- A flush in progress: what it has copied, how many statements it has still
    to run, and whether its transaction is committed. -/
structure Flush where
  counts : Dict Nat Nat
  usage : Dict UsageKey Traffic
  remaining : Nat
  committed : Bool := false

def Flush.apply (flush : Flush) (db : Db) : Db :=
  flush.usage.foldl upsertOrgUsage
    (Packages.flushDownloadCounts db (flush.counts.entries.map fun entry => (entry.1, entry.2)))

structure Server where
  db : Db
  buffer : DownloadCountBuffer := {}
  flush : Option Flush := none

inductive Step where
  | record (versionId : Nat) (organizationId : Option Nat) (bytes : Nat) (period : String)
  | snapshot
  | execute
  | commit
  | raise
  | remove

namespace Server

/-- The flush opens its session only if there is something to write. An entry of
    the usage takes two statements, a select and then an insert or an update. -/
def snapshot (server : Server) : Server :=
  match server.flush with
  | some _ => server
  | none =>
    if server.buffer.counts.entries.isEmpty && server.buffer.usage.entries.isEmpty then server
    else
      { server with
        flush := some
          { counts := server.buffer.counts, usage := server.buffer.usage
            remaining := server.buffer.counts.entries.length + 2 * server.buffer.usage.entries.length } }

def execute (server : Server) : Server :=
  { server with flush := server.flush.map fun flush => { flush with remaining := flush.remaining - 1 } }

def commit (server : Server) : Server :=
  match server.flush with
  | some flush =>
    if flush.remaining = 0 ∧ flush.committed = false then
      { server with db := flush.apply server.db, flush := some { flush with committed := true } }
    else server
  | none => server

def raise (server : Server) : Server :=
  match server.flush with
  | some flush => if flush.committed then server else { server with flush := none }
  | none => server

def remove (server : Server) : Server :=
  match server.flush with
  | some flush =>
    if flush.committed then
      { server with buffer := (server.buffer.removeAfterSuccess flush.counts).popUsage flush.usage, flush := none }
    else server
  | none => server

def step (server : Server) : Step → Server
  | .record versionId organizationId bytes period =>
    { server with buffer := server.buffer.record versionId organizationId bytes period }
  | .snapshot => server.snapshot
  | .execute => server.execute
  | .commit => server.commit
  | .raise => server.raise
  | .remove => server.remove

end Server

end Registry.Downloads
