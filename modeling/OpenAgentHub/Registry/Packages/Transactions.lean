import OpenAgentHub.Registry.Packages.Effects

namespace Registry.Packages

open Relational

structure Claim where
  agent : Agent
  fresh : Bool
  organizationId : Option Nat
  deriving DecidableEq

inductive Stage where
  | admitted
  | placed (organizationId : Option Nat)
  | located (claim : Claim)
  | cleared (claim : Claim)
  | reserved (claim : Claim) (versionId : Nat)
  | stored (claim : Claim) (versionId : Nat)
  deriving DecidableEq

def Stage.claim : Stage → Option Claim
  | .admitted | .placed _ => none
  | .located claim | .cleared claim | .reserved claim _ | .stored claim _ => some claim

def Stage.reservation : Stage → Option Claim
  | .reserved claim _ | .stored claim _ => some claim
  | _ => none

theorem Stage.claim_of_reservation {stage : Stage} {claim : Claim} (reserved : stage.reservation = some claim) :
    stage.claim = some claim := by
  cases stage with
  | reserved | stored => exact reserved
  | admitted | placed | located | cleared => cases reserved

structure Flight where
  ticket : Nat
  user : User
  now : Time
  submission : Submission
  admission : Admission
  stage : Stage

/-- The name of a package row that is flushed and not committed. -/
def Flight.nameLock (flight : Flight) : Option (String × String) :=
  (flight.stage.claim.filter Claim.fresh).map fun _ => (flight.submission.namespaceName, flight.submission.name)

/-- The agent and version of a version row that is flushed and not committed. -/
def Flight.versionLock (flight : Flight) : Option (Nat × String) :=
  flight.stage.reservation.map fun claim => (claim.agent.id, flight.submission.version)

theorem Flight.nameLock_of_fresh {flight : Flight} {claim : Claim} (claims : flight.stage.claim = some claim)
    (fresh : claim.fresh = true) :
    flight.nameLock = some (flight.submission.namespaceName, flight.submission.name) := by
  simp [nameLock, claims, Option.filter, fresh]

theorem Flight.versionLock_of_reservation {flight : Flight} {claim : Claim}
    (reserved : flight.stage.reservation = some claim) :
    flight.versionLock = some (claim.agent.id, flight.submission.version) := by
  simp [versionLock, reserved]

def contend {α : Type} [DecidableEq α] (first second : Option α) : Bool := first.isSome && first == second

theorem contend_symm {α : Type} [DecidableEq α] (first second : Option α) : contend first second = contend second first := by
  cases first <;> cases second <;> simp [contend, eq_comm]

theorem contend_self {α : Type} [DecidableEq α] (value : α) : contend (some value) (some value) = true := by
  simp [contend]

/-- Open transactions exclude each other by the unique indexes of packages and versions. -/
instance : Row Flight where
  id := Flight.ticket
  clash first second :=
    contend first.nameLock second.nameLock || contend first.versionLock second.versionLock
  clash_symm first second := by
    rw [contend_symm, contend_symm first.versionLock]

/-- The committed database, the disk, and the publishes that are under way. -/
structure System where
  db : Db
  files : Archives
  flights : Table Flight

namespace System

/-- A flush that has to wait for another transaction does not happen yet. -/
def advance (system : System) (flight : Flight) (stage : Stage) : Option System := do
  let flights ← (system.flights.delete (·.ticket == flight.ticket)).adopt { flight with stage }
  return { system with flights }

def drawAgent (system : System) : System :=
  { system with db := { system.db with agents := system.db.agents.draw } }

def drawVersion (system : System) : System :=
  { system with db := { system.db with agentVersions := system.db.agentVersions.draw } }

def flight (system : System) (ticket : Nat) : Option Flight := system.flights.byId ticket

def close (system : System) (ticket : Nat) : System :=
  { system with flights := system.flights.delete (·.ticket == ticket) }

end System

def Flight.writeClaim (flight : Flight) (claim : Claim) (db : Db) : Option Db :=
  if claim.fresh then (db.agents.adopt claim.agent).map fun agents => { db with agents }
  else some (setAgent db claim.agent.id fun row => republished row flight.admission.manifest claim.organizationId)

def Flight.versionRow (host : PackageHost) (flight : Flight) (claim : Claim) (versionId : Nat) : AgentVersion :=
  newVersion host flight.now flight.user flight.submission flight.admission claim.agent.id versionId

inductive Label where
  | «begin» (user : User) (now : Time) (submission : Submission)
  | place (ticket : Nat)
  | locate (ticket : Nat)
  | clear (ticket : Nat)
  | reserve (ticket : Nat)
  | store (ticket : Nat)
  | commit (ticket : Nat)
  | abort (ticket : Nat)
  | operate (actor : Subject) (now : Time) (operation : Operation)

section Steps

variable (host : PackageHost) (system : System)

def beginPublish (user : User) (now : Time) (submission : Submission) : Option System := do
  let (_, admission) ← (admitSubmission host now system.db user submission).toOption
  let (_, flights) ← system.flights.insert fun ticket => ⟨ticket, user, now, submission, admission, .admitted⟩
  return { system with flights }

def placePublish (flight : Flight) : Option System :=
  match flight.stage with
  | .admitted => do
    let (_, organizationId) ←
      (place host flight.now system.db flight.user flight.submission flight.admission).toOption
    system.advance flight (.placed organizationId)
  | _ => none

def locatePublish (flight : Flight) : Option System :=
  match flight.stage with
  | .placed organizationId =>
    match agentByName system.db flight.submission.namespaceName flight.submission.name with
    | none =>
      let agent := newAgent system.db.agents.next flight.user flight.submission flight.admission organizationId
      system.drawAgent.advance flight (.located ⟨agent, true, organizationId⟩)
    | some agent =>
      let agent := republished agent flight.admission.manifest organizationId
      system.advance flight (.located ⟨agent, false, organizationId⟩)
  | _ => none

/-- The checks see what the transaction itself has written. -/
def clearPublish (flight : Flight) : Option System :=
  match flight.stage with
  | .located claim => do
    let view ← flight.writeClaim claim system.db
    let _ ← (clear host flight.now view claim.agent flight.submission).toOption
    system.advance flight (.cleared claim)
  | _ => none

def reservePublish (flight : Flight) : Option System :=
  match flight.stage with
  | .cleared claim =>
    if (versionByName system.db claim.agent flight.submission.version).isNone then
      system.drawVersion.advance flight (.reserved claim system.db.agentVersions.next)
    else none
  | _ => none

def storePublish (flight : Flight) : Option System :=
  match flight.stage with
  | .reserved claim versionId => do
    let files ← (storeArchive system.files flight.submission).toOption
    System.advance { system with files } flight (.stored claim versionId)
  | _ => none

def commitPublish (flight : Flight) : Option System :=
  match flight.stage with
  | .stored claim versionId => do
    let db ← flight.writeClaim claim system.db
    let row := flight.versionRow host claim versionId
    let agentVersions ← db.agentVersions.adopt row
    let (after, _) ← (finish host flight.now { db with agentVersions } flight.user flight.submission
      flight.admission claim.agent row).toOption
    return System.close { system with db := after } flight.ticket
  | _ => none

def step : Label → Option System
  | .begin user now submission => beginPublish host system user now submission
  | .place ticket => do placePublish host system (← system.flight ticket)
  | .locate ticket => do locatePublish system (← system.flight ticket)
  | .clear ticket => do clearPublish host system (← system.flight ticket)
  | .reserve ticket => do reservePublish system (← system.flight ticket)
  | .store ticket => do storePublish system (← system.flight ticket)
  | .commit ticket => do commitPublish host system (← system.flight ticket)
  | .abort ticket => some (system.close ticket)
  | .operate actor now operation => do
    let db ← (perform host now ⟨system.db, system.files⟩ actor operation).toOption
    return { system with db }

end Steps

def Steps (host : PackageHost) (before : System) (label : Label) (after : System) : Prop :=
  step host before label = some after

end Registry.Packages
