import OpenAgentHub.Lib.Keyset
import OpenAgentHub.Registry.Database

namespace Registry.Audit

structure Filter where
  organizationId : Option Nat := none
  namespaceName : Option String := none
  name : Option String := none
  actorId : Option Nat := none
  action : Option String := none
  targetType : Option String := none

def Filter.selects (filter : Filter) (event : AuditEvent) : Bool :=
  filter.organizationId.all (event.organizationId == some ·) && filter.namespaceName.all (event.namespaceName == some ·) &&
    filter.name.all (event.name == some ·) && filter.actorId.all (event.actorId == some ·) &&
    filter.action.all (event.action == ·) && filter.targetType.all (event.targetType == some ·)

def found (db : Db) (filter : Filter) (beforeId : Option Nat) : List AuditEvent :=
  (db.auditEvents.select fun event => filter.selects event && beforeId.all (event.id < ·)).mergeSort
    fun first second => decide (second.id ≤ first.id)

/-- The limit is bound as a 64-bit integer. A negative one is none to SQLite, and an error to PostgreSQL. -/
def limited (settings : Settings) (limit : Int) (events : List AuditEvent) : Except Raised (List AuditEvent) := do
  Outcome.ensure (-2 ^ 63 ≤ limit ∧ limit < 2 ^ 63)
    (if settings.postgresql then ⟨.databaseError, "value out of int64 range"⟩
      else ⟨.overflowError, "Python int too large to convert to SQLite INTEGER"⟩)
  if 0 ≤ limit then return events.take limit.toNat
  else if settings.postgresql then .error ⟨.databaseError, "LIMIT must not be negative"⟩
  else return events

/-- `AuditRepository.search`. -/
def search (settings : Settings) (db : Db) (filter : Filter) (limit : Int) (beforeId : Option Nat) :
    Except Raised (List AuditEvent) := limited settings limit (found db filter beforeId)

abbrev AuditPage := Keyset.Page AuditEvent

/-- `events[-1].id if len(events) == limit else None`. -/
def auditPage (events : List AuditEvent) (limit : Int) : Except Raised AuditPage :=
  if events.length = limit then do
    let last ← Outcome.demand events.getLast? ⟨.indexError, "list index out of range"⟩
    return ⟨events, some last.id⟩
  else return ⟨events, none⟩

end Registry.Audit
