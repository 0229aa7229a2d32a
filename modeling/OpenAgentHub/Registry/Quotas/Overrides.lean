import OpenAgentHub.Registry.Identity.Accounts
import OpenAgentHub.Registry.Quotas

namespace Registry.Quotas

open Relational Billing

def quotaError (message : String) : Raised := ⟨.quotaError, message⟩

def quotaDimensions : List Dimension :=
  [.packages, .versions, .storageBytes, .downloadBytesPerMonth, .members, .serviceAccounts]

def quotaRow (db : Db) (organizationId : Nat) : Option OrgQuota := db.orgQuotas.one (·.organizationId == organizationId)

def overriding (now : Time) (limits : List (String × Int)) (ttlDays : Int) (row : OrgQuota) : OrgQuota :=
  { row with
    overrides := fun dimension => limits.lookup dimension.name
    overridesExpireAt := some (Identity.daysFrom now ttlDays) }

def clearOverrides (db : Db) (organizationId : Nat) : Db :=
  match quotaRow db organizationId with
  | none => db
  | some row => { db with orgQuotas := db.orgQuotas.delete (·.id == row.id) }

def putOverrides (now : Time) (db : Db) (organizationId userId : Nat) (limits : List (String × Int)) (ttlDays : Int) :
    Except Raised Db :=
  match quotaRow db organizationId with
  | none => do
    let (_, orgQuotas) ← Db.insertRow db.orgQuotas fun id =>
      overriding now limits ttlDays { id, organizationId, overrides := fun _ => none, createdById := userId }
    return { db with orgQuotas }
  | some row =>
    return { db with orgQuotas := db.orgQuotas.modify (·.id == row.id) (overriding now limits ttlDays) }

/-- Clearing is not audited. The limits are those of a dict, so no dimension occurs twice. -/
def setOrgQuotaOverrides (settings : Settings) (now : Time) (db : Db) (organization : Organization) (user : User)
    (limits : Option (List (String × Int))) (ttlDays : Int) : Except Raised (Db × Limits) := do
  Outcome.ensure (ttlDays ≤ 365) (quotaError "override TTL cannot exceed 365 days")
  match limits.filter (· ≠ []) with
  | none => return effectiveLimits settings now (clearOverrides db organization.id) organization.id
  | some limits => do
    let unknown := (limits.map Prod.fst).filter fun name => !(quotaDimensions.map Dimension.name).contains name
    Outcome.ensure (unknown = [])
      (quotaError ("unknown quota dimensions: " ++ Text.join ", " (Text.sortedSet unknown)))
    Outcome.ensure (∀ limit ∈ limits, 0 ≤ limit.2) (quotaError "quota limits cannot be negative")
    let db ← putOverrides now db organization.id user.id limits ttlDays
    let db := db.recordAudit
      { id := 0, actorId := some user.id, organizationId := some organization.id
        action := "organization.quota.override_set", targetType := some "organization", targetId := some organization.id
        detail := [("slug", .str organization.slug), ("overrides", .obj (limits.map fun limit => (limit.1, .num limit.2))),
          ("expiresAt", .str (toString (Identity.daysFrom now ttlDays)))]
        createdAt := now }
    return effectiveLimits settings now db organization.id

def Restates (now : Time) (db : Db) (organizationId : Nat) (limits : Option (List (String × Int))) (ttlDays : Int) : Prop :=
  match limits.filter (· ≠ []), quotaRow db organizationId with
  | none, row => row = none
  | some _, none => False
  | some limits, some row => overriding now limits ttlDays row = row

section Effects

variable {settings : Settings} {now : Time} {db after : Db} {organizationId : Nat}

theorem overriding_preserves (now : Time) (limits : List (String × Int)) (ttlDays : Int) :
    Table.Preserves (overriding now limits ttlDays) := fun _ => ⟨rfl, fun _ => rfl⟩

theorem clearOverrides_frame (db : Db) (organizationId : Nat) :
    ∃ orgQuotas, clearOverrides db organizationId = { db with orgQuotas } := by
  unfold clearOverrides
  split
  · exact ⟨_, rfl⟩
  · exact ⟨_, rfl⟩

theorem clearOverrides_rows :
    (clearOverrides db organizationId).orgQuotas.rows = db.orgQuotas.rows ↔ quotaRow db organizationId = none := by
  unfold clearOverrides
  cases found : quotaRow db organizationId with
  | none => simp
  | some row =>
    simp only [reduceCtorEq, iff_false]
    intro same
    have stored := Table.one_mem found
    rw [← same] at stored
    simpa using (Table.mem_delete.mp stored).2

theorem putOverrides_frame {userId : Nat} {limits : List (String × Int)} {ttlDays : Int}
    (done : putOverrides now db organizationId userId limits ttlDays = .ok after) :
    ∃ orgQuotas, after = { db with orgQuotas } := by
  unfold putOverrides at done
  split at done
  · simp only [Outcome.bind_eq_ok, Outcome.pure_eq_ok, Prod.exists] at done
    obtain ⟨_, _, _, rfl⟩ := done
    exact ⟨_, rfl⟩
  · cases done
    exact ⟨_, rfl⟩

theorem putOverrides_rows {userId : Nat} {limits : List (String × Int)} {ttlDays : Int}
    (done : putOverrides now db organizationId userId limits ttlDays = .ok after) :
    after.orgQuotas.rows = db.orgQuotas.rows ↔
      ∃ row, quotaRow db organizationId = some row ∧ overriding now limits ttlDays row = row := by
  unfold putOverrides at done
  cases found : quotaRow db organizationId with
  | none =>
    rw [found] at done
    simp only [Outcome.bind_eq_ok, Outcome.pure_eq_ok, Prod.exists] at done
    obtain ⟨_, _, inserted, rfl⟩ := done
    obtain ⟨_, _, rows, _⟩ := Table.insert_eq_some.mp (Db.insertRow_eq_ok.mp inserted)
    simp [rows]
  | some row =>
    rw [found] at done
    cases done
    have preserves := overriding_preserves now limits ttlDays
    simp only [Option.some.injEq, exists_eq_left']
    constructor
    · intro same
      exact Table.modify_fixed preserves same (Table.one_mem found) (beq_self_eq_true _)
    · intro fixed
      apply Table.modify_rows preserves
      intro other stored matched
      have equal : other = row := Table.eq_of_id stored (Table.one_mem found) (beq_iff_eq.mp matched)
      rw [equal]
      exact fixed

/-- Setting the overrides writes nothing else but an audit record and the lazily created subscription. -/
theorem setOrgQuotaOverrides_frame {organization : Organization} {user : User} {limits : Option (List (String × Int))}
    {ttlDays : Int} {result : Limits}
    (done : setOrgQuotaOverrides settings now db organization user limits ttlDays = .ok (after, result)) :
    ∃ orgQuotas auditEvents, after = (effectiveLimits settings now { db with orgQuotas, auditEvents } organization.id).1 ∧
      (orgQuotas.rows = db.orgQuotas.rows ↔ Restates now db organization.id limits ttlDays) := by
  unfold setOrgQuotaOverrides Restates at *
  simp only [Outcome.bind_eq_ok] at done
  obtain ⟨_, _, rest⟩ := done
  cases asked : limits.filter (· ≠ []) with
  | none =>
    rw [asked] at rest
    obtain ⟨orgQuotas, cleared⟩ := clearOverrides_frame db organization.id
    have rows : (clearOverrides db organization.id).orgQuotas.rows = db.orgQuotas.rows ↔ _ := clearOverrides_rows
    rw [cleared] at rest rows
    refine ⟨orgQuotas, db.auditEvents, ?_, rows⟩
    exact (congrArg Prod.fst (Outcome.pure_eq_ok.mp rest)).symm
  | some limits =>
    rw [asked] at rest
    simp only [Outcome.bind_eq_ok, Outcome.pure_eq_ok] at rest
    obtain ⟨_, _, _, _, _, put, rest⟩ := rest
    obtain ⟨orgQuotas, rfl⟩ := putOverrides_frame put
    have rows := putOverrides_rows put
    refine ⟨orgQuotas, _, (congrArg Prod.fst rest).symm, rows.trans ?_⟩
    cases quotaRow db organization.id <;> simp

end Effects

end Registry.Quotas
