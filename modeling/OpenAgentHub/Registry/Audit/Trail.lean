import OpenAgentHub.Registry.Billing.Subscriptions
import OpenAgentHub.Registry.Packages.Effects
import OpenAgentHub.Registry.Quotas.Overrides

namespace Registry.Audit

open Relational

def Grows (before after : Db) : Prop := before.auditEvents.rows <+: after.auditEvents.rows

def Appended (before after : Db) : Prop :=
  ∃ events, events ≠ [] ∧ after.auditEvents.rows = before.auditEvents.rows ++ events

def untimedVersion (row : AgentVersion) : AgentVersion :=
  { row with publishedAt := 0, reviewedAt := none, scanRequestedAt := none, scanCompletedAt := none }

def untimed (db : Db) : Db :=
  { db with
    users := db.users.modify (fun _ => true) fun row => { row with createdAt := 0 }
    userAgreements := db.userAgreements.modify (fun _ => true) fun row => { row with acceptedAt := 0 }
    sessions := db.sessions.modify (fun _ => true) fun row =>
      { row with createdAt := 0, lastUsedAt := 0, expiresAt := 0, idleExpiresAt := 0, revokedAt := none }
    loginTransactions := db.loginTransactions.modify (fun _ => true) fun row =>
      { row with createdAt := 0, expiresAt := 0, completedAt := none, issuedAt := none }
    invitations := db.invitations.modify (fun _ => true) fun row => { row with expiresAt := 0, acceptedAt := none }
    apiTokens := db.apiTokens.modify (fun _ => true) fun row =>
      { row with lastUsedAt := none, expiresAt := none, revokedAt := none }
    signingKeys := db.signingKeys.modify (fun _ => true) fun row =>
      { row with expiresAt := none, revokedAt := none, lastUsedAt := none }
    auditEvents := db.auditEvents.modify (fun _ => true) fun row => { row with createdAt := 0 }
    subscriptions := db.subscriptions.modify (fun _ => true) fun row =>
      { row with trialEndsAt := none, graceEndsAt := none, canceledAt := none, updatedAt := 0 }
    billingWebhookEvents := db.billingWebhookEvents.modify (fun _ => true) fun row =>
      { row with receivedAt := 0, processedAt := none }
    orgQuotas := db.orgQuotas.modify (fun _ => true) fun row => { row with overridesExpireAt := none }
    queueJobs := db.queueJobs.modify (fun _ => true) fun row =>
      { row with nextAttemptAt := 0, leasedUntil := none, updatedAt := 0 }
    outboxEvents := db.outboxEvents.modify (fun _ => true) fun row => { row with publishedAt := none }
    agentVersions := db.agentVersions.modify (fun _ => true) untimedVersion fun _ => ⟨rfl, fun _ => rfl⟩
    catalogUpdatedAt := none }

def SameState (before after : Db) : Prop := untimed after = untimed before

/-- A change of the state goes with a record of it. -/
def Complete (before after : Db) : Prop := Appended before after ∨ SameState before after

section Log

variable {before middle after : Db} {event : AuditEvent}

theorem Grows.refl (db : Db) : Grows db db := List.prefix_rfl

theorem Grows.of_eq (same : after.auditEvents = before.auditEvents) : Grows before after := by
  refine ⟨[], ?_⟩
  rw [same, List.append_nil]

theorem Grows.trans (first : Grows before middle) (second : Grows middle after) : Grows before after :=
  List.IsPrefix.trans first second

theorem Grows.of_billingOnly (frame : Billing.BillingOnly before after) : Grows before after := by
  obtain ⟨_, _, rfl⟩ := frame
  exact .refl _

theorem Appended.grows (appended : Appended before after) : Grows before after := by
  obtain ⟨events, _, rows⟩ := appended
  exact ⟨events, rows.symm⟩

theorem Grows.appended (grows : Grows before middle) (appended : Appended middle after) : Appended before after := by
  obtain ⟨earlier, rows⟩ := grows
  obtain ⟨events, some_, rows'⟩ := appended
  refine ⟨earlier ++ events, by simp [some_], ?_⟩
  rw [rows', ← rows, List.append_assoc]

theorem Appended.later (appended : Appended before middle) (grows : Grows middle after) : Appended before after := by
  obtain ⟨events, some_, rows⟩ := appended
  obtain ⟨more, rows'⟩ := grows
  refine ⟨events ++ more, by simp [some_], ?_⟩
  rw [← rows', rows, List.append_assoc]

theorem Grows.recordAudit (grows : Grows before middle) : Appended before (middle.recordAudit event) :=
  grows.appended ⟨[_], by simp, rfl⟩

theorem Appended.recordAudit (appended : Appended before middle) : Appended before (middle.recordAudit event) :=
  appended.grows.recordAudit

theorem not_appended (same : after.auditEvents.rows = before.auditEvents.rows) : ¬ Appended before after := by
  rintro ⟨events, some_, rows⟩
  have lengths := congrArg List.length (same.symm.trans rows)
  simp [some_] at lengths

theorem complete_iff_same (same : after.auditEvents.rows = before.auditEvents.rows) :
    Complete before after ↔ SameState before after := by
  unfold Complete
  simp [not_appended same]

end Log

section State

variable {before middle after : Db}

theorem SameState.refl (db : Db) : SameState db db := rfl

theorem SameState.symm (same : SameState before after) : SameState after before := Eq.symm same

theorem SameState.trans (first : SameState before middle) (second : SameState middle after) : SameState before after :=
  Eq.trans second first

theorem sameState_iff_of_left (same : SameState before middle) : SameState before after ↔ SameState middle after :=
  ⟨same.symm.trans, same.trans⟩

theorem sameState_iff_of_right (same : SameState middle after) : SameState before after ↔ SameState before middle :=
  ⟨fun whole => whole.trans same.symm, fun first => first.trans same⟩

theorem SameState.subscriptions (same : SameState before after) :
    after.subscriptions.rows.length = before.subscriptions.rows.length := by
  simpa [untimed, Table.modify] using congrArg (fun db : Db => db.subscriptions.rows.length) same

theorem SameState.orgQuotas (same : SameState before after) :
    after.orgQuotas.rows.length = before.orgQuotas.rows.length := by
  simpa [untimed, Table.modify] using congrArg (fun db : Db => db.orgQuotas.rows.length) same

theorem SameState.queueJobs (same : SameState before after) :
    after.queueJobs.rows.length = before.queueJobs.rows.length := by
  simpa [untimed, Table.modify] using congrArg (fun db : Db => db.queueJobs.rows.length) same

theorem SameState.agents (same : SameState before after) : after.agents = before.agents := by
  have states : untimed after = untimed before := same
  exact (congrArg Db.agents states :)

/-- What an update of a version row changes besides timestamps is seen on the rows it is made to. -/
theorem sameState_setVersion {db : Db} {id : Nat} {update : AgentVersion → AgentVersion}
    (preserves : Table.Preserves update) :
    SameState db (Packages.setVersion db id update preserves) ↔
      ∀ row ∈ db.agentVersions.rows, row.id = id → untimedVersion (update row) = untimedVersion row := by
  have tables : SameState db (Packages.setVersion db id update preserves) ↔
      (db.agentVersions.rows.map fun row => if row.id == id then update row else row).map untimedVersion =
        db.agentVersions.rows.map untimedVersion := by
    constructor
    · intro same
      have rows := congrArg (fun db : Db => db.agentVersions.rows) same
      simpa [untimed, Packages.setVersion, Table.modify] using rows
    · intro rows
      unfold SameState untimed Packages.setVersion
      congr 1
      apply Table.ext_rows
      · simpa [Table.modify] using rows
      · rfl
  rw [tables, List.map_map, List.map_inj_left]
  apply forall₂_congr
  intro row _
  by_cases named : row.id = id
  · simp [named]
  · simp [named]

end State

end Registry.Audit
