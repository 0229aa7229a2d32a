import OpenAgentHub.Registry.Organizations.Operations
import OpenAgentHub.Registry.Packages.Reading

namespace Registry

namespace Organizations

def getOrgAuditLog (settings : Settings) (db : Db) (user : User) (slug : String) (limit : Int) (beforeId : Option Nat)
    (action : Option String) : Except Raised Audit.AuditPage := do
  let (org, member) ← actingMember db user slug
  Outcome.ensure (canMaintain member = true)
    ⟨.organizationForbidden, "requires owner, administrator, or maintainer role for audit access"⟩
  let events ← Audit.search settings db { organizationId := some org.id, action } limit beforeId
  Audit.auditPage events limit

end Organizations

namespace Audit

open Keyset

/-- Following the cursors from the first page collects every event that the filter selects, once and newest first. -/
def Exhausts (log : Option Nat → Except Raised AuditPage) (db : Db) (filter : Filter) : Prop :=
  ∃ events, Collects log none events ∧ Falling AuditEvent.id events ∧
    ∀ event, event ∈ events ↔ event ∈ db.auditEvents.rows ∧ filter.selects event = true

def Served (settings : Settings) (limit : Int) : Prop :=
  0 < limit ∧ limit < 2 ^ 63 ∨ settings.postgresql = false ∧ -2 ^ 63 ≤ limit ∧ limit < 0

section Following

variable {settings : Settings} {db : Db} {filter : Filter} {limit : Int} {beforeId : Option Nat}

def logPage (settings : Settings) (db : Db) (filter : Filter) (limit : Int) (beforeId : Option Nat) : Except Raised AuditPage := do
  auditPage (← search settings db filter limit beforeId) limit

theorem found_falling : Falling AuditEvent.id (found db filter beforeId) := by
  have sorted : (found db filter beforeId).Pairwise fun first second => second.id ≤ first.id := by
    have ordered := @List.pairwise_mergeSort _ (fun first second : AuditEvent => decide (second.id ≤ first.id))
      (fun first second third below further => by simp only [decide_eq_true_eq] at *; omega)
      (fun first second => by simp only [Bool.or_eq_true, decide_eq_true_eq]; omega)
      (db.auditEvents.select fun event => filter.selects event && beforeId.all (event.id < ·))
    exact ordered.imp of_decide_eq_true
  have distinct : (found db filter beforeId).Pairwise fun first second => first.id ≠ second.id := by
    refine ((List.mergeSort_perm _ _).pairwise_iff Ne.symm).mpr ?_
    exact (db.auditEvents.distinct.filter _).imp And.left
  exact (sorted.and distinct).imp fun both => Nat.lt_of_le_of_ne both.1 both.2.symm

theorem mem_found {event : AuditEvent} : event ∈ found db filter none ↔
    event ∈ db.auditEvents.rows ∧ filter.selects event = true := by
  simp [found]

theorem found_below : found db filter beforeId = below AuditEvent.id (found db filter none) beforeId := by
  apply List.Perm.eq_of_pairwise _ found_falling (found_falling.below beforeId)
  · have whole := ((List.mergeSort_perm (db.auditEvents.select fun event => filter.selects event && (none : Option Nat).all (event.id < ·))
      fun first second => decide (second.id ≤ first.id)).filter fun event => beforeId.all (event.id < ·))
    refine (List.mergeSort_perm _ _).trans (List.Perm.trans (List.Perm.of_eq ?_) whole.symm)
    simp [Relational.Table.select, List.filter_filter, Bool.and_comm]
  · intro first second _ _ later earlier
    omega

section Limits

variable {events : List AuditEvent}

theorem limited_served (positive : 0 < limit) (fits : limit < 2 ^ 63) :
    limited settings limit events = .ok (events.take limit.toNat) := by
  unfold limited
  rw [Outcome.ensure_true (by omega), Outcome.ok_bind, if_pos (by omega)]
  rfl

theorem limited_negative (sqlite : settings.postgresql = false) (negative : limit < 0) (fits : -2 ^ 63 ≤ limit) :
    limited settings limit events = .ok events := by
  unfold limited
  rw [Outcome.ensure_true (by omega), Outcome.ok_bind, if_neg (by omega), sqlite]
  rfl

theorem limited_cases {taken : List AuditEvent} (limited : limited settings limit events = .ok taken) :
    -2 ^ 63 ≤ limit ∧ limit < 2 ^ 63 ∧ (limit < 0 → settings.postgresql = false) ∧ (limit = 0 → taken = []) := by
  simp only [Audit.limited, Outcome.bind_eq_ok, Outcome.ensure_eq_ok] at limited
  obtain ⟨_, ⟨lower, upper⟩, limited⟩ := limited
  refine ⟨lower, upper, ?_, ?_⟩
  · intro negative
    rw [if_neg (by omega)] at limited
    by_contra postgresql
    rw [Bool.not_eq_false] at postgresql
    rw [if_pos postgresql] at limited
    cases limited
  · rintro rfl
    cases limited
    rfl

theorem auditPage_empty : auditPage [] 0 = .error ⟨.indexError, "list index out of range"⟩ := rfl

theorem auditPage_positive (positive : 0 < limit) :
    auditPage (events.take limit.toNat) limit = .ok (firstPage AuditEvent.id limit.toNat events) := by
  by_cases short : events.length < limit.toNat
  · rw [firstPage_short short, List.take_of_length_le (Nat.le_of_lt short), auditPage, if_neg (by omega)]
    rfl
  · obtain ⟨front, row, split, full⟩ := @firstPage_full _ AuditEvent.id _ _ (by omega) (Nat.le_of_not_lt short)
    have taken : events.take limit.toNat = front ++ [row] := congrArg Page.items full
    have length : (events.take limit.toNat).length = limit.toNat := List.length_take_of_le (Nat.le_of_not_lt short)
    rw [full, auditPage, if_pos (by omega), taken]
    simp

theorem auditPage_negative (negative : limit < 0) : auditPage events limit = .ok ⟨events, none⟩ := by
  unfold auditPage
  rw [if_neg (by omega)]
  rfl

end Limits

/-- A limit that is not served raises on every page. -/
theorem served_of_answered {page : AuditPage} (answered : logPage settings db filter limit beforeId = .ok page) :
    Served settings limit := by
  unfold logPage search at answered
  obtain ⟨taken, isLimited, paged⟩ := Outcome.bind_eq_ok.mp answered
  obtain ⟨lower, upper, negative, zero⟩ := limited_cases isLimited
  rcases lt_trichotomy limit 0 with below | rfl | above
  · exact .inr ⟨negative below, lower, below⟩
  · rw [zero rfl, auditPage_empty] at paged
    cases paged
  · exact .inl ⟨above, upper⟩

theorem logPage_positive (positive : 0 < limit) (fits : limit < 2 ^ 63) :
    logPage settings db filter limit beforeId =
      .ok (firstPage AuditEvent.id limit.toNat (below AuditEvent.id (found db filter none) beforeId)) := by
  unfold logPage search
  rw [limited_served positive fits, Outcome.ok_bind, auditPage_positive positive, found_below]

theorem logPage_negative (sqlite : settings.postgresql = false) (negative : limit < 0) (fits : -2 ^ 63 ≤ limit) :
    logPage settings db filter limit none = .ok ⟨found db filter none, none⟩ := by
  unfold logPage search
  rw [limited_negative sqlite negative fits, Outcome.ok_bind, auditPage_negative negative]

theorem exhausts_iff : Exhausts (logPage settings db filter limit) db filter ↔ Served settings limit := by
  constructor
  · rintro ⟨events, collects, _⟩
    obtain ⟨page, answered⟩ := collects.answered
    exact served_of_answered answered
  · rintro (⟨positive, fits⟩ | ⟨sqlite, fits, negative⟩)
    · have collected : Collects (logPage settings db filter limit) none (below AuditEvent.id (found db filter none) none) :=
        collects_below (by omega) found_falling (fun cursor => logPage_positive positive fits) none
      rw [below_none] at collected
      exact ⟨_, collected, found_falling, fun event => mem_found⟩
    · exact ⟨_, .last (logPage_negative sqlite negative fits), found_falling, fun event => mem_found⟩

end Following

/-- Both logs are complete for whoever may read them, exactly at the limits that are served. -/
theorem audit_pagination_iff (settings : Settings) (db : Db) (limit : Int) (action : Option String) :
    (∀ user slug org member, Organizations.actingMember db user slug = .ok (org, member) →
      Organizations.canMaintain member = true →
      (Exhausts (fun beforeId => Organizations.getOrgAuditLog settings db user slug limit beforeId action) db
        { organizationId := some org.id, action } ↔ Served settings limit)) ∧
    (∀ subject namespaceName name agent, Packages.viewableAgent db namespaceName name subject = .ok agent →
      (Exhausts (fun beforeId => Packages.getPackageAuditLog settings db subject namespaceName name limit beforeId action) db
        { namespaceName := some namespaceName, name := some name, action } ↔ Served settings limit)) := by
  constructor
  · intro user slug org member acting allowed
    have log : (fun beforeId => Organizations.getOrgAuditLog settings db user slug limit beforeId action) =
        logPage settings db { organizationId := some org.id, action } limit := by
      funext beforeId
      unfold Organizations.getOrgAuditLog
      rw [acting, Outcome.ok_bind]
      dsimp only
      rw [Outcome.ensure_true allowed]
      rfl
    rw [log]
    exact exhausts_iff
  · intro subject namespaceName name agent viewable
    have log : (fun beforeId => Packages.getPackageAuditLog settings db subject namespaceName name limit beforeId action) =
        logPage settings db { namespaceName := some namespaceName, name := some name, action } limit := by
      funext beforeId
      unfold Packages.getPackageAuditLog
      rw [viewable]
      rfl
    rw [log]
    exact exhausts_iff

def archivist : User := { id := 1, username := "keeper" }

def published (id : Nat) : AuditEvent where
  id := id
  actorId := some 1
  organizationId := some 1
  namespaceName := some "acme"
  name := some "tool"
  action := "version.published"
  createdAt := id

def archives : Db where
  organizations := .single { id := 1, slug := "acme", displayName := "Acme" }
  organizationMembers := .single { id := 1, organizationId := 1, userId := 1, role := .owner }
  agents := ⟨[{ id := 1, namespaceName := "acme", name := "tool", ownerId := 1, author := "keeper" }], 2, by decide, by decide⟩
  auditEvents := ((Relational.Table.empty.push published).push published).push published

theorem audit_pagination_iff_pairs :
    Exhausts (fun beforeId => Organizations.getOrgAuditLog {} archives archivist "acme" 2 beforeId none) archives
        { organizationId := some 1 } ∧
      Exhausts (fun beforeId => Packages.getPackageAuditLog {} archives none "acme" "tool" 2 beforeId none) archives
        { namespaceName := some "acme", name := some "tool" } := by
  have served : Served {} 2 := .inl ⟨by decide, by decide⟩
  obtain ⟨organization, package⟩ := audit_pagination_iff {} archives 2 none
  exact ⟨(organization archivist "acme" _ _ rfl rfl).mpr served, (package none "acme" "tool" _ rfl).mpr served⟩

/-- With the limit 0 the empty page passes for a full one, and has no last event. -/
theorem audit_page_of_none_raises :
    Organizations.getOrgAuditLog {} archives archivist "acme" 0 none none = .error ⟨.indexError, "list index out of range"⟩ ∧
      ¬ Exhausts (fun beforeId => Organizations.getOrgAuditLog {} archives archivist "acme" 0 beforeId none) archives
        { organizationId := some 1 } := by
  have raises : Organizations.getOrgAuditLog {} archives archivist "acme" 0 none none =
      .error ⟨.indexError, "list index out of range"⟩ := rfl
  refine ⟨raises, ?_⟩
  rintro ⟨events, collects, _⟩
  obtain ⟨page, answered⟩ := collects.answered
  rw [raises] at answered
  cases answered

end Audit

end Registry
