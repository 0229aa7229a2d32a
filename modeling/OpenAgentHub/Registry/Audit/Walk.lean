import OpenAgentHub.Registry.Audit.Completeness
import OpenAgentHub.Registry.Audit.Pagination

/-! Readers that page through the log while other requests write to it. -/

namespace Registry.Audit

open Relational Keyset

section Growth

variable {host : Packages.PackageHost} {now : Time} {store : Packages.Store} {actor : Packages.Subject} {db after : Db}

theorem grows_of_kept (kept : Appended db after ∨ after = db) : Grows db after := by
  rcases kept with appended | same
  · exact appended.grows
  · rw [same]
    exact .refl db

section Billing

open Billing

variable {settings : Settings} {sub result : OrganizationSubscription} {organizationId : Nat}

theorem transitionStatus_grows {newStatus : String} {change : Change}
    (done : transitionStatus settings now db sub newStatus change = .ok (after, result)) : Grows db after := by
  by_cases moves : newStatus = sub.status.name
  · unfold transitionStatus at done
    rw [if_pos moves] at done
    cases done
    exact .refl db
  · exact (transitionStatus_appended moves done).grows

theorem subscriptionFor_grows (done : subscriptionFor settings now db organizationId = .ok (after, sub)) : Grows db after :=
  .of_eq (subscriptionFor_cases done).2.1

theorem reconcileSubscription_grows (done : reconcileSubscription settings now db organizationId = .ok after) :
    Grows db after := by
  unfold reconcileSubscription at done
  simp only [Outcome.bind_eq_ok, Outcome.pure_eq_ok, Prod.exists] at done
  obtain ⟨read, sub, opens, advanced, result, advances, rfl⟩ := done
  have advance : Grows read advanced := by
    unfold advanceDue at advances
    split at advances
    · exact transitionStatus_grows advances
    · cases advances
      exact .refl read
  have scheduled : Grows advanced (scheduleTimed settings now advanced result) :=
    .of_billingOnly (scheduleTimed_billingOnly ..)
  exact (subscriptionFor_grows opens).trans (advance.trans scheduled)

end Billing

open Quotas in
theorem setOrgQuotaOverrides_grows {settings : Settings} {organization : Organization} {user : User}
    {limits : Option (List (String × Int))} {ttlDays : Int} {result : Limits}
    (done : Quotas.setOrgQuotaOverrides settings now db organization user limits ttlDays = .ok (after, result)) :
    Grows db after := by
  have settled : ∀ before : Db, Grows before (Quotas.effectiveLimits settings now before organization.id).1 :=
    fun before => .of_billingOnly (Quotas.effectiveLimits_billingOnly settings now before organization.id)
  unfold Quotas.setOrgQuotaOverrides at done
  obtain ⟨_, _, rest⟩ := Outcome.bind_eq_ok.mp done
  split at rest
  · have reached : _ = after := congrArg Prod.fst (Outcome.pure_eq_ok.mp rest)
    obtain ⟨orgQuotas, cleared⟩ := Quotas.clearOverrides_frame db organization.id
    have same : Grows db (Quotas.clearOverrides db organization.id) := by
      rw [cleared]
      exact .refl db
    rw [← reached]
    exact same.trans (settled _)
  · simp only [Outcome.bind_eq_ok] at rest
    obtain ⟨_, _, _, _, put, puts, rest⟩ := rest
    have reached : _ = after := congrArg Prod.fst (Outcome.pure_eq_ok.mp rest)
    obtain ⟨orgQuotas, rfl⟩ := Quotas.putOverrides_frame puts
    have kept : Grows db { db with orgQuotas } := .refl db
    rw [← reached]
    exact (Grows.recordAudit kept).grows.trans (settled _)

section Packages

open Packages

variable {namespaceName name version : String} {user : User}

theorem triggerRescan_grows {result : PublishResult}
    (done : triggerRescan host now store user namespaceName name version = .ok (after, result)) : Grows store.db after := by
  obtain ⟨_, _, _, rfl⟩ := triggerRescan_frame done
  exact .refl store.db

theorem scanVersionById_grows {versionId : Nat} {result : PublishResult}
    (done : scanVersionById host store versionId = .ok (after, result)) : Grows store.db after := by
  obtain ⟨_, _, rfl⟩ := scanVersionById_frame done
  exact .refl store.db

theorem setPackageVisibility_grows {visibility : String} {slug : Option String} {result : Visibility}
    (done : setPackageVisibility host now db actor namespaceName name visibility slug = .ok (after, result)) :
    Grows db after := by
  obtain ⟨_, _, _, _, _, _, ⟨_, rfl⟩ | ⟨_, charged, _, charges, rfl⟩⟩ := setPackageVisibility_cases done
  · exact .refl db
  · have moved : Grows _ charged := .of_billingOnly charges
    have bound : Grows db charged := moved
    exact bound.recordAudit.grows

end Packages

/-- No operation changes or removes an event. -/
theorem handle_grows {operation : Operation} (done : handle host now store actor operation = .ok after) :
    Grows store.db after := by
  cases operation with
  | organization operation alone => exact (organization_appended alone done).grows
  | deleteAccount => exact (deleteAccount_appended done).grows
  | setOrgQuotaOverrides organization limits ttlDays =>
    obtain ⟨_, done⟩ := Outcome.map_fst_ok.mp done
    exact setOrgQuotaOverrides_grows done
  | processWebhook delivery =>
    obtain ⟨_, done⟩ := Outcome.map_fst_ok.mp done
    exact grows_of_kept (processWebhook_complete done)
  | transitionStatus organizationId newStatus reason =>
    obtain ⟨⟨read, sub⟩, opens, transitioned⟩ := Outcome.bind_eq_ok.mp done
    obtain ⟨_, transitioned⟩ := Outcome.map_fst_ok.mp transitioned
    exact (subscriptionFor_grows opens).trans (transitionStatus_grows transitioned)
  | changePlan organizationId newPlan => exact (changePlan_complete done).grows
  | reconcileSubscription organizationId => exact reconcileSubscription_grows done
  | publishVersion submission =>
    obtain ⟨result, done⟩ := Outcome.map_fst_ok.mp done
    exact (publishVersion_appended (Prod.ext rfl done)).grows
  | reviewVersion namespaceName name version action reason notes =>
    obtain ⟨_, done⟩ := Outcome.map_fst_ok.mp done
    exact (reviewVersion_appended done).grows
  | yankVersion namespaceName name version yanked =>
    obtain ⟨_, done⟩ := Outcome.map_fst_ok.mp done
    exact grows_of_kept (yankVersion_complete done)
  | triggerRescan namespaceName name version =>
    obtain ⟨_, done⟩ := Outcome.map_fst_ok.mp done
    exact triggerRescan_grows done
  | scanVersionById versionId =>
    obtain ⟨_, done⟩ := Outcome.map_fst_ok.mp done
    exact scanVersionById_grows done
  | setPackageVisibility namespaceName name visibility slug =>
    obtain ⟨_, done⟩ := Outcome.map_fst_ok.mp done
    exact setPackageVisibility_grows done
  | grantPackageAccess namespaceName name username teamId =>
    obtain ⟨_, done⟩ := Outcome.map_fst_ok.mp done
    exact (grantPackageAccess_appended done).grows
  | revokePackageAccess namespaceName name username teamId =>
    obtain ⟨_, done⟩ := Outcome.map_fst_ok.mp done
    exact (revokePackageAccess_appended done).grows
  | issueDownloadUrl namespaceName name version =>
    obtain ⟨_, done⟩ := Outcome.map_fst_ok.mp done
    exact (issueDownloadUrl_appended done).grows
  | claimNamespace name =>
    obtain ⟨_, done⟩ := Outcome.map_fst_ok.mp done
    exact (claimNamespace_appended done).grows
  | addNamespaceMaintainer namespaceName username role =>
    obtain ⟨_, done⟩ := Outcome.map_fst_ok.mp done
    exact (addNamespaceMaintainer_appended done).grows
  | registerSigningKey pem label expiresAt =>
    obtain ⟨_, done⟩ := Outcome.map_fst_ok.mp done
    exact grows_of_kept (complete_of_keysOnly (Packages.registerSigningKey_keysOnly done))
  | revokeSigningKey keyId =>
    obtain ⟨_, done⟩ := Outcome.map_fst_ok.mp done
    exact grows_of_kept (complete_of_keysOnly (Packages.revokeSigningKey_keysOnly done))

end Growth

structure Request where
  actor : Packages.Subject
  now : Time
  operation : Operation

/-- The state after a request. Publishing writes its archive before it can fail, and a failed request commits nothing. -/
def serve (host : Packages.PackageHost) (store : Packages.Store) (request : Request) : Packages.Store where
  db := match handle host request.now store request.actor request.operation with
    | .ok db => db
    | .error _ => store.db
  files := match request.operation with
    | .publishVersion submission => (Packages.publishVersion host request.now store request.actor.user submission).1
    | _ => store.files

section Reader

variable {host : Packages.PackageHost} {settings : Settings} {filter : Filter}

/-- Every request, answered or refused, only adds to the log. -/
theorem serve_grows (store : Packages.Store) (request : Request) : Grows store.db (serve host store request).db := by
  unfold serve
  split
  · next done => exact handle_grows done
  · exact .refl store.db

/-- A page of the log is a cut of the events that the filter selects, whatever limit it was asked for with. -/
theorem logPage_cut {db : Db} {limit : Int} {beforeId : Option Nat} {page : AuditPage}
    (answered : logPage settings db filter limit beforeId = .ok page) :
    Cut AuditEvent.id (below AuditEvent.id (found db filter none) beforeId) page := by
  rcases served_of_answered answered with ⟨positive, fits⟩ | ⟨sqlite, fits, negative⟩
  · rw [logPage_positive positive fits] at answered
    cases answered
    exact firstPage_cut (by omega)
  · unfold logPage search at answered
    rw [limited_negative sqlite negative fits, Outcome.ok_bind, auditPage_negative negative, found_below] at answered
    cases answered
    exact .whole

theorem found_subset {before after : Db} (grows : Grows before after) :
    found before filter none ⊆ found after filter none := by
  intro event present
  obtain ⟨stored, selected⟩ := mem_found.mp present
  exact mem_found.mpr ⟨grows.subset stored, selected⟩

variable {subject : Option Packages.Subject} {namespaceName name : String} {action : Option String}

theorem getPackageAuditLog_ok {db : Db} {limit : Int} {beforeId : Option Nat} {page : AuditPage}
    (answered : Packages.getPackageAuditLog settings db subject namespaceName name limit beforeId action = .ok page) :
    logPage settings db { namespaceName := some namespaceName, name := some name, action } limit beforeId = .ok page := by
  unfold Packages.getPackageAuditLog at answered
  obtain ⟨_, _, answered⟩ := Outcome.bind_eq_ok.mp answered
  exact answered

end Reader

/-- Whoever reads a package's log page by page, while others only add to it, is told of every event that was there when
they began, once and newest first, and of nothing that is not in the log. The limit may differ from page to page. -/
theorem package_log_walks {host : Packages.PackageHost} {store final : Packages.Store} {subject : Option Packages.Subject}
    {namespaceName name : String} {action : Option String} {events : List AuditEvent}
    (walk : Walk (fun (store : Packages.Store) beforeId page => ∃ limit,
        Packages.getPackageAuditLog host.settings store.db subject namespaceName name limit beforeId action = .ok page)
      (fun before after => Grows before.db after.db) store none events final) :
    Falling AuditEvent.id events ∧
      (∀ event ∈ store.db.auditEvents.rows,
        Filter.selects { namespaceName := some namespaceName, name := some name, action } event = true → event ∈ events) ∧
      ∀ event ∈ events, event ∈ final.db.auditEvents.rows ∧
        Filter.selects { namespaceName := some namespaceName, name := some name, action } event = true := by
  obtain ⟨walked, _⟩ := @Walk.walked _ AuditEvent.id _
    (fun store => found store.db { namespaceName := some namespaceName, name := some name, action } none) _ _ _ _ _ _
    (fun _ => found_falling)
    (by
      rintro _ _ _ ⟨limit, answered⟩
      exact logPage_cut (getPackageAuditLog_ok answered))
    (by
      intro _ _ grows
      exact found_subset grows)
    walk
  refine ⟨walked.falling, ?_, fun event present => mem_found.mp (walked.sound event present)⟩
  intro event stored selected
  refine walked.complete event ?_
  rw [below_none]
  exact mem_found.mpr ⟨stored, selected⟩

section Archives

def shelf : Packages.Store := ⟨archives, fun _ => none⟩

def toolLog : Filter := { namespaceName := some "acme", name := some "tool" }

def withdrawal : Request := ⟨⟨archivist, none⟩, 5, .setPackageVisibility "acme" "tool" "private" none⟩

theorem shelf_first : found shelf.db toolLog none = [published 3, published 2, published 1] := by
  have selected : shelf.db.auditEvents.select (fun event => toolLog.selects event && (none : Option Nat).all (event.id < ·)) =
      [published 1, published 2, published 3] := rfl
  unfold found
  rw [selected]
  simp [published, List.mergeSort]

theorem shelf_second : found (serve Packages.workshopHost shelf withdrawal).db toolLog (some 2) = [published 1] := by
  have selected : (serve Packages.workshopHost shelf withdrawal).db.auditEvents.select (fun event =>
      toolLog.selects event && (some 2 : Option Nat).all (event.id < ·)) = [published 1] := rfl
  unfold found
  rw [selected, List.mergeSort_singleton]

theorem toolLog_page {db : Db} {events : List AuditEvent} {limit : Int} {beforeId : Option Nat}
    (viewable : (Packages.viewableAgent db "acme" "tool" (some ⟨archivist, none⟩)).isOk = true)
    (isFound : found db toolLog beforeId = events) :
    Packages.getPackageAuditLog Packages.workshopHost.settings db (some ⟨archivist, none⟩) "acme" "tool" limit beforeId none =
      (limited Packages.workshopHost.settings limit events).bind (auditPage · limit) := by
  obtain ⟨agent, isAgent⟩ := Outcome.isOk_iff.mp viewable
  unfold Packages.getPackageAuditLog search
  rw [isAgent, ← isFound]
  rfl

theorem package_log_walks_withdrawal :
    Falling AuditEvent.id [published 3, published 2, published 1] ∧
      (serve Packages.workshopHost shelf withdrawal).db.auditEvents.rows.length = 4 := by
  have first : Packages.getPackageAuditLog Packages.workshopHost.settings shelf.db (some ⟨archivist, none⟩) "acme" "tool" 2
      none none = .ok ⟨[published 3, published 2], some 2⟩ := toolLog_page (by decide +kernel) shelf_first
  have second : Packages.getPackageAuditLog Packages.workshopHost.settings (serve Packages.workshopHost shelf withdrawal).db
      (some ⟨archivist, none⟩) "acme" "tool" 50 (some 2) none = .ok ⟨[published 1], none⟩ :=
    toolLog_page (by decide +kernel) shelf_second
  exact ⟨(package_log_walks (.more ⟨2, first⟩ (.wait (serve_grows shelf withdrawal) (.last ⟨50, second⟩)))).1, by decide +kernel⟩

end Archives

end Registry.Audit
