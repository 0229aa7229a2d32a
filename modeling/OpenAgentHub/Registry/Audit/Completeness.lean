import OpenAgentHub.Registry.Audit.Recording

namespace Registry.Audit

open Relational

inductive Operation where
  | organization (operation : Organizations.Operation) (alone : operation ≠ .removeUserMemberships)
  | deleteAccount
  | setOrgQuotaOverrides (organization : Organization) (limits : Option (List (String × Int))) (ttlDays : Int)
  | processWebhook (delivery : Billing.Delivery)
  | transitionStatus (organizationId : Nat) (newStatus : String) (reason : Option String)
  | changePlan (organizationId : Nat) (newPlan : String)
  | reconcileSubscription (organizationId : Nat)
  | publishVersion (submission : Packages.Submission)
  | reviewVersion (namespaceName name version action reason : String) (notes : Option String)
  | yankVersion (namespaceName name version : String) (yanked : Bool)
  | triggerRescan (namespaceName name version : String)
  | scanVersionById (versionId : Nat)
  | setPackageVisibility (namespaceName name visibility : String) (slug : Option String)
  | grantPackageAccess (namespaceName name : String) (username : Option String) (teamId : Option Nat)
  | revokePackageAccess (namespaceName name : String) (username : Option String) (teamId : Option Nat)
  | issueDownloadUrl (namespaceName name version : String)
  | claimNamespace (name : String)
  | addNamespaceMaintainer (namespaceName username role : String)
  | registerSigningKey (pem : String) (label : Option String) (expiresAt : Option Time)
  | revokeSigningKey (keyId : Nat)

/-- One operation in its transaction: the state to commit, or what it raised. -/
def handle (host : Packages.PackageHost) (now : Time) (store : Packages.Store) (actor : Packages.Subject) :
    Operation → Except Raised Db
  | .organization operation _ => Organizations.handle host.toHost store.db ⟨actor.user, now, operation⟩
  | .deleteAccount => Identity.deleteAccount host.toHost now store.db actor.user
  | .setOrgQuotaOverrides organization limits ttlDays =>
    (Quotas.setOrgQuotaOverrides host.settings now store.db organization actor.user limits ttlDays).map Prod.fst
  | .processWebhook delivery => Billing.perform host.settings now store.db (.processWebhook delivery)
  | .transitionStatus organizationId newStatus reason =>
    Billing.perform host.settings now store.db (.transitionStatus organizationId newStatus (some actor.user.id) reason)
  | .changePlan organizationId newPlan =>
    Billing.perform host.settings now store.db (.changePlan organizationId newPlan (some actor.user.id))
  | .reconcileSubscription organizationId =>
    Billing.perform host.settings now store.db (.reconcileSubscription organizationId)
  | .publishVersion submission =>
    (Packages.publishVersion host now store actor.user submission).2.map Prod.fst
  | .reviewVersion namespaceName name version action reason notes =>
    Packages.perform host now store actor (.reviewVersion namespaceName name version action reason notes)
  | .yankVersion namespaceName name version yanked =>
    Packages.perform host now store actor (.yankVersion namespaceName name version yanked)
  | .triggerRescan namespaceName name version =>
    Packages.perform host now store actor (.triggerRescan namespaceName name version)
  | .scanVersionById versionId => Packages.perform host now store actor (.scanVersionById versionId)
  | .setPackageVisibility namespaceName name visibility slug =>
    Packages.perform host now store actor (.setPackageVisibility namespaceName name visibility slug)
  | .grantPackageAccess namespaceName name username teamId =>
    Packages.perform host now store actor (.grantPackageAccess namespaceName name username teamId)
  | .revokePackageAccess namespaceName name username teamId =>
    Packages.perform host now store actor (.revokePackageAccess namespaceName name username teamId)
  | .issueDownloadUrl namespaceName name version =>
    Packages.perform host now store actor (.issueDownloadUrl namespaceName name version)
  | .claimNamespace name => Packages.perform host now store actor (.claimNamespace name)
  | .addNamespaceMaintainer namespaceName username role =>
    Packages.perform host now store actor (.addNamespaceMaintainer namespaceName username role)
  | .registerSigningKey pem label expiresAt =>
    Packages.perform host now store actor (.registerSigningKey pem label expiresAt)
  | .revokeSigningKey keyId => Packages.perform host now store actor (.revokeSigningKey keyId)

section Conditions

open Billing Packages

def opened (settings : Settings) (now : Time) (db : Db) (organizationId : Nat) : OrganizationSubscription :=
  (subscription db organizationId).getD (newSubscription settings now organizationId db.subscriptions.next)

def wantedJob (settings : Settings) (now : Time) (sub : OrganizationSubscription) : Option Time :=
  match sub.status with
  | .trial => sub.trialEndsAt.filter (now < ·)
  | .gracePeriod => sub.graceEndsAt.filter (now < ·)
  | .pastDue => some (max (sub.updatedAt + days settings.billingPastDueDays) now)
  | _ => none

def queuedJob (db : Db) (organizationId : Nat) (deadline : Time) : Option QueueJob :=
  db.queueJobs.one fun job => job.jobType == "billing.reconcile" &&
    job.dedupeKey == "billing:" ++ toString organizationId ++ ":" ++ toString deadline &&
    Outbox.activeJob job.status

def RescanDiffers (host : PackageHost) (files : Archives) (agent : Agent) (row : AgentVersion) : Prop :=
  ∃ archive findings, files.get agent.namespaceName agent.name row.version = .ok (some archive) ∧
    checkArchiveSafety host archive host.settings.maxArchiveBytes = .ok findings ∧
    ¬ (row.securityStatus = scanStatus findings ∧ row.securityFindings = findings)

def boundTo (db : Db) (agent : Agent) (visibility : Visibility) (slug : Option String) : Option Nat :=
  if visibility = .public then none
  else match slug.filter (· ≠ "") with
    | some slug => (Organizations.orgBySlug db slug).map Organization.id
    | none => agent.organizationId

def Unrecorded (host : PackageHost) (now : Time) (store : Store) : Operation → Prop
  | .setOrgQuotaOverrides organization limits _ =>
    limits.filter (· ≠ []) = none ∧
      (Quotas.quotaRow store.db organization.id ≠ none ∨ subscription store.db organization.id = none)
  | .transitionStatus organizationId newStatus _ =>
    newStatus = "trial" ∧ subscription store.db organizationId = none
  | .reconcileSubscription organizationId =>
    dueTransition host.settings now (opened host.settings now store.db organizationId) = none ∧
      (subscription store.db organizationId = none ∨
        ∃ deadline, wantedJob host.settings now (opened host.settings now store.db organizationId) = some deadline ∧
          queuedJob store.db organizationId deadline = none)
  | .triggerRescan namespaceName name version =>
    ∃ agent row, agentByName store.db namespaceName name = some agent ∧
      versionByName store.db agent version = some row ∧ RescanDiffers host store.files agent row
  | .scanVersionById versionId =>
    ∃ row agent, store.db.agentVersions.byId versionId = some row ∧ store.db.agents.byId row.agentId = some agent ∧
      RescanDiffers host store.files agent row
  | .setPackageVisibility namespaceName name visibility slug =>
    ∃ agent, agentByName store.db namespaceName name = some agent ∧ Visibility.name agent.visibility = visibility ∧
      agent.organizationId ≠ boundTo store.db agent agent.visibility slug
  | _ => False

end Conditions

section Billing

open Billing

variable {settings : Settings} {now : Time} {db after : Db} {sub : OrganizationSubscription} {organizationId : Nat}

theorem subscriptionFor_cases (done : subscriptionFor settings now db organizationId = .ok (after, sub)) :
    sub = opened settings now db organizationId ∧ after.auditEvents = db.auditEvents ∧
      ((subscription db organizationId ≠ none ∧ after = db) ∨ (subscription db organizationId = none ∧
        after.subscriptions.rows.length = db.subscriptions.rows.length + 1)) := by
  unfold subscriptionFor ensureSubscription at done
  split at done
  · rename_i row found
    have known : subscription db organizationId = some row := found
    cases done
    exact ⟨by simp [opened, known], rfl, .inl ⟨by simp [known], rfl⟩⟩
  · rename_i missing
    have unknown : subscription db organizationId = none := missing
    simp only [Outcome.bind_eq_ok, Prod.exists, Outcome.pure_eq_ok, Prod.mk.injEq] at done
    obtain ⟨row, subscriptions, inserted, rfl, rfl⟩ := done
    obtain ⟨_, made, rows, _⟩ := Table.insert_eq_some.mp (Db.insertRow_eq_ok.mp inserted)
    refine ⟨?_, ?_, .inr ⟨unknown, ?_⟩⟩
    · simp only [opened, unknown, Option.getD_none]
      exact made
    · exact scheduleTimed_auditEvents settings now { db with subscriptions } row
    · rw [scheduleTimed_subscriptions, rows]
      simp

theorem subscriptionFor_same_iff (done : subscriptionFor settings now db organizationId = .ok (after, sub)) :
    SameState db after ↔ subscription db organizationId ≠ none := by
  obtain ⟨_, _, ⟨known, rfl⟩ | ⟨unknown, grown⟩⟩ := subscriptionFor_cases done
  · exact iff_of_true (.refl _) known
  · apply iff_of_false
    · intro same
      have lengths := same.subscriptions
      omega
    · exact not_not_intro unknown

theorem effectiveLimits_opens (settings : Settings) (now : Time) (db : Db) (organizationId : Nat) :
    ∃ sub, subscriptionFor settings now db organizationId =
      .ok ((Quotas.effectiveLimits settings now db organizationId).1, sub) := by
  obtain ⟨after, sub, done⟩ := subscriptionFor_total settings now db organizationId
  refine ⟨sub, ?_⟩
  rw [done]
  unfold Quotas.effectiveLimits
  rw [done]
  dsimp only
  split
  · rfl
  · split
    · rfl
    · split <;> rfl

theorem enqueueReconcile_same_iff (deadline : Time) :
    SameState db (enqueueReconcile now db organizationId deadline) ↔ queuedJob db organizationId deadline ≠ none := by
  unfold enqueueReconcile Outbox.DurableQueue.enqueue
  cases queued : queuedJob db organizationId deadline with
  | none =>
    unfold queuedJob at queued
    rw [queued]
    apply iff_of_false
    · intro same
      have lengths := same.queueJobs
      simp [Table.push, Table.extend] at lengths
    · simp
  | some job =>
    unfold queuedJob at queued
    rw [queued]
    exact iff_of_true (.refl db) (by simp)

theorem scheduleTimed_same_iff :
    SameState db (scheduleTimed settings now db sub) ↔
      ∀ deadline, wantedJob settings now sub = some deadline → queuedJob db sub.organizationId deadline ≠ none := by
  have wanted : scheduleTimed settings now db sub =
      (wantedJob settings now sub).elim db (enqueueReconcile now db sub.organizationId) := by
    unfold scheduleTimed scheduleNextPending wantedJob
    cases sub.status with
    | trial =>
      cases sub.trialEndsAt with
      | none => rfl
      | some deadline => by_cases ahead : now < deadline <;> simp [timed, ahead, Option.filter_some]
    | gracePeriod =>
      cases sub.graceEndsAt with
      | none => rfl
      | some deadline => by_cases ahead : now < deadline <;> simp [timed, ahead, Option.filter_some]
    | pastDue => rfl
    | active => rfl
    | suspended => rfl
    | canceled => rfl
  rw [wanted]
  cases wantedJob settings now sub with
  | none => simpa using SameState.refl db
  | some deadline => simpa using enqueueReconcile_same_iff deadline

theorem opened_trial (unknown : subscription db organizationId = none) :
    (opened settings now db organizationId).status = .trial := by
  simp [opened, unknown, newSubscription]

theorem transitionStatus_complete_iff {newStatus : String} {actorId : Option Nat} {reason : Option String}
    (done : perform settings now db (.transitionStatus organizationId newStatus actorId reason) = .ok after) :
    Complete db after ↔ ¬ (newStatus = "trial" ∧ subscription db organizationId = none) := by
  obtain ⟨⟨read, sub⟩, opens, transitioned⟩ := Outcome.bind_eq_ok.mp done
  obtain ⟨result, transitioned⟩ := Outcome.map_fst_ok.mp transitioned
  obtain ⟨isOpened, log, _⟩ := subscriptionFor_cases opens
  have trial : subscription db organizationId = none → sub.status.name = "trial" := by
    intro unknown
    rw [isOpened, opened_trial unknown]
    rfl
  by_cases moves : newStatus = sub.status.name
  · unfold transitionStatus at transitioned
    rw [if_pos moves] at transitioned
    cases transitioned
    rw [complete_iff_same (congrArg Table.rows log), subscriptionFor_same_iff opens, moves]
    tauto
  · apply iff_of_true
    · exact .inl ((Grows.of_eq log).appended (transitionStatus_appended moves transitioned))
    · rintro ⟨rfl, unknown⟩
      exact moves (trial unknown).symm

theorem changePlan_complete {newPlan : String} {actorId : Option Nat}
    (done : perform settings now db (.changePlan organizationId newPlan actorId) = .ok after) : Appended db after := by
  obtain ⟨⟨read, sub⟩, opens, planned⟩ := Outcome.bind_eq_ok.mp done
  obtain ⟨_, planned⟩ := Outcome.map_fst_ok.mp planned
  obtain ⟨_, log, _⟩ := subscriptionFor_cases opens
  exact (Grows.of_eq log).appended (changePlan_appended planned)

theorem dueTransition_moves {status : SubscriptionStatus} {reason : String}
    (due : dueTransition settings now sub = some (status, reason)) : status.name ≠ sub.status.name := by
  unfold dueTransition at due
  cases held : sub.status with
  | trial =>
    simp only [held, Option.ite_none_right_eq_some, Option.some.injEq, Prod.mk.injEq] at due
    rw [← due.2.1]
    decide
  | gracePeriod =>
    simp only [held, Option.ite_none_right_eq_some, Option.some.injEq, Prod.mk.injEq] at due
    rw [← due.2.1]
    decide
  | pastDue =>
    simp only [held, Option.ite_none_right_eq_some, Option.some.injEq, Prod.mk.injEq] at due
    rw [← due.2.1]
    decide
  | active => simp [held] at due
  | suspended => simp [held] at due
  | canceled => simp [held] at due

theorem reconcileSubscription_complete_iff
    (done : reconcileSubscription settings now db organizationId = .ok after) :
    Complete db after ↔
      ¬ (dueTransition settings now (opened settings now db organizationId) = none ∧
        (subscription db organizationId = none ∨
          ∃ deadline, wantedJob settings now (opened settings now db organizationId) = some deadline ∧
            queuedJob db organizationId deadline = none)) := by
  unfold reconcileSubscription at done
  simp only [Outcome.bind_eq_ok, Outcome.pure_eq_ok, Prod.exists] at done
  obtain ⟨read, sub, opens, advanced, result, advances, rfl⟩ := done
  obtain ⟨isOpened, log, branch⟩ := subscriptionFor_cases opens
  rw [← isOpened]
  cases due : dueTransition settings now sub with
  | some move =>
    obtain ⟨status, reason⟩ := move
    unfold advanceDue at advances
    rw [due] at advances
    have appended := transitionStatus_appended (dueTransition_moves due) advances
    have scheduled : Grows advanced (scheduleTimed settings now advanced result) :=
      .of_billingOnly (scheduleTimed_billingOnly ..)
    exact iff_of_true (.inl ((Grows.of_eq log).appended (appended.later scheduled))) (by simp)
  | none =>
    unfold advanceDue at advances
    rw [due] at advances
    cases advances
    have kept : (scheduleTimed settings now read sub).auditEvents = db.auditEvents :=
      (scheduleTimed_auditEvents settings now read sub).trans log
    rw [complete_iff_same (congrArg Table.rows kept)]
    rcases branch with ⟨known, rfl⟩ | ⟨unknown, grown⟩
    · have named : sub.organizationId = organizationId := (subscriptionFor_effects opens).2.2
      rw [scheduleTimed_same_iff, named]
      simp [known]
    · apply iff_of_false
      · intro same
        have lengths := same.subscriptions
        rw [scheduleTimed_subscriptions] at lengths
        omega
      · simp [unknown]

end Billing

section Quotas

open Quotas Billing

variable {settings : Settings} {now : Time} {db after : Db} {organization : Organization} {user : User}

theorem clearOverrides_shorter {organizationId : Nat} {row : OrgQuota} (found : quotaRow db organizationId = some row) :
    (clearOverrides db organizationId).orgQuotas.rows.length < db.orgQuotas.rows.length := by
  unfold clearOverrides
  rw [found]
  apply List.length_filter_lt_length_iff_exists.mpr
  exact ⟨row, Table.one_mem found, by simp⟩

theorem setOrgQuotaOverrides_complete_iff {limits : Option (List (String × Int))} {ttlDays : Int} {result : Limits}
    (done : setOrgQuotaOverrides settings now db organization user limits ttlDays = .ok (after, result)) :
    Complete db after ↔ ¬ (limits.filter (· ≠ []) = none ∧
      (quotaRow db organization.id ≠ none ∨ subscription db organization.id = none)) := by
  unfold setOrgQuotaOverrides at done
  obtain ⟨_, _, rest⟩ := Outcome.bind_eq_ok.mp done
  cases asked : limits.filter (· ≠ []) with
  | none =>
    rw [asked] at rest
    have reached : after = (effectiveLimits settings now (clearOverrides db organization.id) organization.id).1 :=
      (congrArg Prod.fst (Outcome.pure_eq_ok.mp rest)).symm
    obtain ⟨sub, opens⟩ := effectiveLimits_opens settings now (clearOverrides db organization.id) organization.id
    rw [← reached] at opens
    obtain ⟨orgQuotas, cleared⟩ := clearOverrides_frame db organization.id
    have log : after.auditEvents = db.auditEvents := by
      rw [(subscriptionFor_cases opens).2.1, cleared]
    rw [complete_iff_same (congrArg Table.rows log)]
    cases found : quotaRow db organization.id with
    | none =>
      have untouched : clearOverrides db organization.id = db := by
        unfold clearOverrides
        rw [found]
      rw [untouched] at opens
      simpa using subscriptionFor_same_iff opens
    | some row =>
      apply iff_of_false
      · intro same
        have lengths := same.orgQuotas
        have shorter := clearOverrides_shorter found
        obtain ⟨_, _, rfl⟩ := ensureSubscription_billingOnly opens
        dsimp only at lengths
        omega
      · simp
  | some limits =>
    rw [asked] at rest
    simp only [Outcome.bind_eq_ok, Outcome.pure_eq_ok] at rest
    obtain ⟨_, _, _, _, _, put, rest⟩ := rest
    obtain ⟨orgQuotas, rfl⟩ := putOverrides_frame put
    apply iff_of_true
    · have reached : (effectiveLimits settings now _ organization.id).1 = after := congrArg Prod.fst rest
      rw [← reached]
      have recorded : ∀ event, Appended db (Db.recordAudit { db with orgQuotas } event) :=
        fun _ => Grows.recordAudit (.refl db)
      exact .inl ((recorded _).later (.of_billingOnly (effectiveLimits_billingOnly ..)))
    · simp

end Quotas

section Packages

open Packages

variable {host : PackageHost} {now : Time} {db after : Db} {files : Archives} {actor : Subject} {agent : Agent}
  {row : AgentVersion} {namespaceName name : String}

theorem recordScan_same_iff {findings : List String} (stored : row ∈ db.agentVersions.rows) :
    SameState db (recordScan db row.id findings) ↔
      row.securityStatus = scanStatus findings ∧ row.securityFindings = findings := by
  unfold recordScan
  refine (sameState_setVersion _).trans ?_
  constructor
  · intro same
    have written := same row stored rfl
    have status := congrArg AgentVersion.securityStatus written
    have found := congrArg AgentVersion.securityFindings written
    exact ⟨status.symm, found.symm⟩
  · rintro ⟨status, found⟩ other present named
    have equal : other = row := Table.eq_of_id present stored named
    rw [equal, ← status, ← found]

theorem scanStored_ok_same_iff {result : PublishResult} (stored : row ∈ db.agentVersions.rows)
    (done : scanStored host db files agent row = .ok (after, result)) :
    after.auditEvents = db.auditEvents ∧ (SameState db after ↔ ¬ RescanDiffers host files agent row) := by
  unfold scanStored at done
  simp only [Outcome.bind_eq_ok, Outcome.demand_eq_ok, Outcome.pure_eq_ok, Prod.mk.injEq] at done
  obtain ⟨_, located, archive, rfl, findings, scanned, rfl, _⟩ := done
  refine ⟨rfl, ?_⟩
  rw [recordScan_same_iff stored]
  unfold RescanDiffers
  constructor
  · rintro same ⟨archive', findings', located', scanned', differs⟩
    have sameArchive : archive' = archive := by
      rw [located] at located'
      exact (Option.some.inj (Except.ok.inj located')).symm
    rw [sameArchive, scanned] at scanned'
    rw [← Except.ok.inj scanned'] at differs
    exact differs same
  · intro agrees
    by_contra differs
    exact agrees ⟨archive, findings, located, scanned, differs⟩

theorem scanVersionById_complete_iff {store : Store} {versionId : Nat} {result : PublishResult}
    (done : scanVersionById host store versionId = .ok (after, result)) :
    Complete store.db after ↔
      ¬ ∃ row agent, store.db.agentVersions.byId versionId = some row ∧
        store.db.agents.byId row.agentId = some agent ∧ RescanDiffers host store.files agent row := by
  unfold scanVersionById at done
  simp only [Outcome.bind_eq_ok, Outcome.demand_eq_ok] at done
  obtain ⟨row, found, agent, owned, scanned⟩ := done
  obtain ⟨log, same⟩ := scanStored_ok_same_iff (Table.one_mem found) scanned
  rw [complete_iff_same (congrArg Table.rows log), same]
  simp [found, owned]

theorem setVersion_untimed {id : Nat} {update : AgentVersion → AgentVersion} {preserves : Table.Preserves update}
    (timestamps : ∀ row, untimedVersion (update row) = untimedVersion row) :
    SameState db (setVersion db id update preserves) :=
  (sameState_setVersion preserves).mpr fun row _ _ => timestamps row

theorem triggerRescan_complete_iff {store : Store} {user : User} {version : String} {result : PublishResult}
    (done : triggerRescan host now store user namespaceName name version = .ok (after, result)) :
    Complete store.db after ↔
      ¬ ∃ agent row, agentByName store.db namespaceName name = some agent ∧
        versionByName store.db agent version = some row ∧ RescanDiffers host store.files agent row := by
  unfold triggerRescan at done
  simp only [Outcome.bind_eq_ok, Outcome.demand_eq_ok, Outcome.pure_eq_ok, Prod.mk.injEq, Prod.exists,
    reraise_eq_ok] at done
  obtain ⟨agent, named, resolved, _, _, _, _, _, target, found, scanned, _, stored, rfl, _⟩ := done
  have requested : SameState store.db (setVersion store.db resolved.id fun row =>
      { row with scanRequestedAt := some now }) := setVersion_untimed fun _ => rfl
  have completed : SameState scanned (setVersion scanned resolved.id fun row =>
      { row with scanCompletedAt := some now }) := setVersion_untimed fun _ => rfl
  obtain ⟨log, same⟩ := scanStored_ok_same_iff (Table.one_mem found) stored
  have rows : (setVersion scanned resolved.id fun row => { row with scanCompletedAt := some now }).auditEvents =
      store.db.auditEvents := log
  rw [complete_iff_same (congrArg Table.rows rows), sameState_iff_of_right completed, sameState_iff_of_left requested,
    same]
  have looked : (versionByName store.db agent version).map (fun row => if row.id == resolved.id then
      { row with scanRequestedAt := some now } else row) = some target := by
    rw [← found]
    have preserves : Table.Preserves fun row : AgentVersion => { row with scanRequestedAt := some now } :=
      fun _ => ⟨rfl, fun _ => rfl⟩
    exact (Table.one_modify preserves fun _ => rfl).symm
  obtain ⟨row, stored, written⟩ := Option.map_eq_some_iff.mp looked
  have alike : RescanDiffers host store.files agent target ↔ RescanDiffers host store.files agent row := by
    rw [← written]
    split
    · exact Iff.rfl
    · exact Iff.rfl
  simp [named, stored, alike]

theorem targetOrganization_boundTo {visibility : Visibility} {slug : Option String} {user : User} {target : Option Nat}
    (done : targetOrganization db user agent visibility slug = .ok target) : target = boundTo db agent visibility slug := by
  unfold targetOrganization at done
  unfold boundTo
  split at done
  · rename_i isPublic
    cases done
    rw [if_pos isPublic]
  · rename_i notPublic
    rw [if_neg notPublic]
    cases chosen : slug.filter (· ≠ "") with
    | some slug =>
      rw [chosen] at done
      unfold administeredOrganization at done
      simp only [Outcome.bind_eq_ok, Outcome.demand_eq_ok, Outcome.pure_eq_ok] at done
      obtain ⟨org, ⟨org', found, _, _, rfl⟩, rfl⟩ := done
      simp [found]
    | none =>
      rw [chosen] at done
      dsimp only at done
      split at done
      · cases done
      · cases done
        rfl

theorem setAgent_same_iff {visibility : Visibility} {target : Option Nat}
    (named : agentByName db namespaceName name = some agent) :
    SameState db (setAgent db agent.id fun row => { row with visibility, organizationId := target }) ↔
      agent.visibility = visibility ∧ agent.organizationId = target := by
  have stored := (agentByName_eq_some.mp named).1
  have preserves := Packages.rebound_preserves visibility target
  constructor
  · intro same
    have rows : (db.agents.modify (·.id == agent.id) _ preserves).rows = db.agents.rows := congrArg Table.rows same.agents
    have fixed := Table.modify_fixed preserves rows stored (beq_self_eq_true _)
    exact ⟨(congrArg Agent.visibility fixed).symm, (congrArg Agent.organizationId fixed).symm⟩
  · rintro ⟨rfl, rfl⟩
    have rows : (db.agents.modify (·.id == agent.id) _ preserves).rows = db.agents.rows := by
      apply Table.modify_rows preserves
      intro row present matched
      have equal : row = agent := Table.eq_of_id present stored (beq_iff_eq.mp matched)
      rw [equal]
    have agents : db.agents.modify (·.id == agent.id) _ preserves = db.agents := Table.ext_rows rows rfl
    have untouched : (setAgent db agent.id fun row =>
        { row with visibility := agent.visibility, organizationId := agent.organizationId }) = db := by
      unfold setAgent
      rw [agents]
    rw [untouched]
    exact .refl db

theorem setPackageVisibility_complete_iff {visibility : String} {slug : Option String} {result : Visibility}
    (done : setPackageVisibility host now db actor namespaceName name visibility slug = .ok (after, result)) :
    Complete db after ↔
      ¬ ∃ agent, agentByName db namespaceName name = some agent ∧ Visibility.name agent.visibility = visibility ∧
        agent.organizationId ≠ boundTo db agent agent.visibility slug := by
  obtain ⟨agent, target, named, parsed, _, bound, moved⟩ := setPackageVisibility_cases done
  have spelled := parseVisibility_ok parsed
  have chosenTarget := targetOrganization_boundTo bound
  obtain ⟨unchanged, rfl⟩ | ⟨changed, charged, _, charges, rfl⟩ := moved
  · have log : (setAgent db agent.id fun row => { row with visibility := result, organizationId := target }).auditEvents.rows =
        db.auditEvents.rows := rfl
    refine (complete_iff_same log).trans ((setAgent_same_iff named).trans ?_)
    rw [chosenTarget]
    simp [named, ← spelled, unchanged]
  · apply iff_of_true
    · have moved := Grows.of_billingOnly charges
      have grows : Grows db charged := moved
      exact .inl (Grows.recordAudit grows)
    · rintro ⟨other, found, same, _⟩
      rw [named] at found
      rw [← Option.some.inj found, ← spelled] at same
      exact changed (Visibility.name_injective same)

end Packages

theorem complete_of_kept {before after : Db} (kept : Appended before after ∨ after = before) : Complete before after := by
  rcases kept with appended | same
  · exact .inl appended
  · rw [same]
    exact .inr (.refl before)

/-- A successful operation that changes the state records an event, unless it takes one of the
    unrecorded branches. -/
theorem audit_complete_iff {host : Packages.PackageHost} {now : Time} {store : Packages.Store} {actor : Packages.Subject}
    {operation : Operation} {after : Db} (done : handle host now store actor operation = .ok after) :
    Complete store.db after ↔ ¬ Unrecorded host now store operation := by
  cases operation with
  | organization operation alone =>
    exact iff_of_true (.inl (organization_appended alone done)) not_false
  | deleteAccount => exact iff_of_true (.inl (deleteAccount_appended done)) not_false
  | setOrgQuotaOverrides organization limits ttlDays =>
    obtain ⟨_, done⟩ := Outcome.map_fst_ok.mp done
    exact setOrgQuotaOverrides_complete_iff done
  | processWebhook delivery =>
    obtain ⟨_, done⟩ := Outcome.map_fst_ok.mp done
    exact iff_of_true (complete_of_kept (processWebhook_complete done)) not_false
  | transitionStatus organizationId newStatus reason => exact transitionStatus_complete_iff done
  | changePlan organizationId newPlan => exact iff_of_true (.inl (changePlan_complete done)) not_false
  | reconcileSubscription organizationId => exact reconcileSubscription_complete_iff done
  | publishVersion submission =>
    obtain ⟨result, done⟩ := Outcome.map_fst_ok.mp done
    exact iff_of_true (.inl (publishVersion_appended (Prod.ext rfl done))) not_false
  | reviewVersion namespaceName name version action reason notes =>
    obtain ⟨_, done⟩ := Outcome.map_fst_ok.mp done
    exact iff_of_true (.inl (reviewVersion_appended done)) not_false
  | yankVersion namespaceName name version yanked =>
    obtain ⟨_, done⟩ := Outcome.map_fst_ok.mp done
    exact iff_of_true (complete_of_kept (yankVersion_complete done)) not_false
  | triggerRescan namespaceName name version =>
    obtain ⟨_, done⟩ := Outcome.map_fst_ok.mp done
    exact triggerRescan_complete_iff done
  | scanVersionById versionId =>
    obtain ⟨_, done⟩ := Outcome.map_fst_ok.mp done
    exact scanVersionById_complete_iff done
  | setPackageVisibility namespaceName name visibility slug =>
    obtain ⟨_, done⟩ := Outcome.map_fst_ok.mp done
    exact setPackageVisibility_complete_iff done
  | grantPackageAccess namespaceName name username teamId =>
    obtain ⟨_, done⟩ := Outcome.map_fst_ok.mp done
    exact iff_of_true (.inl (grantPackageAccess_appended done)) not_false
  | revokePackageAccess namespaceName name username teamId =>
    obtain ⟨_, done⟩ := Outcome.map_fst_ok.mp done
    exact iff_of_true (.inl (revokePackageAccess_appended done)) not_false
  | issueDownloadUrl namespaceName name version =>
    obtain ⟨_, done⟩ := Outcome.map_fst_ok.mp done
    exact iff_of_true (.inl (issueDownloadUrl_appended done)) not_false
  | claimNamespace name =>
    obtain ⟨_, done⟩ := Outcome.map_fst_ok.mp done
    exact iff_of_true (.inl (claimNamespace_appended done)) not_false
  | addNamespaceMaintainer namespaceName username role =>
    obtain ⟨_, done⟩ := Outcome.map_fst_ok.mp done
    exact iff_of_true (.inl (addNamespaceMaintainer_appended done)) not_false
  | registerSigningKey pem label expiresAt =>
    obtain ⟨_, done⟩ := Outcome.map_fst_ok.mp done
    exact iff_of_true (complete_of_kept (complete_of_keysOnly (Packages.registerSigningKey_keysOnly done))) not_false
  | revokeSigningKey keyId =>
    obtain ⟨_, done⟩ := Outcome.map_fst_ok.mp done
    exact iff_of_true (complete_of_kept (complete_of_keysOnly (Packages.revokeSigningKey_keysOnly done))) not_false

section Rival

def rival : Organization := { id := 1, slug := "rival", displayName := "Rival" }

def rivalOwner : Packages.Subject := ⟨Organizations.colleague, none⟩

def overridden : Packages.Store where
  db := match handle Packages.workshopHost 5 Packages.opened rivalOwner
      (.setOrgQuotaOverrides rival (some [("members", 200)]) 30) with
    | .ok db => db
    | .error _ => Packages.opened.db
  files := Packages.opened.files

theorem audit_complete_overriding :
    ∃ after, handle Packages.workshopHost 5 Packages.opened rivalOwner
        (.setOrgQuotaOverrides rival (some [("members", 200)]) 30) = .ok after ∧
      (Complete Packages.opened.db after ↔ ¬ Unrecorded Packages.workshopHost 5 Packages.opened
        (.setOrgQuotaOverrides rival (some [("members", 200)]) 30)) := by
  have succeeds : (handle Packages.workshopHost 5 Packages.opened rivalOwner
      (.setOrgQuotaOverrides rival (some [("members", 200)]) 30)).isOk = true := by decide +kernel
  obtain ⟨after, done⟩ := Outcome.isOk_iff.mp succeeds
  exact ⟨after, done, audit_complete_iff done⟩

/-- The owner clears the overrides, and nothing says so. -/
theorem clearing_unrecorded :
    rival ∈ Packages.opened.db.organizations.rows ∧
      ∃ after, handle Packages.workshopHost 6 overridden rivalOwner (.setOrgQuotaOverrides rival none 30) = .ok after ∧
        ¬ Complete overridden.db after := by
  have succeeds : (handle Packages.workshopHost 6 overridden rivalOwner
      (.setOrgQuotaOverrides rival none 30)).isOk = true := by decide +kernel
  have overriding : (Quotas.quotaRow overridden.db rival.id).isSome = true := by decide +kernel
  obtain ⟨after, done⟩ := Outcome.isOk_iff.mp succeeds
  refine ⟨by decide +kernel, after, done, ?_⟩
  have clears : (Quotas.setOrgQuotaOverrides Packages.workshopHost.settings 6 overridden.db rival rivalOwner.user none
      30).map Prod.fst = .ok after := done
  obtain ⟨_, clears⟩ := Outcome.map_fst_ok.mp clears
  rw [setOrgQuotaOverrides_complete_iff clears]
  exact not_not_intro ⟨rfl, .inl (Option.isSome_iff_ne_none.mp overriding)⟩

end Rival

end Registry.Audit
