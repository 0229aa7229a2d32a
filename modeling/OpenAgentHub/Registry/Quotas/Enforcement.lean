import OpenAgentHub.Registry.Organizations.Requests
import OpenAgentHub.Registry.Quotas.Usage

namespace Registry.Quotas

open Relational Organizations Weights
open Packages (PackageHost Submission Admission Archives Store PublishResult Subject agentByName setAgent Maintains
  targetOrganization)

/-- No usage rises above its limit, and that of artifacts rises only while the
    subscription allows writes. -/
def KeepsQuotas (settings : Settings) (now : Time) (before after : Db) : Prop :=
  ∀ organizationId dimension, usage before organizationId dimension < usage after organizationId dimension →
    (usage after organizationId dimension : Int) ≤ limitsOf settings now before organizationId dimension ∧
      (ofArtifacts dimension = true → blocked before organizationId = false)

section Publishing

variable {host : PackageHost} {now : Time} {db after : Db} {user : User} {submission : Submission}
  {admission : Admission} {bound : Option Nat} {agent : Agent} {organizationId : Nat} {dimension : Dimension}

def terms (db : Db) : (Table OrganizationMember × Table ServiceAccount) × Table OrganizationSubscription × Table OrgQuota :=
  ((db.organizationMembers, db.serviceAccounts), db.subscriptions, db.orgQuotas)

theorem place_terms (done : Packages.place host now db user submission admission = .ok (after, bound)) :
    terms after = terms db := by
  unfold Packages.place at done
  simp only [Outcome.bind_eq_ok, Outcome.pure_eq_ok, Prod.mk.injEq] at done
  obtain ⟨_, _, claimed, resolved, _, _, _, _, rfl, _⟩ := done
  unfold Packages.resolvePublishNamespace at resolved
  split at resolved
  · simp only [Outcome.bind_eq_ok, Outcome.pure_eq_ok, Prod.exists] at resolved
    obtain ⟨_, _, _, _, created, rfl⟩ := resolved
    unfold Packages.createNamespace at created
    simp only [Outcome.bind_eq_ok, Outcome.pure_eq_ok, Prod.mk.injEq, Prod.exists] at created
    obtain ⟨_, _, _, _, _, _, rfl, _⟩ := created
    rfl
  · simp only [Outcome.bind_eq_ok, Outcome.pure_eq_ok] at resolved
    obtain ⟨_, _, rfl⟩ := resolved
    rfl

structure Located (db after : Db) (agent : Agent) : Prop where
  terms : terms after = terms db
  stored : agent ∈ after.agents.rows
  elsewhere : ∀ organizationId dimension, ofArtifacts dimension = true → agent.organizationId ≠ some organizationId →
    usage after organizationId dimension ≤ usage db organizationId dimension

theorem locate_ok (done : Packages.locate db user submission admission bound = .ok (after, agent)) :
    Located db after agent := by
  unfold Packages.locate at done
  split at done
  · simp only [Outcome.bind_eq_ok, Outcome.pure_eq_ok, Prod.mk.injEq, Prod.exists] at done
    obtain ⟨row, agents, inserted, rfl, rfl⟩ := done
    obtain ⟨_, rfl, rows, _⟩ := Table.insert_eq_some.mp (Db.insertRow_eq_ok.mp inserted)
    refine ⟨rfl, ?_, ?_⟩
    · rw [show (_ : Db).agents.rows = _ from rows]
      exact List.mem_append_right _ (List.mem_singleton.mpr rfl)
    · intro organizationId dimension artifact outside
      have kept : usage { db with agents } organizationId dimension = usage db organizationId dimension :=
        usage_addAgent rows rfl outside artifact
      exact kept.le
  · rename_i existing found
    cases done
    have stored : existing ∈ db.agents.rows := Table.one_mem found
    refine ⟨rfl, List.mem_map.mpr ⟨existing, stored, if_pos (beq_self_eq_true _)⟩, ?_⟩
    intro organizationId dimension artifact outside
    have moved : usage (setAgent db existing.id fun row => Packages.republished row admission.manifest bound)
        organizationId dimension + _ = usage db organizationId dimension + _ := usage_setAgent _ stored artifact
    rw [beq_eq_false_iff_ne.mpr outside] at moved
    simp only [Bool.false_eq_true, if_false] at moved
    omega

theorem clear_room (done : Packages.clear host now db agent submission = .ok after)
    (member : agent.organizationId = some organizationId) :
    Room host.settings now db organizationId 1 submission.archive.length := by
  unfold Packages.clear Packages.enforceQuota at done
  rw [member] at done
  simp only [Outcome.bind_eq_ok, reraise_eq_ok] at done
  obtain ⟨_, _, enforced⟩ := done
  exact enforcePublishQuota_ok enforced

theorem clear_people (done : Packages.clear host now db agent submission = .ok after) :
    (terms after).1 = (terms db).1 := by
  unfold Packages.clear Packages.enforceQuota at done
  simp only [Outcome.bind_eq_ok] at done
  obtain ⟨_, _, enforced⟩ := done
  split at enforced
  · cases enforced
    rfl
  · obtain ⟨_, _, rfl⟩ := enforcePublishQuota_billingOnly (reraise_eq_ok.mp enforced)
    rfl

theorem finish_people {version : AgentVersion} {result : PublishResult}
    (done : Packages.finish host now db user submission admission agent version = .ok (after, result)) :
    (terms after).1 = (terms db).1 := by
  unfold Packages.finish at done
  simp only [Outcome.bind_eq_ok, Outcome.pure_eq_ok, Prod.mk.injEq] at done
  obtain ⟨_, _, rfl, _⟩ := done
  rfl

theorem reserve_ok {version : AgentVersion}
    (done : Packages.reserve host now db user submission admission agent = .ok (after, version)) :
    terms after = terms db ∧ after.agents = db.agents ∧ version.agentId = agent.id ∧
      version.archiveBytes = submission.archive.length ∧
      after.agentVersions.rows = db.agentVersions.rows ++ [version] := by
  unfold Packages.reserve at done
  simp only [Outcome.bind_eq_ok, Outcome.pure_eq_ok, Prod.mk.injEq, Prod.exists] at done
  obtain ⟨row, agentVersions, inserted, rfl, rfl⟩ := done
  obtain ⟨_, rfl, rows, _⟩ := Table.insert_eq_some.mp (Db.insertRow_eq_ok.mp inserted)
  exact ⟨rfl, rfl, rfl, rfl, rows⟩

theorem Room.fits {settings : Settings} {version : AgentVersion}
    (room : Room settings now db organizationId 1 version.archiveBytes) (artifact : ofArtifacts dimension = true) :
    (usage db organizationId dimension + versionWeight dimension version : Int) ≤
      limitsOf settings now db organizationId dimension := by
  cases dimension with
  | packages => simpa [versionWeight] using room.packages
  | versions => exact room.versions
  | storageBytes => exact room.storage
  | members | serviceAccounts | downloadBytesPerMonth => cases artifact

theorem publishVersion_keeps {store : Store} {files : Archives} {result : PublishResult}
    (done : Packages.publishVersion host now store user submission = (files, .ok (after, result))) :
    KeepsQuotas host.settings now store.db after := by
  obtain ⟨admitted, admission, placed, bound, located, agent, cleared, reserved, version, admits, places, locates, clears,
    reserves, _, finishes⟩ := Packages.publishVersion_ok done
  obtain ⟨_, _, _, rfl⟩ := Packages.admitSubmission_ok admits
  have placedPackages : Packages.packages placed = Packages.packages store.db := (Packages.place_ok places).1
  have placing := Packages.Maintains.of_packages placedPackages
  have clearing := Packages.Maintains.of_packages (Packages.clear_ok clears).2
  have locating := locate_ok locates
  obtain ⟨reservedTerms, reservedAgents, owner, size, rows⟩ := reserve_ok reserves
  have placedTerms := place_terms places
  have terms : terms located = terms store.db := locating.terms.trans placedTerms
  have people : (Quotas.terms after).1 = (Quotas.terms store.db).1 := by
    rw [finish_people finishes, reservedTerms, clear_people clears, terms]
  intro organizationId dimension rises
  cases artifact : ofArtifacts dimension with
  | false =>
    have same : usage after organizationId dimension = usage store.db organizationId dimension :=
      usage_people (congrArg Prod.fst people) (congrArg Prod.snd people) artifact
    omega
  | true =>
    have counted : inOrganization cleared organizationId version = (agent.organizationId == some organizationId) := by
      have found : cleared.agents.byId version.agentId = some agent := by
        rw [clearing.agents, owner]
        exact Table.byId_eq_some.mpr ⟨locating.stored, rfl⟩
      unfold inOrganization
      rw [found]
      rfl
    have published : usage after organizationId dimension = usage located organizationId dimension +
        if agent.organizationId == some organizationId then versionWeight dimension version else 0 := by
      rw [usage_maintains (Packages.finish_ok finishes) artifact, usage_addVersion reservedAgents rows artifact, counted,
        usage_maintains clearing artifact]
    have before : usage placed organizationId dimension = usage store.db organizationId dimension :=
      usage_maintains placing artifact
    by_cases member : agent.organizationId = some organizationId
    · have room := clear_room clears member
      rw [← size] at room
      have fits := Room.fits room artifact
      rw [if_pos (beq_iff_eq.mpr member)] at published
      rw [limitsOf_terms (congrArg (·.2.1) terms) (congrArg (·.2.2) terms)] at fits
      refine ⟨?_, fun _ => ?_⟩
      · rw [published]
        exact_mod_cast fits
      · rw [← blocked_terms (congrArg (·.2.1) terms)]
        exact room.writable
    · have lower := locating.elsewhere organizationId dimension artifact member
      rw [beq_eq_false_iff_ne.mpr member] at published
      simp only [Bool.false_eq_true, if_false] at published
      omega

end Publishing

section Moving

variable {host : PackageHost} {now : Time} {db after : Db} {subject : Subject} {organizationId : Nat}

def RoomFor (settings : Settings) (now : Time) (db : Db) (organizationId agentId : Nat) : Prop :=
  blocked db organizationId = false ∧ ∀ dimension, brings db agentId dimension = 0 ∨
    (usage db organizationId dimension + brings db agentId dimension : Int) ≤
      limitsOf settings now db organizationId dimension

def bind (db : Db) (agent : Agent) (visibility : Visibility) (bound : Option Nat) : Db :=
  setAgent db agent.id (fun row => { row with visibility, organizationId := bound }) (Packages.rebound_preserves visibility bound)

theorem usage_bind {agent : Agent} {visibility : Visibility} {bound : Option Nat} {dimension : Dimension}
    (stored : agent ∈ db.agents.rows) (artifact : ofArtifacts dimension = true) :
    usage (bind db agent visibility bound) organizationId dimension +
        (if agent.organizationId == some organizationId then brings db agent.id dimension else 0) =
      usage db organizationId dimension + if bound == some organizationId then brings db agent.id dimension else 0 :=
  usage_setAgent _ stored artifact

/-- Only the organization that a package newly moves to uses more. -/
theorem bind_rises {agent : Agent} {visibility : Visibility} {bound : Option Nat} {dimension : Dimension}
    (stored : agent ∈ db.agents.rows) :
    usage db organizationId dimension < usage (bind db agent visibility bound) organizationId dimension ↔
      bound = some organizationId ∧ agent.organizationId ≠ some organizationId ∧ brings db agent.id dimension ≠ 0 := by
  cases artifact : ofArtifacts dimension with
  | false =>
    have same : usage (bind db agent visibility bound) organizationId dimension = usage db organizationId dimension :=
      usage_people rfl rfl artifact
    have nothing : brings db agent.id dimension = 0 := by
      cases dimension <;> first | rfl | cases artifact
    omega
  | true =>
    have moved : usage (bind db agent visibility bound) organizationId dimension + _ = _ + _ := usage_bind stored artifact
    by_cases here : bound = some organizationId
    · rw [if_pos (beq_iff_eq.mpr here)] at moved
      by_cases there : agent.organizationId = some organizationId
      · rw [if_pos (beq_iff_eq.mpr there)] at moved
        exact iff_of_false (by omega) fun rises => rises.2.1 there
      · rw [if_neg (mt beq_iff_eq.mp there)] at moved
        exact ⟨fun rises => ⟨here, there, by omega⟩, fun rises => by have := rises.2.2; omega⟩
    · rw [if_neg (mt beq_iff_eq.mp here)] at moved
      exact iff_of_false (by omega) fun rises => here rises.1

theorem keeps_bind_iff {settings : Settings} {agent : Agent} {visibility : Visibility} {bound : Option Nat}
    (stored : agent ∈ db.agents.rows) (same : ∀ organizationId dimension, usage after organizationId dimension =
      usage (bind db agent visibility bound) organizationId dimension) :
    KeepsQuotas settings now db after ↔ ∀ target, bound = some target → agent.organizationId ≠ some target →
      RoomFor settings now db target agent.id := by
  have carried : ∀ target dimension, bound = some target → agent.organizationId ≠ some target →
      brings db agent.id dimension ≠ 0 →
      usage after target dimension = usage db target dimension + brings db agent.id dimension := by
    intro target dimension here there something
    have artifact : ofArtifacts dimension = true := by
      cases dimension <;> first | rfl | exact absurd rfl something
    have moved : usage (bind db agent visibility bound) target dimension + _ = _ + _ := usage_bind stored artifact
    rw [if_pos (beq_iff_eq.mpr here), if_neg (mt beq_iff_eq.mp there)] at moved
    rw [same]
    exact moved
  constructor
  · intro keeps target here there
    have rises : ∀ dimension, brings db agent.id dimension ≠ 0 →
        usage db target dimension < usage after target dimension := by
      intro dimension something
      rw [same]
      exact (bind_rises stored).mpr ⟨here, there, something⟩
    refine ⟨(keeps target .packages (rises .packages Nat.one_ne_zero)).2 rfl, fun dimension => ?_⟩
    by_cases nothing : brings db agent.id dimension = 0
    · exact .inl nothing
    · have within := (keeps target dimension (rises dimension nothing)).1
      rw [carried target dimension here there nothing] at within
      exact .inr (by exact_mod_cast within)
  · intro roomy organizationId dimension rises
    rw [same] at rises
    obtain ⟨here, there, something⟩ := (bind_rises stored).mp rises
    obtain ⟨writable, room⟩ := roomy organizationId here there
    refine ⟨?_, fun _ => writable⟩
    rw [carried organizationId dimension here there something]
    exact_mod_cast (room dimension).resolve_left something

theorem Room.holds {settings : Settings} {dimension : Dimension} (room : Room settings now db organizationId 0 0)
    (artifact : ofArtifacts dimension = true) :
    (usage db organizationId dimension : Int) ≤ limitsOf settings now db organizationId dimension := by
  cases dimension with
  | packages => exact room.packages
  | versions => simpa using room.versions
  | storageBytes => simpa using room.storage
  | members | serviceAccounts | downloadBytesPerMonth => cases artifact

theorem keeps_of_room {settings : Settings} {agent : Agent} {visibility : Visibility} {bound : Option Nat}
    (stored : agent ∈ db.agents.rows) (same : ∀ organizationId dimension, usage after organizationId dimension =
      usage (bind db agent visibility bound) organizationId dimension)
    (checked : ∀ target, bound = some target → agent.organizationId ≠ some target →
      Room settings now (bind db agent visibility bound) target 0 0) : KeepsQuotas settings now db after := by
  intro organizationId dimension rises
  rw [same] at rises ⊢
  obtain ⟨here, there, something⟩ := (bind_rises stored).mp rises
  have room := checked organizationId here there
  have artifact : ofArtifacts dimension = true := by
    cases dimension <;> first | rfl | exact absurd rfl something
  have within := Room.holds room artifact
  have limits : limitsOf settings now (bind db agent visibility bound) organizationId =
      limitsOf settings now db organizationId := limitsOf_terms rfl rfl
  rw [limits] at within
  exact ⟨within, fun _ => room.writable⟩

/-- A rebinding that leaves the visibility as it is skips the check. -/
theorem setPackageVisibility_binds {namespaceName name visibility : String} {slug : Option String} {result : Visibility}
    (done : Packages.setPackageVisibility host now db subject namespaceName name visibility slug = .ok (after, result)) :
    ∃ agent bound, agentByName db namespaceName name = some agent ∧ Packages.Visibility.name result = visibility ∧
      targetOrganization db subject.user agent result slug = .ok bound ∧
      (∀ organizationId dimension, usage after organizationId dimension =
        usage (bind db agent result bound) organizationId dimension) ∧
      (agent.visibility = result ∨ ∀ target, bound = some target → agent.organizationId ≠ some target →
        Room host.settings now (bind db agent result bound) target 0 0) := by
  unfold Packages.setPackageVisibility at done
  simp only [Outcome.bind_eq_ok, Outcome.demand_eq_ok, Outcome.ensure_eq_ok] at done
  obtain ⟨chosen, parsed, agent, found, _, _, bound, target, rest⟩ := done
  split at rest
  · rename_i unchanged
    cases rest
    exact ⟨agent, bound, found, Packages.parseVisibility_ok parsed, target, fun _ _ => rfl, .inl unchanged⟩
  · obtain ⟨charged, enforced, rest⟩ := Outcome.bind_eq_ok.mp rest
    cases rest
    have frame := Packages.enforceMoveQuota_billingOnly enforced
    refine ⟨agent, bound, found, Packages.parseVisibility_ok parsed, target, ?_, .inr ?_⟩
    · intro organizationId dimension
      exact (usage_billingOnly frame dimension :)
    · rintro organization rfl there
      unfold Packages.enforceMoveQuota at enforced
      dsimp only at enforced
      rw [if_neg there] at enforced
      exact enforcePublishQuota_ok (reraise_eq_ok.mp enforced)

end Moving

section People

variable {host : Host} {now : Time} {db after : Db} {actor : User} {slug name role : String}

structure Hires (db after : Db) (organizationId : Nat) (accounts : Nat) : Prop where
  packages : Packages.packages after = Packages.packages db
  members : ∀ other, usage after other .members =
    usage db other .members + if organizationId == other then 1 else 0
  serviceAccounts : ∀ other, usage after other .serviceAccounts =
    usage db other .serviceAccounts + if organizationId == other then accounts else 0

theorem Hires.keeps_iff {settings : Settings} {organizationId accounts : Nat} (hires : Hires db after organizationId accounts)
    (staffed : (usage db organizationId .serviceAccounts + accounts : Int) ≤
      limitsOf settings now db organizationId .serviceAccounts ∨ accounts = 0) :
    KeepsQuotas settings now db after ↔
      (usage db organizationId .members : Int) < limitsOf settings now db organizationId .members := by
  constructor
  · intro keeps
    have joined := hires.members organizationId
    rw [if_pos (beq_self_eq_true _)] at joined
    have within := (keeps organizationId .members (by omega)).1
    omega
  · intro room other dimension rises
    cases artifact : ofArtifacts dimension with
    | true =>
      rw [usage_maintains (.of_packages hires.packages) artifact] at rises
      exact absurd rises (Nat.lt_irrefl _)
    | false =>
      refine ⟨?_, fun artifact => nomatch artifact⟩
      have joined := hires.members other
      have employed := hires.serviceAccounts other
      by_cases here : organizationId = other
      · subst here
        rw [if_pos (beq_self_eq_true _)] at joined employed
        cases dimension with
        | packages | versions | storageBytes => cases artifact
        | downloadBytesPerMonth => exact absurd rises (Nat.lt_irrefl _)
        | members => omega
        | serviceAccounts => omega
      · rw [if_neg (mt beq_iff_eq.mp here)] at joined employed
        cases dimension with
        | packages | versions | storageBytes => cases artifact
        | downloadBytesPerMonth => exact absurd rises (Nat.lt_irrefl _)
        | members => omega
        | serviceAccounts => omega

theorem usage_addMember (member : OrganizationMember)
    (rows : after.organizationMembers.rows = db.organizationMembers.rows ++ [member]) (other : Nat) :
    usage after other .members = usage db other .members + if member.organizationId == other then 1 else 0 := by
  show ((after.organizationMembers.rows.filter _).length : Nat) = _
  rw [rows, List.filter_append, List.length_append]
  congr 1
  cases holds : member.organizationId == other <;> simp [holds]

theorem usage_addServiceAccount (account : ServiceAccount)
    (rows : after.serviceAccounts.rows = db.serviceAccounts.rows ++ [account]) (active : account.status = .active)
    (other : Nat) : usage after other .serviceAccounts =
      usage db other .serviceAccounts + if account.organizationId == other then 1 else 0 := by
  show ((after.serviceAccounts.rows.filter _).length : Nat) = _
  rw [rows, List.filter_append, List.length_append]
  congr 1
  cases holds : account.organizationId == other <;> simp [holds, active]

theorem addMember_keeps {username : String} {result : MemberResult}
    (done : addMember host now db actor slug username role = .ok (after, result)) :
    KeepsQuotas host.settings now db after := by
  simp only [addMember, Outcome.bind_eq_ok, actingMember_ok, asOrganizationError_ok, Db.insertRow_eq_ok,
    Table.insert_eq_some, Prod.exists, Outcome.pure_eq_ok, Prod.mk.injEq] at done
  obtain ⟨_, _, org, _, _, _, _, _, _, _, _, checked, quota, row, memberRows, ⟨_, rfl, grown, _⟩, committed, _⟩ := done
  have room := enforceCount_ok .members quota
  have hires : Hires db after org.id 0 := by
    subst committed
    obtain ⟨_, _, rfl⟩ := enforceCount_billingOnly quota
    exact ⟨rfl, usage_addMember ⟨_, org.id, _, _⟩ grown, fun other => by rw [ite_self]; rfl⟩
  exact (hires.keeps_iff (.inr rfl)).mpr room

theorem acceptInvitation_keeps {token : String} {result : String × OrgRole}
    (done : acceptInvitation host now db actor token = .ok (after, result)) :
    KeepsQuotas host.settings now db after := by
  simp only [acceptInvitation, Outcome.bind_eq_ok, asOrganizationError_ok, Db.insertRow_eq_ok,
    Table.insert_eq_some, Prod.exists, Outcome.pure_eq_ok, Prod.mk.injEq] at done
  obtain ⟨invitation, _, _, _, _, _, org, _, _, _, checked, quota, row, memberRows, ⟨_, rfl, grown, _⟩, committed, _⟩ :=
    done
  have room := enforceCount_ok .members quota
  have hires : Hires db after org.id 0 := by
    subst committed
    obtain ⟨_, _, rfl⟩ := enforceCount_billingOnly quota
    exact ⟨rfl, usage_addMember ⟨_, org.id, _, _⟩ grown, fun other => by rw [ite_self]; rfl⟩
  exact (hires.keeps_iff (.inr rfl)).mpr room

/-- A service account is a member too, and only the other quota is enforced. -/
theorem createServiceAccount_keeps {result : ServiceAccountResult}
    (done : createServiceAccount host now db actor slug name role = .ok (after, result)) :
    ∃ org, orgBySlug db slug = some org ∧ (KeepsQuotas host.settings now db after ↔
      (usage db org.id .members : Int) < limitsOf host.settings now db org.id .members) := by
  simp only [createServiceAccount, Outcome.bind_eq_ok, actingMaintainer_ok, asOrganizationError_ok, Db.insertRow_eq_ok,
    Table.insert_eq_some, Prod.exists, Outcome.pure_eq_ok, Prod.mk.injEq] at done
  obtain ⟨_, _, _, _, org, ⟨_, found, _, _⟩, _, _, checked, quota, _, _, _, users, ⟨_, rfl, _, _⟩, _, memberRows,
    ⟨_, rfl, joined, _⟩, _, accounts, ⟨_, rfl, employed, _⟩, committed, _⟩ := done
  have room := enforceCount_ok .serviceAccounts quota
  have hires : Hires db after org.id 1 := by
    subst committed
    obtain ⟨_, _, rfl⟩ := enforceCount_billingOnly quota
    exact ⟨rfl, usage_addMember ⟨_, org.id, _, _⟩ joined, usage_addServiceAccount { organizationId := org.id, .. } employed rfl⟩
  exact ⟨org, found, hires.keeps_iff (.inl (by omega))⟩

end People

section Requests

inductive Operation where
  | publishVersion (submission : Submission)
  | setPackageVisibility (namespaceName name visibility : String) (slug : Option String)
  | addMember (slug username role : String)
  | acceptInvitation (token : String)
  | createServiceAccount (slug name role : String)

structure Request where
  actor : Subject
  now : Time
  operation : Operation

def handle (host : PackageHost) (store : Store) (request : Request) : Archives × Except Raised Db :=
  let actor := request.actor.user
  let now := request.now
  match request.operation with
  | .publishVersion submission =>
    let (files, outcome) := Packages.publishVersion host now store actor submission
    (files, outcome.map Prod.fst)
  | .setPackageVisibility namespaceName name visibility slug =>
    (store.files, (Packages.setPackageVisibility host now store.db request.actor namespaceName name visibility slug).map
      Prod.fst)
  | .addMember slug username role =>
    (store.files, (addMember host.toHost now store.db actor slug username role).map Prod.fst)
  | .acceptInvitation token => (store.files, (acceptInvitation host.toHost now store.db actor token).map Prod.fst)
  | .createServiceAccount slug name role =>
    (store.files, (createServiceAccount host.toHost now store.db actor slug name role).map Prod.fst)

def serve (host : PackageHost) (store : Store) (request : Request) : Store :=
  match handle host store request with
  | (files, .ok db) => ⟨db, files⟩
  | (files, .error _) => ⟨store.db, files⟩

/-- The two requests that no check covers find room: a package that is rebound
    with its visibility unchanged, and the membership of a service account. -/
def Fits (host : PackageHost) (store : Store) (request : Request) : Prop :=
  match request.operation with
  | .setPackageVisibility namespaceName name visibility slug =>
    ∀ agent target, agentByName store.db namespaceName name = some agent →
      Packages.Visibility.name agent.visibility = visibility →
      targetOrganization store.db request.actor.user agent agent.visibility slug = .ok (some target) →
      agent.organizationId ≠ some target → RoomFor host.settings request.now store.db target agent.id
  | .createServiceAccount slug _ _ => ∀ org, orgBySlug store.db slug = some org →
      (usage store.db org.id .members : Int) < limitsOf host.settings request.now store.db org.id .members
  | _ => True

theorem handle_keeps_iff {host : PackageHost} {store : Store} {request : Request} {files : Archives} {after : Db}
    (done : handle host store request = (files, .ok after)) :
    KeepsQuotas host.settings request.now store.db after ↔ Fits host store request := by
  obtain ⟨actor, now, operation⟩ := request
  obtain ⟨sameFiles, outcome⟩ := Prod.mk.inj done
  cases operation with
  | publishVersion submission =>
    obtain ⟨result, published⟩ := Outcome.map_fst_ok.mp outcome
    exact iff_of_true (publishVersion_keeps (Prod.ext sameFiles published)) trivial
  | setPackageVisibility namespaceName name visibility slug =>
    obtain ⟨result, managed⟩ := Outcome.map_fst_ok.mp outcome
    obtain ⟨agent, bound, found, named, target, same, checked⟩ := setPackageVisibility_binds managed
    have stored : agent ∈ store.db.agents.rows := Table.one_mem found
    by_cases unchanged : agent.visibility = result
    · rw [keeps_bind_iff stored same]
      constructor
      · intro roomy other goal foundOther _ bindsOther there
        cases Option.some.inj (found.symm.trans foundOther)
        rw [unchanged, target] at bindsOther
        exact roomy goal (Except.ok.inj bindsOther) there
      · rintro fits goal rfl there
        refine fits agent goal found (unchanged ▸ named) ?_ there
        rw [unchanged]
        exact target
    · refine iff_of_true (keeps_of_room stored same (checked.resolve_left unchanged)) ?_
      intro other goal foundOther keepsVisibility
      cases Option.some.inj (found.symm.trans foundOther)
      have equal := keepsVisibility.trans named.symm
      exact absurd (Packages.Visibility.name_injective equal) unchanged
  | addMember slug username role =>
    obtain ⟨_, added⟩ := Outcome.map_fst_ok.mp outcome
    exact iff_of_true (addMember_keeps added) trivial
  | acceptInvitation token =>
    obtain ⟨_, accepted⟩ := Outcome.map_fst_ok.mp outcome
    exact iff_of_true (acceptInvitation_keeps accepted) trivial
  | createServiceAccount slug name role =>
    obtain ⟨_, created⟩ := Outcome.map_fst_ok.mp outcome
    obtain ⟨org, found, exact_⟩ := createServiceAccount_keeps created
    rw [exact_]
    constructor
    · intro room other foundOther
      cases Option.some.inj (found.symm.trans foundOther)
      exact room
    · intro fits
      exact fits org found

end Requests

theorem serve_keeps (host : PackageHost) (store : Store) (request : Request) (fits : Fits host store request) :
    KeepsQuotas host.settings request.now store.db (serve host store request).db := by
  have unchanged : KeepsQuotas host.settings request.now store.db store.db :=
    fun _ _ rises => absurd rises (Nat.lt_irrefl _)
  unfold serve
  split
  · rename_i files after handled
    exact (handle_keeps_iff handled).mpr fits
  · exact unchanged

/-- Quotas hold in every run whose rebindings and service accounts find room,
    and of the operations that succeed exactly those keep them. -/
theorem quotas_respected (host : PackageHost) :
    (∀ start requests, Runs.AllMeet (serve host) (Fits host) start requests →
      Runs.EachStep (serve host) (fun before request after =>
        KeepsQuotas host.settings request.now before.db after.db) start requests) ∧
    ∀ store request files after, handle host store request = (files, .ok after) →
      (KeepsQuotas host.settings request.now store.db after ↔ Fits host store request) := by
  constructor
  · intro start requests met
    exact met.eachStep (serve_keeps host)
  · intro store request files after handled
    exact handle_keeps_iff handled

section Lapse

open Packages (opened workshopHost byColleague colleagueKey secondBuild)

def lapsed : Store :=
  let store := [byColleague 1 (.manage (.registerSigningKey colleagueKey.pem none none)),
    byColleague 2 (.publishVersion (secondBuild.submission "private" none))].foldl (Packages.serve workshopHost) opened
  ⟨(Billing.serve workshopHost.settings ⟨store.db, 2⟩ ⟨3, .transitionStatus 1 "canceled" none none⟩).db, store.files⟩

def rebinding : Request :=
  ⟨⟨colleague, none⟩, 4, .setPackageVisibility "acme" "tool" "private" (some "rival")⟩

theorem rebinding_skips_the_check :
    ¬ Runs.EachStep (serve workshopHost) (fun before request after =>
      KeepsQuotas workshopHost.settings request.now before.db after.db) lapsed [rebinding] := by
  rintro ⟨keeps, _⟩
  have lapse : usage lapsed.db 1 .packages < usage (serve workshopHost lapsed rebinding).db 1 .packages ∧
      blocked lapsed.db 1 = true := by decide +kernel
  have writable := (keeps 1 .packages lapse.1).2 rfl
  exact absurd (lapse.2.symm.trans writable) (by decide)

def hiring : Request := ⟨⟨colleague, none⟩, 2, .addMember "rival" "founder" "maintainer"⟩

theorem quotas_respected_hiring :
    Runs.EachStep (serve workshopHost) (fun before request after =>
      KeepsQuotas workshopHost.settings request.now before.db after.db) opened [hiring] ∧
    usage (serve workshopHost opened hiring).db 1 .members = 2 :=
  ⟨(quotas_respected workshopHost).1 opened [hiring] ⟨trivial, trivial⟩, by decide +kernel⟩

end Lapse

end Registry.Quotas
