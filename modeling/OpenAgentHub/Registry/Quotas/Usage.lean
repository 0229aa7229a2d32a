import OpenAgentHub.Lib.Weights
import OpenAgentHub.Registry.Billing.Subscriptions
import OpenAgentHub.Registry.Packages.Effects

namespace Registry.Quotas

open Relational Billing Weights
open Packages (setAgent Maintains release)

/-- What an organization uses of a dimension; downloads are not counted from rows. -/
def usage (db : Db) (organizationId : Nat) : Dimension → Nat
  | .packages => orgPackageCount db organizationId
  | .versions => orgVersionCount db organizationId
  | .storageBytes => orgStorageBytes db organizationId
  | .members => orgMemberCount db organizationId
  | .serviceAccounts => orgServiceAccountCount db organizationId
  | .downloadBytesPerMonth => 0

def brings (db : Db) (agentId : Nat) : Dimension → Nat
  | .packages => 1
  | .versions => (db.agentVersions.select (·.agentId == agentId)).length
  | .storageBytes => ((db.agentVersions.select (·.agentId == agentId)).map AgentVersion.archiveBytes).sum
  | _ => 0

def ofArtifacts : Dimension → Bool
  | .packages | .versions | .storageBytes => true
  | _ => false

def limitsOf (settings : Settings) (now : Time) (db : Db) (organizationId : Nat) : Limits :=
  (effectiveLimits settings now db organizationId).2

def blocked (db : Db) (organizationId : Nat) : Bool :=
  (subscription db organizationId).any fun sub => writeBlocked sub.status

section Limits

variable {settings : Settings} {now : Time} {db after : Db} {organizationId : Nat} {sub : OrganizationSubscription}

/-- The entitlements before overrides; an organization without a subscription
    gets one for the free plan, which serves the defaults. -/
def planLimits (settings : Settings) (db : Db) (organizationId : Nat) : Limits :=
  match subscription db organizationId with
  | some sub => (effectiveEntitlements settings sub).limits
  | none => settings.defaultLimits

def withOverrides (now : Time) (row : Option OrgQuota) (limits : Limits) : Limits :=
  match row with
  | none => limits
  | some row =>
    match row.overridesExpireAt with
    | none => limits
    | some expiry => if expiry ≤ now then limits else fun dimension => (row.overrides dimension).getD (limits dimension)

theorem Opened.planLimits (opened : Opened settings now db organizationId sub) :
    (effectiveEntitlements settings sub).limits = planLimits settings db organizationId := by
  unfold Quotas.planLimits
  rcases opened with found | ⟨missing, id, rfl⟩
  · rw [found]
  · rw [missing]
    rfl

theorem Opened.blocked (opened : Opened settings now db organizationId sub) :
    writeBlocked sub.status = blocked db organizationId := by
  unfold Quotas.blocked
  rcases opened with found | ⟨missing, id, rfl⟩
  · rw [found]
    rfl
  · rw [missing]
    rfl

theorem limitsOf_eq (settings : Settings) (now : Time) (db : Db) (organizationId : Nat) :
    limitsOf settings now db organizationId =
      withOverrides now (db.orgQuotas.one (·.organizationId == organizationId)) (planLimits settings db organizationId) := by
  obtain ⟨opened, sub, ensured⟩ := subscriptionFor_total settings now db organizationId
  obtain ⟨_, _, frame⟩ := ensureSubscription_billingOnly ensured
  have limits := Opened.planLimits (subscriptionFor_lookup ensured).1
  have quotas : opened.orgQuotas = db.orgQuotas := by rw [frame]
  unfold limitsOf effectiveLimits withOverrides
  rw [ensured]
  dsimp only
  rw [quotas, limits]
  cases db.orgQuotas.one (·.organizationId == organizationId) with
  | none => rfl
  | some row =>
    dsimp only
    cases row.overridesExpireAt with
    | none => rfl
    | some expiry =>
      dsimp only
      split <;> rfl

theorem limitsOf_congr (quotas : after.orgQuotas = db.orgQuotas)
    (limits : planLimits settings after organizationId = planLimits settings db organizationId) :
    limitsOf settings now after organizationId = limitsOf settings now db organizationId := by
  rw [limitsOf_eq, limitsOf_eq, quotas, limits]

theorem limitsOf_terms (subscriptions : after.subscriptions = db.subscriptions) (quotas : after.orgQuotas = db.orgQuotas) :
    limitsOf settings now after organizationId = limitsOf settings now db organizationId := by
  apply limitsOf_congr quotas
  unfold planLimits subscription
  rw [subscriptions]

theorem blocked_terms (subscriptions : after.subscriptions = db.subscriptions) :
    blocked after organizationId = blocked db organizationId := by
  unfold blocked subscription
  rw [subscriptions]

theorem usage_billingOnly (frame : BillingOnly db after) (dimension : Dimension) :
    usage after organizationId dimension = usage db organizationId dimension := by
  obtain ⟨_, _, rfl⟩ := frame
  cases dimension <;> rfl

theorem enforceWriteAllowed_ok (done : enforceWriteAllowed settings now db organizationId = .ok after) :
    blocked db organizationId = false ∧ planLimits settings after organizationId = planLimits settings db organizationId ∧
      after.orgQuotas = db.orgQuotas := by
  simp only [enforceWriteAllowed, Outcome.bind_eq_ok, Prod.exists, Outcome.pure_eq_ok, Outcome.ensure_eq_ok] at done
  obtain ⟨_, sub, ensured, _, open_, rfl⟩ := done
  obtain ⟨opened, stored, _⟩ := subscriptionFor_lookup ensured
  obtain ⟨_, _, frame⟩ := ensureSubscription_billingOnly ensured
  refine ⟨(Opened.blocked opened).symm.trans open_, ?_, by rw [frame]⟩
  rw [← Opened.planLimits opened]
  unfold planLimits
  rw [stored]

structure Room (settings : Settings) (now : Time) (db : Db) (organizationId newVersions newBytes : Nat) : Prop where
  writable : blocked db organizationId = false
  versions : (usage db organizationId .versions + newVersions : Int) ≤ limitsOf settings now db organizationId .versions
  storage : (usage db organizationId .storageBytes + newBytes : Int) ≤
    limitsOf settings now db organizationId .storageBytes
  packages : (usage db organizationId .packages : Int) ≤ limitsOf settings now db organizationId .packages

theorem enforcePublishQuota_ok {newVersions newBytes : Nat}
    (done : enforcePublishQuota settings now db organizationId newVersions newBytes = .ok after) :
    Room settings now db organizationId newVersions newBytes := by
  simp only [enforcePublishQuota, Outcome.bind_eq_ok, Outcome.pure_eq_ok, Outcome.ensure_eq_ok] at done
  obtain ⟨allowed, permitted, _, versions, _, storage, _, packages, rfl⟩ := done
  obtain ⟨writable, plan, quotas⟩ := enforceWriteAllowed_ok permitted
  have limits : (effectiveLimits settings now allowed organizationId).2 = limitsOf settings now db organizationId :=
    limitsOf_congr quotas plan
  have counts : ∀ dimension, usage (effectiveLimits settings now allowed organizationId).1 organizationId dimension =
      usage db organizationId dimension :=
    usage_billingOnly ((enforceWriteAllowed_billingOnly permitted).trans (effectiveLimits_billingOnly ..))
  rw [limits] at versions storage packages
  have counted := counts .versions
  have stored := counts .storageBytes
  have packed := counts .packages
  dsimp only [usage] at counted stored packed
  rw [counted] at versions
  rw [stored] at storage
  rw [packed] at packages
  exact ⟨writable, versions, by exact_mod_cast storage, packages⟩

theorem enforceCount_ok (dimension : Dimension)
    (done : enforceCount dimension (fun db organizationId => usage db organizationId dimension) settings now db
      organizationId = .ok after) :
    (usage db organizationId dimension : Int) < limitsOf settings now db organizationId dimension := by
  simp only [enforceCount, Outcome.bind_eq_ok, Outcome.pure_eq_ok, Outcome.ensure_eq_ok] at done
  obtain ⟨_, room, _⟩ := done
  rw [usage_billingOnly (effectiveLimits_billingOnly settings now db organizationId)] at room
  exact room

end Limits

section Artifacts

variable {db after : Db} {agent : Agent} {organizationId : Nat} {dimension : Dimension}

def agentWeight : Dimension → Nat
  | .packages => 1
  | _ => 0

def versionWeight : Dimension → AgentVersion → Nat
  | .versions => fun _ => 1
  | .storageBytes => AgentVersion.archiveBytes
  | _ => fun _ => 0

theorem usage_eq_weigh (db : Db) (organizationId : Nat) (artifact : ofArtifacts dimension = true) :
    usage db organizationId dimension =
      weigh (fun _ => agentWeight dimension) (·.organizationId == some organizationId) db.agents.rows +
        weigh (versionWeight dimension) (inOrganization db organizationId) db.agentVersions.rows := by
  cases dimension <;> cases artifact
  all_goals simp [usage, agentWeight, versionWeight, orgPackageCount, orgVersionCount, orgStorageBytes, orgVersions,
    Table.select, weigh]

theorem brings_eq_weigh (db : Db) (agentId : Nat) (dimension : Dimension) :
    brings db agentId dimension =
      agentWeight dimension + weigh (versionWeight dimension) (·.agentId == agentId) db.agentVersions.rows := by
  cases dimension <;> simp [brings, agentWeight, versionWeight, Table.select, weigh]

section Moving

variable {update : Agent → Agent} (preserves : Table.Preserves update) (stored : agent ∈ db.agents.rows)

include stored

theorem agents_setAgent (organizationId each : Nat) :
    weigh (fun _ => each) (·.organizationId == some organizationId) (setAgent db agent.id update preserves).agents.rows +
        (if agent.organizationId == some organizationId then each else 0) =
      weigh (fun _ => each) (·.organizationId == some organizationId) db.agents.rows +
        if (update agent).organizationId == some organizationId then each else 0 := by
  have same : ∀ row ∈ db.agents.rows, (row.id == agent.id) = true → row = agent :=
    fun row member matched => Table.eq_of_id member stored (beq_iff_eq.mp matched)
  have others : ∀ row ∈ db.agents.rows, (row.id == agent.id) = false →
      ((if row.id == agent.id then update row else row).organizationId == some organizationId) =
        (row.organizationId == some organizationId) := by
    intro row _ other
    simp [other]
  have was : ∀ row ∈ db.agents.rows, (row.id == agent.id) = true →
      (row.organizationId == some organizationId) = (agent.organizationId == some organizationId) := by
    intro row member matched
    rw [same row member matched]
  have is : ∀ row ∈ db.agents.rows, (row.id == agent.id) = true →
      ((if row.id == agent.id then update row else row).organizationId == some organizationId) =
        ((update agent).organizationId == some organizationId) := by
    intro row member matched
    rw [if_pos matched, same row member matched]
  have one : db.agents.rows.filter (fun row => row.id == agent.id) = [agent] := Table.select_id stored
  have moved := weigh_moved (fun _ => each) (fun row : Agent => row.id == agent.id) others was is
  rw [weigh_const each fun row : Agent => row.id == agent.id, one, List.length_singleton, Nat.one_mul] at moved
  exact (congrArg (· + _) (weigh_map ..)).trans moved

theorem versions_setAgent (organizationId : Nat) (weight : AgentVersion → Nat) :
    weigh weight (inOrganization (setAgent db agent.id update preserves) organizationId) db.agentVersions.rows +
        (if agent.organizationId == some organizationId then
          weigh weight (·.agentId == agent.id) db.agentVersions.rows else 0) =
      weigh weight (inOrganization db organizationId) db.agentVersions.rows +
        if (update agent).organizationId == some organizationId then
          weigh weight (·.agentId == agent.id) db.agentVersions.rows else 0 := by
  have found : db.agents.byId agent.id = some agent := Table.byId_eq_some.mpr ⟨stored, rfl⟩
  have lookup : ∀ id, (setAgent db agent.id update preserves).agents.byId id =
      (db.agents.byId id).map fun row => if row.id == agent.id then update row else row :=
    Table.byId_modify preserves
  apply weigh_moved
  · intro version _ other
    unfold inOrganization
    rw [lookup]
    cases owner : db.agents.byId version.agentId with
    | none => rfl
    | some row =>
      have named : row.id = version.agentId := (Table.byId_eq_some.mp owner).2
      simp only [Option.map_some, Option.any_some, named, other, Bool.false_eq_true, if_false]
  · intro version _ matched
    unfold inOrganization
    rw [beq_iff_eq.mp matched, found]
    rfl
  · intro version _ matched
    unfold inOrganization
    rw [lookup, beq_iff_eq.mp matched, found]
    simp

theorem usage_setAgent (artifact : ofArtifacts dimension = true) :
    usage (setAgent db agent.id update preserves) organizationId dimension +
        (if agent.organizationId == some organizationId then brings db agent.id dimension else 0) =
      usage db organizationId dimension +
        if (update agent).organizationId == some organizationId then brings db agent.id dimension else 0 := by
  have packages := agents_setAgent preserves stored organizationId (agentWeight dimension)
  have versions := versions_setAgent preserves stored organizationId (versionWeight dimension)
  have untouched : (setAgent db agent.id update preserves).agentVersions = db.agentVersions := rfl
  rw [usage_eq_weigh _ _ artifact, usage_eq_weigh _ _ artifact, brings_eq_weigh, untouched]
  revert packages versions
  generalize (agent.organizationId == some organizationId) = was
  generalize ((update agent).organizationId == some organizationId) = is
  intro packages versions
  cases was <;> cases is
  all_goals
    simp only [if_true, Bool.false_eq_true, if_false] at packages versions ⊢
    omega

end Moving

theorem usage_maintains (kept : Maintains db after) (artifact : ofArtifacts dimension = true) :
    usage after organizationId dimension = usage db organizationId dimension := by
  obtain ⟨agents, _, update, keeps, rows⟩ := kept
  have owner : ∀ version, (update version).agentId = version.agentId := fun version =>
    congrArg Packages.Release.agentId (keeps version)
  have size : ∀ version, (update version).archiveBytes = version.archiveBytes := fun version =>
    congrArg Packages.Release.archiveBytes (keeps version)
  rw [usage_eq_weigh _ _ artifact, usage_eq_weigh _ _ artifact, agents, rows, weigh_map]
  congr 1
  apply weigh_congr
  · intro version _
    show inOrganization after organizationId (update version) = _
    unfold inOrganization
    rw [agents, owner]
  · intro version _
    show versionWeight dimension (update version) = _
    cases dimension <;> first | rfl | exact size version

theorem usage_addVersion {version : AgentVersion} (agents : after.agents = db.agents)
    (rows : after.agentVersions.rows = db.agentVersions.rows ++ [version]) (artifact : ofArtifacts dimension = true) :
    usage after organizationId dimension = usage db organizationId dimension +
      if inOrganization db organizationId version then versionWeight dimension version else 0 := by
  have counted : inOrganization after organizationId = inOrganization db organizationId := by
    unfold inOrganization
    rw [agents]
  rw [usage_eq_weigh _ _ artifact, usage_eq_weigh _ _ artifact, agents, rows, counted, weigh_append, weigh_cons]
  exact (Nat.add_assoc ..).symm

theorem usage_addAgent (rows : after.agents.rows = db.agents.rows ++ [agent])
    (versions : after.agentVersions = db.agentVersions) (elsewhere : agent.organizationId ≠ some organizationId)
    (artifact : ofArtifacts dimension = true) :
    usage after organizationId dimension = usage db organizationId dimension := by
  have outside : (agent.organizationId == some organizationId) = false := beq_eq_false_iff_ne.mpr elsewhere
  have counted : inOrganization after organizationId = inOrganization db organizationId := by
    funext version
    unfold inOrganization Table.byId
    rw [Table.one_append rows]
    cases db.agents.one fun row => Row.id row == version.agentId with
    | some row => rfl
    | none =>
      dsimp only [Option.or]
      split
      · exact outside
      · rfl
  rw [usage_eq_weigh _ _ artifact, usage_eq_weigh _ _ artifact, versions, rows, counted, weigh_append, weigh_cons,
    outside]
  simp [weigh]

theorem usage_people (members : after.organizationMembers = db.organizationMembers)
    (accounts : after.serviceAccounts = db.serviceAccounts) (people : ofArtifacts dimension = false) :
    usage after organizationId dimension = usage db organizationId dimension := by
  cases dimension with
  | packages | versions | storageBytes => cases people
  | members => exact congrArg (fun table => (Table.select table _).length) members
  | serviceAccounts => exact congrArg (fun table => (Table.select table _).length) accounts
  | downloadBytesPerMonth => rfl

end Artifacts

end Registry.Quotas
