import OpenAgentHub.Registry.Packages.Effects

namespace Registry.Packages

open Relational Organizations

def AccessChanged (before after : Agent) : Prop :=
  after.visibility ≠ before.visibility ∨ after.organizationId ≠ before.organizationId

/-- Whoever changes the visibility or the organization of an existing agent may manage access to it. -/
def ChangeAuthorized (before : Store) (request : Request) (after : Store) : Prop :=
  ∀ agent ∈ before.db.agents.rows, ∀ row ∈ after.db.agents.rows, row.id = agent.id → AccessChanged agent row →
    canManageAccess before.db agent (some request.actor) = true

structure MaintainerOnly (db : Db) (agent : Agent) (subject : Subject) : Prop where
  maintains : holdsNamespaceRole db agent subject.user [.maintainer] = true
  notOwner : agent.ownerId ≠ subject.user.id
  unprivileged : privileged subject.user = false
  notAdministrator : administersPackage db agent subject.user = false

def MaintainerKeeps (before : Store) (request : Request) (after : Store) : Prop :=
  ∀ agent ∈ before.db.agents.rows, ∀ row ∈ after.db.agents.rows, row.id = agent.id →
    MaintainerOnly before.db agent request.actor → ¬ AccessChanged agent row

/-- An internal publish that binds an existing agent to another organization, by a user who may not
    manage access to the agent. -/
def rebindsUnmanaged (db : Db) (request : Request) : Bool :=
  match request.call with
  | .manage _ => false
  | .publishVersion submission =>
    submission.visibility == "internal" &&
      (agentByName db submission.namespaceName submission.name).any fun agent =>
        !canManageAccess db agent (some request.actor) &&
          (submission.organizationSlug.bind (orgBySlug db)).any fun org => agent.organizationId != some org.id

theorem MaintainerOnly.cannotManage {db : Db} {agent : Agent} {subject : Subject}
    (only : MaintainerOnly db agent subject) : canManageAccess db agent (some subject) = false := by
  have notOwning : holdsNamespaceRole db agent subject.user [.owner] = false := by
    have maintains := only.maintains
    unfold holdsNamespaceRole at maintains ⊢
    cases named : namespaceByName db agent.namespaceName with
    | none => rfl
    | some space =>
      cases joined : isMember db space subject.user.id with
      | none => simp [joined]
      | some member =>
        simp only [named, joined, Option.any_some, List.contains_cons, List.contains_nil, Bool.or_false,
          beq_iff_eq] at maintains
        simp [joined, maintains]
  unfold canManageAccess controls
  simp [only.notOwner, only.unprivileged, only.notAdministrator, notOwning]

theorem ChangeAuthorized.maintainerKeeps {before after : Store} {request : Request}
    (authorized : ChangeAuthorized before request after) : MaintainerKeeps before request after := by
  intro agent stored row present same only changed
  have allowed := authorized agent stored row present same changed
  rw [only.cannotManage] at allowed
  cases allowed

section Rows

variable {before after : Store} {request : Request}

theorem authorized_of_same (same : after.db.agents = before.db.agents) : ChangeAuthorized before request after := by
  intro agent stored row present sameId changed
  rw [same] at present
  have equal : row = agent := Table.eq_of_id present stored sameId
  rw [equal] at changed
  simp [AccessChanged] at changed

theorem authorized_of_added {added : Agent} (fresh : added.id = before.db.agents.next)
    (rows : after.db.agents.rows = before.db.agents.rows ++ [added]) : ChangeAuthorized before request after := by
  intro agent stored row present sameId changed
  rw [rows] at present
  rcases List.mem_append.mp present with old | new
  · have equal : row = agent := Table.eq_of_id old stored sameId
    rw [equal] at changed
    simp [AccessChanged] at changed
  · have below : agent.id < before.db.agents.next := before.db.agents.ids_below agent stored
    have isAdded : row = added := List.mem_singleton.mp new
    rw [isAdded, fresh] at sameId
    omega

theorem authorized_of_update {target : Agent} {update : Agent → Agent} (preserves : Table.Preserves update)
    (stored : target ∈ before.db.agents.rows)
    (agents : after.db.agents = (setAgent before.db target.id update preserves).agents) :
    ChangeAuthorized before request after ↔
      (AccessChanged target (update target) → canManageAccess before.db target (some request.actor) = true) := by
  constructor
  · intro authorized changed
    apply authorized target stored (update target) ?_ (preserves target).1 changed
    rw [agents]
    exact (Table.mem_modify preserves).mpr ⟨target, stored, by simp⟩
  · intro allowed agent known row present sameId changed
    rw [agents] at present
    obtain ⟨old, oldStored, rfl⟩ := (Table.mem_modify preserves).mp present
    have oldId : old.id = agent.id := by
      rw [← sameId]
      split
      · exact (preserves old).1.symm
      · rfl
    have equal : old = agent := Table.eq_of_id oldStored known oldId
    subst equal
    by_cases same : old.id = target.id
    · have isTarget : old = target := Table.eq_of_id oldStored stored same
      subst isTarget
      apply allowed
      simpa using changed
    · simp [AccessChanged, same] at changed

end Rows

section Steps

variable {host : PackageHost} {store : Store} {request : Request} {after : Db}

theorem publishOrganization_ok {db : Db} {user : User} {visibility : Visibility} {slug : Option String}
    {organizationId : Option Nat} (chosen : publishOrganization db user visibility slug = .ok organizationId) :
    (visibility ≠ .internal ∧ organizationId = none) ∨
      (visibility = .internal ∧ ∃ org, slug.bind (orgBySlug db) = some org ∧ organizationId = some org.id) := by
  unfold publishOrganization at chosen
  split at chosen
  · rename_i internal
    unfold administeredOrganization at chosen
    simp only [Outcome.bind_eq_ok, Outcome.demand_eq_ok, Outcome.pure_eq_ok, Option.filter_eq_some_iff] at chosen
    obtain ⟨text, ⟨given, _⟩, org, ⟨same, found, _, _, isSame⟩, bound⟩ := chosen
    refine .inr ⟨internal, org, ?_, bound.symm⟩
    rw [given, ← isSame]
    exact found
  · rename_i open_
    cases chosen
    exact .inl ⟨open_, rfl⟩

theorem republished_changed {agent : Agent} {manifest : Json} {organizationId : Option Nat} :
    AccessChanged agent (republished agent manifest organizationId) ↔
      ∃ target, organizationId = some target ∧ agent.organizationId ≠ some target := by
  unfold AccessChanged republished
  cases organizationId with
  | none => simp
  | some target => simp [eq_comm]

theorem visibility_internal {text : String} {visibility : Visibility} (parsed : parseVisibility text = .ok visibility) :
    text = "internal" ↔ visibility = .internal := by
  rw [← parseVisibility_ok parsed]
  cases visibility <;> decide

/-- A successful publish keeps the duties apart exactly when it does not rebind. -/
theorem publish_authorized_iff {files : Archives} {submission : Submission} {result : PublishResult}
    {actor : Subject} {now : Time}
    (done : publishVersion host now store actor.user submission = (files, .ok (after, result))) :
    ChangeAuthorized store ⟨actor, now, .publishVersion submission⟩ ⟨after, files⟩ ↔
      rebindsUnmanaged store.db ⟨actor, now, .publishVersion submission⟩ = false := by
  obtain ⟨admission, organizationId, admitted, chosen, ⟨missing, rows⟩ | ⟨agent, found, agents⟩⟩ :=
    publishVersion_agents done
  · exact iff_of_true (authorized_of_added rfl rows) (by simp [rebindsUnmanaged, missing])
  · rw [authorized_of_update _ (Table.one_mem found) agents, republished_changed]
    have internal := visibility_internal admitted.visibility
    rcases publishOrganization_ok chosen with ⟨open_, none_⟩ | ⟨isInternal, org, named, bound⟩
    · have notInternal : submission.visibility ≠ "internal" := fun text => open_ (internal.mp text)
      simp [rebindsUnmanaged, none_, notInternal]
    · have text : submission.visibility = "internal" := internal.mpr isInternal
      cases allowed : canManageAccess store.db agent (some actor) <;>
        simp [rebindsUnmanaged, bound, text, found, named, allowed]

theorem perform_authorized {operation : Operation} {actor : Subject} {now : Time}
    (done : perform host now store actor operation = .ok after) :
    ChangeAuthorized store ⟨actor, now, .manage operation⟩ ⟨after, store.files⟩ := by
  rcases perform_cases done with maintained | ⟨_, _, agent, visibility, organizationId, found, allowed, _, same⟩
  · exact authorized_of_same maintained.agents
  · have agents : after.agents = (setAgent store.db agent.id fun row =>
        { row with visibility, organizationId }).agents := congrArg Prod.fst same
    exact (authorized_of_update _ (Table.one_mem found) agents).mpr fun _ => allowed

theorem serve_authorized (host : PackageHost) (store : Store) (request : Request)
    (separate : rebindsUnmanaged store.db request = false) :
    ChangeAuthorized store request (serve host store request) := by
  rcases serve_cases host store request with ⟨files, served⟩ | ⟨files, after, handled, served⟩
  · rw [served]
    exact authorized_of_same rfl
  · rw [served]
    obtain ⟨actor, now, call⟩ := request
    cases call with
    | publishVersion submission =>
      obtain ⟨_, published⟩ := handle_publishVersion handled
      exact (publish_authorized_iff published).mpr separate
    | manage operation =>
      obtain ⟨rfl, performed⟩ := handle_manage handled
      exact perform_authorized performed

end Steps

/-- In every run without an unmanaged rebinding, access changes only by the hand of its managers. -/
theorem duties_stay_separated (host : PackageHost) (start : Store) (requests : List Request)
    (separate : Runs.AllMeet (serve host) (fun store request => rebindsUnmanaged store.db request = false)
      start requests) :
    Runs.EachStep (serve host) (fun before request after =>
      ChangeAuthorized before request after ∧ MaintainerKeeps before request after) start requests := by
  apply separate.eachStep
  intro store request kept
  have authorized := serve_authorized host store request kept
  exact ⟨authorized, authorized.maintainerKeeps⟩

theorem duties_stay_separated_workshop :
    Runs.EachStep (serve workshopHost) (fun before request after =>
        ChangeAuthorized before request after ∧ MaintainerKeeps before request after) workshop
      [byColleague 5 (.publishVersion (secondBuild.submission "public" none)),
        byFounder 6 (.manage (.setPackageVisibility "acme" "tool" "private" none))] := by
  apply duties_stay_separated workshopHost workshop
  exact ⟨by decide +kernel, by decide +kernel, trivial⟩

instance (before : Store) (request : Request) (after : Store) : Decidable (ChangeAuthorized before request after) := by
  unfold ChangeAuthorized AccessChanged
  infer_instance

/-- A maintainer of the namespace moves the package to an organization of their own. -/
theorem maintainer_rebinds_package :
    Runs.Reaches (Runs.steps (serve workshopHost)) opened workshop ∧
      ¬ ChangeAuthorized workshop (byColleague 5 (.publishVersion (secondBuild.submission "internal" (some "rival"))))
        (serve workshopHost workshop
          (byColleague 5 (.publishVersion (secondBuild.submission "internal" (some "rival"))))) :=
  ⟨Runs.reaches_foldl (serve workshopHost) _ opened, by decide +kernel⟩

end Registry.Packages
