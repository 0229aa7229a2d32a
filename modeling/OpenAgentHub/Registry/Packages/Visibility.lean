import OpenAgentHub.Registry.Packages.Duty

namespace Registry.Packages

open Relational

/-- An internal package belongs to an organization, and a public one to none. -/
def Bound (visibility : Visibility) (organizationId : Option Nat) : Prop :=
  (visibility = .internal → organizationId ≠ none) ∧ (visibility = .public → organizationId = none)

instance (visibility : Visibility) (organizationId : Option Nat) : Decidable (Bound visibility organizationId) :=
  inferInstanceAs (Decidable (_ ∧ _))

def AllBound (store : Store) : Prop := ∀ agent ∈ store.db.agents.rows, Bound agent.visibility agent.organizationId

instance (store : Store) : Decidable (AllBound store) := inferInstanceAs (Decidable (∀ _ ∈ _, _))

/-- An internal publish of a package that is there and public. -/
def bindsPublic (db : Db) (request : Request) : Bool :=
  match request.call with
  | .manage _ => false
  | .publishVersion submission =>
    submission.visibility == "internal" &&
      (agentByName db submission.namespaceName submission.name).any fun agent => agent.visibility == .public

theorem targetOrganization_bound {db : Db} {user : User} {agent : Agent} {visibility : Visibility} {slug : Option String}
    {organizationId : Option Nat} (chosen : targetOrganization db user agent visibility slug = .ok organizationId) :
    Bound visibility organizationId := by
  unfold targetOrganization at chosen
  split at chosen
  · rename_i isPublic
    cases chosen
    exact ⟨fun internal => by simp [isPublic] at internal, fun _ => rfl⟩
  · rename_i notPublic
    refine ⟨?_, fun isPublic => absurd isPublic notPublic⟩
    intro internal
    split at chosen
    · simp only [Outcome.bind_eq_ok, Outcome.pure_eq_ok] at chosen
      obtain ⟨org, _, rfl⟩ := chosen
      simp
    · rw [if_pos internal] at chosen
      cases chosen

theorem newAgent_bound {db : Db} {user : User} {submission : Submission} {admission : Admission} {id : Nat}
    {organizationId : Option Nat}
    (chosen : publishOrganization db user admission.visibility submission.organizationSlug = .ok organizationId) :
    Bound (newAgent id user submission admission organizationId).visibility
      (newAgent id user submission admission organizationId).organizationId := by
  rcases publishOrganization_ok chosen with ⟨open_, none_⟩ | ⟨internal, org, _, bound⟩
  · exact ⟨fun internal => absurd internal open_, fun _ => none_⟩
  · exact ⟨fun _ => by simp [newAgent, bound], fun isPublic => by simp [newAgent, internal] at isPublic⟩

theorem republished_bound {agent : Agent} {manifest : Json} {organizationId : Option Nat}
    (bound : Bound agent.visibility agent.organizationId)
    (spared : organizationId = none ∨ agent.visibility ≠ .public) :
    Bound (republished agent manifest organizationId).visibility
      (republished agent manifest organizationId).organizationId := by
  constructor
  · intro internal
    have old := bound.1 internal
    cases organizationId with
    | none => exact old
    | some target => simp [republished]
  · intro isPublic
    rcases spared with rfl | notPublic
    · exact bound.2 isPublic
    · exact absurd isPublic notPublic

section Steps

variable {host : PackageHost} {store : Store} {after : Db} {files : Archives} {actor : Subject} {now : Time}

theorem allBound_of_update {target : Agent} {update : Agent → Agent} (preserves : Table.Preserves update)
    (stored : target ∈ store.db.agents.rows) (bound : AllBound store)
    (agents : after.agents = (setAgent store.db target.id update preserves).agents)
    (updated : Bound (update target).visibility (update target).organizationId) : AllBound ⟨after, files⟩ := by
  intro row present
  change row ∈ after.agents.rows at present
  rw [agents] at present
  obtain ⟨old, oldStored, rfl⟩ := (Table.mem_modify preserves).mp present
  by_cases same : old.id = target.id
  · have isTarget : old = target := Table.eq_of_id oldStored stored same
    subst isTarget
    simpa using updated
  · simpa [same] using bound old oldStored

theorem publishVersion_bound {submission : Submission} {result : PublishResult} (bound : AllBound store)
    (spared : bindsPublic store.db ⟨actor, now, .publishVersion submission⟩ = false)
    (done : publishVersion host now store actor.user submission = (files, .ok (after, result))) :
    AllBound ⟨after, files⟩ := by
  obtain ⟨admission, organizationId, admitted, chosen, ⟨missing, rows⟩ | ⟨agent, found, agents⟩⟩ :=
    publishVersion_agents done
  · intro row present
    change row ∈ after.agents.rows at present
    rw [rows] at present
    rcases List.mem_append.mp present with old | new
    · exact bound row old
    · rw [List.mem_singleton.mp new]
      exact newAgent_bound chosen
  · have stored := Table.one_mem found
    apply allBound_of_update _ stored bound agents
    apply republished_bound (bound agent stored)
    rcases publishOrganization_ok chosen with ⟨_, none_⟩ | ⟨isInternal, _⟩
    · exact .inl none_
    · have text := (visibility_internal admitted.visibility).mpr isInternal
      right
      simpa [bindsPublic, text, found] using spared

theorem perform_bound {operation : Operation} (bound : AllBound store)
    (done : perform host now store actor operation = .ok after) : AllBound ⟨after, store.files⟩ := by
  rcases perform_cases done with maintained | ⟨_, _, agent, visibility, organizationId, found, _, ⟨_, target⟩, same⟩
  · intro row present
    change row ∈ after.agents.rows at present
    rw [maintained.agents] at present
    exact bound row present
  · have agents : after.agents = (setAgent store.db agent.id fun row =>
        { row with visibility, organizationId }).agents := congrArg Prod.fst same
    exact allBound_of_update _ (Table.one_mem found) bound agents (targetOrganization_bound target)

theorem serve_bound (host : PackageHost) {request : Request} (bound : AllBound store)
    (spared : bindsPublic store.db request = false) : AllBound (serve host store request) := by
  rcases serve_cases host store request with ⟨files, served⟩ | ⟨files, after, handled, served⟩
  · rw [served]
    exact bound
  · rw [served]
    obtain ⟨actor, now, call⟩ := request
    cases call with
    | publishVersion submission =>
      obtain ⟨_, published⟩ := handle_publishVersion handled
      exact publishVersion_bound bound spared published
    | manage operation =>
      obtain ⟨rfl, performed⟩ := handle_manage handled
      exact perform_bound bound performed

end Steps

/-- In every run without an internal publish of a public package, visibility and organization agree. -/
theorem visibility_stays_bound (host : PackageHost) {start store : Store} (fresh : Fresh start)
    (reached : Runs.Reaches (Runs.guarded (serve host) fun before request => bindsPublic before.db request = false)
      start store) : AllBound store := by
  apply reached.invariant AllBound
  · intro agent stored
    rw [fresh.agents] at stored
    cases stored
  · intro before request after _ bound taken
    rw [taken.2]
    exact serve_bound host bound taken.1

theorem visibility_stays_bound_workshop :
    AllBound ([byFounder 1 (.manage (.registerSigningKey founderKey.pem none none)),
      byColleague 2 (.manage (.registerSigningKey colleagueKey.pem none none)),
      byFounder 3 (.publishVersion (firstBuild.submission "public" none)),
      byFounder 4 (.manage (.addNamespaceMaintainer "acme" "colleague" "owner")),
      byColleague 5 (.manage (.setPackageVisibility "acme" "tool" "internal" (some "rival"))),
      byColleague 6 (.publishVersion (secondBuild.submission "internal" (some "rival")))].foldl
        (serve workshopHost) opened) := by
  have fresh : Fresh opened := ⟨by decide +kernel, by decide +kernel⟩
  apply visibility_stays_bound workshopHost fresh
  · apply Runs.reaches_guarded
    exact ⟨by decide +kernel, by decide +kernel, by decide +kernel, by decide +kernel, by decide +kernel,
      by decide +kernel, trivial⟩

/-- An internal publish leaves a public package public and gives it an organization. -/
theorem internal_publish_binds_public_package :
    Fresh opened ∧ Runs.Reaches (Runs.steps (serve workshopHost)) opened
        (serve workshopHost workshop
          (byColleague 5 (.publishVersion (secondBuild.submission "internal" (some "rival"))))) ∧
      ¬ AllBound (serve workshopHost workshop
        (byColleague 5 (.publishVersion (secondBuild.submission "internal" (some "rival"))))) := by
  refine ⟨⟨by decide +kernel, by decide +kernel⟩, ?_, by decide +kernel⟩
  exact (Runs.reaches_foldl (serve workshopHost) _ opened).snoc ⟨trivial, rfl⟩

end Registry.Packages
