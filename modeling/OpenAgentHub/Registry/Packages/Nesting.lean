import OpenAgentHub.Registry.Packages.Requests

namespace Registry.Packages

open Relational Organizations

def GrantedTo (db : Db) (agent : Agent) (user : User) : Prop :=
  match agent.visibility with
  | .public => True
  | .internal => ∃ organizationId ∈ agent.organizationId, (activeMembership db organizationId user.id).isSome = true
  | .private =>
    (userGrant db agent user.id).isSome = true ∨
      ∃ teamId ∈ teamIdsForUser db user.id, (teamGrant db agent teamId).isSome = true

def ShownTo (db : Db) (agent : Agent) (user : User) : Prop :=
  agent.ownerId = user.id ∨ privileged user = true ∨ GrantedTo db agent user

section Predicates

variable {db : Db} {agent : Agent} {roles more : List NamespaceRole}

theorem holdsNamespaceRole_mono {user : User} (wider : ∀ role ∈ roles, role ∈ more)
    (holds : holdsNamespaceRole db agent user roles = true) : holdsNamespaceRole db agent user more = true := by
  unfold holdsNamespaceRole at holds ⊢
  simp only [Option.any_eq_true, List.contains_iff_mem] at holds ⊢
  obtain ⟨space, named, member, joined, has⟩ := holds
  exact ⟨space, named, member, joined, wider _ has⟩

theorem controls_mono {subject : Option Subject} (wider : ∀ role ∈ roles, role ∈ more)
    (controlled : controls roles db agent subject = true) : controls more db agent subject = true := by
  cases subject with
  | none => exact controlled
  | some subject =>
    unfold controls at controlled ⊢
    dsimp only at controlled ⊢
    by_cases inactive : subject.user.status ≠ .active
    · rw [if_pos inactive] at controlled
      cases controlled
    rw [if_neg inactive] at controlled ⊢
    by_cases excluded : tokenExcludes subject agent = true
    · rw [if_pos excluded] at controlled
      cases controlled
    rw [if_neg excluded] at controlled ⊢
    by_cases owns : agent.ownerId = subject.user.id
    · rw [if_pos owns]
    rw [if_neg owns] at controlled ⊢
    by_cases trusted : privileged subject.user = true
    · rw [if_pos trusted]
    rw [if_neg trusted, Bool.or_eq_true] at controlled ⊢
    rcases controlled with administers | holds
    · exact .inl administers
    · exact .inr (holdsNamespaceRole_mono wider holds)

theorem controls_admits {subject : Subject} (controlled : controls roles db agent (some subject) = true) :
    subject.user.status = .active ∧ tokenExcludes subject agent = false := by
  unfold controls at controlled
  dsimp only at controlled
  by_cases inactive : subject.user.status ≠ .active
  · rw [if_pos inactive] at controlled
    cases controlled
  rw [if_neg inactive] at controlled
  by_cases excluded : tokenExcludes subject agent = true
  · rw [if_pos excluded] at controlled
    cases controlled
  exact ⟨not_ne_iff.mp inactive, Bool.eq_false_of_not_eq_true excluded⟩

theorem canView_iff {subject : Subject} (active : subject.user.status = .active)
    (admitted : tokenExcludes subject agent = false) :
    canView db agent (some subject) = true ↔ ShownTo db agent subject.user := by
  unfold canView ShownTo GrantedTo
  cases agent.visibility with
  | «public» => simp
  | «private» =>
    by_cases owns : agent.ownerId = subject.user.id
    · simp [active, admitted, owns]
    by_cases trusted : privileged subject.user = true
    · simp [active, admitted, owns, trusted]
    · simp [active, admitted, owns, trusted]
  | internal =>
    by_cases owns : agent.ownerId = subject.user.id
    · simp [active, admitted, owns]
    by_cases trusted : privileged subject.user = true
    · simp [active, admitted, owns, trusted]
    · cases bound : agent.organizationId with
      | none => simp [active, admitted, owns, trusted]
      | some organizationId => simp [active, admitted, owns, trusted]

end Predicates

/-- Who may manage access may manage, and who may manage is shown the agent exactly where its visibility, or its
    ownership, or his own role shows it to him. -/
theorem access_nested (db : Db) (agent : Agent) (subject : Option Subject) :
    (canManageAccess db agent subject = true → canManage db agent subject = true) ∧
      (canManage db agent subject = true →
        (canView db agent subject = true ↔ ∃ caller ∈ subject, ShownTo db agent caller.user)) := by
  constructor
  · apply controls_mono
    simp
  · intro managed
    cases subject with
    | none => cases managed
    | some subject =>
      obtain ⟨active, admitted⟩ := controls_admits managed
      rw [canView_iff active admitted]
      simp

def closedWorkshop : Store :=
  serve workshopHost workshop (byFounder 5 (.manage (.setPackageVisibility "acme" "tool" "private" none)))

/-- The maintainer of its namespace manages the package and does not see it. -/
theorem maintainer_unsighted :
    Runs.Reaches (Runs.steps (serve workshopHost)) opened closedWorkshop ∧
      ∃ agent ∈ closedWorkshop.db.agents.rows,
        canManage closedWorkshop.db agent (some ⟨Organizations.colleague, none⟩) = true ∧
          canView closedWorkshop.db agent (some ⟨Organizations.colleague, none⟩) = false := by
  have shown : (closedWorkshop.db.agents.rows.any fun agent =>
      canManage closedWorkshop.db agent (some ⟨Organizations.colleague, none⟩) &&
        !canView closedWorkshop.db agent (some ⟨Organizations.colleague, none⟩)) = true := by decide +kernel
  obtain ⟨agent, stored, both⟩ := List.any_eq_true.mp shown
  rw [Bool.and_eq_true, Bool.not_eq_true'] at both
  exact ⟨(Runs.reaches_foldl (serve workshopHost) _ opened).snoc ⟨trivial, rfl⟩, agent, stored, both⟩

end Registry.Packages
