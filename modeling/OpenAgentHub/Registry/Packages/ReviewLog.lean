import OpenAgentHub.Lib.Journal
import OpenAgentHub.Registry.Packages.Ledgers

namespace Registry.Packages

open Relational

section Upkeep

variable {before after : Table AgentVersion} {row : AgentVersion}

theorem release_id {first second : AgentVersion} (same : release first = release second) : first.id = second.id :=
  congrArg Release.id same

theorem release_sha256 {first second : AgentVersion} (same : release first = release second) :
    first.sha256 = second.sha256 :=
  congrArg Release.sha256 same

theorem rewritten {γ : Type} {content : AgentVersion → γ} (id : Nat) {update : AgentVersion → AgentVersion}
    (keeps : ∀ row, content (update row) = content row) (row : AgentVersion) :
    content (if row.id == id then update row else row) = content row := by
  split
  · exact keeps row
  · rfl

theorem added_fresh (rows : after.rows = before.rows ++ [row]) : ∀ other ∈ before.rows, other.id ≠ row.id := by
  intro other stored
  have apart := after.distinct
  rw [rows] at apart
  exact ((List.pairwise_append.mp apart).2.2 other stored row (List.mem_singleton_self _)).1

end Upkeep

section Reviews

def reviewScheme : Journal.Scheme AgentVersion VersionReviewEvent Nat Review where
  key := AgentVersion.id
  state := reviewOf
  subject := VersionReviewEvent.versionId
  amend := Review.amend
  start := {}

structure Reviewed (ledgers : Ledgers) : Prop where
  explains : Journal.Explains reviewScheme ledgers.reviews.rows ledgers.versions.rows
  subjects : ∀ event ∈ ledgers.reviews.rows, ∃ row ∈ ledgers.versions.rows,
    row.id = event.versionId ∧ row.sha256 = event.digest
  actions : ∀ event ∈ ledgers.reviews.rows, ∃ action, event.action = ReviewAction.name action

theorem Reviewed.rewrite {before : Ledgers} {versions : Table AgentVersion} {update : AgentVersion → AgentVersion}
    (reviewed : Reviewed before) (rewrites : versions.rows = before.versions.rows.map update)
    (keeps : ∀ row, release (update row) = release row ∧ reviewOf (update row) = reviewOf row) :
    Reviewed { before with versions } where
  explains := by
    change Journal.Explains _ _ versions.rows
    rw [rewrites]
    exact reviewed.explains.rewrite fun row => ⟨release_id (keeps row).1, (keeps row).2⟩
  subjects := by
    intro event recorded
    obtain ⟨row, stored, same, digest⟩ := reviewed.subjects event recorded
    refine ⟨update row, ?_, (release_id (keeps row).1).trans same, (release_sha256 (keeps row).1).trans digest⟩
    change _ ∈ versions.rows
    rw [rewrites]
    exact List.mem_map_of_mem stored
  actions := reviewed.actions

theorem Change.reviewed {before after : Ledgers} (reviewed : Reviewed before) (change : Change before after) :
    Reviewed after := by
  cases change with
  | mark versions agents marks describes =>
    obtain ⟨_, update, keeps, rewrites⟩ := marks
    have same := reviewed.rewrite rewrites fun row =>
      ⟨congrArg Prod.fst (keeps row), congrArg (Prod.fst ∘ Prod.snd) (keeps row)⟩
    exact ⟨same.explains, same.subjects, same.actions⟩
  | scan id findings versions update rewrites keeps scans =>
    exact reviewed.rewrite rewrites fun row =>
      ⟨rewritten id (fun row => (keeps row).1) row, rewritten id (fun row => (keeps row).2) row⟩
  | review row stored event versions reviews update rewrites keeps amends subject known records =>
    have released := rewritten row.id fun other => (keeps other).1
    constructor
    · change Journal.Explains _ reviews.rows versions.rows
      rw [rewrites, records]
      -- the row of the event is amended by it, every other row is left as it was
      refine reviewed.explains.record (fun other _ => release_id (released other)) ?_ ?_
      · intro other present own
        have same : other = row := before.versions.eq_of_id present stored (own.trans subject.1)
        subst same
        change reviewOf (if other.id == other.id then update other else other) = _
        rw [if_pos (beq_self_eq_true _)]
        exact amends
      · intro other _ different
        have apart : ¬ (other.id == row.id) = true := fun same => different ((beq_iff_eq.mp same).trans subject.1.symm)
        change reviewOf (if other.id == row.id then update other else other) = reviewOf other
        rw [if_neg apart]
    · intro other recorded
      change other ∈ reviews.rows at recorded
      have about : ∃ version ∈ before.versions.rows, version.id = other.versionId ∧ version.sha256 = other.digest := by
        rw [records] at recorded
        rcases List.mem_append.mp recorded with old | new
        · exact reviewed.subjects other old
        · rw [List.mem_singleton.mp new]
          exact ⟨row, stored, subject.1.symm, subject.2.symm⟩
      obtain ⟨version, present, same, digest⟩ := about
      refine ⟨_, ?_, (release_id (released version)).trans same, (release_sha256 (released version)).trans digest⟩
      change _ ∈ versions.rows
      rw [rewrites]
      exact List.mem_map_of_mem present
    · intro other recorded
      change other ∈ reviews.rows at recorded
      rw [records] at recorded
      rcases List.mem_append.mp recorded with old | new
      · exact reviewed.actions other old
      · rw [List.mem_singleton.mp new]
        exact known
  | claim | join | register => exact ⟨reviewed.explains, reviewed.subjects, reviewed.actions⟩
  | publish row versions agent publishes unreviewed =>
    constructor
    · change Journal.Explains _ _ versions.rows
      rw [publishes]
      -- no event is about a version that is new
      refine reviewed.explains.add ?_ unreviewed
      intro event recorded same
      obtain ⟨version, present, named, _⟩ := reviewed.subjects event recorded
      exact added_fresh publishes version present (named.trans same)
    · intro event recorded
      obtain ⟨version, present, about⟩ := reviewed.subjects event recorded
      refine ⟨version, ?_, about⟩
      change _ ∈ versions.rows
      rw [publishes]
      exact List.mem_append_left _ present
    · exact reviewed.actions

end Reviews

section Scans

def Settled (scan : SecurityStatus × List String) : Prop := scan.1 = scanStatus scan.2

def Scanned (ledgers : Ledgers) : Prop := ∀ row ∈ ledgers.versions.rows, Settled (scanOf row)

theorem Scanned.rewrite {before : Ledgers} {versions : Table AgentVersion} {update : AgentVersion → AgentVersion}
    (scanned : Scanned before) (rewrites : versions.rows = before.versions.rows.map update)
    (keeps : ∀ row ∈ before.versions.rows, scanOf (update row) = scanOf row ∨ Settled (scanOf (update row))) :
    Scanned { before with versions } := by
  intro row stored
  change row ∈ versions.rows at stored
  rw [rewrites] at stored
  obtain ⟨old, present, rfl⟩ := List.mem_map.mp stored
  rcases keeps old present with same | settled
  · rw [same]
    exact scanned old present
  · exact settled

theorem Change.scanned {before after : Ledgers} (scanned : Scanned before) (change : Change before after) :
    Scanned after := by
  cases change with
  | mark versions agents marks describes =>
    obtain ⟨_, update, keeps, rewrites⟩ := marks
    exact scanned.rewrite rewrites fun row _ => .inl (congrArg (Prod.snd ∘ Prod.snd) (keeps row))
  | scan id findings versions update rewrites keeps scans =>
    refine scanned.rewrite rewrites fun row _ => ?_
    split
    · refine .inr ?_
      rw [scans row]
      rfl
    · exact .inl rfl
  | review row stored event versions reviews update rewrites keeps amends subject known records =>
    exact scanned.rewrite rewrites fun other _ => .inl (rewritten row.id (fun other => (keeps other).2) other)
  | claim | join | register => exact scanned
  | publish row versions agent publishes unreviewed settled =>
    intro other stored
    change other ∈ versions.rows at stored
    rw [publishes] at stored
    rcases List.mem_append.mp stored with old | new
    · exact scanned other old
    · rw [List.mem_singleton.mp new]
      exact settled

end Scans

section Owners

structure Housed (ledgers : Ledgers) : Prop where
  claimed : ∀ space ∈ ledgers.spaces.rows, ∃ member ∈ ledgers.members.rows,
    member.namespaceId = space.id ∧ member.role = .owner
  owned : ∀ agent ∈ ledgers.agents.rows, MemberOf ledgers agent.namespaceName agent.ownerId
  published : ∀ row ∈ ledgers.versions.rows, ∃ agent ∈ ledgers.agents.rows,
    agent.id = row.agentId ∧ MemberOf ledgers agent.namespaceName row.publishedById

/-- Namespaces and their members only come. -/
theorem MemberOf.grow {before after : Ledgers} {name : String} {userId : Nat} (member : MemberOf before name userId)
    (spaces : before.spaces.rows ⊆ after.spaces.rows) (members : before.members.rows ⊆ after.members.rows) :
    MemberOf after name userId := by
  obtain ⟨space, known, named, row, joined, place⟩ := member
  exact ⟨space, spaces known, named, row, members joined, place⟩

theorem Housed.grow {before after : Ledgers} (housed : Housed before) (versions : after.versions = before.versions)
    (agents : after.agents = before.agents) (spaces : before.spaces.rows ⊆ after.spaces.rows)
    (members : before.members.rows ⊆ after.members.rows)
    (claimed : ∀ space ∈ after.spaces.rows, ∃ member ∈ after.members.rows,
      member.namespaceId = space.id ∧ member.role = .owner) : Housed after where
  claimed := claimed
  owned := by
    intro agent stored
    rw [agents] at stored
    exact (housed.owned agent stored).grow spaces members
  published := by
    intro row stored
    rw [versions] at stored
    obtain ⟨agent, registered, same, member⟩ := housed.published row stored
    rw [← agents] at registered
    exact ⟨agent, registered, same, member.grow spaces members⟩

theorem agentKey_eq {first second : Agent} (same : agentKey first = agentKey second) :
    first.id = second.id ∧ first.namespaceName = second.namespaceName ∧ first.ownerId = second.ownerId := by
  simp only [agentKey, Prod.mk.injEq] at same
  exact ⟨same.1, same.2.1, same.2.2.2⟩

theorem Housed.rewrite {before : Ledgers} {versions : Table AgentVersion} {agents : Table Agent} (housed : Housed before)
    (releases : ∀ row ∈ versions.rows, ∃ old ∈ before.versions.rows, release old = release row)
    (describes : Table.Upkeep agentKey before.agents agents) : Housed { before with versions, agents } where
  claimed := housed.claimed
  owned := by
    intro agent stored
    obtain ⟨old, present, same⟩ := describes.backward stored
    obtain ⟨_, named, owner⟩ := agentKey_eq same
    rw [← named, ← owner]
    exact housed.owned old present
  published := by
    intro row stored
    obtain ⟨old, present, same⟩ := releases row stored
    obtain ⟨agent, registered, about, member⟩ := housed.published old present
    obtain ⟨described, listed, key⟩ := describes.forward registered
    obtain ⟨id, named, _⟩ := agentKey_eq key
    have package : old.agentId = row.agentId := congrArg Release.agentId same
    have publisher : old.publishedById = row.publishedById := congrArg Release.publishedById same
    refine ⟨described, listed, (id.trans about).trans package, ?_⟩
    rw [named, ← publisher]
    exact member

theorem releases_of_map {before after : Table AgentVersion} {update : AgentVersion → AgentVersion}
    (rewrites : after.rows = before.rows.map update) (keeps : ∀ row, release (update row) = release row) :
    ∀ row ∈ after.rows, ∃ old ∈ before.rows, release old = release row := by
  intro row stored
  rw [rewrites] at stored
  obtain ⟨old, present, rfl⟩ := List.mem_map.mp stored
  exact ⟨old, present, (keeps old).symm⟩

theorem rows_subset {α : Type} [Row α] {before after : Table α} {row : α} (rows : after.rows = before.rows ++ [row]) :
    before.rows ⊆ after.rows := by
  rw [rows]
  exact List.subset_append_left _ _

theorem Change.housed {before after : Ledgers} (housed : Housed before) (change : Change before after) :
    Housed after := by
  cases change with
  | mark versions agents marks describes =>
    obtain ⟨_, update, keeps, rewrites⟩ := marks
    exact housed.rewrite (releases_of_map rewrites fun row => congrArg Prod.fst (keeps row)) describes
  | scan id findings versions update rewrites keeps scans =>
    exact housed.rewrite (releases_of_map rewrites (rewritten id fun row => (keeps row).1)) (.refl _)
  | review row stored event versions reviews update rewrites keeps amends subject known records =>
    have kept := housed.rewrite (releases_of_map rewrites (rewritten row.id fun row => (keeps row).1)) (.refl _)
    exact ⟨kept.claimed, kept.owned, kept.published⟩
  | claim space owner spaces members claims joins owns =>
    have joined := rows_subset joins
    refine housed.grow rfl rfl (rows_subset claims) joined ?_
    intro other known
    change other ∈ spaces.rows at known
    rw [claims] at known
    rcases List.mem_append.mp known with old | new
    · obtain ⟨member, present, owning⟩ := housed.claimed other old
      exact ⟨member, joined present, owning⟩
    · rw [List.mem_singleton.mp new]
      refine ⟨owner, ?_, owns⟩
      change owner ∈ members.rows
      rw [joins]
      exact List.mem_append_right _ (List.mem_singleton_self _)
  | join member members joins =>
    refine housed.grow rfl rfl (fun _ known => known) (rows_subset joins) ?_
    intro space known
    obtain ⟨owner, present, owning⟩ := housed.claimed space known
    exact ⟨owner, rows_subset joins present, owning⟩
  | register agent agents registers owner =>
    refine ⟨housed.claimed, ?_, ?_⟩
    · intro other stored
      change other ∈ agents.rows at stored
      rw [registers] at stored
      rcases List.mem_append.mp stored with old | new
      · exact housed.owned other old
      · rw [List.mem_singleton.mp new]
        exact owner
    · intro row stored
      obtain ⟨package, registered, about⟩ := housed.published row stored
      exact ⟨package, rows_subset registers registered, about⟩
  | publish row versions agent publishes unreviewed settled package publisher =>
    refine ⟨housed.claimed, housed.owned, ?_⟩
    intro other stored
    change other ∈ versions.rows at stored
    rw [publishes] at stored
    rcases List.mem_append.mp stored with old | new
    · exact housed.published other old
    · rw [List.mem_singleton.mp new]
      exact ⟨agent, package.1, package.2, publisher⟩

end Owners

section Runs

variable {host : PackageHost} {store : Store} {requests : List Request}

structure Unused (db : Db) : Prop where
  agentVersions : db.agentVersions.rows = []
  versionReviewEvents : db.versionReviewEvents.rows = []
  agents : db.agents.rows = []
  namespaces : db.namespaces.rows = []

/-- `reviews_for`. The query has no order: SQLite gives the rows as they were inserted. -/
def reviewsFor (db : Db) (version : AgentVersion) : List VersionReviewEvent :=
  db.versionReviewEvents.select (·.versionId == version.id)

theorem about_eq_reviewsFor (db : Db) (row : AgentVersion) :
    Journal.about reviewScheme db.versionReviewEvents.rows row.id = reviewsFor db row := by
  refine List.filter_congr ?_
  intro event _
  rfl

theorem reviewed_run (unused : Unused store.db) (apart : ∀ request ∈ requests, request.Apart) :
    Reviewed (ledgers (requests.foldl (serve host) store).db) := by
  refine ledgers_invariant ?_ apart fun _ _ => Change.reviewed
  constructor
  · intro row stored
    exact absurd stored (by simp [ledgers, unused.agentVersions])
  · intro event recorded
    exact absurd recorded (by simp [ledgers, unused.versionReviewEvents])
  · intro event recorded
    exact absurd recorded (by simp [ledgers, unused.versionReviewEvents])

theorem scanned_run (unused : Unused store.db) (apart : ∀ request ∈ requests, request.Apart) :
    Scanned (ledgers (requests.foldl (serve host) store).db) := by
  refine ledgers_invariant ?_ apart fun _ _ => Change.scanned
  intro row stored
  exact absurd stored (by simp [ledgers, unused.agentVersions])

def revoking : List Request :=
  [byFounder 1 (.manage (.registerSigningKey founderKey.pem none none)),
    byFounder 3 (.publishVersion (firstBuild.submission "public" none)),
    byColleague 5 (.manage (.reviewVersion "acme" "tool" "1.0.0" "verify" "reads only its input" none)),
    byColleague 6 (.manage (.reviewVersion "acme" "tool" "latest" "revoke" "key leaked" (some "see the report")))]

theorem unused_opened : Unused opened.db := ⟨by decide +kernel, by decide +kernel, by decide +kernel, by decide +kernel⟩

theorem revoking_apart : ∀ request ∈ revoking, request.Apart := by
  intro request member write spares called
  simp only [revoking, List.mem_cons, List.not_mem_nil, or_false] at member
  rcases member with rfl | rfl | rfl | rfl <;> simp [byFounder, byColleague] at called

/-- In every run, the reviews recorded of a version tell its status, its reason and its reviewer. -/
theorem reviews_tell (unused : Unused store.db) (apart : ∀ request ∈ requests, request.Apart) :
    let db := (requests.foldl (serve host) store).db
    (∀ row ∈ db.agentVersions.rows, reviewOf row = (reviewsFor db row).foldl Review.amend {}) ∧
      ∀ event ∈ db.versionReviewEvents.rows, ∃ row ∈ db.agentVersions.rows,
        row.id = event.versionId ∧ row.sha256 = event.digest := by
  intro db
  have reviewed : Reviewed (ledgers db) := reviewed_run unused apart
  refine ⟨?_, reviewed.subjects⟩
  intro row stored
  rw [← about_eq_reviewsFor]
  exact reviewed.explains row stored

theorem reviews_tell_revoking :
    let db := (revoking.foldl (serve workshopHost) opened).db
    (db.agentVersions.rows.map reviewOf = [⟨.revoked, some "key leaked", some 2⟩]) ∧
      ∀ row ∈ db.agentVersions.rows, reviewOf row = (reviewsFor db row).foldl Review.amend {} :=
  ⟨by decide +kernel, (reviews_tell unused_opened revoking_apart).1⟩

/-- In every run, members of the namespace stand behind every package and every version of it. -/
theorem publishers_are_members (unused : Unused store.db) (apart : ∀ request ∈ requests, request.Apart) :
    Housed (ledgers (requests.foldl (serve host) store).db) := by
  refine ledgers_invariant ?_ apart fun _ _ => Change.housed
  constructor
  · intro space known
    exact absurd known (by simp [ledgers, unused.namespaces])
  · intro agent stored
    exact absurd stored (by simp [ledgers, unused.agents])
  · intro row stored
    exact absurd stored (by simp [ledgers, unused.agentVersions])

theorem publishers_are_members_revoking :
    Housed (ledgers (revoking.foldl (serve workshopHost) opened).db) :=
  publishers_are_members unused_opened revoking_apart

end Runs

end Registry.Packages
