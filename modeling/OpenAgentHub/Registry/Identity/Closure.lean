import OpenAgentHub.Lib.Program
import OpenAgentHub.Registry.Identity.Deletion
import OpenAgentHub.Registry.Organizations.Ownership

namespace Registry.Identity

open Relational Organizations Program

/-! ### On the session

Here a function that raises leaves what it has written until then. -/

section Session

variable (now : Time) (user : User)

def ensureAccountDeletableOn : Program Db Raised Unit := do
  let memberships ← Program.read fun db => organizationsOf db user.id
  memberships.forM fun org =>
    Program.read (fun db => Outcome.ensure (soleOwner db org.id user.id = false)
      ⟨.accountDeletionBlocked, "transfer ownership of '" ++ org.slug ++ "' before deleting your account"⟩) >>=
    Program.liftExcept

def removeUserMembershipsOn : Program Db Raised Unit := do
  let memberships ← Program.read fun db => organizationsOf db user.id
  memberships.forM fun org =>
    Program.read (fun db => Outcome.ensure (soleOwner db org.id user.id = false)
      ⟨.organizationForbidden, "transfer ownership of '" ++ org.slug ++ "' before deleting your account"⟩) >>=
    Program.liftExcept
  memberships.forM fun org => Program.change fun db => removeMembership now user db org
  Program.change fun db => { db with teamMembers := db.teamMembers.delete (·.userId == user.id) }

def deleteAccountOn : Program Db Raised Unit := do
  ensureAccountDeletableOn user
  Program.change fun db => revokeSessions now db user.id
  Program.change fun db => revokeApiTokens now db user.id
  Program.change fun db => revokeSigningKeys now db user.id
  removeUserMembershipsOn now user
  Program.change fun db => updateStatus db user.id .deleted
  Program.change fun db => db.recordAudit
    { id := 0, actorId := some user.id, action := "account.deleted", targetType := some "user"
      targetId := some user.id, detail := [("username", .str user.username)], createdAt := now }

end Session

def OnlyOwner (db : Db) (user : User) (org : Organization) : Prop :=
  (∃ member ∈ db.organizationMembers.rows, member.organizationId = org.id ∧ member.userId = user.id ∧ member.role = .owner) ∧
    ∀ member ∈ db.organizationMembers.rows, member.organizationId = org.id → member.role = .owner → member.userId = user.id

structure OthersKept (userId : Nat) (db after : Db) : Prop where
  users : after.users.select (·.id != userId) = db.users.select (·.id != userId)
  sessions : after.sessions.select (·.userId != userId) = db.sessions.select (·.userId != userId)
  apiTokens : after.apiTokens.select (·.userId != userId) = db.apiTokens.select (·.userId != userId)
  signingKeys : after.signingKeys.select (·.userId != userId) = db.signingKeys.select (·.userId != userId)
  organizationMembers : after.organizationMembers.select (·.userId != userId) =
    db.organizationMembers.select (·.userId != userId)
  teamMembers : after.teamMembers.select (·.userId != userId) = db.teamMembers.select (·.userId != userId)
  tables : ∃ users sessions apiTokens signingKeys organizationMembers teamMembers auditEvents,
    after = { db with users, sessions, apiTokens, signingKeys, organizationMembers, teamMembers, auditEvents }

/-- The account is closed. No membership is left in any organization that there is. -/
structure AccountClosed (user : User) (db after : Db) : Prop where
  status : after.users.byId user.id = (db.users.byId user.id).map fun row => { row with status := .deleted }
  sessions : ∀ row ∈ after.sessions.rows, row.userId = user.id → row.revokedAt.isSome
  apiTokens : ∀ row ∈ after.apiTokens.rows, row.userId = user.id → row.revokedAt.isSome
  signingKeys : ∀ row ∈ after.signingKeys.rows, row.userId = user.id → row.revokedAt.isSome
  organizations : ∀ row ∈ after.organizationMembers.rows, row.userId = user.id →
    ∀ org ∈ db.organizations.rows, org.id ≠ row.organizationId
  teams : ∀ row ∈ after.teamMembers.rows, row.userId ≠ user.id
  others : OthersKept user.id db after
  owners : ∀ organizationId, HasOwner db.organizationMembers.rows organizationId →
    HasOwner after.organizationMembers.rows organizationId

section Ownership

variable {db : Db} {user : User} {org : Organization}

theorem mem_owners {organizationId : Nat} {member : OrganizationMember} : member ∈ owners db organizationId ↔
    member ∈ db.organizationMembers.rows ∧ member.organizationId = organizationId ∧ member.role = .owner := by
  simp [owners, members, OrganizationMember.isOwner, and_assoc]

theorem soleOwner_iff : soleOwner db org.id user.id = true ↔ OnlyOwner db user org := by
  unfold soleOwner
  rw [Bool.and_eq_true, Option.any_eq_true, decide_eq_true_eq]
  constructor
  · rintro ⟨⟨member, joined, owns⟩, few⟩
    obtain ⟨stored, inOrg, theirs⟩ := membership_mem.mp joined
    have role : member.role = .owner := by simpa [OrganizationMember.isOwner] using owns
    refine ⟨⟨member, stored, inOrg, theirs, role⟩, fun other present here owner => ?_⟩
    have listed := mem_owners.mpr ⟨stored, inOrg, role⟩
    have listedToo := mem_owners.mpr ⟨present, here, owner⟩
    obtain ⟨only, alone⟩ := List.length_eq_one_iff.mp (Nat.le_antisymm few (List.length_pos_of_mem listed))
    rw [alone, List.mem_singleton] at listed listedToo
    rw [listedToo, ← listed, theirs]
  · rintro ⟨⟨member, stored, inOrg, theirs, role⟩, alone⟩
    have joined := membership_mem.mpr ⟨stored, inOrg, theirs⟩
    refine ⟨⟨member, joined, by simp [OrganizationMember.isOwner, role]⟩, ?_⟩
    have same : ∀ other ∈ owners db org.id, other = member := by
      intro other listed
      obtain ⟨present, here, owner⟩ := mem_owners.mp listed
      have joinedToo := membership_mem.mpr ⟨present, here, alone other present here owner⟩
      exact Option.some.inj (joinedToo.symm.trans joined)
    have distinct : (owners db org.id).Pairwise Apart := (db.organizationMembers.distinct.filter _).filter _
    cases found : owners db org.id with
    | nil => simp
    | cons first rest =>
      rw [found] at same distinct
      cases rest with
      | nil => simp
      | cons second others =>
        have apart := (List.pairwise_cons.mp distinct).1 second List.mem_cons_self
        rw [same first List.mem_cons_self, same second (List.mem_cons_of_mem _ List.mem_cons_self)] at apart
        exact absurd rfl apart.1

theorem ensureAccountDeletable_ok : ensureAccountDeletable db user = .ok () ↔
    ∀ org ∈ db.organizations.rows, ¬ OnlyOwner db user org := by
  simp only [ensureAccountDeletable, Outcome.each_eq_ok, Outcome.ensure_eq_ok, organizationsOf_mem, and_imp]
  refine forall₂_congr fun org known => ?_
  rw [← soleOwner_iff, Bool.not_eq_true]
  constructor
  · intro shared
    cases joined : membership db org.id user.id with
    | none => simp [soleOwner, joined]
    | some member => exact shared ⟨member, joined⟩
  · exact fun shared _ => shared

end Ownership

section Refinement

variable {db : Db} {now : Time} {user : User} {host : Host}

theorem ensureAccountDeletableOn_eq : ensureAccountDeletableOn user db = some (ensureAccountDeletable db user, db) := by
  have read : Returns (Program.read (fun db => organizationsOf db user.id) : Program Db Raised _) db (organizationsOf db user.id) db :=
    returns_read.mpr ⟨rfl, rfl⟩
  rw [ensureAccountDeletableOn, read.bind_eq]
  exact forM_check _ _ db

theorem removeUserMembershipsOn_eq : removeUserMembershipsOn now user db =
    some (match removeUserMemberships host now db user with
      | .ok (after, _) => (.ok (), after)
      | .error raised => (.error raised, db)) := by
  have read : Returns (Program.read (fun db => organizationsOf db user.id) : Program Db Raised _) db (organizationsOf db user.id) db :=
    returns_read.mpr ⟨rfl, rfl⟩
  rw [removeUserMembershipsOn, read.bind_eq, bind_apply, forM_check, removeUserMemberships]
  cases Outcome.each (fun org => Outcome.ensure (soleOwner db org.id user.id = false) (⟨.organizationForbidden,
    "transfer ownership of '" ++ org.slug ++ "' before deleting your account"⟩ : Raised)) (organizationsOf db user.id) with
  | error raised => rfl
  | ok done =>
    simp only [Option.bind_some, Outcome.ok_bind]
    rw [bind_apply, forM_change]
    rfl

theorem removeUserMemberships_of_shared (shared : ∀ org ∈ organizationsOf db user.id, soleOwner db org.id user.id = false) :
    ∃ after, removeUserMemberships host now db user = .ok (after, ()) := by
  have passes : Outcome.each (fun org => Outcome.ensure (soleOwner db org.id user.id = false) (⟨.organizationForbidden,
      "transfer ownership of '" ++ org.slug ++ "' before deleting your account"⟩ : Raised)) (organizationsOf db user.id) =
        .ok () := Outcome.each_eq_ok.mpr fun org listed => Outcome.ensure_true (shared org listed)
  rw [removeUserMemberships, passes]
  exact ⟨_, rfl⟩

def withoutCredentials (now : Time) (db : Db) (userId : Nat) : Db :=
  revokeSigningKeys now (revokeApiTokens now (revokeSessions now db userId) userId) userId

/-- The second look at the owners finds what the first one has found: no membership and no organization is written
    between the two. -/
theorem removal_succeeds (deletable : ensureAccountDeletable db user = .ok ()) :
    ∃ after, removeUserMemberships host now (withoutCredentials now db user.id) user = .ok (after, ()) := by
  have shared : ∀ org ∈ organizationsOf db user.id, soleOwner db org.id user.id = false := by
    simpa [ensureAccountDeletable] using deletable
  exact removeUserMemberships_of_shared shared

/-- Whatever raises has written nothing: the function of the requests and the one on the session agree. -/
theorem deleteAccountOn_eq (host : Host) : deleteAccountOn now user db =
    some (match deleteAccount host now db user with
      | .ok after => (.ok (), after)
      | .error raised => (.error raised, db)) := by
  rw [deleteAccountOn, bind_apply, ensureAccountDeletableOn_eq, deleteAccount]
  cases deletable : ensureAccountDeletable db user with
  | error raised => rfl
  | ok done =>
    obtain ⟨after, removed⟩ := @removal_succeeds db now user host deletable
    have left : removeUserMembershipsOn now user (withoutCredentials now db user.id) = some (.ok (), after) := by
      rw [@removeUserMembershipsOn_eq _ now user host, removed]
    rw [withoutCredentials] at removed
    simp only [Option.bind_some, Outcome.ok_bind, removed]
    have written : ∀ rest : Program Db Raised Unit, ((Program.change fun db => revokeSessions now db user.id) >>= fun _ =>
        (Program.change fun db => revokeApiTokens now db user.id) >>= fun _ =>
        (Program.change fun db => revokeSigningKeys now db user.id) >>= fun _ => rest) db =
          rest (withoutCredentials now db user.id) := fun _ => rfl
    rw [written]
    have removes : Returns (removeUserMembershipsOn now user) (withoutCredentials now db user.id) () after := left
    rw [removes.bind_eq]
    rfl

end Refinement

section Closing

variable {db after : Db} {now : Time} {user : User} {host : Host}

theorem revoked_select {α : Type} [Row α] {table : Table α} (owner : α → Nat) (live : α → Bool) (update : α → α)
    (preserves : Table.Preserves update) (same : ∀ row, owner (update row) = owner row) (userId : Nat) :
    (table.modify (fun row => owner row == userId && live row) update preserves).select (fun row => owner row != userId) =
      table.select fun row => owner row != userId := by
  apply Table.select_modify preserves
  intro row _ matched
  rw [same]
  simp at matched ⊢
  exact matched.1

theorem revoked_all {α : Type} [Row α] {table : Table α} (owner : α → Nat) (revokedAt : α → Option Time) (update : α → α)
    (preserves : Table.Preserves update) (revokes : ∀ row, (revokedAt (update row)).isSome) {userId : Nat} {row : α}
    (stored : row ∈ (table.modify (fun row => owner row == userId && (revokedAt row).isNone) update preserves).rows)
    (theirs : owner row = userId) : (revokedAt row).isSome := by
  obtain ⟨old, _, rfl⟩ := (Table.mem_modify preserves).mp stored
  split
  · exact revokes old
  · rename_i spared
    rw [if_neg spared] at theirs
    simp only [theirs, beq_self_eq_true, Bool.true_and, Bool.not_eq_true, Option.isNone_eq_false_iff] at spared
    exact spared

/-- An organization that is not left keeps its owner, and one that is left has another. -/
theorem removal_keeps_owner {organizationId : Nat} (removed : removeUserMemberships host now db user = .ok (after, ()))
    (owned : HasOwner db.organizationMembers.rows organizationId) : HasOwner after.organizationMembers.rows organizationId := by
  obtain ⟨shared, _, _, rows, _⟩ := removeUserMemberships_ok removed
  suffices kept : ∃ other ∈ db.organizationMembers.rows, other.organizationId = organizationId ∧ other.role = .owner ∧
      ¬ (other.userId = user.id ∧ ∃ org ∈ db.organizations.rows, other.organizationId = org.id) by
    obtain ⟨other, stored, inOrg, role, spared⟩ := kept
    exact ⟨other, (rows other).mpr ⟨stored, spared⟩, inOrg, role⟩
  obtain ⟨member, stored, inOrg, role⟩ := owned
  by_cases leaves : member.userId = user.id ∧ ∃ org ∈ db.organizations.rows, member.organizationId = org.id
  · obtain ⟨theirs, org, known, here⟩ := leaves
    obtain rfl : org.id = organizationId := here.symm.trans inOrg
    have joined := membership_mem.mpr ⟨stored, inOrg, theirs⟩
    obtain ⟨other, present, inOrgToo, owner, apart⟩ := other_owner joined (shared org known) ⟨member, stored, inOrg, role⟩
    refine ⟨other, present, inOrgToo, owner, fun both => apart ?_⟩
    have joinedToo := membership_mem.mpr ⟨present, inOrgToo, both.1⟩
    rw [Option.some.inj (joinedToo.symm.trans joined)]
  · exact ⟨member, stored, inOrg, role, leaves⟩

theorem updateStatus_byId (db : Db) (userId : Nat) (status : UserStatus) :
    (updateStatus db userId status).users.byId userId = (db.users.byId userId).map fun row => { row with status } := by
  refine (Table.byId_modify (status_preserves status) userId).trans ?_
  cases found : db.users.byId userId with
  | none => rfl
  | some row =>
    have named : row.id = userId := (Table.byId_eq_some.mp found).2
    simp [named]

theorem updateStatus_others (db : Db) (userId : Nat) (status : UserStatus) :
    (updateStatus db userId status).users.select (·.id != userId) = db.users.select (·.id != userId) := by
  refine Table.select_modify (status_preserves status) fun row _ matched => ?_
  simpa using matched

theorem deleteAccount_closed (done : deleteAccount host now db user = .ok after) : AccountClosed user db after := by
  simp only [deleteAccount, Outcome.bind_eq_ok, Outcome.pure_eq_ok, Prod.exists] at done
  obtain ⟨_, _, left, _, removed, rfl⟩ := done
  obtain ⟨_, _, _, rows, teamRows⟩ := removeUserMemberships_ok removed
  have owners := fun organizationId => @removal_keeps_owner _ left now user host organizationId removed
  obtain ⟨members, teamMembers, events, rfl, othersMembers, othersTeams⟩ := removeUserMemberships_frame removed
  refine ⟨?_, ?_, ?_, ?_, ?_, ?_, ⟨?_, ?_, ?_, ?_, othersMembers, othersTeams, ?_⟩, owners⟩
  · exact updateStatus_byId _ user.id .deleted
  · exact fun row stored theirs => revoked_all Session.userId Session.revokedAt (fun row => { row with revokedAt := some now })
      (fun _ => ⟨rfl, fun _ => rfl⟩) (fun _ => rfl) stored theirs
  · exact fun row stored theirs => revoked_all ApiToken.userId ApiToken.revokedAt (fun row => { row with revokedAt := some now })
      (fun _ => ⟨rfl, fun _ => rfl⟩) (fun _ => rfl) stored theirs
  · exact fun row stored theirs => revoked_all SigningKey.userId SigningKey.revokedAt (fun row => { row with revokedAt := some now })
      (fun _ => ⟨rfl, fun _ => rfl⟩) (fun _ => rfl) stored theirs
  · intro row stored theirs org known inOrg
    exact ((rows row).mp stored).2 ⟨theirs, org, known, inOrg.symm⟩
  · exact fun row stored => ((teamRows row).mp stored).2
  · exact updateStatus_others _ user.id .deleted
  · exact revoked_select Session.userId (·.revokedAt.isNone) (fun row => { row with revokedAt := some now })
      (fun _ => ⟨rfl, fun _ => rfl⟩) (fun _ => rfl) user.id
  · exact revoked_select ApiToken.userId (·.revokedAt.isNone) (fun row => { row with revokedAt := some now })
      (fun _ => ⟨rfl, fun _ => rfl⟩) (fun _ => rfl) user.id
  · exact revoked_select SigningKey.userId (·.revokedAt.isNone) (fun row => { row with revokedAt := some now })
      (fun _ => ⟨rfl, fun _ => rfl⟩) (fun _ => rfl) user.id
  · exact ⟨_, _, _, _, _, _, _, rfl⟩

/-- A deletion raises exactly if the user is the only owner of some organization, and then nothing is written; any
    other closes the account. -/
theorem account_deletion_all_or_nothing (db : Db) (now : Time) (user : User) :
    ((∃ org ∈ db.organizations.rows, OnlyOwner db user org) ∧ ∃ raised, Raises (deleteAccountOn now user) db raised db) ∨
      (¬ (∃ org ∈ db.organizations.rows, OnlyOwner db user org) ∧
        ∃ after, Returns (deleteAccountOn now user) db () after ∧ AccountClosed user db after) := by
  let host : Host := { lower := id, hashToken := id }
  have agrees := @deleteAccountOn_eq db now user host
  by_cases deletable : ensureAccountDeletable db user = .ok ()
  · right
    have free := ensureAccountDeletable_ok.mp deletable
    refine ⟨fun ⟨org, known, sole⟩ => free org known sole, ?_⟩
    obtain ⟨left, removed⟩ := @removal_succeeds db now user host deletable
    have deletes : ∃ after, deleteAccount host now db user = .ok after := by
      rw [withoutCredentials] at removed
      rw [deleteAccount, deletable, Outcome.ok_bind]
      dsimp only
      rw [removed]
      exact ⟨_, rfl⟩
    obtain ⟨after, deletes⟩ := deletes
    rw [deletes] at agrees
    exact ⟨after, agrees, deleteAccount_closed deletes⟩
  · left
    cases blocked : ensureAccountDeletable db user with
    | ok done => exact absurd blocked deletable
    | error raised =>
      have raises : deleteAccount host now db user = .error raised := by rw [deleteAccount, blocked, Outcome.error_bind]
      rw [raises] at agrees
      refine ⟨?_, raised, agrees⟩
      by_contra free
      exact deletable (ensureAccountDeletable_ok.mpr fun org known sole => free ⟨org, known, sole⟩)

end Closing

end Registry.Identity
