import OpenAgentHub.Registry.Identity.Effects

namespace Registry.Identity

open Relational Packages Organizations

structure Narrows (row parent : ApiToken) : Prop where
  scopes : ∀ scope ∈ scopeSet row.scopes, scope ∈ scopeSet parent.scopes
  organization : ∀ organizationId ∈ parent.organizationId, row.organizationId = some organizationId

def Lapsed (now : Time) (row : ApiToken) : Prop :=
  row.revokedAt ≠ none ∨ ∃ expiry ∈ row.expiresAt, expiry ≤ now

def employed (db : Db) (userId : Nat) : Bool :=
  (db.serviceAccounts.one (·.userId == userId)).any fun account => account.status == .active

/-- `POST /orgs/{slug}/service-accounts/{sa_id}/tokens`. -/
structure ServiceAccountTokenRequest where
  now : Time
  headers : Headers
  throttled : Bool := false
  slug : String
  accountId : Nat
  raw : String
  label : String
  scopes : List String
  expiresInDays : Option Int := none

def issueServiceAccountToken (host : IdentityHost) (db : Db) (request : ServiceAccountTokenRequest) :
    Except Raised (Db × Caller) := do
  let (db, caller) ← requireCookieScope host request.now db request.headers ["members:manage"]
  Outcome.ensure (request.throttled = false) (rateLimitExceeded host.settings.accountWritesPerHour)
  let (db, _) ← Organizations.issueServiceAccountToken host.toHost request.now db caller.user request.slug
    request.accountId request.raw request.label request.scopes request.expiresInDays
  return (db, caller)

inductive Issuance where
  | identity (request : Request)
  | serviceAccount (request : ServiceAccountTokenRequest)

def issue (host : IdentityHost) (db : Db) : Issuance → Except Raised (Db × Option Caller)
  | .identity request => handle host db request
  | .serviceAccount request => do
    let (db, caller) ← issueServiceAccountToken host db request
    return (db, some caller)

/-- Every token that a request adds narrows the one it was sent with, and
    rotating a lapsed token gives none that is accepted. -/
structure Attenuates (host : IdentityHost) (db : Db) (issuance : Issuance) (after : Db) (caller : Caller) : Prop where
  narrower : ∀ parent, caller.credential = .apiToken parent → ∀ row ∈ after.apiTokens.rows,
    db.apiTokens.next ≤ row.id → Narrows row parent
  buried : ∀ request tokenId raw expiresInDays existing, issuance = .identity request →
    request.call = .rotateToken tokenId raw expiresInDays → db.apiTokens.byId tokenId = some existing →
    Lapsed request.now existing → ∀ later, request.now ≤ later → userFromApiToken host later after raw = none

structure Grantable (scopes : List String) (organizationId : Option Nat) (parent : ApiToken) : Prop where
  scopes : ∀ scope ∈ scopes, scope ∈ scopeSet parent.scopes
  organization : ∀ restriction ∈ parent.organizationId, organizationId = some restriction

def Modest (host : IdentityHost) (db : Db) (issuance : Issuance) (caller : Caller) : Prop :=
  match issuance with
  | .serviceAccount request => ∀ parent, caller.credential = .apiToken parent →
      Grantable request.scopes ((orgBySlug db request.slug).map Organization.id) parent
  | .identity request =>
    match request.call with
    | .createToken _ asked => ∀ parent, caller.credential = .apiToken parent →
        Grantable asked.scopes asked.organizationId parent
    | .rotateToken tokenId _ expiresInDays => ∀ existing, db.apiTokens.byId tokenId = some existing →
        (∀ parent, caller.credential = .apiToken parent → Narrows existing parent) ∧
          (Lapsed request.now existing → requestedDays host.settings expiresInDays ≤ 0 ∨
            (existing.isServiceAccount = true ∧ employed db existing.userId = false))
    | _ => True

section Scopes

theorem tokenScopes_plain : ∀ scope ∈ tokenScopes, ',' ∉ scope.toList ∧ Text.strip scope = scope ∧ scope ≠ "" := by
  decide +kernel

theorem mem_scopeSet_join {scopes : List String} (valid : ∀ scope ∈ scopes, scope ∈ tokenScopes) (scope : String) :
    scope ∈ scopeSet (Text.join "," (Text.sortedSet scopes)) ↔ scope ∈ scopes := by
  have known : ∀ scope ∈ Text.sortedSet scopes, ',' ∉ scope.toList ∧ Text.strip scope = scope ∧ scope ≠ "" :=
    fun scope listed => tokenScopes_plain scope (valid scope (Text.mem_sortedSet.mp listed))
  have sorted : scope ∈ Text.sortedSet scopes ↔ scope ∈ scopes := Text.mem_sortedSet
  rw [← sorted]
  unfold scopeSet
  by_cases none : Text.sortedSet scopes = []
  · rw [none]
    simp [Text.join, Text.split, Text.strip, Text.trimLeft]
  · rw [Text.split_join (fun scope listed => (known scope listed).1) none]
    simp only [List.mem_filter, List.mem_map, decide_eq_true_eq]
    constructor
    · rintro ⟨⟨other, listed, rfl⟩, _⟩
      rw [(known other listed).2.1]
      exact listed
    · intro listed
      exact ⟨⟨scope, listed, (known scope listed).2.1⟩, (known scope listed).2.2⟩

end Scopes

section Rows

variable {now : Time} {db after resolved : Db} {credential : Credential}

theorem Touched.next (touched : Touched now db resolved credential) : resolved.apiTokens.next = db.apiTokens.next := by
  cases touched <;> rfl

theorem Touched.serviceAccounts (touched : Touched now db resolved credential) :
    resolved.serviceAccounts = db.serviceAccounts := by
  cases touched <;> rfl

theorem Touched.organizations (touched : Touched now db resolved credential) :
    resolved.organizations = db.organizations := by
  cases touched <;> rfl

theorem lastUsed_preserves (now : Time) : Table.Preserves fun row : ApiToken => { row with lastUsedAt := some now } :=
  fun _ => ⟨rfl, fun _ => rfl⟩

theorem Touched.byId (touched : Touched now db resolved credential) (tokenId : Nat) :
    ∃ update : ApiToken → ApiToken, (∀ row, ∃ lastUsedAt, update row = { row with lastUsedAt }) ∧
      resolved.apiTokens.byId tokenId = (db.apiTokens.byId tokenId).map update := by
  cases touched with
  | jwt => exact ⟨id, fun row => ⟨row.lastUsedAt, rfl⟩, by simp⟩
  | session sessionId => exact ⟨id, fun row => ⟨row.lastUsedAt, rfl⟩, by simp [touchSession]⟩
  | apiToken row =>
    refine ⟨fun other => if other.id == row.id then { other with lastUsedAt := some now } else other, ?_, ?_⟩
    · intro other
      dsimp only
      split
      · exact ⟨_, rfl⟩
      · exact ⟨other.lastUsedAt, rfl⟩
    · exact Table.byId_modify (lastUsed_preserves now) tokenId

theorem ids_below_next (touched : Touched now db resolved credential) :
    ∀ row ∈ resolved.apiTokens.rows, row.id < db.apiTokens.next := by
  intro row stored
  rw [← touched.next]
  exact resolved.apiTokens.ids_below row stored

theorem new_token_iff {apiTokens : Table ApiToken} {row : ApiToken} (property : ApiToken → Prop)
    (touched : Touched now db resolved credential) (rows : apiTokens.rows = resolved.apiTokens.rows ++ [row])
    (fresh : row.id = resolved.apiTokens.next) :
    (∀ other ∈ apiTokens.rows, db.apiTokens.next ≤ other.id → property other) ↔ property row := by
  rw [rows]
  constructor
  · intro all
    exact all row (List.mem_append_right _ (List.mem_singleton.mpr rfl)) (by rw [fresh, touched.next])
  · intro holds other member new
    rcases List.mem_append.mp member with old | added
    · exact absurd new (Nat.not_le.mpr (ids_below_next touched other old))
    · rw [List.mem_singleton.mp added]
      exact holds

end Rows

section Rotation

variable {host : IdentityHost} {now later : Time} {db after : Db} {existing fresh : ApiToken} {user : User}
  {apiTokens : Table ApiToken} {auditEvents : Table AuditEvent}

theorem rotated_mem (old : existing.id < fresh.id) (rows : apiTokens.rows = db.apiTokens.rows ++ [fresh])
    {row : ApiToken} (above : ∀ other ∈ db.apiTokens.rows, other.id < fresh.id) :
    row ∈ (revokeToken { db with apiTokens } now existing.id).apiTokens.rows ∧ fresh.id ≤ row.id ↔ row = fresh := by
  have unrevoked : (fresh.id == existing.id) = false := beq_eq_false_iff_ne.mpr (Nat.ne_of_gt old)
  have modified : row ∈ (revokeToken { db with apiTokens } now existing.id).apiTokens.rows ↔
      ∃ other ∈ apiTokens.rows, (if other.id == existing.id then { other with revokedAt := some now } else other) = row :=
    Table.mem_modify (revoked_preserves now)
  rw [modified, rows]
  constructor
  · rintro ⟨⟨other, member, rfl⟩, new⟩
    rcases List.mem_append.mp member with stored | added
    · have below := above other stored
      split at new
      · exact absurd new (Nat.not_le.mpr below)
      · exact absurd new (Nat.not_le.mpr below)
    · rw [List.mem_singleton.mp added, unrevoked]
      rfl
  · rintro rfl
    refine ⟨⟨row, List.mem_append_right _ (List.mem_singleton.mpr rfl), ?_⟩, Nat.le_refl _⟩
    rw [unrevoked]
    rfl

theorem rotated_byHash (old : existing.id < fresh.id) (rows : apiTokens.rows = db.apiTokens.rows ++ [fresh])
    (unused : apiTokenByHash db fresh.tokenHash = none) :
    apiTokenByHash { revokeToken { db with apiTokens } now existing.id with auditEvents } fresh.tokenHash = some fresh := by
  have lookup : (revokeToken { db with apiTokens } now existing.id).apiTokens.one (·.tokenHash == fresh.tokenHash) = _ :=
    Table.one_modify (revoked_preserves now) fun _ => rfl
  have inserted : apiTokens.one (·.tokenHash == fresh.tokenHash) = (db.apiTokens.one (·.tokenHash == fresh.tokenHash)).or _ :=
    Table.one_append rows
  unfold apiTokenByHash at unused ⊢
  show (revokeToken { db with apiTokens } now existing.id).apiTokens.one (·.tokenHash == fresh.tokenHash) = _
  rw [lookup, show (Db.apiTokens { db with apiTokens }) = apiTokens from rfl, inserted, unused]
  simp [Nat.ne_of_gt old]

theorem now_lt_daysFrom (now : Time) (count : Int) : now < daysFrom now count ↔ 0 < count := by
  have day : (0 : Int) < (days 1 : Nat) := by decide
  unfold daysFrom
  rw [Int.lt_toNat]
  constructor
  · intro later
    by_contra negative
    have past : count * (days 1 : Nat) ≤ 0 := Int.mul_nonpos_of_nonpos_of_nonneg (by omega) (by omega)
    exact absurd (lt_of_lt_of_le later (Int.add_le_add_left past _)) (by simp)
  · intro positive
    exact Int.lt_add_of_pos_right _ (Int.mul_pos positive day)

theorem userFromApiToken_none_iff {raw : String} {row : ApiToken}
    (found : apiTokenByHash db (host.hashToken raw) = some row) (stored : db.users.byId row.userId = some user)
    (active : user.status = .active) : userFromApiToken host later db raw = none ↔ usableToken later db row = false := by
  unfold userFromApiToken
  rw [found]
  cases usable : usableToken later db row with
  | false => simp [Option.filter, usable]
  | true => simp [Option.filter, usable, stored, active]

/-- A rotated token is accepted while it lasts, whatever the state of the old one. -/
theorem rotated_accepted_iff {tokenPrefix : String} {raw : String} {count : Int} {id : Nat}
    (stored : db.users.byId existing.userId = some user) (active : user.status = .active)
    (found : apiTokenByHash db (host.hashToken raw) =
      some (rotated existing (host.hashToken raw) tokenPrefix (daysFrom now count) id)) :
    (∀ later, now ≤ later → userFromApiToken host later db raw = none) ↔
      count ≤ 0 ∨ (existing.isServiceAccount = true ∧ employed db existing.userId = false) := by
  have usable : ∀ later, userFromApiToken host later db raw = none ↔
      daysFrom now count ≤ later ∨ (existing.isServiceAccount = true ∧ employed db existing.userId = false) := by
    intro later
    rw [userFromApiToken_none_iff found stored active]
    have expiry : daysFrom now count ≤ later ↔ ¬ later < daysFrom now count := Nat.not_lt.symm
    rw [expiry]
    unfold usableToken employed rotated
    simp only [Option.isNone_none, Bool.true_and, Option.all_some]
    cases existing.isServiceAccount with
    | false => simp
    | true => simp only [Bool.not_true, Bool.false_or, Bool.and_eq_false_iff, decide_eq_false_iff_not, true_and]
  constructor
  · intro refused
    rcases (usable now).mp (refused now (Nat.le_refl _)) with expired | unemployed
    · refine .inl ?_
      by_contra positive
      exact absurd ((now_lt_daysFrom now count).mpr (by omega)) (Nat.not_lt.mpr expired)
    · exact .inr unemployed
  · intro refused later passed
    rcases refused with nonpositive | unemployed
    · have expired : ¬ now < daysFrom now count := fun future => absurd ((now_lt_daysFrom now count).mp future) (by omega)
      exact (usable later).mpr (.inl (Nat.le_trans (Nat.not_lt.mp expired) passed))
    · exact (usable later).mpr (.inr unemployed)

end Rotation

section Requests

variable {host : IdentityHost} {db after resolved : Db} {caller : Caller}

theorem attenuates_of_old {request : Request} (below : ∀ row ∈ after.apiTokens.rows, row.id < db.apiTokens.next)
    (other : ∀ tokenId raw expiresInDays, request.call ≠ .rotateToken tokenId raw expiresInDays) :
    Attenuates host db (.identity request) after caller := by
  refine ⟨?_, ?_⟩
  · intro _ _ row member new
    exact absurd new (Nat.not_le.mpr (below row member))
  · rintro _ tokenId raw expiresInDays _ ⟨⟩ rotates
    exact absurd rotates (other tokenId raw expiresInDays)

theorem attenuates_of_interactive {request : Request} (interactive : ∀ parent, caller.credential ≠ .apiToken parent)
    (other : ∀ tokenId raw expiresInDays, request.call ≠ .rotateToken tokenId raw expiresInDays) :
    Attenuates host db (.identity request) after caller := by
  refine ⟨?_, ?_⟩
  · intro parent presented
    exact absurd presented (interactive parent)
  · rintro _ tokenId raw expiresInDays _ ⟨⟩ rotates
    exact absurd rotates (other tokenId raw expiresInDays)

theorem resolveCookieInteractive_interactive {now : Time} {headers : Headers}
    (done : resolveCookieInteractive host now db headers = .ok (after, caller)) (parent : ApiToken) :
    caller.credential ≠ .apiToken parent := by
  rcases resolveCookieInteractive_ok done with ⟨_, _, _, _, jwt, _⟩ | ⟨_, session⟩
  · rw [jwt]
    exact nofun
  · rw [session]
    exact nofun

/-- A created token holds the scopes and the restriction it was asked with. -/
theorem newToken_narrows_iff {host : Host} {now : Time} {user : User} {raw : String} {asked : TokenRequest} {id : Nat}
    (valid : ∀ scope ∈ asked.scopes, scope ∈ tokenScopes) (parent : ApiToken) :
    Narrows (newToken host now user raw asked id) parent ↔ Grantable asked.scopes asked.organizationId parent := by
  constructor
  · intro narrower
    refine ⟨fun scope listed => narrower.scopes scope ?_, narrower.organization⟩
    exact (mem_scopeSet_join valid scope).mpr listed
  · intro grantable
    refine ⟨fun scope granted => grantable.scopes scope ?_, grantable.organization⟩
    exact (mem_scopeSet_join valid scope).mp granted

/-- What creating a token from a request adds narrows the request's own token
    when that could be granted. -/
theorem created_narrower_iff {now : Time} {user : User} {raw : String} {asked : TokenRequest} {row : ApiToken}
    (touched : Touched now db resolved caller.credential)
    (created : createApiToken host.toHost now resolved user raw asked = .ok (after, row)) :
    (∀ parent, caller.credential = .apiToken parent → ∀ row ∈ after.apiTokens.rows,
        db.apiTokens.next ≤ row.id → Narrows row parent) ↔
      ∀ parent, caller.credential = .apiToken parent → Grantable asked.scopes asked.organizationId parent := by
  obtain ⟨valid, rfl, apiTokens, auditEvents, rfl, rows⟩ := createApiToken_ok created
  refine forall_congr' fun parent => forall_congr' fun _ => ?_
  rw [← newToken_narrows_iff valid parent]
  exact new_token_iff (Narrows · parent) touched rows rfl

/-- Rotation reads none of what recognising the caller wrote. -/
theorem rotateApiToken_recognised {host : Host} {now : Time} {user : User} {credential : Credential} {tokenId : Nat}
    {raw : String} {expiresInDays : Option Int} {fresh : ApiToken} (touched : Touched now db resolved credential)
    (done : rotateApiToken host now resolved user tokenId raw expiresInDays = .ok (after, fresh)) :
    ∃ existing apiTokens auditEvents, db.apiTokens.byId tokenId = some existing ∧ existing.userId = user.id ∧
      fresh = rotated existing (host.hashToken raw) (String.ofList (raw.toList.take 12))
        (daysFrom now (requestedDays host.settings expiresInDays)) db.apiTokens.next ∧
      apiTokenByHash resolved (host.hashToken raw) = none ∧ apiTokens.rows = resolved.apiTokens.rows ++ [fresh] ∧
      after = { revokeToken { resolved with apiTokens } now existing.id with auditEvents } := by
  obtain ⟨stored, apiTokens, auditEvents, found, owned, copied, unused, rows, rfl⟩ := rotateApiToken_ok done
  obtain ⟨update, lastUse, same⟩ := touched.byId tokenId
  rw [same] at found
  obtain ⟨existing, before, rfl⟩ := Option.map_eq_some_iff.mp found
  obtain ⟨lastUsedAt, updated⟩ := lastUse existing
  rw [updated] at owned copied ⊢
  rw [touched.next] at copied
  exact ⟨existing, apiTokens, auditEvents, before, owned, copied, unused, rows, rfl⟩

theorem rotateToken_attenuates_iff {request : Request} {tokenId : Nat} {raw : String} {expiresInDays : Option Int}
    {fresh : ApiToken} (rotates : request.call = .rotateToken tokenId raw expiresInDays)
    (touched : Touched request.now db resolved caller.credential) (active : caller.user.status = .active)
    (known : db.users.byId caller.user.id = some caller.user)
    (done : rotateApiToken host.toHost request.now resolved caller.user tokenId raw expiresInDays = .ok (after, fresh)) :
    Attenuates host db (.identity request) after caller ↔ Modest host db (.identity request) caller := by
  obtain ⟨existing, apiTokens, auditEvents, found, owned, copied, unused, rows, rfl⟩ :=
    rotateApiToken_recognised touched done
  have next : fresh.id = db.apiTokens.next := by
    rw [copied]
    rfl
  have hash : fresh.tokenHash = host.hashToken raw := by
    rw [copied]
    rfl
  have older : existing.id < fresh.id := by
    rw [next]
    exact db.apiTokens.ids_below existing (Table.byId_eq_some.mp found).1
  have above : ∀ other ∈ resolved.apiTokens.rows, other.id < fresh.id := by
    rw [next]
    exact ids_below_next touched
  have narrows : ∀ parent, Narrows fresh parent ↔ Narrows existing parent := by
    intro parent
    rw [copied]
    exact ⟨fun narrower => ⟨narrower.scopes, narrower.organization⟩,
      fun narrower => ⟨narrower.scopes, narrower.organization⟩⟩
  have lookup : apiTokenByHash { revokeToken { resolved with apiTokens } request.now existing.id with auditEvents }
      (host.hashToken raw) = some fresh := by
    rw [← hash] at unused ⊢
    exact rotated_byHash older rows unused
  rw [copied] at lookup
  have users : ({ revokeToken { resolved with apiTokens } request.now existing.id with auditEvents } : Db).users.byId
      existing.userId = some caller.user := by
    show resolved.users.byId existing.userId = _
    rw [touched.users, owned]
    exact known
  have accepted := rotated_accepted_iff users active lookup
  have service : employed { revokeToken { resolved with apiTokens } request.now existing.id with auditEvents }
      existing.userId = employed db existing.userId := by
    show (resolved.serviceAccounts.one _).any _ = _
    rw [touched.serviceAccounts]
    rfl
  rw [service] at accepted
  unfold Modest
  simp only [rotates]
  constructor
  · intro attenuates other same
    cases found.symm.trans same
    refine ⟨fun parent presented => ?_, fun lapsed => ?_⟩
    · obtain ⟨member, _⟩ := (rotated_mem older rows above).mpr rfl
      exact (narrows parent).mp (attenuates.narrower parent presented fresh member (by rw [next]))
    · exact accepted.mp (attenuates.buried request tokenId raw expiresInDays existing rfl rotates found lapsed)
  · intro modest
    obtain ⟨narrower, refused⟩ := modest existing found
    refine ⟨fun parent presented row member new => ?_, ?_⟩
    · rw [← next] at new
      rw [(rotated_mem older rows above).mp ⟨member, new⟩]
      exact (narrows parent).mpr (narrower parent presented)
    · rintro _ tokenId' raw' days' other ⟨⟩ same stored lapsed
      cases rotates.symm.trans same
      cases found.symm.trans stored
      exact accepted.mpr (refused lapsed)

theorem issueServiceAccountToken_attenuates_iff {request : ServiceAccountTokenRequest}
    (done : issueServiceAccountToken host db request = .ok (after, caller)) :
    Attenuates host db (.serviceAccount request) after caller ↔ Modest host db (.serviceAccount request) caller := by
  simp only [issueServiceAccountToken, Organizations.issueServiceAccountToken, Outcome.bind_eq_ok, Prod.exists,
    Outcome.pure_eq_ok, Prod.mk.injEq, actingMaintainer_ok, reraise_eq_ok] at done
  obtain ⟨resolved, _, authenticated, _, _, _, _, ⟨org, ⟨_, found, _⟩, _, _, _, _, _, _, _, _, created, rfl, rfl⟩,
    rfl, rfl⟩ := done
  have touched := resolveCookieActiveUser_touched (requireCookieScope_ok authenticated).1
  have organization : (orgBySlug db request.slug).map Organization.id = some org.id := by
    unfold orgBySlug at found ⊢
    rw [← touched.organizations, found]
    rfl
  unfold Modest
  simp only [organization]
  rw [← created_narrower_iff touched created]
  refine ⟨Attenuates.narrower, fun narrower => ⟨narrower, ?_⟩⟩
  rintro _ _ _ _ _ ⟨⟩

theorem handle_attenuates_iff {request : Request} (done : handle host db request = .ok (after, some caller)) :
    Attenuates host db (.identity request) after caller ↔ Modest host db (.identity request) caller := by
  obtain ⟨resolved, authenticated, performed⟩ := handle_some.mp done
  have touched := authenticate_touched authenticated
  have old := ids_below_next touched
  obtain ⟨now, headers, throttled, call⟩ := request
  cases call with
  | uploadKey publicKey label expiresAt =>
    obtain ⟨_, registered⟩ := Outcome.map_fst_ok.mp performed
    obtain ⟨_, _, rfl⟩ := (registerSigningKey_keysOnly registered).frame
    exact iff_of_true (attenuates_of_old old nofun) trivial
  | revokeKey keyId =>
    obtain ⟨_, revoked⟩ := Outcome.map_fst_ok.mp performed
    obtain ⟨_, _, rfl⟩ := (revokeSigningKey_keysOnly revoked).frame
    exact iff_of_true (attenuates_of_old old nofun) trivial
  | createToken raw asked =>
    obtain ⟨_, limited⟩ := Outcome.map_fst_ok.mp performed
    simp only [createToken, Outcome.bind_eq_ok] at limited
    obtain ⟨_, _, created⟩ := limited
    unfold Modest
    dsimp only
    rw [← created_narrower_iff touched created]
    refine ⟨Attenuates.narrower, fun narrower => ⟨narrower, ?_⟩⟩
    rintro _ _ _ _ _ ⟨⟩ ⟨⟩
  | revokeToken tokenId =>
    obtain ⟨row, _, _, ⟨_, rfl⟩ | ⟨_, _, rfl⟩⟩ := revokeApiToken_ok performed
    · exact iff_of_true (attenuates_of_old old nofun) trivial
    · refine iff_of_true (attenuates_of_old ?_ nofun) trivial
      rw [← touched.next]
      exact (resolved.apiTokens.modify _ _).ids_below
  | rotateToken tokenId raw expiresInDays =>
    obtain ⟨_, rotation⟩ := Outcome.map_fst_ok.mp performed
    obtain ⟨active, known⟩ := requireScope_caller authenticated
    exact rotateToken_attenuates_iff rfl touched active known rotation
  | adminSuspendUser userId suspended =>
    obtain ⟨_, changed⟩ := Outcome.map_fst_ok.mp performed
    obtain ⟨_, _, _, ⟨_, rfl⟩ | ⟨_, _, rfl⟩⟩ := suspendUser_ok changed
    · exact iff_of_true (attenuates_of_old old nofun) trivial
    · exact iff_of_true (attenuates_of_old old nofun) trivial
  | deleteMyAccount confirm =>
    obtain ⟨_, session, _⟩ := resolveCookieSessionOnly_ok authenticated
    exact iff_of_true (attenuates_of_interactive (by rw [session]; exact nofun) nofun) trivial
  | approveDevice userCode =>
    simp only [authenticate, Outcome.bind_eq_ok] at authenticated
    obtain ⟨_, _, recognised⟩ := authenticated
    exact iff_of_true (attenuates_of_interactive (resolveCookieInteractive_interactive recognised) nofun) trivial
  | updateAgreements tos privacy publisher =>
    exact iff_of_true (attenuates_of_interactive (resolveCookieInteractive_interactive authenticated) nofun) trivial
  | revokeMySession sessionId =>
    exact iff_of_true (attenuates_of_interactive (resolveCookieInteractive_interactive authenticated) nofun) trivial
  | logout =>
    obtain ⟨_, session, _⟩ := resolveCookieSessionOnly_ok authenticated
    exact iff_of_true (attenuates_of_interactive (by rw [session]; exact nofun) nofun) trivial

end Requests

/-- Tokens are attenuated by exactly the requests that ask for no more than they may:
    no route compares what is asked with the token it is asked with. -/
theorem attenuation_iff {host : IdentityHost} {db after : Db} {issuance : Issuance} {caller : Caller}
    (done : issue host db issuance = .ok (after, some caller)) :
    Attenuates host db issuance after caller ↔ Modest host db issuance caller := by
  cases issuance with
  | identity request => exact handle_attenuates_iff done
  | serviceAccount request =>
    simp only [issue, Outcome.bind_eq_ok, Outcome.pure_eq_ok, Prod.exists, Prod.mk.injEq, Option.some.injEq] at done
    obtain ⟨_, _, issued, rfl, rfl⟩ := done
    exact issueServiceAccountToken_attenuates_iff issued

section Desk

def keeperRow : ApiToken where
  id := 1
  userId := 1
  tokenHash := keeperToken.digest
  tokenPrefix := "oah_EChqRqZd"
  label := "keeper"
  scopes := "keys:manage"
  expiresAt := some (days 90)

def publisherRow : ApiToken where
  id := 2
  userId := 1
  tokenHash := readerToken.digest
  tokenPrefix := "oah_UQkxpU05"
  label := "publisher"
  scopes := "packages:publish"
  expiresAt := some (days 90)
  revokedAt := some 1

def cabinet : Db :=
  { users := signedUp, apiTokens := ⟨[keeperRow, publisherRow], 3, by decide +kernel, by decide +kernel⟩ }

def reviving : Request := ⟨2, bearing keeperToken.raw, false, .rotateToken 2 freshToken.raw none⟩

def renewing : Request := ⟨2, bearing keeperToken.raw, false, .rotateToken 1 freshToken.raw none⟩

theorem keeper_recognised : requireScope deskHost 2 cabinet (bearing keeperToken.raw) ["keys:manage"] =
    .ok (touchApiToken cabinet 2 1, ⟨founder, .apiToken keeperRow⟩) := by
  have credentials : deskHost.httpBearer (bearing keeperToken.raw).authorization = some keeperToken.raw :=
    deskHost_httpBearer (by decide +kernel)
  have presented : bearerToken (bearing keeperToken.raw).authorization = some keeperToken.raw :=
    bearerToken_bearing (by decide +kernel)
  have undecodable : deskHost.decodeToken 2 keeperToken.raw = none := by decide +kernel
  have hashed : deskHost.hashToken keeperToken.raw = keeperToken.digest := by decide +kernel
  have found : userFromBearer deskHost 2 cabinet keeperToken.raw =
      some (touchApiToken cabinet 2 1, ⟨founder, .apiToken keeperRow⟩) := by
    unfold userFromBearer interactiveUser jwtUser userFromApiToken
    rw [undecodable, hashed]
    rfl
  unfold requireScope requireActiveUser getCurrentUser apiTokenScopes
  rw [credentials, Outcome.demand_some, Outcome.ok_bind, found, presented]
  rfl

/-- What the key manager's token does to a token it names. -/
theorem keeper_rotates {tokenId : Nat} {after : Db} (performed : perform deskHost (touchApiToken cabinet 2 1) founder
      ⟨2, bearing keeperToken.raw, false, .rotateToken tokenId freshToken.raw none⟩ = .ok after) :
    issue deskHost cabinet (.identity ⟨2, bearing keeperToken.raw, false, .rotateToken tokenId freshToken.raw none⟩) =
      .ok (after, some ⟨founder, .apiToken keeperRow⟩) :=
  handle_some.mpr ⟨touchApiToken cabinet 2 1, keeper_recognised, performed⟩

theorem renewing_attenuates : ∃ after, issue deskHost cabinet (.identity renewing) =
    .ok (after, some ⟨founder, .apiToken keeperRow⟩) ∧
      Attenuates deskHost cabinet (.identity renewing) after ⟨founder, .apiToken keeperRow⟩ := by
  have performed : ∃ after, perform deskHost (touchApiToken cabinet 2 1) founder renewing = .ok after := ⟨_, rfl⟩
  obtain ⟨after, performed⟩ := performed
  have handled := keeper_rotates performed
  refine ⟨after, handled, (attenuation_iff handled).mpr ?_⟩
  intro existing found
  cases found
  refine ⟨?_, ?_⟩
  · intro parent presented
    cases presented
    exact ⟨fun _ granted => granted, nofun⟩
  · rintro (revoked | ⟨expiry, expires, past⟩)
    · exact absurd rfl revoked
    · cases expires
      exact absurd past (by decide)

/-- The key manager's token rotates the revoked one and can publish. -/
theorem rotation_revives_wider_token : ∃ after, issue deskHost cabinet (.identity reviving) =
    .ok (after, some ⟨founder, .apiToken keeperRow⟩) ∧
      ¬ Attenuates deskHost cabinet (.identity reviving) after ⟨founder, .apiToken keeperRow⟩ := by
  have performed : ∃ after, perform deskHost (touchApiToken cabinet 2 1) founder reviving = .ok after ∧
      ∃ row ∈ after.apiTokens.rows, row.id = 3 ∧ row.scopes = "packages:publish" :=
    ⟨_, rfl, _, List.mem_of_getElem? (i := 2) rfl, rfl, rfl⟩
  obtain ⟨after, performed, row, member, new, scopes⟩ := performed
  have handled := keeper_rotates performed
  refine ⟨after, handled, fun attenuates => ?_⟩
  have narrower := attenuates.narrower keeperRow rfl row member (by rw [new]; decide)
  have granted := narrower.scopes "packages:publish" (by rw [scopes]; decide +kernel)
  exact absurd granted (by decide +kernel)

end Desk

end Registry.Identity
