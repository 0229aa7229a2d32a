import OpenAgentHub.Registry.Identity.Routes
import OpenAgentHub.Registry.Packages.Effects

namespace Registry.Identity

open Relational Packages Organizations

section Resolving

variable {host : IdentityHost} {now : Time} {db after : Db} {headers : Headers} {token : String} {caller : Caller}

inductive Touched (now : Time) (db : Db) : Db → Credential → Prop
  | jwt : Touched now db db .jwt
  | session (sessionId : Nat) : Touched now db (touchSession db now sessionId) .session
  | apiToken (row : ApiToken) : Touched now db (touchApiToken db now row.id) (.apiToken row)

theorem sessionUser_touched {host : Host} {user : User} (done : sessionUser host now db token = .ok (after, user)) :
    Touched now db after .session := by
  obtain ⟨_, row, _, _, _, _, rfl⟩ := sessionUser_ok done
  exact .session row.id

theorem interactiveUser_touched (found : interactiveUser host now db token = some (after, caller)) :
    Touched now db after caller.credential := by
  unfold interactiveUser at found
  split at found
  · cases found
    exact .jwt
  · obtain ⟨resolved, session⟩ := userFromSession_some found
    rw [session]
    exact sessionUser_touched resolved

theorem userFromBearer_touched (found : userFromBearer host now db token = some (after, caller)) :
    Touched now db after caller.credential := by
  unfold userFromBearer at found
  split at found
  · rename_i interactive
    cases found
    exact interactiveUser_touched interactive
  · obtain ⟨row, _, _, _, _, credential, rfl⟩ := userFromApiToken_some found
    rw [credential]
    exact .apiToken row

theorem getCurrentUser_touched (done : getCurrentUser host now db headers = .ok (after, caller)) :
    Touched now db after caller.credential := by
  unfold getCurrentUser at done
  simp only [Outcome.bind_eq_ok, Outcome.demand_eq_ok] at done
  obtain ⟨token, _, found⟩ := done
  exact userFromBearer_touched found

theorem resolveCookieWith_touched {fromBearer : String → Option (Db × Caller)}
    (bearer : ∀ token after caller, fromBearer token = some (after, caller) → Touched now db after caller.credential)
    (done : resolveCookieWith fromBearer host now db headers = .ok (after, caller)) :
    Touched now db after caller.credential := by
  unfold resolveCookieWith at done
  split at done
  · obtain ⟨token, _, found⟩ := Option.bind_eq_some_iff.mp (Outcome.demand_eq_ok.mp done)
    exact bearer token after caller found
  · simp only [Outcome.bind_eq_ok, Outcome.pure_eq_ok, Prod.mk.injEq, Prod.exists] at done
    obtain ⟨_, user, resolved, rfl, rfl⟩ := done
    exact sessionUser_touched resolved

theorem resolveCookieActiveUser_ok (done : resolveCookieActiveUser host now db headers = .ok (after, caller)) :
    resolveCookieUser host now db headers = .ok (after, caller) ∧ caller.user.status = .active := by
  unfold resolveCookieActiveUser at done
  simp only [Outcome.bind_eq_ok, Outcome.ensure_eq_ok, Outcome.pure_eq_ok, Prod.mk.injEq, Prod.exists] at done
  obtain ⟨_, _, resolved, _, active, rfl, rfl⟩ := done
  exact ⟨resolved, active⟩

theorem resolveCookieActiveUser_touched (done : resolveCookieActiveUser host now db headers = .ok (after, caller)) :
    Touched now db after caller.credential :=
  resolveCookieWith_touched (fun _ _ _ found => userFromBearer_touched found) (resolveCookieActiveUser_ok done).1

theorem authenticate_touched {request : Request} (done : authenticate host db request = .ok (after, caller)) :
    Touched request.now db after caller.credential := by
  have interactive : resolveCookieInteractive host request.now db request.headers = .ok (after, caller) →
      Touched request.now db after caller.credential :=
    resolveCookieWith_touched fun _ _ _ found => interactiveUser_touched found
  unfold authenticate at done
  split at done
  case h_1 | h_2 | h_3 | h_4 | h_5 =>
    exact getCurrentUser_touched (requireActiveUser_ok (requireScope_ok done).1).1
  case h_6 => exact getCurrentUser_touched (requireActiveUser_ok (requireAdmin_ok done).1).1
  case h_7 | h_8 =>
    obtain ⟨_, credential, token, _, resolved⟩ := resolveCookieSessionOnly_ok done
    rw [credential]
    exact sessionUser_touched resolved
  case h_9 =>
    simp only [Outcome.bind_eq_ok] at done
    obtain ⟨_, _, done⟩ := done
    exact interactive done
  case h_10 | h_11 => exact interactive done

theorem userFromBearer_stored (found : userFromBearer host now db token = some (after, caller)) :
    db.users.byId caller.user.id = some caller.user := by
  have named : ∀ id user, db.users.byId id = some user → db.users.byId user.id = some user := by
    intro id user stored
    rw [show user.id = id from (Table.byId_eq_some.mp stored).2]
    exact stored
  unfold userFromBearer interactiveUser at found
  split at found
  · rename_i interactive
    cases found
    split at interactive
    · rename_i jwt
      cases interactive
      simp only [jwtUser, Option.bind_eq_bind, Option.bind_eq_some_iff] at jwt
      obtain ⟨_, _, id, _, stored⟩ := jwt
      exact named id _ stored
    · obtain ⟨_, row, _, _, _, stored, _⟩ := sessionUser_ok (userFromSession_some interactive).1
      exact named row.userId _ stored
  · obtain ⟨row, _, _, stored, _⟩ := userFromApiToken_some found
    exact named row.userId _ stored

theorem requireScope_caller {scopes : List String}
    (done : requireScope host now db headers scopes = .ok (after, caller)) :
    caller.user.status = .active ∧ db.users.byId caller.user.id = some caller.user := by
  obtain ⟨resolved, active⟩ := requireActiveUser_ok (requireScope_ok done).1
  unfold getCurrentUser at resolved
  simp only [Outcome.bind_eq_ok, Outcome.demand_eq_ok] at resolved
  obtain ⟨token, _, found⟩ := resolved
  exact ⟨active, userFromBearer_stored found⟩

theorem Touched.users {credential : Credential} (touched : Touched now db after credential) : after.users = db.users := by
  cases touched <;> rfl

end Resolving

section Performing

variable {host : IdentityHost} {now : Time} {db after : Db} {user : User}

def newToken (host : Host) (now : Time) (user : User) (raw : String) (request : TokenRequest) (id : Nat) :
    ApiToken where
  id := id
  userId := user.id
  tokenHash := host.hashToken raw
  tokenPrefix := String.ofList (raw.toList.take 12)
  label := Text.strip request.label
  scopes := Text.join "," (Text.sortedSet request.scopes)
  organizationId := request.organizationId
  isServiceAccount := request.isServiceAccount
  expiresAt :=
    let requested := requestedDays host.settings request.expiresInDays
    if requested ≤ 0 then none else some (now + days requested.toNat)

theorem createApiToken_ok {host : Host} {raw : String} {request : TokenRequest} {row : ApiToken}
    (done : createApiToken host now db user raw request = .ok (after, row)) :
    (∀ scope ∈ request.scopes, scope ∈ tokenScopes) ∧ row = newToken host now user raw request db.apiTokens.next ∧
      ∃ apiTokens auditEvents, after = { db with apiTokens, auditEvents } ∧
        apiTokens.rows = db.apiTokens.rows ++ [row] := by
  simp only [createApiToken, validateScopes, Outcome.bind_eq_ok, Prod.exists, Outcome.pure_eq_ok,
    Prod.mk.injEq, Outcome.ensure_eq_ok] at done
  obtain ⟨_, _, granted, ⟨_, valid, rfl⟩, _, _, _, _, _, _, _, _, _, _, _, _, row', apiTokens, inserted, rfl, rfl⟩ := done
  obtain ⟨_, rfl, rows, _⟩ := Table.insert_eq_some.mp (Db.insertRow_eq_ok.mp inserted)
  refine ⟨?_, rfl, apiTokens, _, rfl, rows⟩
  intro scope listed
  simpa using List.filter_eq_nil_iff.mp valid scope listed

theorem issueServiceAccountToken_frame {host : Host} {actor : User} {slug raw label : String} {accountId : Nat}
    {scopes : List String} {expiresInDays : Option Int} {row : ApiToken}
    (done : issueServiceAccountToken host now db actor slug accountId raw label scopes expiresInDays = .ok (after, row)) :
    ∃ apiTokens auditEvents, after = { db with apiTokens, auditEvents } := by
  simp only [issueServiceAccountToken, Outcome.bind_eq_ok, reraise_eq_ok, Prod.exists, Outcome.pure_eq_ok,
    Prod.mk.injEq] at done
  obtain ⟨_, _, _, _, _, _, _, _, _, _, created, rfl, _⟩ := done
  obtain ⟨_, _, _, _, rfl, _⟩ := createApiToken_ok created
  exact ⟨_, _, rfl⟩

/-- A user of the profile is added, or the one that is there is brought up to date. -/
theorem loginWithGithub_ok {profile : Profile} (done : loginWithGithub now db profile = .ok (after, user)) :
    ∃ users, after = { db with users } ∧ user ∈ users.rows ∧ user.githubId = some profile.githubId ∧
      (users.rows = db.users.rows ++ [user] ∨
        ∃ existing ∈ db.users.rows, existing.status ≠ .deleted ∧ user.id = existing.id ∧
          db.users.replace user = some users) := by
  unfold loginWithGithub at done
  split at done
  · simp only [Outcome.bind_eq_ok, Outcome.pure_eq_ok, Prod.mk.injEq, Prod.exists] at done
    obtain ⟨_, users, inserted, rfl, rfl⟩ := done
    obtain ⟨_, rfl, rows, _⟩ := Table.insert_eq_some.mp (Db.insertRow_eq_ok.mp inserted)
    refine ⟨users, rfl, ?_, rfl, .inl rows⟩
    rw [rows]
    exact List.mem_append_right _ (List.mem_singleton.mpr rfl)
  · next existing found =>
    simp only [Outcome.bind_eq_ok, Outcome.ensure_eq_ok, Outcome.pure_eq_ok, Prod.mk.injEq] at done
    obtain ⟨_, open_, users, updated, rfl, rfl⟩ := done
    have replaced := Outcome.demand_eq_ok.mp updated
    have known : existing.githubId = some profile.githubId := by simpa using Table.one_holds found
    have present : (db.users.byId existing.id).isSome = true :=
      Option.isSome_iff_exists.mpr ⟨existing, Table.byId_eq_some.mpr ⟨Table.one_mem found, rfl⟩⟩
    exact ⟨users, rfl, (Table.byId_eq_some.mp (Table.byId_replace_self replaced present)).1, known,
      .inr ⟨existing, Table.one_mem found, open_, rfl, replaced⟩⟩

theorem acceptAgreements_frame {settings : Settings} {tos privacy publisher : Bool}
    (done : acceptAgreements settings now db user tos privacy publisher = .ok after) :
    ∃ userAgreements users auditEvents, after = { db with userAgreements, users, auditEvents } ∧
      Table.Upkeep (fun user => (user.id, user.status)) db.users users := by
  unfold acceptAgreements at done
  revert done
  generalize List.filter Prod.fst _ = choices
  intro done
  induction choices generalizing db with
  | nil =>
    cases done
    exact ⟨_, _, _, rfl, .refl _⟩
  | cons choice rest ih =>
    rw [List.foldlM_cons] at done
    obtain ⟨next, accepted, done⟩ := Outcome.bind_eq_ok.mp done
    simp only [acceptTerm, Outcome.bind_eq_ok, Outcome.pure_eq_ok] at accepted
    obtain ⟨_, _, rfl⟩ := accepted
    obtain ⟨userAgreements, users, auditEvents, rfl, kept⟩ := ih done
    refine ⟨userAgreements, users, auditEvents, rfl, .trans (.modify (agreed_preserves _ choice.2) ?_) kept⟩
    intro row
    cases choice.2 <;> rfl

theorem ownToken_ok {tokenId : Nat} {row : ApiToken} :
    ownToken db user tokenId = .ok row ↔ db.apiTokens.byId tokenId = some row ∧ row.userId = user.id := by
  simp only [ownToken, Outcome.bind_eq_ok, Outcome.demand_eq_ok, Outcome.ensure_eq_ok, Outcome.pure_eq_ok]
  constructor
  · rintro ⟨_, found, _, owned, rfl⟩
    exact ⟨found, owned⟩
  · rintro ⟨found, owned⟩
    exact ⟨row, found, (), owned, rfl⟩

theorem revokeApiToken_ok {tokenId : Nat} (done : revokeApiToken now db user tokenId = .ok after) :
    ∃ row, db.apiTokens.byId tokenId = some row ∧ row.userId = user.id ∧
      ((row.revokedAt.isSome = true ∧ after = db) ∨
        (row.revokedAt.isSome = false ∧ ∃ auditEvents, after = { revokeToken db now row.id with auditEvents })) := by
  unfold revokeApiToken at done
  simp only [Outcome.bind_eq_ok, ownToken_ok] at done
  obtain ⟨row, ⟨found, owned⟩, rest⟩ := done
  refine ⟨row, found, owned, ?_⟩
  split at rest
  · rename_i revoked
    cases rest
    exact .inl ⟨revoked, rfl⟩
  · rename_i active
    cases rest
    exact .inr ⟨Bool.eq_false_iff.mpr active, _, rfl⟩

theorem rotateApiToken_ok {host : Host} {tokenId : Nat} {raw : String} {expiresInDays : Option Int} {fresh : ApiToken}
    (done : rotateApiToken host now db user tokenId raw expiresInDays = .ok (after, fresh)) :
    ∃ existing apiTokens auditEvents, db.apiTokens.byId tokenId = some existing ∧ existing.userId = user.id ∧
      fresh = rotated existing (host.hashToken raw) (String.ofList (raw.toList.take 12))
        (daysFrom now (requestedDays host.settings expiresInDays)) db.apiTokens.next ∧
      apiTokenByHash db (host.hashToken raw) = none ∧ apiTokens.rows = db.apiTokens.rows ++ [fresh] ∧
      after = { revokeToken { db with apiTokens } now existing.id with auditEvents } := by
  simp only [rotateApiToken, Outcome.bind_eq_ok, Prod.exists, Outcome.pure_eq_ok, Prod.mk.injEq, ownToken_ok] at done
  obtain ⟨existing, ⟨found, owned⟩, _, _, _, _, _, _, _, _, fresh', apiTokens, inserted, rfl, rfl⟩ := done
  obtain ⟨unused, rfl, rows, _⟩ := Table.insert_eq_some.mp (Db.insertRow_eq_ok.mp inserted)
  exact ⟨existing, apiTokens, _, found, owned, rfl, Table.one_none.mpr unused, rows, rfl⟩

theorem revokeById_frame {sessionId : Nat} (done : revokeById now db sessionId user = .ok after) :
    ∃ sessions auditEvents, after = { db with sessions, auditEvents } := by
  unfold revokeById at done
  simp only [Outcome.bind_eq_ok] at done
  obtain ⟨_, _, _, _, rest⟩ := done
  split at rest
  · cases rest
    exact ⟨_, _, rfl⟩
  · cases rest
    exact ⟨_, _, rfl⟩

theorem approveDeviceLogin_frame {host : Host} {userCode : String} {origin : Option String}
    (done : approveDeviceLogin host now db user userCode origin = .ok after) :
    ∃ loginTransactions auditEvents, after = { db with loginTransactions, auditEvents } := by
  simp only [approveDeviceLogin, Outcome.bind_eq_ok, Outcome.pure_eq_ok] at done
  obtain ⟨_, _, _, _, _, _, rfl⟩ := done
  exact ⟨_, _, rfl⟩

theorem createSession_frame {host : Host} {raw audience : String} {deviceLabel : Option String} {row : Session}
    (done : createSession host now db user raw audience deviceLabel = .ok (after, row)) :
    ∃ sessions auditEvents, after = { db with sessions, auditEvents } := by
  simp only [createSession, Outcome.bind_eq_ok, Outcome.pure_eq_ok, Prod.mk.injEq, Prod.exists] at done
  obtain ⟨_, _, _, rfl, _⟩ := done
  exact ⟨_, _, rfl⟩

theorem status_preserves (status : UserStatus) : Table.Preserves fun row : User => { row with status } :=
  fun _ => ⟨rfl, fun _ => rfl⟩

theorem suspendUser_ok {actor result : User} {target : Nat} {suspended : Bool}
    (done : suspendUser now db actor target suspended = .ok (after, result)) :
    ∃ row, db.users.byId target = some row ∧ row.id ≠ actor.id ∧
      ((row.status = (if suspended then .suspended else .active) ∧ after = db) ∨
        (row.status ≠ (if suspended then .suspended else .active) ∧ ∃ auditEvents, after =
          { revokeSessions now (updateStatus db row.id (if suspended then .suspended else .active)) row.id with
            auditEvents })) := by
  simp only [suspendUser, Outcome.bind_eq_ok, Outcome.demand_eq_ok, Outcome.ensure_eq_ok] at done
  obtain ⟨row, found, _, other, rest⟩ := done
  refine ⟨row, found, other, ?_⟩
  by_cases same : row.status = if suspended then UserStatus.suspended else .active
  · rw [if_pos same] at rest
    cases rest
    exact .inl ⟨same, rfl⟩
  · rw [if_neg same] at rest
    cases rest
    exact .inr ⟨same, _, rfl⟩

end Performing

end Registry.Identity
