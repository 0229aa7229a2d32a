import OpenAgentHub.Registry.Identity.SessionLifetime
import OpenAgentHub.Registry.Identity.SharedSecret

namespace Registry.Identity

open Relational Packages Organizations

def origin (row : Session) : Nat × Nat × String × Time := (row.id, row.userId, row.audience, row.createdAt)

def WebKept (before after : Table Session) : Prop :=
  ∀ row ∈ after.rows, row.audience = "web" → ∃ old ∈ before.rows, origin old = origin row

section Keeping

variable {host : IdentityHost} {now : Time} {db after : Db} {user : User} {first second third : Table Session}

namespace WebKept

theorem refl (sessions : Table Session) : WebKept sessions sessions := fun row stored _ => ⟨row, stored, rfl⟩

theorem of_upkeep (upkept : Table.Upkeep origin first second) : WebKept first second := by
  intro row stored _
  obtain ⟨old, isOld, same⟩ := upkept.backward stored
  exact ⟨old, isOld, same⟩

theorem trans (left : WebKept first second) (right : WebKept second third) : WebKept first third := by
  intro row stored web
  obtain ⟨middle, isMiddle, same⟩ := right row stored web
  have middleWeb : middle.audience = "web" := (congrArg (fun opened => opened.2.2.1) same).trans web
  obtain ⟨old, isOld, kept⟩ := left middle isMiddle middleWeb
  exact ⟨old, isOld, kept.trans same⟩

theorem append {row : Session} (rows : second.rows = first.rows ++ [row]) (other : row.audience ≠ "web") : WebKept first second := by
  intro stored isStored web
  rw [rows, List.mem_append, List.mem_singleton] at isStored
  rcases isStored with kept | rfl
  · exact ⟨stored, kept, rfl⟩
  · exact absurd web other

end WebKept

theorem revokeSessions_webKept (userId : Nat) : WebKept db.sessions (revokeSessions now db userId).sessions :=
  .of_upkeep (Table.Upkeep.modify (sessionRevoked_preserves now) fun _ => rfl)

theorem touchSession_webKept (sessionId : Nat) : WebKept db.sessions (touchSession db now sessionId).sessions :=
  .of_upkeep (Table.Upkeep.modify (sessionTouched_preserves now) fun _ => rfl)

theorem Touched.webKept {credential : Credential} (touched : Touched now db after credential) :
    WebKept db.sessions after.sessions := by
  cases touched with
  | jwt => exact .refl _
  | session sessionId => exact touchSession_webKept sessionId
  | apiToken row => exact .refl _

theorem revokeById_webKept {sessionId : Nat} (done : revokeById now db sessionId user = .ok after) :
    WebKept db.sessions after.sessions := by
  unfold revokeById at done
  simp only [Outcome.bind_eq_ok] at done
  obtain ⟨_, _, _, _, rest⟩ := done
  split at rest
  · cases rest
    exact .refl _
  · cases rest
    exact .of_upkeep (Table.Upkeep.modify (sessionRevoked_preserves now) fun _ => rfl)

theorem createSession_origin {host : Host} {start : Db} {raw audience : String} {deviceLabel : Option String} {created : Session}
    (done : createSession host now start user raw audience deviceLabel = .ok (db, created)) :
    db.sessions.rows = start.sessions.rows ++ [created] ∧ db.users = start.users ∧
      created.userId = user.id ∧ created.audience = audience ∧ created.createdAt = now := by
  simp only [createSession, Outcome.bind_eq_ok, Outcome.pure_eq_ok, Prod.mk.injEq, Prod.exists] at done
  obtain ⟨added, sessions, inserted, rfl, rfl⟩ := done
  obtain ⟨_, rfl, rows, _⟩ := Table.insert_eq_some.mp (Db.insertRow_eq_ok.mp inserted)
  exact ⟨rows, rfl, rfl, rfl, rfl⟩

theorem deleteAccount_webKept {host : Host} (done : deleteAccount host now db user = .ok after) :
    WebKept db.sessions after.sessions := by
  simp only [deleteAccount, Outcome.bind_eq_ok, Outcome.pure_eq_ok, Prod.exists] at done
  obtain ⟨_, _, left, _, removed, rfl⟩ := done
  obtain ⟨_, _, _, rfl, _⟩ := removeUserMemberships_frame removed
  exact revokeSessions_webKept user.id

theorem suspendUser_webKept {actor result : User} {target : Nat} {suspended : Bool}
    (done : suspendUser now db actor target suspended = .ok (after, result)) : WebKept db.sessions after.sessions := by
  obtain ⟨row, _, _, ⟨_, rfl⟩ | ⟨_, _, rfl⟩⟩ := suspendUser_ok done
  · exact .refl _
  · exact revokeSessions_webKept row.id

/-- No route opens a web session. -/
theorem handle_webKept {headers : Headers} {throttled : Bool} {call : Call} {caller : Option Caller}
    (done : handle host db ⟨now, headers, throttled, call⟩ = .ok (after, caller)) : WebKept db.sessions after.sessions := by
  cases caller with
  | none =>
    rw [handle_none done]
    exact .refl _
  | some caller =>
    obtain ⟨resolved, authenticated, performed⟩ := handle_some.mp done
    refine (authenticate_touched authenticated).webKept.trans ?_
    cases call with
    | uploadKey publicKey label expiresAt =>
      obtain ⟨_, registered⟩ := Outcome.map_fst_ok.mp performed
      obtain ⟨_, _, rfl⟩ := (registerSigningKey_keysOnly registered).frame
      exact .refl _
    | revokeKey keyId =>
      obtain ⟨_, revoked⟩ := Outcome.map_fst_ok.mp performed
      obtain ⟨_, _, rfl⟩ := (revokeSigningKey_keysOnly revoked).frame
      exact .refl _
    | createToken raw tokenRequest =>
      obtain ⟨_, created⟩ := Outcome.map_fst_ok.mp performed
      obtain ⟨_, _, created⟩ := Outcome.bind_eq_ok.mp created
      obtain ⟨_, _, _, _, rfl, _⟩ := createApiToken_ok created
      exact .refl _
    | revokeToken tokenId =>
      obtain ⟨_, _, _, ⟨_, rfl⟩ | ⟨_, _, rfl⟩⟩ := revokeApiToken_ok performed
      · exact .refl _
      · exact .refl _
    | rotateToken tokenId raw expiresInDays =>
      obtain ⟨_, rotated⟩ := Outcome.map_fst_ok.mp performed
      obtain ⟨_, _, _, _, _, _, _, _, rfl⟩ := rotateApiToken_ok rotated
      exact .refl _
    | adminSuspendUser target suspended =>
      obtain ⟨_, suspension⟩ := Outcome.map_fst_ok.mp performed
      exact suspendUser_webKept suspension
    | deleteMyAccount confirm =>
      obtain ⟨_, _, deleted⟩ := Outcome.bind_eq_ok.mp performed
      exact deleteAccount_webKept deleted
    | approveDevice userCode =>
      obtain ⟨_, _, rfl⟩ := approveDeviceLogin_frame performed
      exact .refl _
    | updateAgreements tos privacy publisher =>
      obtain ⟨_, _, _, rfl, _⟩ := acceptAgreements_frame performed
      exact .refl _
    | revokeMySession sessionId => exact revokeById_webKept performed
    | logout =>
      dsimp only [perform, revokeCurrentSession] at performed
      split at performed
      · cases performed
        exact .refl _
      · exact revokeById_webKept performed

def OtherEvent : Type := { event : Event // ∀ profile raw, event ≠ .githubCallback profile raw }

theorem handleEvent_webKept {event : Event} (other : ∀ profile raw, event ≠ .githubCallback profile raw)
    (done : handleEvent host now db event = .ok after) : WebKept db.sessions after.sessions := by
  cases event with
  | route headers throttled call =>
    obtain ⟨_, handled⟩ := Outcome.map_fst_ok.mp done
    exact handle_webKept handled
  | githubLogin profile =>
    obtain ⟨_, signedIn⟩ := Outcome.map_fst_ok.mp done
    obtain ⟨_, rfl, _⟩ := loginWithGithub_ok signedIn
    exact .refl _
  | githubCallback profile raw => exact absurd rfl (other profile raw)
  | createDevice device =>
    simp only [handleEvent, createDeviceLogin, Outcome.bind_eq_ok, Prod.exists, Outcome.pure_eq_ok] at done
    obtain ⟨_, _, _, rfl⟩ := done
    exact .refl _
  | pollDevice deviceCode raw =>
    simp only [handleEvent, Outcome.map_fst_ok, pollDeviceLogin, Outcome.bind_eq_ok, Prod.exists, Outcome.pure_eq_ok,
      Prod.mk.injEq] at done
    obtain ⟨_, row, _, _, _, _, _, _, _, _, _, _, _, opened, rfl, _⟩ := done
    obtain ⟨rows, _, _, audience, _⟩ := createSession_origin opened
    refine .append rows ?_
    rw [audience]
    decide
  | createServiceAccount actor slug name role =>
    obtain ⟨_, created⟩ := Outcome.map_fst_ok.mp done
    obtain ⟨_, _, _, _, _, _, ⟨_, _, rfl⟩, _, rfl⟩ := createServiceAccount_frame created
    exact .refl _
  | deleteServiceAccount actor slug accountId =>
    obtain ⟨_, deleted⟩ := Outcome.map_fst_ok.mp done
    simp only [Organizations.deleteServiceAccount, serviceAccountOf, Outcome.bind_eq_ok, Outcome.demand_eq_ok,
      Option.filter_eq_some_iff, Outcome.pure_eq_ok, Prod.mk.injEq] at deleted
    obtain ⟨org, _, account, _, rfl, _⟩ := deleted
    show WebKept db.sessions (Db.sessions _)
    split <;> exact .refl _
  | issueServiceAccountToken actor slug accountId raw label scopes expiresInDays =>
    obtain ⟨_, issued⟩ := Outcome.map_fst_ok.mp done
    obtain ⟨_, _, rfl⟩ := issueServiceAccountToken_frame issued
    exact .refl _

end Keeping

end Registry.Identity
