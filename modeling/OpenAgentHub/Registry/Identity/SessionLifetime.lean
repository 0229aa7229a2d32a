import OpenAgentHub.Lib.Runs
import OpenAgentHub.Registry.Identity.Sessions

namespace Registry.Identity

open Relational

def idleTtl (host : Host) : Time := seconds host.settings.sessionIdleTtlSeconds

def absoluteTtl (host : Host) : Time := seconds host.settings.sessionAbsoluteTtlSeconds

def rotateSessionToken (host : Host) (now : Time) (row : Session) (drawn : String) : Session × Option String :=
  if now < row.lastUsedAt + seconds host.settings.sessionRotateAfterSeconds then
    ({ row with lastUsedAt := now, idleExpiresAt := now + idleTtl host }, none)
  else
    ({ row with
      tokenHash := host.hashToken drawn, rotatedFromId := some row.id, lastUsedAt := now, idleExpiresAt := now + idleTtl host },
      some drawn)

def usedSession (host : Host) (now : Time) (row : Session) (rotate : Bool) (drawn : String) : Session × Option String :=
  let rotated := if rotate then rotateSessionToken host now row drawn else (row, none)
  ({ rotated.1 with lastUsedAt := now }, rotated.2)

def sessionUserWith (host : Host) (now : Time) (db : Db) (token : String) (rotate : Bool) (drawn : String) :
    Except Raised (Db × User × Option String) := do
  let row ← Outcome.demand ((sessionByHash db (host.hashToken token)).filter (·.revokedAt.isNone))
    (http 401 "session not valid")
  Outcome.ensure (now ≤ row.expiresAt) (http 401 "session expired")
  Outcome.ensure (now ≤ row.idleExpiresAt) (http 401 "session idle expired")
  let user ← Outcome.demand ((db.users.byId row.userId).filter (·.status == .active)) (http 401 "user not available")
  let (used, newToken) := usedSession host now row rotate drawn
  let sessions ← Db.updateRow db.sessions used
  return ({ db with sessions }, user, newToken)

theorem sessionTouched_preserves (now : Time) : Table.Preserves fun row : Session => { row with lastUsedAt := now } :=
  fun _ => ⟨rfl, fun _ => rfl⟩

/-- The calls that do not rotate are those of `sessionUser`. -/
theorem sessionUserWith_keeping (host : Host) (now : Time) (db : Db) (token drawn : String) :
    sessionUserWith host now db token false drawn = (sessionUser host now db token).map fun done => (done.1, done.2, none) := by
  unfold sessionUserWith sessionUser
  cases found : (sessionByHash db (host.hashToken token)).filter (·.revokedAt.isNone) with
  | none => rfl
  | some row =>
    obtain ⟨byHash, _⟩ := Option.filter_eq_some_iff.mp found
    have written := Table.replace_update (sessionTouched_preserves now) (Table.one_mem byHash)
    rw [Outcome.demand_some, Outcome.ok_bind, Outcome.ok_bind]
    by_cases unexpired : now ≤ row.expiresAt
    · rw [Outcome.ensure_true unexpired, Outcome.ok_bind, Outcome.ok_bind]
      by_cases awake : now ≤ row.idleExpiresAt
      · rw [Outcome.ensure_true awake, Outcome.ok_bind, Outcome.ok_bind]
        cases active : (db.users.byId row.userId).filter (·.status == .active) with
        | none => rfl
        | some user =>
          rw [Outcome.demand_some, Outcome.ok_bind, Outcome.ok_bind]
          simp only [usedSession, Bool.false_eq_true, if_false, Db.updateRow, written]
          rfl
      · rw [Outcome.ensure_false awake]
        rfl
    · rw [Outcome.ensure_false unexpired]
      rfl

/-- A session as it is followed: the tokens issued for it, newest first, and whether it has been revoked. -/
structure SessionLife where
  db : Db
  tokens : List String
  revoked : Bool := false

inductive SessionStep where
  | use (now : Time) (token : String) (rotate : Bool) (drawn : String)
  | revoke (now : Time) (sessionId : Nat) (user : User)
  | revokeAll (now : Time) (userId : Nat)
  | create (now : Time) (user : User) (raw audience : String) (deviceLabel : Option String)
  | accounts (users : Table User)

section Life

variable (host : Host) (created : Session)

def live (life : SessionLife) : SessionStep → SessionLife
  | .use now token rotate drawn =>
    match sessionUserWith host now life.db token rotate drawn with
    | .ok (db, _, newToken) =>
      { life with db, tokens := if token ∈ life.tokens then newToken.toList ++ life.tokens else life.tokens }
    | .error _ => life
  | .revoke now sessionId user =>
    match revokeById now life.db sessionId user with
    | .ok db => { life with db, revoked := life.revoked || sessionId == created.id }
    | .error _ => life
  | .revokeAll now userId =>
    { life with db := revokeSessions now life.db userId, revoked := life.revoked || userId == created.userId }
  | .create now user raw audience deviceLabel =>
    match createSession host now life.db user raw audience deviceLabel with
    | .ok (db, _) => { life with db }
    | .error _ => life
  | .accounts users => { life with db := { life.db with users } }

def Timed (row : Session) : Prop :=
  row.idleExpiresAt = row.lastUsedAt + idleTtl host ∧ row.createdAt = created.createdAt ∧
    row.expiresAt = row.createdAt + absoluteTtl host

/-- A call with a token of the session succeeds only with the newest one, before both expiries and before a revocation,
    and leaves the session timed. A replaced token resolves to no session. -/
def Lawful (life : SessionLife) (step : SessionStep) (after : SessionLife) : Prop :=
  (∀ token ∈ after.tokens.tail, sessionByHash after.db (host.hashToken token) = none) ∧
  match step with
  | .use now token rotate drawn =>
    token ∈ life.tokens → (sessionUserWith host now life.db token rotate drawn).isOk = true →
      life.tokens.head? = some token ∧ life.revoked = false ∧
      (∃ row, life.db.sessions.byId created.id = some row ∧ now < row.expiresAt ∧ now < row.idleExpiresAt) ∧
      ∃ row, after.db.sessions.byId created.id = some row ∧ Timed host created row
  | _ => True

/-- The tokens that are drawn are new. -/
def Fresh (life : SessionLife) : SessionStep → Prop
  | .use _ _ _ drawn => drawn ∉ life.tokens
  | .create _ _ raw _ _ => raw ∉ life.tokens
  | _ => True

def Admits (db : Db) (now : Time) (row : Session) : Prop :=
  row.revokedAt = none ∧ now ≤ row.expiresAt ∧ now ≤ row.idleExpiresAt ∧
    ((db.users.byId row.userId).filter (·.status == .active)).isSome = true

def Slides (life : SessionLife) : SessionStep → Prop
  | .use now token rotate _ =>
    life.tokens.head? = some token → ∀ row ∈ life.db.sessions.byId created.id, Admits life.db now row →
      now ≠ row.expiresAt ∧ now ≠ row.idleExpiresAt ∧ (rotate = true ∨ row.idleExpiresAt = now + idleTtl host)
  | _ => True

end Life

section Using

variable {host : Host} {now : Time} {db after : Db} {token drawn : String} {rotate : Bool} {user : User} {newToken : Option String}
  {row : Session}

theorem sessionUserWith_ok (done : sessionUserWith host now db token rotate drawn = .ok (after, user, newToken)) :
    ∃ row sessions, row ∈ db.sessions.rows ∧ row.tokenHash = host.hashToken token ∧ Admits db now row ∧
      db.sessions.replace (usedSession host now row rotate drawn).1 = some sessions ∧
      after = { db with sessions } ∧ newToken = (usedSession host now row rotate drawn).2 := by
  simp only [sessionUserWith, Outcome.bind_eq_ok, Outcome.demand_eq_ok, Outcome.ensure_eq_ok, Outcome.pure_eq_ok,
    Prod.mk.injEq, Db.updateRow] at done
  obtain ⟨row, found, _, unexpired, _, awake, owner, active, sessions, written, rfl, rfl, rfl⟩ := done
  obtain ⟨byHash, unrevoked⟩ := Option.filter_eq_some_iff.mp found
  unfold sessionByHash at byHash
  have ofToken := Table.one_holds byHash
  refine ⟨row, sessions, Table.one_mem byHash, beq_iff_eq.mp ofToken, ⟨?_, unexpired, awake, ?_⟩, written, rfl, rfl⟩
  · exact Option.isNone_iff_eq_none.mp unrevoked
  · rw [active]
    rfl

theorem rotateSessionToken_early (early : now < row.lastUsedAt + seconds host.settings.sessionRotateAfterSeconds) :
    rotateSessionToken host now row drawn = ({ row with lastUsedAt := now, idleExpiresAt := now + idleTtl host }, none) :=
  if_pos early

theorem rotateSessionToken_late (late : ¬ now < row.lastUsedAt + seconds host.settings.sessionRotateAfterSeconds) :
    rotateSessionToken host now row drawn =
      ({ row with
        tokenHash := host.hashToken drawn, rotatedFromId := some row.id, lastUsedAt := now, idleExpiresAt := now + idleTtl host },
        some drawn) :=
  if_neg late

theorem usedSession_frame : (usedSession host now row rotate drawn).1.id = row.id ∧
    (usedSession host now row rotate drawn).1.userId = row.userId ∧
    (usedSession host now row rotate drawn).1.createdAt = row.createdAt ∧
    (usedSession host now row rotate drawn).1.expiresAt = row.expiresAt ∧
    (usedSession host now row rotate drawn).1.revokedAt = row.revokedAt := by
  cases rotate with
  | false => exact ⟨rfl, rfl, rfl, rfl, rfl⟩
  | true =>
    by_cases early : now < row.lastUsedAt + seconds host.settings.sessionRotateAfterSeconds
    · simp [usedSession, rotateSessionToken_early early]
    · simp [usedSession, rotateSessionToken_late early]

theorem usedSession_times : (usedSession host now row rotate drawn).1.lastUsedAt = now ∧
    (usedSession host now row rotate drawn).1.idleExpiresAt = if rotate = true then now + idleTtl host else row.idleExpiresAt := by
  cases rotate with
  | false => exact ⟨rfl, rfl⟩
  | true =>
    by_cases early : now < row.lastUsedAt + seconds host.settings.sessionRotateAfterSeconds
    · simp [usedSession, rotateSessionToken_early early]
    · simp [usedSession, rotateSessionToken_late early]

theorem usedSession_token : ((usedSession host now row rotate drawn).2 = none ∧
      (usedSession host now row rotate drawn).1.tokenHash = row.tokenHash) ∨
    ((usedSession host now row rotate drawn).2 = some drawn ∧
      (usedSession host now row rotate drawn).1.tokenHash = host.hashToken drawn) := by
  cases rotate with
  | false => exact .inl ⟨rfl, rfl⟩
  | true =>
    by_cases early : now < row.lastUsedAt + seconds host.settings.sessionRotateAfterSeconds
    · left
      simp [usedSession, rotateSessionToken_early early]
    · right
      simp [usedSession, rotateSessionToken_late early]

end Using

structure Follows (host : Host) (created : Session) (life : SessionLife) (row : Session) (newest : String)
    (older : List String) : Prop where
  tokens : life.tokens = newest :: older
  distinct : newest ∉ older
  stored : life.db.sessions.byId created.id = some row
  owner : row.userId = created.userId
  ofNewest : row.tokenHash = host.hashToken newest
  replaced : ∀ token ∈ older, ∀ other ∈ life.db.sessions.rows, other.tokenHash ≠ host.hashToken token
  revoked : life.revoked = row.revokedAt.isSome
  timed : Timed host created row

def Followed (host : Host) (created : Session) (life : SessionLife) : Prop :=
  ∃ row newest older, Follows host created life row newest older

section Following

variable {host : Host} {created row : Session} {life : SessionLife} {newest : String} {older : List String}
  (follows : Follows host created life row newest older)

include follows

theorem Follows.unresolved : ∀ token ∈ life.tokens.tail, sessionByHash life.db (host.hashToken token) = none := by
  intro token isOlder
  rw [follows.tokens, List.tail_cons] at isOlder
  unfold sessionByHash
  rw [Table.one_none]
  intro other present
  exact beq_eq_false_iff_ne.mpr (follows.replaced token isOlder other present)

theorem Follows.resolves {found : Session} {token : String} (present : found ∈ life.db.sessions.rows)
    (ofToken : found.tokenHash = host.hashToken token) (issued : token ∈ life.tokens) : token = newest ∧ found = row := by
  obtain ⟨stored, _⟩ := Table.byId_eq_some.mp follows.stored
  rw [follows.tokens, List.mem_cons] at issued
  rcases issued with rfl | isOlder
  · refine ⟨rfl, Table.eq_of_clash present stored ?_⟩
    exact beq_iff_eq.mpr (ofToken.trans follows.ofNewest.symm)
  · exact absurd ofToken (follows.replaced token isOlder found present)

variable (collisionFree : Function.Injective host.hashToken)

include collisionFree

theorem Follows.elsewhere {found : Session} {token : String} (present : found ∈ life.db.sessions.rows)
    (ofToken : found.tokenHash = host.hashToken token) (foreign : token ∉ life.tokens) : found.id ≠ created.id := by
  intro same
  obtain ⟨stored, isRow⟩ := Table.byId_eq_some.mp follows.stored
  have isFound : found = row := Table.eq_of_id present stored (same.trans isRow.symm)
  rw [isFound, follows.ofNewest] at ofToken
  apply foreign
  rw [follows.tokens, ← collisionFree ofToken]
  exact List.mem_cons_self

theorem Follows.hash_ne {token drawn : String} (isOlder : token ∈ older) (fresh : drawn ∉ life.tokens) :
    host.hashToken drawn ≠ host.hashToken token := by
  intro same
  apply fresh
  rw [follows.tokens, collisionFree same]
  exact List.mem_cons_of_mem _ isOlder

variable {now : Time} {token drawn : String} {rotate : Bool} {sessions : Table Session}

theorem Follows.used (fresh : drawn ∉ life.tokens) (slides : rotate = true ∨ row.idleExpiresAt = now + idleTtl host)
    (written : life.db.sessions.replace (usedSession host now row rotate drawn).1 = some sessions) :
    ∃ newest older, Follows host created
      { life with
        db := { life.db with sessions }
        tokens := (usedSession host now row rotate drawn).2.toList ++ life.tokens } (usedSession host now row rotate drawn).1 newest older := by
  obtain ⟨ids, owner, createdAt, expiresAt, revokedAt⟩ := @usedSession_frame host now drawn rotate row
  obtain ⟨lastUsedAt, idleExpiresAt⟩ := @usedSession_times host now drawn rotate row
  obtain ⟨stored, isRow⟩ := Table.byId_eq_some.mp follows.stored
  have found : sessions.byId created.id = some (usedSession host now row rotate drawn).1 := by
    have named : Row.id (usedSession host now row rotate drawn).1 = created.id := ids.trans isRow
    rw [← named]
    refine Table.byId_replace_self written ?_
    rw [named, follows.stored]
    rfl
  have timed : Timed host created (usedSession host now row rotate drawn).1 := by
    refine ⟨?_, createdAt.trans follows.timed.2.1, ?_⟩
    · rw [idleExpiresAt, lastUsedAt]
      rcases slides with rotates | atRest
      · exact if_pos rotates
      · split
        · rfl
        · exact atRest
    · rw [expiresAt, createdAt]
      exact follows.timed.2.2
  have revoked : life.revoked = (usedSession host now row rotate drawn).1.revokedAt.isSome := by
    rw [revokedAt]
    exact follows.revoked
  rcases @usedSession_token host now drawn rotate row with ⟨kept, hash⟩ | ⟨replaced, hash⟩
  · refine ⟨newest, older, ?_, follows.distinct, found, owner.trans follows.owner, hash.trans follows.ofNewest, ?_, revoked, timed⟩
    · rw [kept]
      exact follows.tokens
    · intro token isOlder other present
      rcases Table.mem_replace written present with rfl | ⟨before, _⟩
      · rw [hash]
        exact follows.replaced token isOlder row stored
      · exact follows.replaced token isOlder other before
  · refine ⟨drawn, newest :: older, ?_, ?_, found, owner.trans follows.owner, hash, ?_, revoked, timed⟩
    · rw [replaced, follows.tokens]
      rfl
    · rw [← follows.tokens]
      exact fresh
    · intro token isOlder other present
      rcases Table.mem_replace written present with rfl | ⟨before, different⟩
      · rw [hash]
        intro same
        apply fresh
        rw [follows.tokens, collisionFree same]
        exact isOlder
      · rcases List.mem_cons.mp isOlder with rfl | isOlder
        · intro same
          have clash : Row.clash other row = true := beq_iff_eq.mpr (same.trans follows.ofNewest.symm)
          have isOther := Table.eq_of_clash before stored clash
          rw [isOther] at different
          exact different ids.symm
        · exact follows.replaced token isOlder other before

theorem Follows.usedElsewhere {found : Session} (present : found ∈ life.db.sessions.rows) (different : found.id ≠ created.id)
    (fresh : drawn ∉ life.tokens)
    (written : life.db.sessions.replace (usedSession host now found rotate drawn).1 = some sessions) :
    Follows host created { life with db := { life.db with sessions } } row newest older := by
  obtain ⟨ids, _⟩ := @usedSession_frame host now drawn rotate found
  refine ⟨follows.tokens, follows.distinct, ?_, follows.owner, follows.ofNewest, ?_, follows.revoked, follows.timed⟩
  · have other : Row.id (usedSession host now found rotate drawn).1 ≠ created.id := fun same => different (ids.symm.trans same)
    exact (Table.byId_replace written other).trans follows.stored
  · intro token isOlder other stored
    rcases Table.mem_replace written stored with rfl | ⟨before, _⟩
    · rcases @usedSession_token host now drawn rotate found with ⟨_, hash⟩ | ⟨_, hash⟩
      · rw [hash]
        exact follows.replaced token isOlder found present
      · rw [hash]
        exact follows.hash_ne collisionFree isOlder fresh
    · exact follows.replaced token isOlder other before

end Following

section Steps

variable {host : Host} {created row : Session} {life : SessionLife} {newest : String} {older : List String}

theorem Follows.congr {db : Db} (follows : Follows host created life row newest older) (same : db.sessions = life.db.sessions) :
    Follows host created { life with db } row newest older := by
  refine ⟨follows.tokens, follows.distinct, ?_, follows.owner, follows.ofNewest, ?_, follows.revoked, follows.timed⟩
  · rw [same]
    exact follows.stored
  · rw [same]
    exact follows.replaced

theorem sessionRevoked_preserves (now : Time) : Table.Preserves fun row : Session => { row with revokedAt := some now } :=
  fun _ => ⟨rfl, fun _ => rfl⟩

theorem Follows.marked (follows : Follows host created life row newest older) (now : Time) (condition : Session → Bool)
    {revoked : Bool} (isRevoked : revoked = (row.revokedAt.isSome || condition row)) :
    Followed host created
      ⟨{ life.db with sessions := life.db.sessions.modify condition _ (sessionRevoked_preserves now) }, life.tokens, revoked⟩ := by
  refine ⟨if condition row then { row with revokedAt := some now } else row, newest, older, follows.tokens, follows.distinct,
    ?_, ?_, ?_, ?_, ?_, ?_⟩
  · show (life.db.sessions.modify condition _ (sessionRevoked_preserves now)).byId created.id = _
    rw [Table.byId_modify (sessionRevoked_preserves now), follows.stored]
    rfl
  · split <;> exact follows.owner
  · split <;> exact follows.ofNewest
  · intro token isOlder other present
    obtain ⟨old, stored, rfl⟩ := (Table.mem_modify (sessionRevoked_preserves now)).mp present
    have unlike := follows.replaced token isOlder old stored
    split <;> exact unlike
  · rw [isRevoked]
    cases condition row <;> simp
  · split <;> exact follows.timed

theorem followed_revoke {now : Time} {sessionId : Nat} {user : User} (followed : Followed host created life) :
    Followed host created (live host created life (.revoke now sessionId user)) := by
  obtain ⟨row, newest, older, follows⟩ := followed
  cases done : revokeById now life.db sessionId user with
  | error raised =>
    simp only [live, done]
    exact ⟨row, newest, older, follows⟩
  | ok db =>
    simp only [live, done]
    simp only [revokeById, Outcome.bind_eq_ok, Outcome.demand_eq_ok] at done
    obtain ⟨target, found, _, _, done⟩ := done
    by_cases already : target.revokedAt.isSome = true
    · rw [if_pos already] at done
      cases done
      have unchanged : (life.revoked || sessionId == created.id) = life.revoked := by
        by_cases named : sessionId = created.id
        · subst named
          rw [follows.stored, Option.some.injEq] at found
          rw [follows.revoked, found, already]
          rfl
        · simp [named]
      rw [unchanged]
      exact ⟨row, newest, older, follows⟩
    · rw [if_neg already] at done
      cases done
      have named : row.id = created.id := (Table.byId_eq_some.mp follows.stored).2
      have revoked : (life.revoked || sessionId == created.id) = (row.revokedAt.isSome || row.id == sessionId) := by
        rw [follows.revoked, named, Bool.beq_comm]
      obtain ⟨row, newest, older, follows⟩ := follows.marked now (·.id == sessionId) revoked
      exact ⟨row, newest, older, follows.congr rfl⟩

theorem followed_revokeAll {now : Time} {userId : Nat} (followed : Followed host created life) :
    Followed host created (live host created life (.revokeAll now userId)) := by
  obtain ⟨row, newest, older, follows⟩ := followed
  refine follows.marked now _ ?_
  rw [follows.revoked, follows.owner]
  cases row.revokedAt <;> simp [Bool.beq_comm]

theorem followed_accounts {users : Table User} (followed : Followed host created life) :
    Followed host created (live host created life (.accounts users)) := by
  obtain ⟨row, newest, older, follows⟩ := followed
  exact ⟨row, newest, older, follows.congr rfl⟩

theorem Follows.opened (collisionFree : Function.Injective host.hashToken) (follows : Follows host created life row newest older)
    {raw : String} (fresh : raw ∉ life.tokens) {sessions : Table Session} {added : Session}
    (rows : sessions.rows = life.db.sessions.rows ++ [added]) (hash : added.tokenHash = host.hashToken raw) :
    Follows host created { life with db := { life.db with sessions } } row newest older := by
  refine ⟨follows.tokens, follows.distinct, ?_, follows.owner, follows.ofNewest, ?_, follows.revoked, follows.timed⟩
  · obtain ⟨stored, named⟩ := Table.byId_eq_some.mp follows.stored
    refine Table.byId_eq_some.mpr ⟨?_, named⟩
    rw [rows]
    exact List.mem_append_left _ stored
  · intro token isOlder other present
    rw [rows, List.mem_append, List.mem_singleton] at present
    rcases present with before | rfl
    · exact follows.replaced token isOlder other before
    · rw [hash]
      exact follows.hash_ne collisionFree isOlder fresh

theorem createSession_ok {now : Time} {start db : Db} {user : User} {raw audience : String} {deviceLabel : Option String}
    (done : createSession host now start user raw audience deviceLabel = .ok (db, created)) :
    db.sessions.rows = start.sessions.rows ++ [created] ∧ created.tokenHash = host.hashToken raw ∧ created.revokedAt = none ∧
      Timed host created created ∧ ∃ sessions auditEvents, db = { start with sessions, auditEvents } := by
  simp only [createSession, Outcome.bind_eq_ok, Outcome.pure_eq_ok, Prod.mk.injEq, Prod.exists] at done
  obtain ⟨added, sessions, inserted, rfl, rfl⟩ := done
  obtain ⟨_, rfl, rows, _⟩ := Table.insert_eq_some.mp (Db.insertRow_eq_ok.mp inserted)
  exact ⟨rows, rfl, rfl, ⟨rfl, rfl, rfl⟩, sessions, _, rfl⟩

theorem followed_create (collisionFree : Function.Injective host.hashToken) {now : Time} {user : User} {raw audience : String}
    {deviceLabel : Option String} (fresh : raw ∉ life.tokens) (followed : Followed host created life) :
    Followed host created (live host created life (.create now user raw audience deviceLabel)) := by
  obtain ⟨row, newest, older, follows⟩ := followed
  cases done : createSession host now life.db user raw audience deviceLabel with
  | error raised =>
    simp only [live, done]
    exact ⟨row, newest, older, follows⟩
  | ok opened =>
    obtain ⟨rows, hash, _, _, sessions, auditEvents, isDb⟩ := createSession_ok done
    simp only [live, done]
    rw [isDb] at rows ⊢
    exact ⟨row, newest, older, (follows.opened collisionFree fresh rows hash).congr rfl⟩

theorem followed_created {now : Time} {start db : Db} {user : User} {raw audience : String} {deviceLabel : Option String}
    (done : createSession host now start user raw audience deviceLabel = .ok (db, created)) :
    Followed host created { db, tokens := [raw] } := by
  obtain ⟨rows, hash, unrevoked, timed, _⟩ := createSession_ok done
  refine ⟨created, raw, [], rfl, List.not_mem_nil, ?_, rfl, hash, nofun, ?_, timed⟩
  · refine Table.byId_eq_some.mpr ⟨?_, rfl⟩
    rw [rows]
    exact List.mem_append_right _ (List.mem_singleton.mpr rfl)
  · rw [unrevoked]
    rfl

theorem followed_use (collisionFree : Function.Injective host.hashToken) {now : Time} {token drawn : String} {rotate : Bool}
    (followed : Followed host created life) (fresh : Fresh life (.use now token rotate drawn))
    (slides : Slides host created life (.use now token rotate drawn)) :
    Followed host created (live host created life (.use now token rotate drawn)) := by
  obtain ⟨row, newest, older, follows⟩ := followed
  cases done : sessionUserWith host now life.db token rotate drawn with
  | error raised =>
    simp only [live, done]
    exact ⟨row, newest, older, follows⟩
  | ok result =>
    obtain ⟨found, sessions, present, ofToken, admits, written, isDb, isNew⟩ := sessionUserWith_ok done
    simp only [live, done]
    rw [isDb, isNew]
    by_cases issued : token ∈ life.tokens
    · obtain ⟨rfl, rfl⟩ := follows.resolves present ofToken issued
      have head : life.tokens.head? = some token := by
        rw [follows.tokens]
        rfl
      obtain ⟨_, _, sliding⟩ := slides head found follows.stored admits
      rw [if_pos issued]
      exact ⟨_, follows.used collisionFree fresh sliding written⟩
    · rw [if_neg issued]
      have different := follows.elsewhere collisionFree present ofToken issued
      exact ⟨row, newest, older, follows.usedElsewhere collisionFree present different fresh written⟩

theorem followed_live (collisionFree : Function.Injective host.hashToken) (step : SessionStep)
    (followed : Followed host created life) (fresh : Fresh life step) (slides : Slides host created life step) :
    Followed host created (live host created life step) := by
  cases step with
  | use now token rotate drawn => exact followed_use collisionFree followed fresh slides
  | revoke now sessionId user => exact followed_revoke followed
  | revokeAll now userId => exact followed_revokeAll followed
  | create now user raw audience deviceLabel => exact followed_create collisionFree fresh followed
  | accounts users => exact followed_accounts followed

theorem lawful_live (collisionFree : Function.Injective host.hashToken) (step : SessionStep)
    (followed : Followed host created life) (fresh : Fresh life step) (slides : Slides host created life step) :
    Lawful host created life step (live host created life step) := by
  obtain ⟨rowAfter, newestAfter, olderAfter, followsAfter⟩ := followed_live collisionFree step followed fresh slides
  refine ⟨followsAfter.unresolved, ?_⟩
  obtain ⟨row, newest, older, follows⟩ := followed
  cases step with
  | use now token rotate drawn =>
    intro issued succeeds
    obtain ⟨result, done⟩ := Outcome.isOk_iff.mp succeeds
    obtain ⟨found, sessions, present, ofToken, admits, _⟩ := sessionUserWith_ok done
    obtain ⟨rfl, rfl⟩ := follows.resolves present ofToken issued
    have head : life.tokens.head? = some token := by
      rw [follows.tokens]
      rfl
    obtain ⟨offExpiry, offIdle, _⟩ := slides head found follows.stored admits
    obtain ⟨unrevoked, unexpired, awake, _⟩ := admits
    refine ⟨head, ?_, ⟨found, follows.stored, ?_, ?_⟩, rowAfter, followsAfter.stored, followsAfter.timed⟩
    · rw [follows.revoked, unrevoked]
      rfl
    · exact Nat.lt_of_le_of_ne unexpired offExpiry
    · exact Nat.lt_of_le_of_ne awake offIdle
  | _ => trivial

end Steps

/-- In every run from the opening of a session on, whose calls slide and whose tokens are new, each step is lawful. -/
theorem session_lifetime (host : Host) (collisionFree : Function.Injective host.hashToken) {now : Time} {start db : Db}
    {user : User} {raw audience : String} {deviceLabel : Option String} {created : Session}
    (done : createSession host now start user raw audience deviceLabel = .ok (db, created)) (steps : List SessionStep)
    (fresh : Runs.AllMeet (live host created) Fresh ⟨db, [raw], false⟩ steps)
    (slides : Runs.AllMeet (live host created) (Slides host created) ⟨db, [raw], false⟩ steps) :
    Runs.EachStep (live host created) (Lawful host created) ⟨db, [raw], false⟩ steps := by
  refine (fresh.and slides).eachStep_of_kept (Followed host created) ?_ ?_ (followed_created done)
  · intro life step followed meets
    exact followed_live collisionFree step followed meets.1 meets.2
  · intro life step followed meets
    exact lawful_live collisionFree step followed meets.1 meets.2

section Samples

instance (life : SessionLife) (step : SessionStep) : Decidable (Fresh life step) :=
  match step with
  | .use _ _ _ drawn => inferInstanceAs (Decidable (drawn ∉ life.tokens))
  | .create _ _ raw _ _ => inferInstanceAs (Decidable (raw ∉ life.tokens))
  | .revoke _ _ _ | .revokeAll _ _ | .accounts _ => isTrue trivial

instance (db : Db) (now : Time) (row : Session) : Decidable (Admits db now row) := inferInstanceAs (Decidable (_ ∧ _))

instance (host : Host) (created : Session) (life : SessionLife) (step : SessionStep) : Decidable (Slides host created life step) :=
  match step with
  | .use _ token _ _ => inferInstanceAs (Decidable (life.tokens.head? = some token → ∀ row ∈ life.db.sessions.byId created.id, _))
  | .create _ _ _ _ _ | .revoke _ _ _ | .revokeAll _ _ | .accounts _ => isTrue trivial

def octocat : User := { id := 1, username := "octocat" }

def octocats : Db where
  users := ⟨[octocat], 2, by decide, by decide⟩

def openHost : Host where
  lower := id
  hashToken := id

def firstSession : Session where
  id := 1
  userId := 1
  tokenHash := "first"
  createdAt := 0
  lastUsedAt := 0
  expiresAt := absoluteTtl openHost
  idleExpiresAt := idleTtl openHost

def opened : Db := ((createSession openHost 0 octocats octocat "first" "web" none).map Prod.fst).toOption.getD octocats

theorem opening : createSession openHost 0 octocats octocat "first" "web" none = .ok (opened, firstSession) := rfl

def rotating : List SessionStep :=
  [.use (seconds 10) "first" true "second", .use (seconds 4000) "first" true "second", .use (seconds 4001) "first" true "third",
    .use (seconds 4001) "second" true "third", .revoke (seconds 5000) 1 octocat, .use (seconds 5001) "second" true "third"]

theorem session_lifetime_rotating :
    Runs.EachStep (live openHost firstSession) (Lawful openHost firstSession) ⟨opened, ["first"], false⟩ rotating :=
  session_lifetime openHost Function.injective_id opening rotating (by decide +kernel) (by decide +kernel)

/-- A call without rotation moves the last use, and the idle time runs from the one before. -/
theorem bearer_call_leaves_idle_time :
    ¬ Runs.EachStep (live openHost firstSession) (Lawful openHost firstSession) ⟨opened, ["first"], false⟩
      [.use (seconds 3600) "first" false "second"] := by
  rintro ⟨⟨_, lawful⟩, _⟩
  obtain ⟨_, _, _, row, stored, idle, _⟩ := lawful (by decide) (by decide +kernel)
  have times : ((live openHost firstSession ⟨opened, ["first"], false⟩ (.use (seconds 3600) "first" false "second")).db.sessions.byId 1).any
      (fun row => row.idleExpiresAt = row.lastUsedAt + idleTtl openHost) = false := by decide +kernel
  rw [show firstSession.id = 1 from rfl] at stored
  rw [stored, Option.any_some, idle] at times
  simp at times

end Samples

end Registry.Identity
