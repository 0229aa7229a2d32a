import OpenAgentHub.Registry.Identity.Effects

namespace Registry.Identity

open Relational

section Policy

variable (settings : Settings) (zero : Int) (now : Time) (db : Db) (user : User) (request : TokenRequest)

def allowedScopes : List String := (Text.split ',' settings.tokenAllowedScopes).map Text.strip

/-- The days that a request asks for, `zero` where it asks for 0. -/
def askedDays : Option Int → Int
  | none => settings.tokenDefaultTtlDays
  | some asked => if asked = 0 then zero else asked

def Labelled : Prop := 1 ≤ (Text.strip request.label).length ∧ (Text.strip request.label).length ≤ 64

def Joined : Prop :=
  ∀ organizationId ∈ request.organizationId, ∃ member ∈ db.organizationMembers.rows,
    member.organizationId = organizationId ∧ member.userId = user.id

structure Acceptable : Prop where
  labelled : Labelled request
  known : ∀ scope ∈ request.scopes, scope ∈ tokenScopes
  allowed : settings.tokenAllowedScopes ≠ "" → ∀ scope ∈ request.scopes, scope ∈ allowedScopes settings
  joined : Joined db user request
  lifetime : 0 < askedDays settings zero request.expiresInDays ∧
    askedDays settings zero request.expiresInDays ≤ settings.tokenMaxLifetimeDays

def Expires (row : ApiToken) : Prop :=
  ∃ expiry, row.expiresAt = some expiry ∧ now < expiry ∧ expiry ≤ now + days settings.tokenMaxLifetimeDays

def LifetimeMishandled : Prop :=
  let requested := requestedDays settings request.expiresInDays
  (request.expiresInDays = some 0 ∧ ¬ (0 < zero ∧ zero ≤ settings.tokenMaxLifetimeDays)) ∨
    requested < 0 ∨ 999999999 < requested ∨ 999999999 < settings.tokenMaxLifetimeDays ∨
      (requested ≤ settings.tokenMaxLifetimeDays ∧ ¬ InCalendar now requested)

def CreationMishandled : Prop :=
  Labelled request ∧ (∀ scope ∈ request.scopes, scope ∈ tokenScopes) ∧
    (settings.tokenAllowedScopes ≠ "" ∨ (Joined db user request ∧ LifetimeMishandled settings zero now request))

end Policy

section Lawful

variable (host : Host) (now : Time) (db : Db) (user : User) (raw : String)

/-- The creation follows the policy: a token that expires, or a `TokenError`. -/
def CreateLawful (zero : Int) (request : TokenRequest) : Prop :=
  match createApiToken host now db user raw request with
  | .ok (_, row) => Acceptable host.settings zero db user request ∧ Expires host.settings now row
  | .error raised => ¬ Acceptable host.settings zero db user request ∧ raised.cls = .tokenError

def RotateLawful (tokenId : Nat) (expiresInDays : Option Int) : Prop :=
  ∀ after row, rotateApiToken host now db user tokenId raw expiresInDays = .ok (after, row) →
    Expires host.settings now row

def RotationMishandled (tokenId : Nat) (expiresInDays : Option Int) : Prop :=
  let requested := requestedDays host.settings expiresInDays
  (∃ existing, db.apiTokens.byId tokenId = some existing ∧ existing.userId = user.id) ∧
    requested < 0 ∧ -999999999 ≤ requested ∧ host.settings.tokenMaxLifetimeDays ≤ 999999999 ∧ InCalendar now requested

end Lawful

section Lifetimes

variable {settings : Settings} {now : Time} {request : TokenRequest} {expiresInDays : Option Int} {count : Int}

theorem timedelta_of_le (small : count.natAbs ≤ 999999999) : timedelta count = .ok () := Outcome.ensure_true small

theorem requestedDays_ne_zero (positive : 0 < settings.tokenDefaultTtlDays) :
    requestedDays settings expiresInDays ≠ 0 := by
  cases expiresInDays with
  | none =>
    change (settings.tokenDefaultTtlDays : Int) ≠ 0
    omega
  | some asked =>
    unfold requestedDays
    dsimp only
    split <;> omega

theorem askedDays_of_ne {zero : Int} (asks : expiresInDays ≠ some 0) :
    askedDays settings zero expiresInDays = requestedDays settings expiresInDays := by
  cases expiresInDays with
  | none => rfl
  | some asked =>
    have given : asked ≠ 0 := fun same => asks (by rw [same])
    simp [askedDays, requestedDays, given]

theorem askedDays_zero {zero : Int} : askedDays settings zero (some 0) = zero := rfl

theorem requestedDays_zero : requestedDays settings (some 0) = settings.tokenDefaultTtlDays := rfl

theorem expires_of_days {row : ApiToken} (positive : 0 < count) (within : count ≤ settings.tokenMaxLifetimeDays)
    (expiry : row.expiresAt = some (now + days count.toNat)) : Expires settings now row := by
  refine ⟨_, expiry, ?_, ?_⟩
  · apply Nat.lt_add_of_pos_right
    unfold days hours seconds
    omega
  · apply Nat.add_le_add_left
    unfold days hours seconds
    omega

end Lifetimes

section Creation

variable {host : Host} {now : Time} {db : Db} {user : User} {raw : String} {zero : Int} {request : TokenRequest}

theorem labelled_iff : Labelled request ↔ Text.strip request.label ≠ "" ∧ (Text.strip request.label).length ≤ 64 := by
  unfold Labelled
  rw [Nat.one_le_iff_ne_zero, Ne, String.length_eq_zero_iff]

theorem known_iff : (∀ scope ∈ request.scopes, scope ∈ tokenScopes) ↔
    request.scopes.filter (fun scope => !tokenScopes.contains scope) = [] := by
  rw [List.filter_eq_nil_iff]
  simp

theorem joined_iff : Joined db user request ↔ ∀ organizationId ∈ request.organizationId,
    (db.organizationMembers.one fun member =>
      member.organizationId == organizationId && member.userId == user.id) ≠ none := by
  unfold Joined
  apply forall₂_congr
  intro organizationId _
  rw [Ne, Table.one_none]
  simp

theorem insertRow_of_free {α : Type} [Row α] {table : Table α} {make : Nat → α} {made : ∀ id, Row.id (make id) = id}
    {raised : Raised} (free : ∀ row ∈ table.rows, Row.clash row (make table.next) = false) :
    Db.insertRow table make made ≠ .error raised := by
  obtain ⟨after, inserted⟩ := Table.insert_of_free make made free
  rw [Db.insertRow_eq_ok.mpr inserted]
  nofun

structure Measured (settings : Settings) (now : Time) (requested : Int) : Prop where
  small : requested.natAbs ≤ 999999999
  maximum : (settings.tokenMaxLifetimeDays : Int).natAbs ≤ 999999999
  within : requested ≤ settings.tokenMaxLifetimeDays
  calendar : 0 < requested → InCalendar now requested

theorem createApiToken_checks {outcome : Db × ApiToken}
    (done : createApiToken host now db user raw request = .ok outcome) :
    Labelled request ∧ (∀ scope ∈ request.scopes, scope ∈ tokenScopes) ∧ host.settings.tokenAllowedScopes = "" ∧
      Joined db user request ∧ Measured host.settings now (requestedDays host.settings request.expiresInDays) := by
  simp only [createApiToken, validateScopes, timedelta, Outcome.bind_eq_ok, Outcome.ensure_eq_ok] at done
  obtain ⟨_, label, _, ⟨_, known, _⟩, _, listed, _, joined, _, small, _, maximum, _, within, _, calendar, _⟩ := done
  exact ⟨labelled_iff.mpr label, known_iff.mpr known, listed, joined_iff.mpr joined, small, maximum, within, calendar⟩

/-- Why a creation is refused, and as what. -/
theorem createApiToken_refused {raised : Raised} (fresh : apiTokenByHash db (host.hashToken raw) = none)
    (failed : createApiToken host now db user raw request = .error raised) :
    let requested := requestedDays host.settings request.expiresInDays
    (raised.cls = .tokenError ∧ (¬ Labelled request ∨ (¬ ∀ scope ∈ request.scopes, scope ∈ tokenScopes) ∨
        (host.settings.tokenAllowedScopes = "" ∧ (¬ Joined db user request ∨
          (requested.natAbs ≤ 999999999 ∧ host.settings.tokenMaxLifetimeDays ≤ 999999999 ∧
            host.settings.tokenMaxLifetimeDays < requested))))) ∨
      (raised.cls ≠ .tokenError ∧ Labelled request ∧ (∀ scope ∈ request.scopes, scope ∈ tokenScopes) ∧
        (host.settings.tokenAllowedScopes ≠ "" ∨ (Joined db user request ∧
          (999999999 < requested.natAbs ∨ 999999999 < host.settings.tokenMaxLifetimeDays ∨
            (0 < requested ∧ requested ≤ host.settings.tokenMaxLifetimeDays ∧ ¬ InCalendar now requested))))) := by
  rw [labelled_iff, known_iff, joined_iff]
  simp only [createApiToken, validateScopes, timedelta, Outcome.bind_eq_error, Outcome.ensure_eq_error,
    Outcome.bind_eq_ok, Outcome.ensure_eq_ok, Outcome.pure_eq_ok] at failed
  dsimp only
  rcases failed with ⟨bad, rfl⟩ | ⟨_, labelled, failed⟩
  · exact .inl ⟨rfl, .inl bad⟩
  rcases failed with (⟨bad, rfl⟩ | ⟨_, _, nothing⟩) | ⟨granted, ⟨_, known, rfl⟩, failed⟩
  · exact .inl ⟨rfl, .inr (.inl bad)⟩
  · cases nothing
  rcases failed with ⟨listed, rfl⟩ | ⟨_, unlisted, failed⟩
  · exact .inr ⟨by simp, labelled, known, .inl listed⟩
  rcases failed with ⟨bad, rfl⟩ | ⟨_, joined, failed⟩
  · exact .inl ⟨rfl, .inr (.inr ⟨unlisted, .inl bad⟩)⟩
  rcases failed with ⟨large, rfl⟩ | ⟨_, small, failed⟩
  · exact .inr ⟨by simp, labelled, known, .inr ⟨joined, .inl (by omega)⟩⟩
  rcases failed with ⟨large, rfl⟩ | ⟨_, maximum, failed⟩
  · exact .inr ⟨by simp, labelled, known, .inr ⟨joined, .inr (.inl (by omega))⟩⟩
  rcases failed with ⟨beyond, rfl⟩ | ⟨_, within, failed⟩
  · exact .inl ⟨rfl, .inr (.inr ⟨unlisted, .inr ⟨small, by omega, by omega⟩⟩)⟩
  rcases failed with ⟨outside, rfl⟩ | ⟨_, _, failed⟩
  · rw [Classical.not_imp] at outside
    exact .inr ⟨by decide, labelled, known, .inr ⟨joined, .inr (.inr ⟨outside.1, within, outside.2⟩)⟩⟩
  · rcases failed with clash | ⟨_, _, nothing⟩
    · exact absurd clash (insertRow_of_free (Table.one_none.mp fresh))
    · cases nothing

theorem beyond_asks (within : host.settings.tokenDefaultTtlDays ≤ host.settings.tokenMaxLifetimeDays)
    (beyond : host.settings.tokenMaxLifetimeDays < requestedDays host.settings request.expiresInDays) :
    request.expiresInDays ≠ some 0 := by
  intro asks
  rw [asks, requestedDays_zero] at beyond
  omega

theorem refused_lawful {raised : Raised} (within : host.settings.tokenDefaultTtlDays ≤ host.settings.tokenMaxLifetimeDays)
    (cls : raised.cls = .tokenError)
    (reason : ¬ Labelled request ∨ (¬ ∀ scope ∈ request.scopes, scope ∈ tokenScopes) ∨
      (host.settings.tokenAllowedScopes = "" ∧ (¬ Joined db user request ∨
        ((requestedDays host.settings request.expiresInDays).natAbs ≤ 999999999 ∧
          host.settings.tokenMaxLifetimeDays ≤ 999999999 ∧
            host.settings.tokenMaxLifetimeDays < requestedDays host.settings request.expiresInDays)))) :
    (¬ Acceptable host.settings zero db user request ∧ raised.cls = .tokenError) ∧
      ¬ CreationMishandled host.settings zero now db user request := by
  rcases reason with unlabelled | unknown | ⟨unlisted, absent | ⟨small, maximum, beyond⟩⟩
  · exact ⟨⟨fun acceptable => unlabelled acceptable.labelled, cls⟩, fun mishandled => unlabelled mishandled.1⟩
  · exact ⟨⟨fun acceptable => unknown acceptable.known, cls⟩, fun mishandled => unknown mishandled.2.1⟩
  · refine ⟨⟨fun acceptable => absent acceptable.joined, cls⟩, ?_⟩
    rintro ⟨_, _, listed | ⟨joined, _⟩⟩
    · exact listed unlisted
    · exact absent joined
  · have asks := beyond_asks within beyond
    refine ⟨⟨?_, cls⟩, ?_⟩
    · intro acceptable
      have fits := acceptable.lifetime.2
      rw [askedDays_of_ne asks] at fits
      omega
    · rintro ⟨_, _, listed | ⟨_, zeroed | negative | large | beyond | ⟨fits, _⟩⟩⟩
      · exact listed unlisted
      · exact asks zeroed.1
      all_goals omega

theorem created_lawful {row : ApiToken} (positive : 0 < host.settings.tokenDefaultTtlDays) (labelled : Labelled request)
    (known : ∀ scope ∈ request.scopes, scope ∈ tokenScopes) (unlisted : host.settings.tokenAllowedScopes = "")
    (joined : Joined db user request)
    (measured : Measured host.settings now (requestedDays host.settings request.expiresInDays))
    (expiry : row.expiresAt = if requestedDays host.settings request.expiresInDays ≤ 0 then none
      else some (now + days (requestedDays host.settings request.expiresInDays).toNat)) :
    (Acceptable host.settings zero db user request ∧ Expires host.settings now row) ↔
      ¬ CreationMishandled host.settings zero now db user request := by
  have nonzero := @requestedDays_ne_zero _ request.expiresInDays positive
  obtain ⟨small, maximum, within, calendar⟩ := measured
  constructor
  · rintro ⟨acceptable, moment, expires, _⟩ ⟨_, _, listed | ⟨_, mishandled⟩⟩
    · exact listed unlisted
    have lives : 0 < requestedDays host.settings request.expiresInDays := by
      by_contra dead
      rw [expiry, if_pos (by omega)] at expires
      cases expires
    rcases mishandled with ⟨asks, unfit⟩ | negative | large | beyond | ⟨_, outside⟩
    · have fits := acceptable.lifetime
      rw [asks, askedDays_zero] at fits
      exact unfit fits
    · omega
    · omega
    · omega
    · exact outside (calendar lives)
  · intro lawful
    have handled : ¬ LifetimeMishandled host.settings zero now request :=
      fun mishandled => lawful ⟨labelled, known, .inr ⟨joined, mishandled⟩⟩
    have lives : 0 < requestedDays host.settings request.expiresInDays := by
      by_contra dead
      exact handled (.inr (.inl (by omega)))
    refine ⟨⟨labelled, known, fun listed => absurd unlisted listed, joined, ?_⟩, ?_⟩
    · by_cases asks : request.expiresInDays = some 0
      · rw [asks, askedDays_zero]
        by_contra unfit
        exact handled (.inl ⟨asks, unfit⟩)
      · rw [askedDays_of_ne asks]
        exact ⟨lives, within⟩
    · apply expires_of_days lives within
      rw [expiry, if_neg (by omega)]

theorem createLawful_iff (positive : 0 < host.settings.tokenDefaultTtlDays)
    (within : host.settings.tokenDefaultTtlDays ≤ host.settings.tokenMaxLifetimeDays)
    (fresh : apiTokenByHash db (host.hashToken raw) = none) :
    CreateLawful host now db user raw zero request ↔ ¬ CreationMishandled host.settings zero now db user request := by
  unfold CreateLawful
  cases outcome : createApiToken host now db user raw request with
  | error raised =>
    rcases createApiToken_refused fresh outcome with ⟨cls, reason⟩ | ⟨cls, labelled, known, reason⟩
    · have lawful := @refused_lawful _ now _ _ zero _ _ within cls reason
      exact iff_of_true lawful.1 lawful.2
    · apply iff_of_false
      · exact fun lawful => cls lawful.2
      · rw [not_not]
        rcases reason with listed | ⟨joined, lifetime⟩
        · exact ⟨labelled, known, .inl listed⟩
        · refine ⟨labelled, known, .inr ⟨joined, .inr ?_⟩⟩
          rcases lifetime with large | beyond | ⟨_, fits, outside⟩
          · omega
          · exact .inr (.inr (.inl beyond))
          · exact .inr (.inr (.inr ⟨fits, outside⟩))
  | ok created =>
    obtain ⟨after, row⟩ := created
    obtain ⟨labelled, known, unlisted, joined, measured⟩ := createApiToken_checks outcome
    obtain ⟨_, rowIs, _⟩ := createApiToken_ok outcome
    exact created_lawful positive labelled known unlisted joined measured (by rw [rowIs]; rfl)

end Creation

section Rotation

variable {host : Host} {now : Time} {db : Db} {user : User} {raw : String} {tokenId : Nat} {expiresInDays : Option Int}

theorem daysFrom_of_pos {count : Int} (positive : 0 < count) : daysFrom now count = now + days count.toNat := by
  have moved : ∀ start : Nat, ((start : Int) + count * (days 1 : Nat)).toNat = start + days count.toNat := by
    intro start
    simp only [days, hours, seconds]
    omega
  exact moved now

theorem daysFrom_of_neg {count : Int} (negative : count < 0) : daysFrom now count ≤ now := by
  have moved : ∀ start : Nat, ((start : Int) + count * (days 1 : Nat)).toNat ≤ start := by
    intro start
    simp only [days, hours, seconds]
    omega
  exact moved now

theorem rotateApiToken_issues {existing : ApiToken} (fresh : apiTokenByHash db (host.hashToken raw) = none)
    (found : db.apiTokens.byId tokenId = some existing) (owned : existing.userId = user.id)
    (measured : Measured host.settings now (requestedDays host.settings expiresInDays))
    (calendar : InCalendar now (requestedDays host.settings expiresInDays)) :
    ∃ after row, rotateApiToken host now db user tokenId raw expiresInDays = .ok (after, row) ∧
      row.expiresAt = some (daysFrom now (requestedDays host.settings expiresInDays)) := by
  obtain ⟨apiTokens, inserted⟩ := Table.insert_of_free
    (rotated existing (host.hashToken raw) (String.ofList (raw.toList.take 12))
      (daysFrom now (requestedDays host.settings expiresInDays))) (fun _ => rfl) (Table.one_none.mp fresh)
  unfold rotateApiToken
  rw [ownToken_ok.mpr ⟨found, owned⟩, Outcome.ok_bind]
  dsimp only
  rw [timedelta_of_le measured.small, Outcome.ok_bind,
    timedelta_of_le measured.maximum, Outcome.ok_bind, Outcome.ensure_true measured.within, Outcome.ok_bind,
    Outcome.ensure_true calendar, Outcome.ok_bind]
  exact ⟨_, _, Outcome.bind_eq_ok.mpr ⟨_, Db.insertRow_eq_ok.mpr inserted, rfl⟩, rfl⟩

theorem rotateApiToken_checks {outcome : Db × ApiToken}
    (done : rotateApiToken host now db user tokenId raw expiresInDays = .ok outcome) :
    Measured host.settings now (requestedDays host.settings expiresInDays) ∧
      InCalendar now (requestedDays host.settings expiresInDays) := by
  simp only [rotateApiToken, timedelta, Outcome.bind_eq_ok, Outcome.ensure_eq_ok] at done
  obtain ⟨_, _, _, small, _, maximum, _, within, _, calendar, _⟩ := done
  exact ⟨⟨small, maximum, within, fun _ => calendar⟩, calendar⟩

theorem rotateLawful_iff (positive : 0 < host.settings.tokenDefaultTtlDays)
    (fresh : apiTokenByHash db (host.hashToken raw) = none) :
    RotateLawful host now db user raw tokenId expiresInDays ↔
      ¬ RotationMishandled host now db user tokenId expiresInDays := by
  have nonzero := @requestedDays_ne_zero _ expiresInDays positive
  constructor
  · rintro lawful ⟨⟨existing, found, owned⟩, negative, small, maximum, calendar⟩
    have measured : Measured host.settings now (requestedDays host.settings expiresInDays) :=
      ⟨by omega, by omega, by omega, fun _ => calendar⟩
    obtain ⟨after, row, issued, expires⟩ := rotateApiToken_issues fresh found owned measured calendar
    obtain ⟨expiry, known, later, _⟩ := lawful after row issued
    rw [expires, Option.some.injEq] at known
    have past := @daysFrom_of_neg now _ negative
    rw [known] at past
    exact absurd later (Nat.not_lt.mpr past)
  · intro handled after row done
    obtain ⟨measured, calendar⟩ := rotateApiToken_checks done
    obtain ⟨existing, _, _, found, owned, rowIs, _⟩ := rotateApiToken_ok done
    have lives : 0 < requestedDays host.settings expiresInDays := by
      by_contra dead
      obtain ⟨small, maximum, _, _⟩ := measured
      exact handled ⟨⟨existing, found, owned⟩, by omega, by omega, by omega, calendar⟩
    apply expires_of_days lives measured.within
    rw [rowIs, ← daysFrom_of_pos lives]
    rfl

end Rotation

/-- Both requests follow the policy exactly where none of their lifetimes is mishandled, however a
    request for 0 days is read. -/
theorem token_policy_iff {host : Host} (now : Time) (db : Db) (user : User) (raw : String) (zero : Int)
    (request : TokenRequest) (tokenId : Nat) (expiresInDays : Option Int) (positive : 0 < host.settings.tokenDefaultTtlDays)
    (within : host.settings.tokenDefaultTtlDays ≤ host.settings.tokenMaxLifetimeDays)
    (fresh : apiTokenByHash db (host.hashToken raw) = none) :
    (CreateLawful host now db user raw zero request ↔ ¬ CreationMishandled host.settings zero now db user request) ∧
      (RotateLawful host now db user raw tokenId expiresInDays ↔
        ¬ RotationMishandled host now db user tokenId expiresInDays) :=
  ⟨createLawful_iff positive within fresh, rotateLawful_iff positive fresh⟩

def yearlong : TokenRequest := { label := " ci ", scopes := ["packages:read"], expiresInDays := some 365 }

theorem token_policy_iff_yearlong :
    (CreateLawful Organizations.asciiHost 0 {} Organizations.founder "oah_ci" 0 yearlong ↔
        ¬ CreationMishandled Organizations.asciiHost.settings 0 0 {} Organizations.founder yearlong) ∧
      (RotateLawful Organizations.asciiHost 0 {} Organizations.founder "oah_ci" 1 (some 365) ↔
        ¬ RotationMishandled Organizations.asciiHost 0 {} Organizations.founder 1 (some 365)) :=
  token_policy_iff 0 {} Organizations.founder "oah_ci" 0 yearlong 1 (some 365) (by decide) (by decide) (by decide)

/-- A request for a negative number of days gets a token that never expires. -/
theorem everlasting_token_issued :
    ¬ CreateLawful Organizations.asciiHost 0 {} Organizations.founder "oah_ci" 90
      { label := "ci", scopes := ["packages:read"], expiresInDays := some (-1) } := by
  have issued : ((createApiToken Organizations.asciiHost 0 {} Organizations.founder "oah_ci"
      { label := "ci", scopes := ["packages:read"], expiresInDays := some (-1) }).toOption.map
        fun created => created.2.expiresAt) = some none := by decide +kernel
  obtain ⟨created, done, unlimited⟩ := Option.map_eq_some_iff.mp issued
  rw [Outcome.toOption_eq_some] at done
  unfold CreateLawful
  rw [done]
  rintro ⟨_, expiry, expires, _⟩
  rw [unlimited] at expires
  cases expires

end Registry.Identity
