import OpenAgentHub.Lib.Runs
import OpenAgentHub.Registry.Identity.WebSessions

namespace Registry.Identity

open Relational Packages

def OtherSigning : Type := { signing : Signing // ∀ redirectUri made, signing ≠ .state redirectUri made }

structure SignInDesk where
  db : Db
  signed : List Signing := []

inductive SignInStep where
  | start (redirectUri : String)
  | callback (code state raw : String)
  | event (event : OtherEvent)
  | sign (signing : OtherSigning)

def signIn (host : WebHost) (desk : SignInDesk) (step : Time × SignInStep) : SignInDesk :=
  match step.2 with
  | .start redirectUri =>
    match githubStart host step.1 redirectUri with
    | .ok _ => { desk with signed := desk.signed ++ [.state redirectUri step.1] }
    | .error _ => desk
  | .callback code state raw =>
    match githubCallbackRoute host step.1 desk.db code state raw with
    | .ok (db, _) => { desk with db }
    | .error _ => desk
  | .event event => { desk with db := serveEvent host.toIdentityHost desk.db (step.1, event.val) }
  | .sign signing => { desk with signed := desk.signed ++ [signing.val] }

/-- What is signed can be read back, and nobody else makes an HMAC with the secret of the registry. -/
def Trusted (host : WebHost) (desk : SignInDesk) (step : Time × SignInStep) : Prop :=
  match step.2 with
  | .start redirectUri => (Signing.state redirectUri step.1).Readable host
  | .callback _ state _ => StateUnforged host desk.signed state
  | .event _ => True
  | .sign signing => signing.val.Readable host

def signedIn (host : WebHost) (start : Db) (steps : List (Time × SignInStep)) : SignInDesk :=
  steps.foldl (signIn host) { db := start }

/-- The session was opened by a callback, for the user of the GitHub account that the code stands for, and less than
    ten minutes after the registry had been asked for a redirection that it allows. -/
def Requested (host : WebHost) (start : Db) (past : List (Time × SignInStep)) (row : Session) : Prop :=
  ∃ before after code state raw, past = before ++ (row.createdAt, .callback code state raw) :: after ∧
    (∃ made redirectUri, (made, .start redirectUri) ∈ before ∧ isAllowedRedirect host redirectUri = true ∧
      epoch row.createdAt ≤ epoch made + stateTtlSeconds) ∧
    ∃ profile user, exchangeGithubCode host code = .ok profile ∧ user.id = row.userId ∧
      user.githubId = some profile.githubId ∧
      user ∈ (signedIn host start (before ++ [(row.createdAt, .callback code state raw)])).db.users.rows

structure Tracked (host : WebHost) (start : Db) (past : List (Time × SignInStep)) (desk : SignInDesk) : Prop where
  reached : desk = signedIn host start past
  readable : ∀ signing ∈ desk.signed, signing.Readable host
  started : ∀ redirectUri made, .state redirectUri made ∈ desk.signed →
    isAllowedRedirect host redirectUri = true ∧ (made, .start redirectUri) ∈ past
  sessions : ∀ row ∈ desk.db.sessions.rows, row.audience = "web" →
    (∃ old ∈ start.sessions.rows, origin old = origin row) ∨ Requested host start past row

section Tracking

variable {host : WebHost} {start : Db} {past : List (Time × SignInStep)} {desk : SignInDesk} {now : Time} {row : Session}
  {step : Time × SignInStep}

theorem Requested.later (requested : Requested host start past row) : Requested host start (past ++ [step]) row := by
  obtain ⟨before, after, code, state, raw, rfl, rest⟩ := requested
  exact ⟨before, after ++ [step], code, state, raw, by simp, rest⟩

theorem Requested.congr {other : Session} (requested : Requested host start past row) (same : origin row = origin other) :
    Requested host start past other := by
  have times : row.createdAt = other.createdAt := congrArg (fun opened => opened.2.2.2) same
  have users : row.userId = other.userId := congrArg (fun opened => opened.2.1) same
  unfold Requested at requested ⊢
  rwa [times, users] at requested

namespace Tracked

theorem initial : Tracked host start [] { db := start } where
  reached := rfl
  readable := fun _ absent => by cases absent
  started := fun _ _ absent => by cases absent
  sessions := fun row stored _ => .inl ⟨row, stored, rfl⟩

theorem keeps (tracked : Tracked host start past desk) {db : Db} (kept : WebKept desk.db.sessions db.sessions) :
    ∀ row ∈ db.sessions.rows, row.audience = "web" →
      (∃ old ∈ start.sessions.rows, origin old = origin row) ∨ Requested host start (past ++ [step]) row := by
  intro row stored web
  obtain ⟨old, isOld, same⟩ := kept row stored web
  have oldWeb : old.audience = "web" := (congrArg (fun opened => opened.2.2.1) same).trans web
  rcases tracked.sessions old isOld oldWeb with ⟨first, isFirst, sameFirst⟩ | requested
  · exact .inl ⟨first, isFirst, sameFirst.trans same⟩
  · exact .inr (requested.congr same).later

theorem reaches (tracked : Tracked host start past desk) : signIn host desk step = signedIn host start (past ++ [step]) := by
  rw [tracked.reached]
  unfold signedIn
  rw [List.foldl_append]
  rfl

theorem silent (tracked : Tracked host start past desk) (signed : (signIn host desk step).signed = desk.signed)
    (kept : WebKept desk.db.sessions (signIn host desk step).db.sessions) :
    Tracked host start (past ++ [step]) (signIn host desk step) where
  reached := tracked.reaches
  readable := by
    rw [signed]
    exact tracked.readable
  started := by
    rw [signed]
    intro redirectUri made isSigned
    obtain ⟨allowed, began⟩ := tracked.started redirectUri made isSigned
    exact ⟨allowed, List.mem_append_left _ began⟩
  sessions := tracked.keeps kept

theorem signs (tracked : Tracked host start past desk) {signing : Signing}
    (signed : signIn host desk step = { desk with signed := desk.signed ++ [signing] }) (readable : signing.Readable host)
    (started : ∀ redirectUri made, signing = .state redirectUri made →
      isAllowedRedirect host redirectUri = true ∧ (made, .start redirectUri) = step) :
    Tracked host start (past ++ [step]) (signIn host desk step) where
  reached := tracked.reaches
  readable := by
    rw [signed]
    intro other isSigned
    rcases List.mem_append.mp isSigned with earlier | new
    · exact tracked.readable other earlier
    · rw [List.mem_singleton.mp new]
      exact readable
  started := by
    rw [signed]
    intro redirectUri made isSigned
    rcases List.mem_append.mp isSigned with earlier | new
    · obtain ⟨allowed, began⟩ := tracked.started redirectUri made earlier
      exact ⟨allowed, List.mem_append_left _ began⟩
    · obtain ⟨allowed, began⟩ := started redirectUri made (List.mem_singleton.mp new).symm
      exact ⟨allowed, List.mem_append_right _ (List.mem_singleton.mpr began)⟩
  sessions := by
    rw [signed]
    exact tracked.keeps (.refl _)

theorem githubCallbackRoute_ok {db after : Db} {code state raw : String} {redirect : WebRedirect}
    (done : githubCallbackRoute host now db code state raw = .ok (after, redirect)) :
    ∃ fields redirectUri profile signedUp user created, verifyStateToken host now state = some fields ∧
      redirectOf host fields = some redirectUri ∧ exchangeGithubCode host code = .ok profile ∧
      loginWithGithub now db profile = .ok (signedUp, user) ∧
      createSession host.toHost now signedUp user raw "web" none = .ok (after, created) := by
  unfold githubCallbackRoute githubCallback at done
  simp only [Outcome.bind_eq_ok, Outcome.demand_eq_ok, Outcome.pure_eq_ok, Prod.mk.injEq, Prod.exists, Outcome.map_fst_ok] at done
  obtain ⟨fields, verified, redirectUri, redirects, profile, exchanged, _, ⟨signedUp, user, signsUp, created, opened⟩, rfl, _⟩ := done
  exact ⟨fields, redirectUri, profile, signedUp, user, created, verified, redirects, exchanged, signsUp, opened⟩

theorem steps (tracked : Tracked host start past desk) (trusted : Trusted host desk step) :
    Tracked host start (past ++ [step]) (signIn host desk step) := by
  obtain ⟨now, act⟩ := step
  cases act with
  | start redirectUri =>
    cases started : githubStart host now redirectUri with
    | error raised =>
      have same : signIn host desk (now, .start redirectUri) = desk := by simp only [signIn, started]
      exact tracked.silent (by rw [same]) (by rw [same]; exact .refl _)
    | ok result =>
      have allowed : isAllowedRedirect host redirectUri = true := by
        unfold githubStart at started
        obtain ⟨_, allowed, _⟩ := Outcome.bind_eq_ok.mp started
        exact Outcome.ensure_eq_ok.mp allowed
      have readable : (Signing.state redirectUri now).Readable host := trusted
      refine tracked.signs (by simp only [signIn, started]) readable ?_
      intro uri made same
      cases same
      exact ⟨allowed, rfl⟩
  | callback code state raw =>
    cases answered : githubCallbackRoute host now desk.db code state raw with
    | error raised =>
      have same : signIn host desk (now, .callback code state raw) = desk := by simp only [signIn, answered]
      exact tracked.silent (by rw [same]) (by rw [same]; exact .refl _)
    | ok result =>
      obtain ⟨db, redirect⟩ := result
      have next : signIn host desk (now, .callback code state raw) = { desk with db } := by simp only [signIn, answered]
      refine ⟨tracked.reaches, ?_, ?_, ?_⟩
      · rw [next]
        exact tracked.readable
      · rw [next]
        intro uri made isSigned
        obtain ⟨allowed, began⟩ := tracked.started uri made isSigned
        exact ⟨allowed, List.mem_append_left _ began⟩
      · obtain ⟨fields, redirectUri, profile, signedUp, user, created, verified, redirects, exchanged, signsUp, opened⟩ :=
          githubCallbackRoute_ok answered
        obtain ⟨_, rfl, isUser, github, _⟩ := loginWithGithub_ok signsUp
        obtain ⟨rows, sameUsers, ownedBy, _, createdAt⟩ := createSession_origin opened
        -- the state is one of those that were signed, and those were signed for redirections that were allowed
        obtain ⟨made, isSigned, ahead⟩ := state_accepted tracked.readable trusted verified redirects
        obtain ⟨allowed, began⟩ := tracked.started redirectUri made isSigned
        rw [next]
        intro row stored web
        dsimp only at stored
        rw [rows, List.mem_append, List.mem_singleton] at stored
        rcases stored with earlier | rfl
        · exact tracked.keeps (.refl _) row earlier web
        · refine .inr ⟨past, [], code, state, raw, by rw [createdAt], ⟨made, redirectUri, began, allowed, by rwa [createdAt]⟩,
            profile, user, exchanged, ownedBy.symm, github, ?_⟩
          rw [createdAt, ← tracked.reaches, next]
          dsimp only
          rw [sameUsers]
          exact isUser
  | event event =>
    refine tracked.silent rfl ?_
    show WebKept desk.db.sessions (serveEvent host.toIdentityHost desk.db (now, event.val)).sessions
    unfold serveEvent
    split
    · next after done => exact handleEvent_webKept event.property done
    · exact .refl _
  | sign signing =>
    refine tracked.signs rfl trusted ?_
    intro redirectUri made same
    exact absurd same (signing.property redirectUri made)

theorem run (tracked : Tracked host start past desk) {steps : List (Time × SignInStep)}
    (trusted : Runs.AllMeet (signIn host) (Trusted host) desk steps) :
    Tracked host start (past ++ steps) (steps.foldl (signIn host) desk) := by
  induction steps generalizing past desk with
  | nil =>
    rw [List.append_nil]
    exact tracked
  | cons step rest ih =>
    rw [List.append_cons]
    exact ih (tracked.steps trusted.1) trusted.2

end Tracked

end Tracking

/-- In every run of the sign-in, with whatever else the registry does and signs in between, each web session was there at
    the start or was requested. -/
theorem web_sessions_are_requested (host : WebHost) (start : Db) (steps : List (Time × SignInStep))
    (trusted : Runs.AllMeet (signIn host) (Trusted host) { db := start } steps) :
    ∀ row ∈ (signedIn host start steps).db.sessions.rows, row.audience = "web" →
      (∃ old ∈ start.sessions.rows, origin old = origin row) ∨ Requested host start steps row :=
  (Tracked.initial.run trusted).sessions

section Samples

def webCallback : String := "http://localhost:3100/auth/callback"

def webNonce : String := "HSRQWE-mvxE6a4XJ"

def webPayload : String :=
  "\x7b\"r\":\"http://localhost:3100/auth/callback\",\"n\":\"HSRQWE-mvxE6a4XJ\",\"e\":1700000600\x7d"

def webDesk : WebHost where
  toIdentityHost := { deskHost with
    hmac := fun message => if message = Utf8.encode webPayload.toList then [250, 35, 0, 249, 210, 183, 141, 0, 139, 100, 98, 72, 2,
      28, 181, 158, 58, 156, 136, 56, 22, 20, 115, 94, 226, 128, 84, 7, 86, 117, 47, 147] else []
    dumps := fun _ => webPayload
    loads := fun text => if text = webPayload then .ok (.dict (stateFields webCallback webNonce 1700000600)) else .error .malformed }
  web := { githubClientId := "Iv1.8a61f9b3a7aba766", githubClientSecret := "5d1f" }
  loadsBytes := fun bytes => if bytes = Utf8.encode webPayload.toList then .ok (.dict (stateFields webCallback webNonce 1700000600))
    else .error .malformed
  intOfText := String.toInt?
  sha256 := fun seed => if seed = Utf8.encode "change-me:1700000000.0:http://localhost:3100/auth/callback".toList then
    [29, 36, 80, 88, 79, 166, 191, 17, 58, 107, 133, 201, 154, 181, 113, 122, 164, 53, 154, 132, 86, 182, 89, 215, 233, 111, 219, 75,
      17, 109, 162, 139] else []
  timeText := fun now => if now = seconds 1700000000 then "1700000000.0" else ""
  urlencode := fun _ => "client_id=Iv1.8a61f9b3a7aba766&redirect_uri=http%3A%2F%2Flocalhost%3A3100%2Fauth%2Fcallback&" ++
    "scope=read%3Auser&state=eyJyIjoiaHR0cDovL2xvY2FsaG9zdDozMTAwL2F1dGgvY2FsbGJhY2siLCJuIjoiSFNSUVdFLW12eEU2YTRYSiIsImUiOjE3MDAw" ++
    "MDA2MDB9.-iMA-dK3jQCLZGJIAhy1njqciDgWFHNe4oBUB1Z1L5M&allow_signup=true"
  github := fun _ => { accessToken := some "gho_16C7", userStatus := 200, login := some "octocat", id := "583231", avatarUrl := none }

def webState : String :=
  "eyJyIjoiaHR0cDovL2xvY2FsaG9zdDozMTAwL2F1dGgvY2FsbGJhY2siLCJuIjoiSFNSUVdFLW12eEU2YTRYSiIsImUiOjE3MDAwMDA2MDB9." ++
    "-iMA-dK3jQCLZGJIAhy1njqciDgWFHNe4oBUB1Z1L5M"

def visiting : List (Time × SignInStep) :=
  [(seconds 1700000000, .start webCallback), (seconds 1700000005, .callback "9b1f" webState keeperToken.raw)]

theorem statePayload_webDesk :
    statePayload webDesk (seconds 1700000000) webCallback = .dict (stateFields webCallback webNonce 1700000600) := by
  have nonce : stateNonce webDesk (seconds 1700000000) webCallback = webNonce := by decide +kernel
  have expires : epoch (seconds 1700000000) + stateTtlSeconds = 1700000600 := by decide +kernel
  unfold statePayload
  rw [nonce, expires]

theorem webDesk_started : githubStart webDesk (seconds 1700000000) webCallback =
    .ok (makeStateToken webDesk (seconds 1700000000) webCallback,
      authorizeUrl webDesk (makeStateToken webDesk (seconds 1700000000) webCallback) webCallback) := by
  have allowed : isAllowedRedirect webDesk webCallback = true := by decide +kernel
  unfold githubStart
  rw [Outcome.ensure_true allowed]
  rfl

theorem web_sessions_are_requested_visiting :
    (signedIn webDesk {} visiting).db.sessions.rows.map (·.audience) = ["web"] ∧
      ∀ row ∈ (signedIn webDesk {} visiting).db.sessions.rows, row.audience = "web" →
        (∃ old ∈ ({} : Db).sessions.rows, origin old = origin row) ∨ Requested webDesk {} visiting row := by
  refine ⟨by decide +kernel, web_sessions_are_requested webDesk {} visiting ⟨⟨?_, ?_⟩, ?_, trivial⟩⟩
  · show webDesk.loads webPayload = .ok (statePayload webDesk (seconds 1700000000) webCallback)
    rw [statePayload_webDesk]
    simp only [webDesk, if_true]
  · show webDesk.loadsBytes (Utf8.encode webPayload.toList) = .ok (statePayload webDesk (seconds 1700000000) webCallback)
    rw [statePayload_webDesk]
    simp only [webDesk, if_true]
  · have signed : signedState webDesk webState = some (Utf8.encode webPayload.toList) := by decide +kernel
    have began : signIn webDesk { db := {} } (seconds 1700000000, .start webCallback) =
        { db := {}, signed := [.state webCallback (seconds 1700000000)] } := by
      simp only [signIn, webDesk_started, List.nil_append]
    intro payload carries
    rw [signed] at carries
    cases carries
    rw [began]
    exact ⟨_, List.mem_singleton.mpr rfl, rfl⟩

end Samples

end Registry.Identity
