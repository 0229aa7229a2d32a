import OpenAgentHub.Lib.Runs
import OpenAgentHub.Registry.Identity.SharedSecret
import OpenAgentHub.Registry.Packages.Requests

namespace Registry.Packages

open Relational Identity

def SignInSigning : Type := { signing : Signing // ∀ target expires, signing ≠ .download target expires }

structure UrlDesk where
  store : Store
  signed : List Signing := []

inductive UrlStep where
  | operate (request : Request)
  | sign (signing : SignInSigning)

def urlSigned (host : WebHost) (store : Store) (request : Request) : List Signing :=
  match request.call with
  | .manage (.issueDownloadUrl namespaceName name version) =>
    match issueDownloadUrl host.toPackageHost request.now store.db namespaceName name version (some request.actor) with
    | .ok (_, url) => [.download url.target url.expiresEpoch]
    | .error _ => []
  | _ => []

def UrlStep.signs (host : WebHost) (store : Store) : UrlStep → List Signing
  | .operate request => urlSigned host store request
  | .sign signing => [signing.val]

def grantUrls (host : WebHost) (desk : UrlDesk) (step : UrlStep) : UrlDesk where
  store :=
    match step with
    | .operate request => serve host.toPackageHost desk.store request
    | .sign _ => desk.store
  signed := desk.signed ++ step.signs host desk.store

def SignsReadably (host : WebHost) (desk : UrlDesk) (step : UrlStep) : Prop :=
  ∀ signing ∈ step.signs host desk.store, signing.Readable host

def urlDesk (host : WebHost) (store : Store) (steps : List UrlStep) : UrlDesk := steps.foldl (grantUrls host) { store }

/-- A caller who could see the package at that time has asked for a URL of the version, which was not blocked, and its time
    is not over. -/
def Granted (host : WebHost) (store : Store) (past : List UrlStep) (target : TokenTarget) (expires : Int) : Prop :=
  ∃ before request after version agent row, past = before ++ .operate request :: after ∧
    request.call = .manage (.issueDownloadUrl target.namespaceName target.name version) ∧
    viewableAgent (urlDesk host store before).store.db target.namespaceName target.name (some request.actor) = .ok agent ∧
    resolveVersion (urlDesk host store before).store.db agent version = some row ∧ ensureNotBlocked row = .ok () ∧
    target = tokenTarget target.namespaceName target.name row ∧
    expires = epoch request.now + max 1 (host.settings.downloadUrlTtlSeconds : Int)

section Granting

variable {host : WebHost} {store : Store} {past : List UrlStep} {desk : UrlDesk} {step : UrlStep} {target : TokenTarget} {expires : Int}

theorem issueDownloadUrl_granted {host : PackageHost} {now : Time} {db after : Db} {namespaceName name version : String} {actor : Subject}
    {url : DownloadUrl} (done : issueDownloadUrl host now db namespaceName name version (some actor) = .ok (after, url)) :
    ∃ agent row, viewableAgent db namespaceName name (some actor) = .ok agent ∧ resolveVersion db agent version = some row ∧
      ensureNotBlocked row = .ok () ∧ url.target = tokenTarget namespaceName name row ∧
      (url.expiresEpoch : Int) = epoch now + max 1 (host.settings.downloadUrlTtlSeconds : Int) := by
  simp only [issueDownloadUrl, Outcome.bind_eq_ok, Outcome.demand_eq_ok, Outcome.pure_eq_ok, Prod.mk.injEq] at done
  obtain ⟨_, _, agent, viewable, row, resolved, _, open_, _, rfl⟩ := done
  refine ⟨agent, row, viewable, resolved, open_, rfl, ?_⟩
  dsimp only [epoch]
  omega

theorem Granted.later (granted : Granted host store past target expires) : Granted host store (past ++ [step]) target expires := by
  obtain ⟨before, request, after, version, agent, row, rfl, rest⟩ := granted
  exact ⟨before, request, after ++ [step], version, agent, row, by simp, rest⟩

structure Accounted (host : WebHost) (store : Store) (past : List UrlStep) (desk : UrlDesk) : Prop where
  reached : desk = urlDesk host store past
  readable : ∀ signing ∈ desk.signed, signing.Readable host
  granted : ∀ target expires, .download target expires ∈ desk.signed → Granted host store past target expires

theorem granted_of_signed (accounted : Accounted host store past desk)
    (signed : .download target expires ∈ step.signs host desk.store) : Granted host store (past ++ [step]) target expires := by
  cases step with
  | sign signing =>
    exact absurd (List.mem_singleton.mp signed).symm (signing.property target expires)
  | operate request =>
    dsimp only [UrlStep.signs, urlSigned] at signed
    split at signed
    · next namespaceName name version call =>
      split at signed
      · next after url issued =>
        obtain ⟨rfl, rfl⟩ := Signing.download.inj (List.mem_singleton.mp signed)
        obtain ⟨agent, row, viewable, resolved, open_, isTarget, isExpiry⟩ := issueDownloadUrl_granted issued
        rw [accounted.reached] at viewable resolved
        rw [isTarget]
        exact ⟨past, request, [], version, agent, row, rfl, call, viewable, resolved, open_, rfl, isExpiry⟩
      · cases signed
    · cases signed

theorem Accounted.signs (accounted : Accounted host store past desk) (readable : SignsReadably host desk step) :
    Accounted host store (past ++ [step]) (grantUrls host desk step) where
  reached := by
    rw [accounted.reached]
    unfold urlDesk
    rw [List.foldl_append]
    rfl
  readable := by
    intro signing isSigned
    rcases List.mem_append.mp isSigned with earlier | new
    · exact accounted.readable signing earlier
    · exact readable signing new
  granted := by
    intro target expires isSigned
    rcases List.mem_append.mp isSigned with earlier | new
    · exact (accounted.granted target expires earlier).later
    · exact granted_of_signed accounted new

theorem Accounted.run (accounted : Accounted host store past desk) {steps : List UrlStep}
    (readable : Runs.AllMeet (grantUrls host) (SignsReadably host) desk steps) :
    Accounted host store (past ++ steps) (steps.foldl (grantUrls host) desk) := by
  induction steps generalizing past desk with
  | nil =>
    rw [List.append_nil]
    exact accounted
  | cons step rest ih =>
    rw [List.append_cons]
    exact ih (accounted.signs readable.1) readable.2

theorem Accounted.initial : Accounted host store [] { store } where
  reached := rfl
  readable := fun _ absent => by cases absent
  granted := fun _ _ absent => by cases absent

end Granting

/-- After every run, an archive leaves with a token only if the token was granted for this very version, and its time is not
    over. No other text that the registry signs serves as one. -/
theorem token_downloads_are_granted (host : WebHost) (store : Store) (steps : List UrlStep)
    (readable : Runs.AllMeet (grantUrls host) (SignsReadably host) { store } steps) (now : Time)
    (namespaceName name version token : String) (download : Download)
    (unforged : DownloadUnforged host (urlDesk host store steps).signed token)
    (served : downloadArchiveViaToken host.toPackageHost now (urlDesk host store steps).store.db (urlDesk host store steps).store.files
      namespaceName name version token = .ok download) :
    ∃ target expires, Granted host store steps target expires ∧ epoch now < expires ∧
      target.namespaceName = namespaceName ∧ target.name = name ∧ target.versionId = download.versionId := by
  have accounted : Accounted host store steps (urlDesk host store steps) := Accounted.initial.run readable
  simp only [downloadArchiveViaToken, Outcome.bind_eq_ok, Outcome.demand_eq_ok, Outcome.ensure_eq_ok] at served
  obtain ⟨agent, _, row, _, ⟨ok, expires⟩, verified, _, rfl, sent⟩ := served
  obtain ⟨isSigned, ahead⟩ := download_accepted accounted.readable unforged verified
  have versionId : download.versionId = row.id := by
    simp only [serveArchive, Outcome.bind_eq_ok, Outcome.pure_eq_ok] at sent
    obtain ⟨_, _, _, _, _, _, rfl⟩ := sent
    rfl
  exact ⟨_, expires, accounted.granted _ expires isSigned, ahead, rfl, rfl, versionId.symm⟩

section Samples

def helloVersion : AgentVersion where
  id := 7
  agentId := 1
  version := "1.0.0"
  sortKey := "n000000000001n000000000000n000000000000#1"
  manifest := .obj []
  sha256 := "e3b0c44298fc1c149afbf4c8996fb92427ae41e4649b934ca495991b7852b855"
  archiveName := ""
  signature := ⟨1, "demo/hello", "1.0.0", "", "f1", "", ""⟩
  publishedById := 1
  publishedAt := 0

def hello : Agent where
  id := 1
  namespaceName := "demo"
  name := "hello"
  ownerId := 1
  author := "founder"

def helloStore : Store where
  db :=
    { agents := ⟨[hello], 2, by decide, by decide⟩
      agentVersions := ⟨[helloVersion], 8, by decide, by decide⟩ }
  files := fun path => if path = ["demo", "hello", "1.0.0.ahb"] then some [] else none

def helloDesk : WebHost where
  toIdentityHost := { deskHost with toPackageHost := helloHost }
  web := {}
  loadsBytes := fun bytes => if bytes = Utf8.encode helloPayload.toList then .ok (.dict (tokenFields helloTarget 1700000300))
    else .error .malformed
  intOfText := String.toInt?
  sha256 := fun _ => []
  timeText := fun _ => ""
  urlencode := fun _ => ""
  github := fun _ => ⟨none, 401, none, "", none⟩

def asked : Request := ⟨⟨Organizations.founder, none⟩, seconds 1700000000, .manage (.issueDownloadUrl "demo" "hello" "1.0.0")⟩

theorem asked_signs : urlSigned helloDesk helloStore asked = [.download helloTarget 1700000300] := by decide +kernel

theorem helloDesk_writesBack : helloHost.WritesBack (.dict (tokenFields helloTarget 1700000300)) := by
  refine ⟨by decide +kernel, by decide +kernel, ?_⟩
  simp only [helloHost, if_true]

/-- The founder asks for a URL, and visits it four minutes later. -/
theorem token_downloads_are_granted_hello :
    ∃ target expires, Granted helloDesk helloStore [.operate asked] target expires ∧ epoch (seconds 1700000240) < expires ∧
      target.namespaceName = "demo" ∧ target.name = "hello" ∧ target.versionId = 7 := by
  refine token_downloads_are_granted helloDesk helloStore [.operate asked] ⟨?_, trivial⟩ (seconds 1700000240) "demo" "hello" "1.0.0"
    (downloadToken helloHost helloTarget 1700000300) ⟨[], 7, none⟩ ?_ ?_
  · intro signing isSigned
    have isDownload := isSigned
    rw [UrlStep.signs, asked_signs, List.mem_singleton] at isDownload
    subst isDownload
    constructor
    · show helloDesk.loads helloPayload = .ok (.dict (tokenFields helloTarget 1700000300))
      simp only [helloDesk, helloHost, if_true]
    · show helloDesk.loadsBytes (Utf8.encode helloPayload.toList) = .ok (.dict (tokenFields helloTarget 1700000300))
      simp only [helloDesk, if_true]
  · refine downloadUnforged_issued ?_
    show _ ∈ urlSigned helloDesk helloStore asked
    rw [asked_signs]
    exact List.mem_singleton.mpr rfl
  · have ahead : epoch (seconds 1700000240) < 1700000300 := by decide +kernel
    have verified : verifyDownloadToken helloHost (seconds 1700000240) (downloadToken helloHost helloTarget 1700000300) helloTarget =
        .ok (true, 1700000300) := by
      rw [verifyDownloadToken_issued helloDesk_writesBack, if_pos ⟨rfl, ahead⟩]
    show downloadArchiveViaToken helloHost (seconds 1700000240) helloStore.db helloStore.files "demo" "hello" "1.0.0" _ = _
    have found : agentByName helloStore.db "demo" "hello" = some hello := by decide +kernel
    have resolved : resolveVersion helloStore.db hello "1.0.0" = some helloVersion := rfl
    have named : tokenTarget "demo" "hello" helloVersion = helloTarget := by decide +kernel
    rw [downloadArchiveViaToken, found, Outcome.demand_some, Outcome.ok_bind, resolved, Outcome.demand_some, Outcome.ok_bind, named,
      verified]
    rfl

end Samples

end Registry.Packages
