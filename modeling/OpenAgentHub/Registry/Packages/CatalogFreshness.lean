import OpenAgentHub.Registry.CatalogCache
import OpenAgentHub.Registry.Packages.Catalog
import OpenAgentHub.Registry.Packages.Effects

namespace Registry.Packages

open Relational Catalog

/-- The parameters of a catalog request. The cache key is a hash of them; here they are the key. -/
structure CatalogParams where
  query : CatalogQuery
  cursor : Option String := none

deriving instance DecidableEq for Filters
deriving instance DecidableEq for CatalogQuery
deriving instance DecidableEq for CatalogParams

def Page.uncounted (page : Page) : Page :=
  { page with items := page.items.map fun item => { item with downloads := 0 } }

def selectRows (host : PackageHost) (params : CatalogParams) (db : Db) : Except Raised (List CatalogRow) := do
  let cursor := decodeCursor host params.cursor
  Outcome.ensure (params.cursor.isSome = true → cursor.isSome = true) ⟨.catalogQueryError, "invalid cursor"⟩
  return ((catalogRows host db params.query).filter fun row => cursor.all (·.above row)).take params.query.window

def pageOf (host : PackageHost) (params : CatalogParams) (rows : List CatalogRow) (db : Db) : Page :=
  let gathered := gather db params.query params.query.pageLimit 0 rows {}
  ⟨gathered.items, gathered.next host params.query.window rows.length⟩

def catalogSource (host : PackageHost) : Source Store CatalogParams (Option Time) (List CatalogRow) Page Page Raised where
  watermark store := store.db.catalogUpdatedAt
  rows params store := selectRows host params store.db
  page params rows store := pageOf host params rows store.db
  view := Page.uncounted

/-- Both statements on one state are one load. -/
theorem load_eq (host : PackageHost) (params : CatalogParams) (store : Store) :
    (catalogSource host).load params store =
      (loadCatalogPage host store.db params.query params.cursor).map Page.uncounted := by
  unfold Source.load loadCatalogPage
  show (selectRows host params store.db).map _ = _
  unfold selectRows
  dsimp only [Outcome.ensure]
  split <;> rfl

abbrev CatalogService := Service Store CatalogParams (Option Time) (List CatalogRow) Page Raised

abbrev CatalogStep := Step CatalogParams Request

def advanceCatalog (host : PackageHost) (ttl : Nat) : CatalogService → CatalogStep → CatalogService :=
  take (catalogSource host) ttl (serve host)

/-- A page that is not labelled stale is, but for the download counts, what `loadCatalogPage` gives on a state
    of the database since the request started. -/
def NeverOutdated (host : PackageHost) (service : CatalogService) : Prop :=
  ∀ id request payload, service.requests id = some request → request.stage = .answered (.fresh payload) →
    ∃ store ∈ request.seen, (loadCatalogPage host store.db request.key.query request.key.cursor).map Page.uncounted =
      .ok payload.uncounted

theorem catalog_never_outdated (host : PackageHost) (ttl : Nat) (store : Store) (steps : List CatalogStep)
    (announced : Runs.AllMeet (advanceCatalog host ttl) (Announces (catalogSource host) (serve host)) { store } steps) :
    Runs.Along (advanceCatalog host ttl) (NeverOutdated host) { store } steps := by
  apply (fresh_along announced).imp
  intro service fresh id request payload isRequest isAnswer
  obtain ⟨store, seen, loads⟩ := fresh id request payload isRequest isAnswer
  rw [load_eq] at loads
  exact ⟨store, seen, loads⟩

section Bumps

variable {host : PackageHost} {store : Store} {actor : Subject} {now : Time} {after : Db} {files : Archives}

theorem publishVersion_bumps {submission : Submission}
    (handled : handle host store ⟨actor, now, .publishVersion submission⟩ = (files, .ok after)) :
    after.catalogUpdatedAt = some now := by
  obtain ⟨result, published⟩ := handle_publishVersion handled
  obtain ⟨_, _, _, _, _, _, _, _, _, _, _, _, _, _, _, finished⟩ := publishVersion_ok published
  unfold finish at finished
  simp only [Outcome.bind_eq_ok, Outcome.pure_eq_ok, Prod.mk.injEq] at finished
  obtain ⟨_, _, rfl, _⟩ := finished
  rfl

/-- A review, a yank and a change of visibility write their time as the watermark, unless they leave the
    visibility of the package, and all else that the catalog shows, as it is. -/
theorem perform_bumps {operation : Operation}
    (changes : match operation with
      | .reviewVersion .. | .yankVersion .. | .setPackageVisibility .. => True
      | _ => False)
    (done : perform host now store actor operation = .ok after) :
    after.catalogUpdatedAt = some now ∨ after = store.db ∨
      ∃ agent ∈ store.db.agents.rows, ∃ organizationId,
        after = setAgent store.db agent.id fun row => { row with visibility := agent.visibility, organizationId } := by
  cases operation with
  | reviewVersion namespaceName name version action reason notes =>
    left
    obtain ⟨_, done⟩ := Outcome.map_fst_ok.mp done
    unfold reviewVersion at done
    simp only [Outcome.bind_eq_ok, Outcome.pure_eq_ok, Prod.mk.injEq] at done
    obtain ⟨_, _, _, _, _, _, _, _, _, _, rfl, _⟩ := done
    rfl
  | yankVersion namespaceName name version yanked =>
    obtain ⟨_, done⟩ := Outcome.map_fst_ok.mp done
    obtain same | ⟨_, _, rfl⟩ := yankVersion_cases done
    · exact .inr (.inl same)
    · exact .inl rfl
  | setPackageVisibility namespaceName name visibility slug =>
    obtain ⟨_, done⟩ := Outcome.map_fst_ok.mp done
    obtain ⟨agent, organizationId, found, _, _, _, ⟨same, rfl⟩ | ⟨_, _, _, _, rfl⟩⟩ := setPackageVisibility_cases done
    · exact .inr (.inr ⟨agent, (agentByName_eq_some.mp found).1, organizationId, by rw [same]⟩)
    · exact .inl rfl
  | _ => exact absurd changes id

end Bumps

section Samples

def signed : Agent where
  id := 1
  namespaceName := "acme"
  name := "tool"
  ownerId := 1
  author := "founder"

def signedVersion : AgentVersion where
  id := 1
  agentId := 1
  version := "1.0.0"
  sortKey := "n000000000001n000000000000n000000000000#1"
  manifest := .obj []
  sha256 := ""
  archiveName := ""
  signature := ⟨1, "acme/tool", "1.0.0", "", "f1", "", ""⟩
  publishedById := 1
  publishedAt := 0

def signedStore : Store where
  db :=
    { agents := ⟨[signed], 2, by decide, by decide⟩
      agentVersions := ⟨[signedVersion], 2, by decide, by decide⟩
      signingKeys := ⟨[{ id := 1, userId := 1, publicKeyPem := "", fingerprint := "f1" }], 2, by decide, by decide⟩
      catalogUpdatedAt := some 3 }
  files := fun _ => none

def firstPage : CatalogParams where
  query := { limit := 50 }

def served (id : Nat) : List CatalogStep := .arrive id firstPage :: List.replicate 5 (.advance id 0)

def revocation : CatalogStep := .operate ⟨⟨Organizations.founder, none⟩, 9, .manage (.revokeSigningKey 1)⟩

/-- A request is answered with a page that no state of the database since its start has. -/
def outdated (host : PackageHost) (service : CatalogService) (id : Nat) : Bool :=
  (service.requests id).any fun request => match request.stage with
    | .answered (.fresh payload) => request.seen.all fun store =>
      decide ((loadCatalogPage host store.db request.key.query request.key.cursor).map Page.uncounted ≠ .ok payload.uncounted)
    | _ => false

theorem not_neverOutdated {host : PackageHost} {service : CatalogService} {id : Nat} (shown : outdated host service id = true) :
    ¬ NeverOutdated host service := by
  obtain ⟨request, isRequest, test⟩ := (Option.any_eq_true _ _).mp shown
  intro never
  split at test
  · next payload isAnswer =>
    obtain ⟨store, seen, loads⟩ := never id request payload isRequest isAnswer
    exact of_decide_eq_true (List.all_eq_true.mp test store seen) loads
  · cases test

/-- A page is cached, the key that signed its version is revoked, and the page is served on. -/
theorem revoked_signer_stays_verified :
    ¬ (∀ host ttl store steps, Runs.Along (advanceCatalog host ttl) (NeverOutdated host) { store } steps) ∧
      outdated plainHost ((served 0 ++ [revocation] ++ served 1).foldl (advanceCatalog plainHost 30) { store := signedStore }) 1 =
        true := by
  have shown : outdated plainHost
      ((served 0 ++ [revocation] ++ served 1).foldl (advanceCatalog plainHost 30) { store := signedStore }) 1 = true := by
    decide +kernel
  refine ⟨?_, shown⟩
  intro never
  exact not_neverOutdated shown (never plainHost 30 signedStore (served 0 ++ [revocation] ++ served 1)).final

def yank : CatalogStep :=
  .operate ⟨⟨{ id := 9, username := "admin", role := .admin }, none⟩, 9, .manage (.yankVersion "acme" "tool" "1.0.0" true)⟩

def itemsServed (service : CatalogService) (id : Nat) : Option Nat :=
  (service.requests id).bind fun request => match request.stage with
    | .answered (.fresh payload) => some payload.items.length
    | _ => none

theorem yanked_version_not_served :
    Runs.Along (advanceCatalog plainHost 30) (NeverOutdated plainHost) { store := signedStore } (yank :: served 1) ∧
      itemsServed ((served 1).foldl (advanceCatalog plainHost 30) { store := signedStore }) 1 = some 1 ∧
      itemsServed ((yank :: served 1).foldl (advanceCatalog plainHost 30) { store := signedStore }) 1 = some 0 := by
  refine ⟨catalog_never_outdated plainHost 30 signedStore (yank :: served 1) ⟨⟨.inl ?_, ?_⟩, ?_⟩, by decide +kernel,
    by decide +kernel⟩
  · rintro (⟨_, _, absent, _⟩ | ⟨_, _, absent, _⟩) <;> cases absent
  · intro id request watermark rows absent
    cases absent
  · exact ⟨trivial, trivial, trivial, trivial, trivial, trivial, trivial⟩

end Samples

end Registry.Packages
