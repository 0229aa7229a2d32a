import OpenAgentHub.Registry.CatalogLocks
import OpenAgentHub.Registry.Packages.CatalogFreshness

namespace Registry.Packages

open Catalog

variable (host : PackageHost) (ttl : Nat)

def catalogAfter (store : Store) (past : List CatalogStep) : CatalogService :=
  past.foldl (advanceCatalog host ttl) { store }

def queriesSent (params : CatalogParams) (service : CatalogService) (steps : List CatalogStep) : Nat :=
  Runs.total (advanceCatalog host ttl) (fun service step => (queried params service step).toNat) service steps

def setbacks (params : CatalogParams) (service : CatalogService) (steps : List CatalogStep) : Nat :=
  Runs.total (advanceCatalog host ttl)
    (fun service step => (aborted (catalogSource host) params service step).toNat + (superseded ttl params service step).toNat)
    service steps

/-- Requests that come while a page is loaded wait for it: after any past, a page is queried once and, beyond
    that, once for each load that ends without a page and for each lookup that finds it out of date. -/
theorem catalog_single_flight (store : Store) (params : CatalogParams) (past steps : List CatalogStep) :
    queriesSent host ttl params (catalogAfter host ttl store past) steps ≤
      setbacks host ttl params (catalogAfter host ttl store past) steps + 1 :=
  queries_le (Locked.reached (serve host) store past) (serve host) params steps

def crossing : List CatalogStep :=
  [.arrive 0 firstPage, .advance 0 0, .advance 0 0, .arrive 1 firstPage, .advance 1 0, .advance 1 0, .advance 0 0, .advance 1 0,
    .advance 0 0, .advance 0 0, .advance 1 0]

example : queriesSent plainHost 30 firstPage { store := signedStore } crossing = 1 ∧
    itemsServed (catalogAfter plainHost 30 signedStore crossing) 1 = some 1 := by
  decide +kernel

def Answered (service : CatalogService) (id : Nat) : Prop :=
  ∃ request answer, service.requests id = some request ∧ request.stage = .answered answer

/-- No lock of the cache is ever left behind: whatever has happened, faults included, a request is answered
    once the request that holds the lock of its page, if there is one, and then the request itself go on. -/
theorem catalog_always_answers (store : Store) (past : List CatalogStep) (id now : Nat)
    (pending : ((catalogAfter host ttl store past).requests id).isSome = true) :
    ∃ holder, Answered (catalogAfter host ttl store
      (past ++ (List.replicate 3 (.advance holder now) ++ List.replicate 5 (.advance id now)))) id := by
  obtain ⟨request, isRequest⟩ := Option.isSome_iff_exists.mp pending
  obtain ⟨holder, ended, isEnded, _, done, _⟩ :=
    @Locked.answers _ _ _ _ _ _ _ _ (catalogAfter host ttl store past) id request _ _ (catalogSource host) ttl (serve host)
      (Locked.reached (serve host) store past) isRequest now
  obtain ⟨answer, answered⟩ := Stage.answered_of_rest (Nat.le_zero.mp done)
  refine ⟨holder, ended, answer, ?_, answered⟩
  unfold catalogAfter
  rw [List.foldl_append]
  exact isEnded

theorem catalog_always_answers_crossing :
    ∃ holder, Answered (catalogAfter plainHost 30 signedStore
      (crossing.take 6 ++ (List.replicate 3 (.advance holder 0) ++ List.replicate 5 (.advance 1 0)))) 1 :=
  catalog_always_answers plainHost 30 signedStore (crossing.take 6) 1 0 (by decide +kernel)

end Registry.Packages
