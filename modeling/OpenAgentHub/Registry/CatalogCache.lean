import Mathlib.Logic.Function.Basic
import OpenAgentHub.Lib.Runs

namespace Registry.Catalog

/-- What a page is made from: the watermark, the first statement, which may refuse the parameters, and the
    second one, which reads the keys. The view of a page leaves out what may differ. -/
structure Source (σ κ ω ρ π ν ε : Type) where
  watermark : σ → ω
  rows : κ → σ → Except ε ρ
  page : κ → ρ → σ → π
  view : π → ν

variable {σ κ ω ρ π ν ε α : Type}

def Source.load (source : Source σ κ ω ρ π ν ε) (key : κ) (store : σ) : Except ε ν :=
  (source.rows key store).map fun rows => source.view (source.page key rows store)

structure CatalogCacheEntry (ω π : Type) where
  watermark : ω
  payload : π
  cachedAt : Nat

/-- `CatalogCache.get`, on the entry of the key. -/
def get [DecidableEq ω] (ttl : Nat) (entry : Option (CatalogCacheEntry ω π)) (watermark : ω) (now : Nat) : Option (CatalogCacheEntry ω π) :=
  entry.filter fun entry => decide (entry.watermark = watermark ∧ now - entry.cachedAt ≤ ttl)

inductive Answer (π ε : Type) where
  | fresh (payload : π)
  | stale (payload : π)
  | invalid (error : ε)
  | unavailable

/-- Where a catalog request is. Each constructor but the last waits for one access to the database, or
    for the lock of its key. -/
inductive Stage (ω ρ π ε : Type) where
  | reading
  | locking (watermark : ω)
  | selecting (watermark : ω)
  | resolving (watermark : ω) (rows : ρ)
  | putting (watermark : ω) (payload : π)
  | answered (answer : Answer π ε)

def Stage.watermark : Stage ω ρ π ε → Option ω
  | .reading | .answered _ => none
  | .locking watermark | .selecting watermark | .resolving watermark _ | .putting watermark _ => some watermark

/-- `seen`: the states of the database since the request started. -/
structure CatalogRequest (σ κ ω ρ π ε : Type) where
  key : κ
  stage : Stage ω ρ π ε := .reading
  seen : List σ

structure Service (σ κ ω ρ π ε : Type) where
  store : σ
  entries : κ → Option (CatalogCacheEntry ω π) := fun _ => none
  locks : κ → Option Nat := fun _ => none
  requests : Nat → Option (CatalogRequest σ κ ω ρ π ε) := fun _ => none

namespace Service

variable (service : Service σ κ ω ρ π ε)

def put (id : Nat) (request : CatalogRequest σ κ ω ρ π ε) : Service σ κ ω ρ π ε :=
  { service with requests := Function.update service.requests id (some request) }

def release [DecidableEq κ] (key : κ) : Service σ κ ω ρ π ε := { service with locks := Function.update service.locks key none }

theorem requests_put_self {id : Nat} {request : CatalogRequest σ κ ω ρ π ε} :
    (service.put id request).requests id = some request := Function.update_self _ _ _

theorem requests_put_of_ne {id other : Nat} {request : CatalogRequest σ κ ω ρ π ε} (apart : other ≠ id) :
    (service.put id request).requests other = service.requests other := Function.update_of_ne apart _ _

/-- `cache.stale`, when something in the request has failed. -/
def giveUp (id : Nat) (request : CatalogRequest σ κ ω ρ π ε) : Service σ κ ω ρ π ε :=
  let answer := match service.entries request.key with
    | some entry => .stale entry.payload
    | none => .unavailable
  service.put id { request with stage := .answered answer }

end Service

section Steps

variable [DecidableEq κ] [DecidableEq ω]

def proceed (source : Source σ κ ω ρ π ν ε) (ttl : Nat) (service : Service σ κ ω ρ π ε) (id now : Nat)
    (request : CatalogRequest σ κ ω ρ π ε) : Service σ κ ω ρ π ε :=
  match request.stage with
  | .reading => service.put id { request with stage := .locking (source.watermark service.store) }
  | .locking watermark =>
    if (service.locks request.key).isSome then service
    else
      match get ttl (service.entries request.key) watermark now with
      | some entry => service.put id { request with stage := .answered (.fresh entry.payload) }
      | none =>
        { service with locks := Function.update service.locks request.key (some id) }.put id
          { request with stage := .selecting watermark }
  | .selecting watermark =>
    match source.rows request.key service.store with
    | .error error => (service.release request.key).put id { request with stage := .answered (.invalid error) }
    | .ok rows => service.put id { request with stage := .resolving watermark rows }
  | .resolving watermark rows =>
    service.put id { request with stage := .putting watermark (source.page request.key rows service.store) }
  | .putting watermark payload =>
    ({ service with entries := Function.update service.entries request.key (some ⟨watermark, payload, now⟩) }.release
      request.key).put id { request with stage := .answered (.fresh payload) }
  | .answered _ => service

def fault (service : Service σ κ ω ρ π ε) (id : Nat) (request : CatalogRequest σ κ ω ρ π ε) : Service σ κ ω ρ π ε :=
  match request.stage with
  | .reading => service.giveUp id request
  | .selecting _ | .resolving _ _ => (service.release request.key).giveUp id request
  | .locking _ | .putting _ _ | .answered _ => service

inductive Step (κ α : Type) where
  | arrive (id : Nat) (key : κ)
  | advance (id now : Nat)
  | fail (id : Nat)
  | operate (operation : α)

def commit (service : Service σ κ ω ρ π ε) (next : σ) : Service σ κ ω ρ π ε :=
  { service with
    store := next
    requests := fun id => (service.requests id).map fun request => { request with seen := request.seen ++ [next] } }

def take (source : Source σ κ ω ρ π ν ε) (ttl : Nat) (perform : σ → α → σ) (service : Service σ κ ω ρ π ε) :
    Step κ α → Service σ κ ω ρ π ε
  | .arrive id key =>
    match service.requests id with
    | some _ => service
    | none => service.put id { key, seen := [service.store] }
  | .advance id now =>
    match service.requests id with
    | some request => proceed source ttl service id now request
    | none => service
  | .fail id =>
    match service.requests id with
    | some request => fault service id request
    | none => service
  | .operate operation => commit service (perform service.store operation)

end Steps

section Freshness

variable (source : Source σ κ ω ρ π ν ε)

def Fresh (service : Service σ κ ω ρ π ε) : Prop :=
  ∀ id request payload, service.requests id = some request → request.stage = .answered (.fresh payload) →
    ∃ store ∈ request.seen, source.load request.key store = .ok (source.view payload)

def InUse (service : Service σ κ ω ρ π ε) (watermark : ω) : Prop :=
  (∃ key entry, service.entries key = some entry ∧ entry.watermark = watermark) ∨
    ∃ id request, service.requests id = some request ∧ request.stage.watermark = some watermark

/-- The next state has a watermark that is not in use, or the present one with the present pages; and it
    changes no load between its two statements, unless to what a load gives on it. -/
structure Announced (service : Service σ κ ω ρ π ε) (next : σ) : Prop where
  watermark : ¬ InUse service (source.watermark next) ∨
    (source.watermark next = source.watermark service.store ∧ ∀ key, source.load key next = source.load key service.store)
  loads : ∀ id request watermark rows, service.requests id = some request → request.stage = .resolving watermark rows →
    source.view (source.page request.key rows next) = source.view (source.page request.key rows service.store) ∨
      source.load request.key next = .ok (source.view (source.page request.key rows next))

def Announces (perform : σ → α → σ) (service : Service σ κ ω ρ π ε) : Step κ α → Prop
  | .operate operation => Announced source service (perform service.store operation)
  | _ => True

def CatalogRequest.Carries (request : CatalogRequest σ κ ω ρ π ε) (store : σ) (key : κ) (watermark : ω) (view : ν) : Prop :=
  request.key = key ∧
    ((∃ rows, request.stage = .resolving watermark rows ∧ source.view (source.page key rows store) = view) ∨
      ∃ payload, request.stage = .putting watermark payload ∧ source.view payload = view)

def Carries (service : Service σ κ ω ρ π ε) (key : κ) (watermark : ω) (view : ν) : Prop :=
  (∃ entry, service.entries key = some entry ∧ entry.watermark = watermark ∧ source.view entry.payload = view) ∨
    ∃ id request, service.requests id = some request ∧ request.Carries source service.store key watermark view

structure Coherent (service : Service σ κ ω ρ π ε) : Prop where
  /-- What is carried under the present watermark is what a load gives now. -/
  current : ∀ key view, Carries source service key (source.watermark service.store) view →
    source.load key service.store = .ok view
  /-- What a request may still be served is what a load gives on a state since it started. -/
  since : ∀ id request watermark view, service.requests id = some request → request.stage.watermark = some watermark →
    Carries source service request.key watermark view → ∃ store ∈ request.seen, source.load request.key store = .ok view
  present : ∀ id request, service.requests id = some request → service.store ∈ request.seen
  fresh : Fresh source service

variable {source} {service : Service σ κ ω ρ π ε}

namespace Coherent

theorem initial (store : σ) : Coherent source ({ store } : Service σ κ ω ρ π ε) where
  current := by
    rintro key view (⟨entry, absent, _⟩ | ⟨id, request, absent, _⟩) <;> cases absent
  since := fun _ _ _ _ absent => by cases absent
  present := fun _ _ absent => by cases absent
  fresh := fun _ _ _ absent => by cases absent

theorem update (coherent : Coherent source service) {entries : κ → Option (CatalogCacheEntry ω π)} {locks : κ → Option Nat}
    {id : Nat} {request : CatalogRequest σ κ ω ρ π ε}
    (stored : ∀ key entry, entries key = some entry → Carries source service key entry.watermark (source.view entry.payload))
    (carried : ∀ key watermark view, request.Carries source service.store key watermark view →
      Carries source service key watermark view ∨ source.load key service.store = .ok view)
    (tagged : ∀ watermark, request.stage.watermark = some watermark → watermark = source.watermark service.store ∨
      ∃ old, service.requests id = some old ∧ old.stage.watermark = some watermark ∧ old.key = request.key ∧ old.seen = request.seen)
    (present : service.store ∈ request.seen)
    (fresh : ∀ payload, request.stage = .answered (.fresh payload) →
      ∃ store ∈ request.seen, source.load request.key store = .ok (source.view payload)) :
    Coherent source ({ service with entries, locks }.put id request) := by
  have known : ∀ key watermark view, Carries source ({ service with entries, locks }.put id request) key watermark view →
      Carries source service key watermark view ∨ source.load key service.store = .ok view := by
    rintro key watermark view (⟨entry, isEntry, rfl, rfl⟩ | ⟨other, found, isFound, carries⟩)
    · exact .inl (stored key entry isEntry)
    · by_cases same : other = id
      · rw [same, Service.requests_put_self] at isFound
        cases isFound
        exact carried key watermark view carries
      · rw [Service.requests_put_of_ne _ same] at isFound
        exact .inl (.inr ⟨other, found, isFound, carries⟩)
  have presents : ∀ other found, ({ service with entries, locks }.put id request).requests other = some found →
      service.store ∈ found.seen := by
    intro other found isFound
    by_cases same : other = id
    · rw [same, Service.requests_put_self] at isFound
      cases isFound
      exact present
    · rw [Service.requests_put_of_ne _ same] at isFound
      exact coherent.present other found isFound
  refine ⟨?_, ?_, presents, ?_⟩
  · intro key view carries
    rcases known key _ view carries with before | now
    · exact coherent.current key view before
    · exact now
  · intro other found watermark view isFound isTagged carries
    have now : source.load found.key service.store = .ok view →
        ∃ store ∈ found.seen, source.load found.key store = .ok view :=
      fun loads => ⟨service.store, presents other found isFound, loads⟩
    rcases known found.key watermark view carries with before | loads
    · by_cases same : other = id
      · rw [same, Service.requests_put_self] at isFound
        cases isFound
        rcases tagged watermark isTagged with rfl | ⟨old, isOld, wasTagged, sameKey, sameSeen⟩
        · exact now (coherent.current _ view before)
        · rw [← sameKey] at before ⊢
          rw [← sameSeen]
          exact coherent.since id old watermark view isOld wasTagged before
      · rw [Service.requests_put_of_ne _ same] at isFound
        exact coherent.since other found watermark view isFound isTagged before
    · exact now loads
  · intro other found payload isFound isAnswer
    by_cases same : other = id
    · rw [same, Service.requests_put_self] at isFound
      cases isFound
      exact fresh payload isAnswer
    · rw [Service.requests_put_of_ne _ same] at isFound
      exact coherent.fresh other found payload isFound isAnswer

theorem stored (key : κ) (entry : CatalogCacheEntry ω π) (isEntry : service.entries key = some entry) :
    Carries source service key entry.watermark (source.view entry.payload) :=
  .inl ⟨entry, isEntry, rfl, rfl⟩

variable {id now ttl : Nat} {request : CatalogRequest σ κ ω ρ π ε}

theorem ends (coherent : Coherent source service) (isRequest : service.requests id = some request) {locks : κ → Option Nat}
    {answer : Answer π ε} (labelled : ∀ payload, answer ≠ .fresh payload) :
    Coherent source ({ service with locks }.put id { request with stage := .answered answer }) := by
  apply coherent.update stored
  · rintro key watermark view ⟨_, ⟨rows, stage, _⟩ | ⟨payload, stage, _⟩⟩ <;> cases stage
  · intro watermark tag
    cases tag
  · exact coherent.present id request isRequest
  · intro payload isAnswer
    cases isAnswer
    exact absurd rfl (labelled payload)

theorem giveUp (coherent : Coherent source service) (isRequest : service.requests id = some request) {locks : κ → Option Nat} :
    Coherent source ({ service with locks }.giveUp id request) := by
  unfold Service.giveUp
  apply coherent.ends isRequest
  intro payload same
  split at same <;> cases same

theorem arrives (coherent : Coherent source service) (key : κ) :
    Coherent source (service.put id { key, seen := [service.store] }) := by
  apply coherent.update stored
  · rintro other watermark view ⟨_, ⟨rows, stage, _⟩ | ⟨payload, stage, _⟩⟩ <;> cases stage
  · intro watermark tag
    cases tag
  · exact List.mem_singleton.mpr rfl
  · intro payload isAnswer
    cases isAnswer

theorem carries_commit {next : σ} (announced : Announced source service next) {key : κ} {watermark : ω} {view : ν}
    (carries : Carries source (commit service next) key watermark view) :
    Carries source service key watermark view ∨ source.load key next = .ok view := by
  rcases carries with ⟨entry, isEntry, isWatermark, isView⟩ | ⟨id, request, isRequest, sameKey, holds⟩
  · exact .inl (.inl ⟨entry, isEntry, isWatermark, isView⟩)
  · obtain ⟨before, isBefore, rfl⟩ := Option.map_eq_some_iff.mp isRequest
    subst sameKey
    rcases holds with ⟨rows, stage, rfl⟩ | ⟨payload, stage, rfl⟩
    · rcases announced.loads id before watermark rows isBefore stage with same | loads
      · exact .inl (.inr ⟨id, before, isBefore, rfl, .inl ⟨rows, stage, same.symm⟩⟩)
      · exact .inr loads
    · exact .inl (.inr ⟨id, before, isBefore, rfl, .inr ⟨payload, stage, rfl⟩⟩)

theorem inUse_of_carries {key : κ} {watermark : ω} {view : ν} (carries : Carries source service key watermark view) :
    InUse service watermark := by
  rcases carries with ⟨entry, isEntry, isWatermark, _⟩ | ⟨id, request, isRequest, _, holds⟩
  · exact .inl ⟨key, entry, isEntry, isWatermark⟩
  · right
    refine ⟨id, request, isRequest, ?_⟩
    rcases holds with ⟨rows, stage, _⟩ | ⟨payload, stage, _⟩
    · rw [stage]
      rfl
    · rw [stage]
      rfl

theorem commits (coherent : Coherent source service) {next : σ} (announced : Announced source service next) :
    Coherent source (commit service next) := by
  refine ⟨?_, ?_, ?_, ?_⟩
  · intro key view carries
    rcases carries_commit announced carries with before | loads
    · rcases announced.watermark with unused | ⟨same, pages⟩
      · exact absurd (inUse_of_carries before) unused
      · have current : Carries source service key (source.watermark service.store) view := same ▸ before
        exact (pages key).trans (coherent.current key view current)
    · exact loads
  · intro id request watermark view isRequest tag carries
    obtain ⟨before, isBefore, rfl⟩ := Option.map_eq_some_iff.mp isRequest
    rcases carries_commit announced carries with earlier | loads
    · obtain ⟨store, seen, loads⟩ := coherent.since id before watermark view isBefore tag earlier
      exact ⟨store, List.mem_append_left _ seen, loads⟩
    · exact ⟨next, List.mem_append_right _ (List.mem_singleton.mpr rfl), loads⟩
  · intro id request isRequest
    obtain ⟨before, isBefore, rfl⟩ := Option.map_eq_some_iff.mp isRequest
    exact List.mem_append_right _ (List.mem_singleton.mpr rfl)
  · intro id request payload isRequest isAnswer
    obtain ⟨before, isBefore, rfl⟩ := Option.map_eq_some_iff.mp isRequest
    obtain ⟨store, seen, loads⟩ := coherent.fresh id before payload isBefore isAnswer
    exact ⟨store, List.mem_append_left _ seen, loads⟩

variable [DecidableEq κ]

theorem fails (coherent : Coherent source service) (isRequest : service.requests id = some request) :
    Coherent source (fault service id request) := by
  unfold fault
  split
  · exact coherent.giveUp isRequest
  · exact coherent.giveUp isRequest
  · exact coherent.giveUp isRequest
  · exact coherent
  · exact coherent
  · exact coherent

variable [DecidableEq ω]

theorem mem_get {found : CatalogCacheEntry ω π} {kept : Option (CatalogCacheEntry ω π)} {watermark : ω}
    (hit : get ttl kept watermark now = some found) : kept = some found ∧ found.watermark = watermark := by
  obtain ⟨isKept, test⟩ := Option.filter_eq_some_iff.mp hit
  exact ⟨isKept, (of_decide_eq_true test).1⟩

theorem proceeds (coherent : Coherent source service) (isRequest : service.requests id = some request) :
    Coherent source (proceed source ttl service id now request) := by
  have present := coherent.present id request isRequest
  unfold proceed
  cases stage : request.stage with
  | reading =>
    apply coherent.update stored
    · rintro key watermark view ⟨_, ⟨rows, stage, _⟩ | ⟨payload, stage, _⟩⟩ <;> cases stage
    · intro watermark tag
      cases tag
      exact .inl rfl
    · exact present
    · intro payload isAnswer
      cases isAnswer
  | locking watermark =>
    have tag : request.stage.watermark = some watermark := by rw [stage]; rfl
    dsimp only
    split
    · exact coherent
    · split
      · next entry hit =>
        obtain ⟨isEntry, isWatermark⟩ := mem_get hit
        apply coherent.update stored
        · rintro key watermark view ⟨_, ⟨rows, stage, _⟩ | ⟨payload, stage, _⟩⟩ <;> cases stage
        · intro watermark tag
          cases tag
        · exact present
        · intro payload isAnswer
          cases isAnswer
          exact coherent.since id request watermark _ isRequest tag (.inl ⟨entry, isEntry, isWatermark, rfl⟩)
      · apply coherent.update stored
        · rintro key watermark view ⟨_, ⟨rows, stage, _⟩ | ⟨payload, stage, _⟩⟩ <;> cases stage
        · intro other same
          cases same
          exact .inr ⟨request, isRequest, tag, rfl, rfl⟩
        · exact present
        · intro payload isAnswer
          cases isAnswer
  | selecting watermark =>
    have tag : request.stage.watermark = some watermark := by rw [stage]; rfl
    dsimp only
    split
    · exact coherent.ends isRequest fun payload same => by cases same
    · next rows isRows =>
      have loads : source.load request.key service.store = .ok (source.view (source.page request.key rows service.store)) := by
        rw [Source.load, isRows]
        rfl
      apply coherent.update stored
      · rintro key other view ⟨rfl, ⟨found, same, rfl⟩ | ⟨payload, same, _⟩⟩
        · cases same
          exact .inr loads
        · cases same
      · intro other same
        cases same
        exact .inr ⟨request, isRequest, tag, rfl, rfl⟩
      · exact present
      · intro payload isAnswer
        cases isAnswer
  | resolving watermark rows =>
    have tag : request.stage.watermark = some watermark := by rw [stage]; rfl
    apply coherent.update stored
    · rintro key other view ⟨rfl, ⟨found, same, _⟩ | ⟨payload, same, rfl⟩⟩
      · cases same
      · cases same
        exact .inl (.inr ⟨id, request, isRequest, rfl, .inl ⟨rows, stage, rfl⟩⟩)
    · intro other same
      cases same
      exact .inr ⟨request, isRequest, tag, rfl, rfl⟩
    · exact present
    · intro payload isAnswer
      cases isAnswer
  | putting watermark payload =>
    have tag : request.stage.watermark = some watermark := by rw [stage]; rfl
    have carries : Carries source service request.key watermark (source.view payload) :=
      .inr ⟨id, request, isRequest, rfl, .inr ⟨payload, stage, rfl⟩⟩
    apply coherent.update
    · intro key entry isEntry
      dsimp only [Service.release] at isEntry
      by_cases same : key = request.key
      · rw [same, Function.update_self] at isEntry
        cases isEntry
        rw [same]
        exact carries
      · rw [Function.update_of_ne same] at isEntry
        exact stored key entry isEntry
    · rintro key other view ⟨_, ⟨rows, same, _⟩ | ⟨found, same, _⟩⟩ <;> cases same
    · intro other same
      cases same
    · exact present
    · intro found isAnswer
      cases isAnswer
      exact coherent.since id request watermark _ isRequest tag carries
  | answered answer => exact coherent

theorem taken (coherent : Coherent source service) {perform : σ → α → σ} (step : Step κ α)
    (announces : Announces source perform service step) : Coherent source (take source ttl perform service step) := by
  cases step with
  | arrive id key =>
    dsimp only [take]
    split
    · exact coherent
    · exact coherent.arrives key
  | advance id now =>
    dsimp only [take]
    split
    · next request isRequest => exact coherent.proceeds isRequest
    · exact coherent
  | fail id =>
    dsimp only [take]
    split
    · next request isRequest => exact coherent.fails isRequest
    · exact coherent
  | operate operation => exact coherent.commits announces

end Coherent

variable [DecidableEq κ] [DecidableEq ω]

/-- In every interleaving of requests and commits, what is served as fresh is fresh, as long as every
    commit is announced. -/
theorem fresh_along {ttl : Nat} {perform : σ → α → σ} {steps : List (Step κ α)} {store : σ}
    (announced : Runs.AllMeet (take source ttl perform) (Announces source perform) { store } steps) :
    Runs.Along (take source ttl perform) (Fresh source) { store } steps := by
  have coherent : Runs.Along (take source ttl perform) (Coherent source) { store } steps :=
    announced.along (Coherent.initial store) fun _ step coherent announces => coherent.taken step announces
  exact coherent.imp fun _ coherent => coherent.fresh

end Freshness

end Registry.Catalog
