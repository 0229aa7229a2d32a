import OpenAgentHub.Lib.Potential
import OpenAgentHub.Registry.CatalogCache

namespace Registry.Catalog

variable {σ κ ω ρ π ν ε α : Type}

namespace Stage

def loads : Stage ω ρ π ε → Bool
  | .selecting _ | .resolving _ _ | .putting _ _ => true
  | .reading | .locking _ | .answered _ => false

def selects : Stage ω ρ π ε → Bool
  | .selecting _ => true
  | _ => false

def awaits : Stage ω ρ π ε → Bool
  | .selecting _ | .resolving _ _ => true
  | _ => false

def rest : Stage ω ρ π ε → Nat
  | .reading => 5
  | .locking _ => 4
  | .selecting _ => 3
  | .resolving _ _ => 2
  | .putting _ _ => 1
  | .answered _ => 0

theorem rest_le (stage : Stage ω ρ π ε) : stage.rest ≤ 5 := by
  cases stage <;> simp [rest]

theorem rest_le_of_loads {stage : Stage ω ρ π ε} (loading : stage.loads = true) : stage.rest ≤ 3 := by
  cases stage <;> simp [rest, loads] at loading ⊢

theorem answered_of_rest {stage : Stage ω ρ π ε} (done : stage.rest = 0) : ∃ answer, stage = .answered answer := by
  cases stage with
  | answered answer => exact ⟨answer, rfl⟩
  | _ => cases done

end Stage

def Holder (service : Service σ κ ω ρ π ε) (key : κ) (id : Nat) : Prop :=
  ∃ request, service.requests id = some request ∧ request.key = key ∧ request.stage.loads = true

def Locked (service : Service σ κ ω ρ π ε) : Prop :=
  ∀ key id, service.locks key = some id ↔ Holder service key id

namespace Locked

variable {service : Service σ κ ω ρ π ε} {id : Nat} {request old : CatalogRequest σ κ ω ρ π ε}
  {entries : κ → Option (CatalogCacheEntry ω π)} {locks : κ → Option Nat}

theorem initial (store : σ) : Locked ({ store } : Service σ κ ω ρ π ε) := by
  intro key id
  constructor
  · intro absent
    cases absent
  · rintro ⟨request, absent, _⟩
    cases absent

theorem put (locked : Locked service)
    (owned : ∀ key other, locks key = some other ↔
      if other = id then request.key = key ∧ request.stage.loads = true else service.locks key = some other) :
    Locked ({ service with entries, locks }.put id request) := by
  intro key other
  refine (owned key other).trans ?_
  by_cases same : other = id
  · subst same
    rw [if_pos rfl]
    constructor
    · rintro ⟨sameKey, loading⟩
      exact ⟨request, Service.requests_put_self _, sameKey, loading⟩
    · rintro ⟨found, isFound, holds⟩
      rw [Service.requests_put_self] at isFound
      cases isFound
      exact holds
  · rw [if_neg same]
    refine (locked key other).trans ?_
    unfold Holder
    rw [Service.requests_put_of_ne _ same]

theorem held_iff (locked : Locked service) (isOld : service.requests id = some old) (key : κ) :
    service.locks key = some id ↔ old.key = key ∧ old.stage.loads = true := by
  refine (locked key id).trans ⟨?_, fun holds => ⟨old, isOld, holds⟩⟩
  rintro ⟨found, isFound, holds⟩
  rw [isOld] at isFound
  cases isFound
  exact holds

theorem moves (locked : Locked service) (isOld : service.requests id = some old) (sameKey : request.key = old.key)
    (same : request.stage.loads = old.stage.loads) : Locked (service.put id request) := by
  apply @put _ _ _ _ _ _ _ id request service.entries service.locks locked
  intro key other
  by_cases self : other = id
  · subst self
    rw [if_pos rfl, locked.held_iff isOld, sameKey, same]
  · rw [if_neg self]

theorem arrives (locked : Locked service) (absent : service.requests id = none) (idle : request.stage.loads = false) :
    Locked (service.put id request) := by
  apply @put _ _ _ _ _ _ _ id request service.entries service.locks locked
  intro key other
  by_cases self : other = id
  · subst self
    rw [if_pos rfl, locked, idle]
    constructor
    · rintro ⟨found, isFound, _⟩
      rw [absent] at isFound
      cases isFound
    · rintro ⟨_, loading⟩
      cases loading
  · rw [if_neg self]

theorem commits (locked : Locked service) (next : σ) : Locked (commit service next) := by
  intro key id
  refine (locked key id).trans ?_
  constructor
  · rintro ⟨request, isRequest, holds⟩
    exact ⟨_, Option.map_eq_some_iff.mpr ⟨request, isRequest, rfl⟩, holds⟩
  · rintro ⟨_, isRequest, holds⟩
    obtain ⟨request, found, rfl⟩ := Option.map_eq_some_iff.mp isRequest
    exact ⟨request, found, holds⟩

variable [DecidableEq κ]

theorem acquires (locked : Locked service) (isOld : service.requests id = some old) (idle : old.stage.loads = false)
    (free : service.locks old.key = none) (sameKey : request.key = old.key) (loading : request.stage.loads = true) :
    Locked ({ service with locks := Function.update service.locks old.key (some id) }.put id request) := by
  apply @put _ _ _ _ _ _ _ id request service.entries _ locked
  intro key other
  by_cases here : key = old.key
  · subst here
    rw [Function.update_self, Option.some_inj, sameKey, free]
    by_cases self : other = id
    · rw [if_pos self]
      exact iff_of_true self.symm ⟨rfl, loading⟩
    · rw [if_neg self]
      refine iff_of_false (Ne.symm self) ?_
      intro absent
      cases absent
  · rw [Function.update_of_ne here]
    by_cases self : other = id
    · subst self
      rw [if_pos rfl, locked.held_iff isOld, idle, sameKey]
      exact and_congr_right fun same => absurd same.symm here
    · rw [if_neg self]

theorem releases (locked : Locked service) (isOld : service.requests id = some old) (loading : old.stage.loads = true)
    (sameKey : request.key = old.key) (idle : request.stage.loads = false) :
    Locked ({ service with entries, locks := Function.update service.locks old.key none }.put id request) := by
  have held := (locked.held_iff isOld old.key).mpr ⟨rfl, loading⟩
  apply locked.put
  intro key other
  by_cases here : key = old.key
  · subst here
    rw [Function.update_self, held, idle]
    by_cases self : other = id
    · rw [if_pos self]
      refine iff_of_false (by simp) ?_
      rintro ⟨_, still⟩
      cases still
    · rw [if_neg self, Option.some_inj]
      exact iff_of_false (by simp) (Ne.symm self)
  · rw [Function.update_of_ne here]
    by_cases self : other = id
    · subst self
      rw [if_pos rfl, locked.held_iff isOld, idle, sameKey]
      refine iff_of_false (fun holds => here holds.1.symm) ?_
      rintro ⟨same, _⟩
      exact here same.symm
    · rw [if_neg self]

theorem fails (locked : Locked service) (isRequest : service.requests id = some request) :
    Locked (fault service id request) := by
  unfold fault
  cases stage : request.stage with
  | reading => exact locked.moves isRequest rfl (by rw [stage]; rfl)
  | selecting watermark => exact locked.releases isRequest (by rw [stage]; rfl) rfl rfl
  | resolving watermark rows => exact locked.releases isRequest (by rw [stage]; rfl) rfl rfl
  | locking watermark => exact locked
  | putting watermark payload => exact locked
  | answered answer => exact locked

variable [DecidableEq ω] {source : Source σ κ ω ρ π ν ε} {ttl now : Nat}

theorem proceeds (locked : Locked service) (isRequest : service.requests id = some request) :
    Locked (proceed source ttl service id now request) := by
  unfold proceed
  cases stage : request.stage with
  | reading => exact locked.moves isRequest rfl (by rw [stage]; rfl)
  | locking watermark =>
    have idle : request.stage.loads = false := by rw [stage]; rfl
    dsimp only
    split
    · exact locked
    · next free =>
      split
      · exact locked.moves isRequest rfl idle.symm
      · exact locked.acquires isRequest idle (by simpa using free) rfl rfl
  | selecting watermark =>
    have loading : request.stage.loads = true := by rw [stage]; rfl
    dsimp only
    split
    · exact locked.releases isRequest loading rfl rfl
    · exact locked.moves isRequest rfl loading.symm
  | resolving watermark rows => exact locked.moves isRequest rfl (by rw [stage]; rfl)
  | putting watermark payload => exact locked.releases isRequest (by rw [stage]; rfl) rfl rfl
  | answered answer => exact locked

theorem taken (locked : Locked service) (perform : σ → α → σ) (step : Step κ α) :
    Locked (take source ttl perform service step) := by
  cases step with
  | arrive id key =>
    dsimp only [take]
    split
    · exact locked
    · next absent => exact locked.arrives absent rfl
  | advance id now =>
    dsimp only [take]
    split
    · next request isRequest => exact locked.proceeds isRequest
    · exact locked
  | fail id =>
    dsimp only [take]
    split
    · next request isRequest => exact locked.fails isRequest
    · exact locked
  | operate operation => exact locked.commits _

theorem reached (perform : σ → α → σ) (store : σ) (steps : List (Step κ α)) :
    Locked (steps.foldl (take source ttl perform) { store }) := by
  have run : ∀ (steps : List (Step κ α)) (service : Service σ κ ω ρ π ε), Locked service →
      Locked (steps.foldl (take source ttl perform) service) := by
    intro steps
    induction steps with
    | nil => exact fun _ locked => locked
    | cons step rest ih => exact fun service locked => ih _ (locked.taken perform step)
  exact run steps _ (initial store)

end Locked

section Progress

variable {service : Service σ κ ω ρ π ε} {id : Nat} {key : κ} {request : CatalogRequest σ κ ω ρ π ε}

/-- The request has at most so many accesses left, and nobody else has the lock of its key. -/
def Unblocked (service : Service σ κ ω ρ π ε) (id : Nat) (key : κ) (rest : Nat) : Prop :=
  ∃ request, service.requests id = some request ∧ request.key = key ∧ request.stage.rest ≤ rest ∧
    (service.locks key = none ∨ request.stage.loads = true)

namespace Unblocked

theorem put {rest : Nat} {entries : κ → Option (CatalogCacheEntry ω π)} {locks : κ → Option Nat} (isKey : request.key = key)
    (fewer : request.stage.rest ≤ rest) (free : locks key = none ∨ request.stage.loads = true) :
    Unblocked ({ service with entries, locks }.put id request) id key rest :=
  ⟨request, Service.requests_put_self _, isKey, fewer, free⟩

theorem mono {rest more : Nat} (unblocked : Unblocked service id key rest) (le : rest ≤ more) : Unblocked service id key more := by
  obtain ⟨request, isRequest, isKey, near, free⟩ := unblocked
  exact ⟨request, isRequest, isKey, Nat.le_trans near le, free⟩

theorem released (unblocked : Unblocked service id key 0) : service.locks key = none := by
  obtain ⟨request, _, _, done, free⟩ := unblocked
  obtain ⟨answer, answered⟩ := Stage.answered_of_rest (Nat.le_zero.mp done)
  rcases free with free | loading
  · exact free
  · rw [answered] at loading
    cases loading

variable [DecidableEq κ] [DecidableEq ω] {source : Source σ κ ω ρ π ν ε} {ttl now : Nat} {perform : σ → α → σ}

theorem advance {rest : Nat} (unblocked : Unblocked service id key (rest + 1)) :
    Unblocked (take source ttl perform service (.advance id now)) id key rest := by
  obtain ⟨request, isRequest, isKey, near, free⟩ := unblocked
  dsimp only [take]
  rw [isRequest]
  dsimp only
  unfold proceed
  cases stage : request.stage with
  | reading =>
    rw [stage] at near free
    refine Unblocked.put isKey (Nat.le_of_succ_le_succ near) (.inl ?_)
    rcases free with free | loading
    · exact free
    · cases loading
  | locking watermark =>
    rw [stage] at near free
    have free : service.locks key = none := by
      rcases free with free | loading
      · exact free
      · cases loading
    dsimp only
    rw [isKey, free, if_neg (by simp)]
    split
    · exact Unblocked.put rfl (Nat.zero_le rest) (.inl free)
    · exact Unblocked.put rfl (Nat.le_of_succ_le_succ near) (.inr rfl)
  | selecting watermark =>
    rw [stage] at near
    subst isKey
    dsimp only
    split
    · exact Unblocked.put rfl (Nat.zero_le rest) (.inl (Function.update_self _ _ _))
    · exact Unblocked.put rfl (Nat.le_of_succ_le_succ near) (.inr rfl)
  | resolving watermark rows =>
    rw [stage] at near
    exact Unblocked.put isKey (Nat.le_of_succ_le_succ near) (.inr rfl)
  | putting watermark payload =>
    subst isKey
    exact Unblocked.put rfl (Nat.zero_le rest) (.inl (Function.update_self _ _ _))
  | answered answer =>
    rw [stage] at free
    exact ⟨request, isRequest, isKey, by rw [stage]; exact Nat.zero_le rest, by rwa [stage]⟩

theorem advances {rest : Nat} (count : Nat) (unblocked : Unblocked service id key (rest + count)) :
    Unblocked ((List.replicate count (Step.advance id now)).foldl (take source ttl perform) service) id key rest := by
  induction count generalizing service with
  | zero => exact unblocked
  | succ count ih => exact ih unblocked.advance

end Unblocked

variable [DecidableEq κ] [DecidableEq ω] {source : Source σ κ ω ρ π ν ε} {ttl now : Nat} {perform : σ → α → σ}

theorem requests_proceed {other : Nat} (apart : other ≠ id) :
    (proceed source ttl service id now request).requests other = service.requests other := by
  unfold proceed
  split
  · exact Service.requests_put_of_ne _ apart
  · split
    · rfl
    · split <;> exact Service.requests_put_of_ne _ apart
  · split <;> exact Service.requests_put_of_ne _ apart
  · exact Service.requests_put_of_ne _ apart
  · exact Service.requests_put_of_ne _ apart
  · rfl

theorem requests_advances {other : Nat} (apart : other ≠ id) (count : Nat) :
    ((List.replicate count (Step.advance id now)).foldl (take source ttl perform) service).requests other =
      service.requests other := by
  induction count generalizing service with
  | zero => rfl
  | succ count ih =>
    refine ih.trans ?_
    dsimp only [take]
    split
    · exact requests_proceed apart
    · rfl

/-- The holder of the lock ends first, and then the request does. -/
theorem Locked.answers (locked : Locked service) (isRequest : service.requests id = some request) (now : Nat) :
    ∃ holder, Unblocked ((List.replicate 3 (Step.advance holder now) ++ List.replicate 5 (Step.advance id now)).foldl
      (take source ttl perform) service) id request.key 0 := by
  suffices cleared : ∃ holder, Unblocked ((List.replicate 3 (Step.advance holder now)).foldl (take source ttl perform) service)
      id request.key 5 by
    obtain ⟨holder, unblocked⟩ := cleared
    refine ⟨holder, ?_⟩
    rw [List.foldl_append]
    exact unblocked.advances 5
  cases held : service.locks request.key with
  | none => exact ⟨id, Unblocked.advances 3 ⟨request, isRequest, rfl, Nat.le_trans request.stage.rest_le (by simp), .inl held⟩⟩
  | some holder =>
    obtain ⟨loader, isLoader, sameKey, loading⟩ := (locked request.key holder).mp held
    have first : Unblocked ((List.replicate 3 (Step.advance holder now)).foldl (take source ttl perform) service)
        holder request.key 0 := Unblocked.advances 3 ⟨loader, isLoader, sameKey, Stage.rest_le_of_loads loading, .inr loading⟩
    refine ⟨holder, ?_⟩
    by_cases self : id = holder
    · subst self
      exact first.mono (Nat.zero_le 5)
    · exact ⟨request, (requests_advances self 3).trans isRequest, rfl, request.stage.rest_le, .inl first.released⟩

end Progress

section SingleFlight

def debt (key : κ) (service : Service σ κ ω ρ π ε) : Nat :=
  match service.locks key with
  | some id => ((service.requests id).any fun request => request.stage.selects).toNat
  | none => (service.entries key).isNone.toNat

variable [DecidableEq κ]

def queried (key : κ) (service : Service σ κ ω ρ π ε) : Step κ α → Bool
  | .advance id _ | .fail id => (service.requests id).any fun request => decide (request.key = key) && request.stage.selects
  | .arrive .. | .operate _ => false

def CatalogRequest.refused (source : Source σ κ ω ρ π ν ε) (store : σ) (request : CatalogRequest σ κ ω ρ π ε) : Bool :=
  request.stage.selects && !(source.rows request.key store).isOk

def aborted (source : Source σ κ ω ρ π ν ε) (key : κ) (service : Service σ κ ω ρ π ε) : Step κ α → Bool
  | .advance id _ => (service.requests id).any fun request => decide (request.key = key) && request.refused source service.store
  | .fail id => (service.requests id).any fun request => decide (request.key = key) && request.stage.awaits
  | .arrive .. | .operate _ => false

/-- The request is looked up, and there is a page that it may not be served: it has another watermark, or
    it is older than the time to live. -/
def CatalogRequest.outdates [DecidableEq ω] (ttl : Nat) (service : Service σ κ ω ρ π ε) (now : Nat)
    (request : CatalogRequest σ κ ω ρ π ε) : Bool :=
  match request.stage with
  | .locking watermark => (service.locks request.key).isNone && (service.entries request.key).isSome &&
    (get ttl (service.entries request.key) watermark now).isNone
  | _ => false

def superseded [DecidableEq ω] (ttl : Nat) (key : κ) (service : Service σ κ ω ρ π ε) : Step κ α → Bool
  | .advance id now => (service.requests id).any fun request => decide (request.key = key) && request.outdates ttl service now
  | .arrive .. | .fail _ | .operate _ => false

section Debts

variable {key : κ} {service after : Service σ κ ω ρ π ε} {id : Nat} {request : CatalogRequest σ κ ω ρ π ε}

omit [DecidableEq κ]

theorem debt_le_one : debt key service ≤ 1 := by
  unfold debt
  split <;> exact Bool.toNat_le _

theorem debt_congr (sameLock : after.locks key = service.locks key) (sameEntry : after.entries key = service.entries key)
    (sameStage : ∀ holder, service.locks key = some holder →
      (after.requests holder).map (·.stage) = (service.requests holder).map (·.stage)) :
    debt key after = debt key service := by
  unfold debt
  rw [sameLock, sameEntry]
  cases held : service.locks key with
  | none => rfl
  | some holder =>
    have stages := sameStage holder held
    have any : ∀ found : Option (CatalogRequest σ κ ω ρ π ε),
        (found.any fun request => request.stage.selects) = (found.map (·.stage)).any (·.selects) := by
      intro found
      cases found <;> rfl
    dsimp only
    rw [any, stages, any]

/-- A request that has no lock does not change the debt of a key whose page and lock stay. -/
theorem debt_idle (locked : Locked service) (idle : ¬ Holder service key id) (sameLock : after.locks key = service.locks key)
    (sameEntry : after.entries key = service.entries key)
    (others : ∀ other, other ≠ id → after.requests other = service.requests other) : debt key after = debt key service := by
  apply debt_congr sameLock sameEntry
  intro holder held
  rw [others holder]
  rintro rfl
  exact idle ((locked key holder).mp held)

theorem not_holder (isRequest : service.requests id = some request) (idle : request.stage.loads = false ∨ request.key ≠ key) :
    ¬ Holder service key id := by
  rintro ⟨found, isFound, sameKey, loading⟩
  rw [isRequest] at isFound
  cases isFound
  rcases idle with idle | other
  · rw [idle] at loading
    cases loading
  · exact other sameKey

theorem debt_put (locked : Locked service) (idle : ¬ Holder service key id) : debt key (service.put id request) = debt key service :=
  debt_idle locked idle rfl rfl fun _ apart => Service.requests_put_of_ne _ apart

theorem debt_commit (next : σ) : debt key (commit service next) = debt key service := by
  have same : ∀ holder, ((commit service next).requests holder).map (·.stage) = (service.requests holder).map (·.stage) := by
    intro holder
    dsimp only [commit]
    cases service.requests holder <;> rfl
  exact @debt_congr _ _ _ _ _ _ key service (commit service next) rfl rfl fun holder _ => same holder

theorem debt_held (held : service.locks key = some id) (isRequest : service.requests id = some request) :
    debt key service = request.stage.selects.toNat := by
  unfold debt
  rw [held]
  dsimp only
  rw [isRequest]
  rfl

theorem debt_kept {entry : CatalogCacheEntry ω π} (free : service.locks key = none) (kept : service.entries key = some entry) :
    debt key service = 0 := by
  unfold debt
  rw [free]
  dsimp only
  rw [kept]
  rfl

end Debts

variable {service : Service σ κ ω ρ π ε} {key : κ} {id : Nat} {request : CatalogRequest σ κ ω ρ π ε}

theorem other_fault (other : key ≠ request.key) : (fault service id request).locks key = service.locks key ∧
    (fault service id request).entries key = service.entries key := by
  unfold fault
  split
  · exact ⟨rfl, rfl⟩
  · exact ⟨Function.update_of_ne other _ _, rfl⟩
  · exact ⟨Function.update_of_ne other _ _, rfl⟩
  · exact ⟨rfl, rfl⟩
  · exact ⟨rfl, rfl⟩
  · exact ⟨rfl, rfl⟩

theorem requests_fault {other : Nat} (apart : other ≠ id) :
    (fault service id request).requests other = service.requests other := by
  unfold fault
  split
  · exact Service.requests_put_of_ne _ apart
  · exact Service.requests_put_of_ne _ apart
  · exact Service.requests_put_of_ne _ apart
  · rfl
  · rfl
  · rfl

theorem debt_fault_other (locked : Locked service) (isRequest : service.requests id = some request) (other : request.key ≠ key) :
    debt key (fault service id request) = debt key service := by
  obtain ⟨sameLock, sameEntry⟩ := other_fault (Ne.symm other)
  exact debt_idle locked (not_holder isRequest (.inr other)) sameLock sameEntry fun _ apart => requests_fault apart

theorem fault_pays (locked : Locked service) (isRequest : service.requests id = some request) :
    request.stage.selects.toNat + debt request.key (fault service id request) ≤
      request.stage.awaits.toNat + debt request.key service := by
  have owes : request.stage.loads = true → debt request.key service = request.stage.selects.toNat :=
    fun loading => debt_held ((locked.held_iff isRequest request.key).mpr ⟨rfl, loading⟩) isRequest
  have capped := @debt_le_one _ _ _ _ _ _ request.key ((service.release request.key).giveUp id request)
  unfold fault
  cases stage : request.stage with
  | reading =>
    have idle : ¬ Holder service request.key id := not_holder isRequest (.inl (by rw [stage]; rfl))
    dsimp only [Service.giveUp]
    rw [debt_put locked idle]
    simp [Stage.selects]
  | selecting watermark =>
    rw [owes (by rw [stage]; rfl), stage]
    simp only [Stage.selects, Stage.awaits, Bool.toNat_true]
    omega
  | resolving watermark rows =>
    simp only [Stage.selects, Stage.awaits, Bool.toNat_true, Bool.toNat_false]
    omega
  | locking watermark => simp [Stage.selects]
  | putting watermark payload => simp [Stage.selects]
  | answered answer => simp [Stage.selects]

variable [DecidableEq ω] {source : Source σ κ ω ρ π ν ε} {ttl now : Nat}

theorem other_proceed (other : key ≠ request.key) : (proceed source ttl service id now request).locks key = service.locks key ∧
    (proceed source ttl service id now request).entries key = service.entries key := by
  unfold proceed
  split
  · exact ⟨rfl, rfl⟩
  · split
    · exact ⟨rfl, rfl⟩
    · split
      · exact ⟨rfl, rfl⟩
      · exact ⟨Function.update_of_ne other _ _, rfl⟩
  · split
    · exact ⟨Function.update_of_ne other _ _, rfl⟩
    · exact ⟨rfl, rfl⟩
  · exact ⟨rfl, rfl⟩
  · exact ⟨Function.update_of_ne other _ _, Function.update_of_ne other _ _⟩
  · exact ⟨rfl, rfl⟩

theorem debt_proceed_other (locked : Locked service) (isRequest : service.requests id = some request) (other : request.key ≠ key) :
    debt key (proceed source ttl service id now request) = debt key service := by
  obtain ⟨sameLock, sameEntry⟩ := other_proceed (Ne.symm other)
  exact debt_idle locked (not_holder isRequest (.inr other)) sameLock sameEntry fun _ apart => requests_proceed apart

theorem proceed_pays (locked : Locked service) (isRequest : service.requests id = some request) :
    request.stage.selects.toNat + debt request.key (proceed source ttl service id now request) ≤
      (request.refused source service.store).toNat + (request.outdates ttl service now).toNat + debt request.key service := by
  have idle : request.stage.loads = false → ¬ Holder service request.key id := fun idle => not_holder isRequest (.inl idle)
  have owes : request.stage.loads = true → debt request.key service = request.stage.selects.toNat :=
    fun loading => debt_held ((locked.held_iff isRequest request.key).mpr ⟨rfl, loading⟩) isRequest
  unfold proceed CatalogRequest.refused CatalogRequest.outdates
  cases stage : request.stage with
  | reading =>
    dsimp only
    rw [debt_put locked (idle (by rw [stage]; rfl))]
    simp [Stage.selects]
  | locking watermark =>
    dsimp only
    split
    · simp [Stage.selects]
    · next free =>
      split
      · next entry hit =>
        rw [debt_put locked (idle (by rw [stage]; rfl))]
        simp [Stage.selects]
      · next miss =>
        -- who takes the lock takes over what the key owes
        have free : service.locks request.key = none := by simpa using free
        rw [debt_held (Function.update_self _ _ _) (Service.requests_put_self _)]
        unfold debt
        rw [miss, free]
        cases service.entries request.key <;> simp [Stage.selects]
  | selecting watermark =>
    rw [owes (by rw [stage]; rfl), stage]
    dsimp only
    split
    · next error refused =>
      -- the load ends without a page, which pays for the query it leaves due
      rw [refused]
      have paid := @debt_le_one _ _ _ _ _ _ request.key
        ((service.release request.key).put id { request with stage := .answered (.invalid error) })
      simp only [Stage.selects, Except.isOk, Except.toBool, Bool.toNat_true, Bool.not_false, Bool.and_true]
      omega
    · next rows found =>
      have held := (locked.held_iff isRequest request.key).mpr ⟨rfl, by rw [stage]; rfl⟩
      rw [@debt_held _ _ _ _ _ _ request.key (service.put id { request with stage := .resolving watermark rows }) id _ held
        (Service.requests_put_self _)]
      simp [Stage.selects]
  | resolving watermark rows =>
    have held := (locked.held_iff isRequest request.key).mpr ⟨rfl, by rw [stage]; rfl⟩
    dsimp only
    rw [@debt_held _ _ _ _ _ _ request.key (service.put id { request with stage := .putting watermark _ }) id _ held
        (Service.requests_put_self _)]
    simp [Stage.selects]
  | putting watermark payload =>
    dsimp only
    rw [debt_kept (Function.update_self _ _ _) (Function.update_self _ _ _)]
    simp [Stage.selects]
  | answered answer => simp [Stage.selects]

/-- A step sends a query only when one is due, and one falls due only when a load ends without a page or
    a page is out of date. -/
theorem take_pays (locked : Locked service) (perform : σ → α → σ) (key : κ) (step : Step κ α) :
    (queried key service step).toNat + debt key (take source ttl perform service step) ≤
      (aborted source key service step).toNat + (superseded ttl key service step).toNat + debt key service := by
  cases step with
  | arrive id other =>
    dsimp only [take]
    split
    · simp [queried]
    · next absent =>
      have idle : ¬ Holder service key id := by
        rintro ⟨found, isFound, _⟩
        rw [absent] at isFound
        cases isFound
      rw [debt_put locked idle]
      simp [queried]
  | advance id now =>
    dsimp only [take]
    split
    · next request isRequest =>
      dsimp only [queried, aborted, superseded]
      rw [isRequest]
      by_cases same : request.key = key
      · subst same
        simpa using proceed_pays locked isRequest
      · rw [debt_proceed_other locked isRequest same]
        simp [same]
    · next absent => simp [queried, absent]
  | fail id =>
    dsimp only [take]
    split
    · next request isRequest =>
      dsimp only [queried, aborted, superseded]
      rw [isRequest]
      by_cases same : request.key = key
      · subst same
        simpa using fault_pays locked isRequest
      · rw [debt_fault_other locked isRequest same]
        simp [same]
    · next absent => simp [queried, absent]
  | operate operation =>
    dsimp only [take]
    rw [debt_commit]
    simp [queried]

/-- From a state of a run on, a key is queried once, and once more for each load that ends without a page and
    each page that is out of date. -/
theorem queries_le (locked : Locked service) (perform : σ → α → σ) (key : κ) (steps : List (Step κ α)) :
    Runs.total (take source ttl perform) (fun service step => (queried key service step).toNat) service steps ≤
      Runs.total (take source ttl perform)
        (fun service step => (aborted source key service step).toNat + (superseded ttl key service step).toNat) service steps + 1 := by
  have paid := Runs.total_add_le (debt key) Locked (fun _ step locked => locked.taken perform step)
    (fun _ step locked => @take_pays _ _ _ _ _ _ _ _ _ _ _ source ttl locked perform key step) locked steps
  exact Nat.le_trans (Nat.le_add_right _ _) (Nat.le_trans paid (Nat.add_le_add_left debt_le_one _))

end SingleFlight

end Registry.Catalog
