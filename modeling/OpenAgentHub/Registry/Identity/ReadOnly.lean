import OpenAgentHub.Registry.Billing.Deadlines
import OpenAgentHub.Registry.Billing.Routes
import OpenAgentHub.Registry.Identity.Attenuation

namespace Registry.Identity

open Relational Packages Organizations Billing

inductive Route where
  | identity (call : Call)
  | billing (call : Billing.Call)

structure Visit where
  now : Time
  headers : Headers := {}
  throttled : Bool := false
  route : Route

def respond (host : IdentityHost) (db : Db) (visit : Visit) : Except Raised (Db × Option Caller) :=
  match visit.route with
  | .identity call => handle host db ⟨visit.now, visit.headers, visit.throttled, call⟩
  | .billing call => do
    let (after, caller) ← handleCall host visit.now db visit.headers visit.throttled call
    return (after, some caller)

def ReadOnlyToken (row : ApiToken) : Prop := ∀ scope, scope ∈ scopeSet row.scopes ↔ scope = "packages:read"

def current (settings : Settings) (now : Time) (db : Db) (organizationId : Nat) : OrganizationSubscription :=
  (subscription db organizationId).getD (newSubscription settings now organizationId db.subscriptions.next)

def Upkept (settings : Settings) (now : Time) (db after : Db) (organizationId : Nat) : Prop :=
  subscription after organizationId = subscription db organizationId ∨
    subscription after organizationId = some (current settings now db organizationId) ∨
    ∃ status reason, dueTransition settings now (current settings now db organizationId) = some (status, reason) ∧
      subscription after organizationId = some (stamped now (moved settings now (current settings now db organizationId) status))

structure Unwritten (settings : Settings) (now : Time) (db after : Db) (row : ApiToken) : Prop where
  users : after.users.rows = db.users.rows
  tokens : after.apiTokens.rows = (touchApiToken db now row.id).apiTokens.rows
  keys : after.signingKeys.rows = db.signingKeys.rows
  overrides : after.orgQuotas.rows = db.orgQuotas.rows
  subscriptions : ∀ organizationId, Upkept settings now db after organizationId

/-- `api_token_scopes` reads from the header what FastAPI took from it, and does not take it for a JWT. -/
def Announced (host : IdentityHost) (now : Time) (headers : Headers) : Prop :=
  ∃ token, host.httpBearer headers.authorization = some token ∧ bearerToken headers.authorization = some token ∧
    token ≠ "" ∧ host.decodeToken now token = none

def Settled (host : IdentityHost) (now : Time) (db : Db) : Route → Prop
  | .identity (.uploadKey publicKey _ _) => ∃ fingerprint,
      publicKeyFingerprint host.toPackageHost publicKey = .ok fingerprint ∧ keyByFingerprint db fingerprint ≠ none
  | .identity (.revokeKey keyId) => ∃ key, db.signingKeys.byId keyId = some key ∧ key.revokedAt.isSome = true
  | .identity (.revokeToken tokenId) => ∃ row, db.apiTokens.byId tokenId = some row ∧ row.revokedAt.isSome = true
  | .identity (.adminSuspendUser userId suspended) => ∃ user, db.users.byId userId = some user ∧
      user.status = if suspended then .suspended else .active
  | .identity (.createToken ..) | .identity (.rotateToken ..) => False
  | .identity _ => True
  | .billing (.getOrgBilling _) => True
  | .billing (.transitionBilling slug status _) => ∃ org, orgBySlug db slug = some org ∧
      (status = (current host.settings now db org.id).status.name ∨ ∃ due reason,
        dueTransition host.settings now (current host.settings now db org.id) = some (due, reason) ∧ status = due.name)
  | .billing (.changeOrgPlan slug plan) => ∃ org chosen, orgBySlug db slug = some org ∧ Plan.ofName plan = some chosen ∧
      replanned host.settings now (current host.settings now db org.id) chosen = current host.settings now db org.id
  | .billing (.updateOrgQuota slug limits ttlDays) => ∃ org, orgBySlug db slug = some org ∧
      Quotas.Restates now db org.id limits ttlDays

/-- The routes that ask for the scope `keys:manage`. -/
def asksScope : Route → Bool
  | .identity (.uploadKey ..) | .identity (.revokeKey _) | .identity (.createToken ..) | .identity (.revokeToken _)
  | .identity (.rotateToken ..) => true
  | _ => false

section Subscriptions

variable {settings : Settings} {now : Time} {db after : Db} {sub result : OrganizationSubscription} {organizationId : Nat}

theorem subscriptionFor_current (done : subscriptionFor settings now db organizationId = .ok (after, sub)) :
    sub = current settings now db organizationId := by
  unfold subscriptionFor ensureSubscription at done
  unfold current
  split at done
  · rename_i row found
    have stored : subscription db organizationId = some row := found
    cases done
    rw [stored]
    rfl
  · rename_i missing
    have absent : subscription db organizationId = none := missing
    simp only [Outcome.bind_eq_ok, Prod.exists, Outcome.pure_eq_ok, Prod.mk.injEq] at done
    obtain ⟨_, _, inserted, _, rfl⟩ := done
    rw [absent]
    exact (Table.insert_eq_some.mp (Db.insertRow_eq_ok.mp inserted)).2.1

theorem subscriptionFor_upkept (done : subscriptionFor settings now db organizationId = .ok (after, sub)) (organization : Nat) :
    Upkept settings now db after organization := by
  obtain ⟨_, its, others⟩ := subscriptionFor_lookup done
  by_cases same : organization = organizationId
  · rw [same]
    rw [subscriptionFor_current done] at its
    exact .inr (.inl its)
  · exact .inl (others organization same)

theorem SubscriptionStatus.name_ofName {text : String} {status : SubscriptionStatus}
    (named : SubscriptionStatus.ofName text = some status) : status.name = text := by
  simpa using List.find?_some named

theorem SubscriptionStatus.name_injective {first second : SubscriptionStatus} (same : first.name = second.name) :
    first = second := by
  have named := SubscriptionStatus.ofName_name first
  rw [same, SubscriptionStatus.ofName_name] at named
  exact (Option.some.inj named).symm

theorem transitionStatus_result {newStatus : String} {change : Change}
    (done : transitionStatus settings now db sub newStatus change = .ok (after, result)) :
    (newStatus = sub.status.name ∧ result = sub) ∨
      ∃ status, status.name = newStatus ∧ status ≠ sub.status ∧ result = stamped now (moved settings now sub status) := by
  unfold transitionStatus at done
  split at done
  · rename_i same
    cases done
    exact .inl ⟨same, rfl⟩
  · rename_i other
    simp only [Outcome.bind_eq_ok, Outcome.demand_eq_ok, Option.filter_eq_some_iff, Outcome.pure_eq_ok,
      Prod.mk.injEq] at done
    obtain ⟨status, ⟨named, _⟩, _, rfl⟩ := done
    have spelled := SubscriptionStatus.name_ofName named
    refine .inr ⟨status, spelled, ?_, rfl⟩
    rintro rfl
    exact other spelled.symm

theorem advanceDue_result (stored : sub ∈ db.subscriptions.rows)
    (done : advanceDue settings now db sub = .ok (after, result)) :
    subscription after sub.organizationId = some result ∧
      (∀ organization, organization ≠ sub.organizationId → subscription after organization = subscription db organization) ∧
      (result = sub ∨ ∃ status reason, dueTransition settings now sub = some (status, reason) ∧
        result = stamped now (moved settings now sub status)) := by
  unfold advanceDue at done
  split at done
  · rename_i status reason due
    obtain ⟨_, its, others⟩ := transitionStatus_lookup stored done
    refine ⟨its, others, ?_⟩
    rcases transitionStatus_result done with ⟨_, same⟩ | ⟨_, named, _, isMoved⟩
    · exact .inl same
    · rw [SubscriptionStatus.name_injective named] at isMoved
      exact .inr ⟨status, reason, due, isMoved⟩
  · cases done
    exact ⟨subscription_eq_some.mpr ⟨stored, rfl⟩, fun _ _ => rfl, .inl rfl⟩

theorem reconcileSubscription_upkept (done : reconcileSubscription settings now db organizationId = .ok after)
    (organization : Nat) : Upkept settings now db after organization := by
  simp only [reconcileSubscription, Outcome.bind_eq_ok, Outcome.pure_eq_ok, Prod.exists] at done
  obtain ⟨read, sub, found, advanced, result, transition, rfl⟩ := done
  have isCurrent := subscriptionFor_current found
  obtain ⟨_, readIts, readOthers⟩ := subscriptionFor_lookup found
  obtain ⟨stored, named⟩ := subscription_eq_some.mp readIts
  obtain ⟨its, others, outcome⟩ := advanceDue_result stored transition
  rw [named] at its others
  unfold Upkept
  rw [subscription_of_same (scheduleTimed_subscriptions ..)]
  by_cases same : organization = organizationId
  · rw [same, its, ← isCurrent]
    rcases outcome with rfl | ⟨status, reason, due, rfl⟩
    · exact .inr (.inl rfl)
    · exact .inr (.inr ⟨status, reason, due, rfl⟩)
  · exact .inl ((others organization same).trans (readOthers organization same))

/-- A row with a status of its own choosing shows as such. -/
theorem transition_upkept_iff {newStatus : String} {actorId : Option Nat} {reason : Option String}
    (done : Billing.perform settings now db (.transitionStatus organizationId newStatus actorId reason) = .ok after) :
    (∀ organization, Upkept settings now db after organization) ↔
      newStatus = (current settings now db organizationId).status.name ∨ ∃ due reason,
        dueTransition settings now (current settings now db organizationId) = some (due, reason) ∧ newStatus = due.name := by
  simp only [Billing.perform, Outcome.bind_eq_ok, Prod.exists] at done
  obtain ⟨read, sub, found, moving⟩ := done
  obtain ⟨result, transition⟩ := Outcome.map_fst_ok.mp moving
  obtain ⟨_, readIts, readOthers⟩ := subscriptionFor_lookup found
  obtain ⟨stored, named⟩ := subscription_eq_some.mp readIts
  obtain ⟨_, its, others⟩ := transitionStatus_lookup stored transition
  rw [named] at its others
  rw [← subscriptionFor_current found]
  have elsewhere : ∀ organization, organization ≠ organizationId → Upkept settings now db after organization :=
    fun organization other => .inl ((others organization other).trans (readOthers organization other))
  constructor
  · intro upkept
    rcases transitionStatus_result transition with ⟨same, _⟩ | ⟨status, spelled, changed, isMoved⟩
    · exact .inl same
    · have its' := upkept organizationId
      unfold Upkept at its'
      rw [its, ← subscriptionFor_current found] at its'
      rcases its' with unchanged | isCurrent | ⟨due, reason, isDue, isResult⟩
      · have isSub : sub = result := by
          rw [subscriptionFor_current found]
          unfold current
          rw [← unchanged]
          rfl
        rw [isSub, isMoved] at changed
        exact absurd rfl changed
      · rw [← Option.some.inj isCurrent, isMoved] at changed
        exact absurd rfl changed
      · refine .inr ⟨due, reason, isDue, ?_⟩
        have statuses := congrArg OrganizationSubscription.status (isMoved.symm.trans (Option.some.inj isResult))
        rw [← spelled]
        exact congrArg SubscriptionStatus.name statuses
  · intro asked organization
    by_cases same : organization = organizationId
    · rw [same]
      unfold Upkept
      rw [its, ← subscriptionFor_current found]
      rcases transitionStatus_result transition with ⟨_, isSub⟩ | ⟨status, spelled, changed, isMoved⟩
      · rw [isSub]
        exact .inr (.inl rfl)
      · rcases asked with still | ⟨due, reason, isDue, isNamed⟩
        · exact absurd (SubscriptionStatus.name_injective (spelled.trans still)) changed
        · rw [isMoved, SubscriptionStatus.name_injective (spelled.trans isNamed)]
          exact .inr (.inr ⟨due, reason, isDue, rfl⟩)
    · exact elsewhere organization same

theorem changePlan_upkept_iff {newPlan : String} {actorId : Option Nat}
    (done : Billing.perform settings now db (.changePlan organizationId newPlan actorId) = .ok after) :
    (∀ organization, Upkept settings now db after organization) ↔
      ∃ chosen, Plan.ofName newPlan = some chosen ∧
        replanned settings now (current settings now db organizationId) chosen = current settings now db organizationId := by
  simp only [Billing.perform, Outcome.bind_eq_ok, Prod.exists] at done
  obtain ⟨read, sub, found, moving⟩ := done
  obtain ⟨result, changing⟩ := Outcome.map_fst_ok.mp moving
  obtain ⟨_, readIts, readOthers⟩ := subscriptionFor_lookup found
  obtain ⟨stored, named⟩ := subscription_eq_some.mp readIts
  obtain ⟨⟨plan, isPlan, _, rfl⟩, lookup⟩ := changePlan_lookup stored changing
  rw [named] at lookup
  rw [← subscriptionFor_current found]
  constructor
  · intro upkept
    refine ⟨plan, isPlan, ?_⟩
    have its := upkept organizationId
    unfold Upkept at its
    rw [lookup, if_pos rfl, ← subscriptionFor_current found] at its
    rcases its with unchanged | isCurrent | ⟨due, reason, isDue, isResult⟩
    · rw [subscriptionFor_current found] at unchanged ⊢
      nth_rewrite 2 [current]
      rw [← unchanged]
      rfl
    · exact Option.some.inj isCurrent
    · have statuses := congrArg OrganizationSubscription.status (Option.some.inj isResult)
      exact absurd (congrArg SubscriptionStatus.name statuses).symm (dueTransition_cases isDue).2.1
  · rintro ⟨chosen, isChosen, same⟩ organization
    cases isPlan.symm.trans isChosen
    unfold Upkept
    rw [lookup]
    by_cases isIt : organizationId = organization
    · rw [if_pos isIt, same, ← isIt, ← subscriptionFor_current found]
      exact .inr (.inl rfl)
    · rw [if_neg isIt]
      exact .inl (readOthers organization (Ne.symm isIt))

end Subscriptions

section Requests

variable {host : IdentityHost} {settings : Settings} {now : Time} {db after resolved : Db} {row : ApiToken} {caller : Caller}

theorem Touched.of_apiToken (touched : Touched now db resolved (.apiToken row)) :
    resolved = touchApiToken db now row.id := by
  cases touched
  rfl

theorem unwritten_of_holdings (same : Billing.holdings after = Billing.holdings (touchApiToken db now row.id))
    (upkept : ∀ organizationId, Upkept settings now db after organizationId) : Unwritten settings now db after row := by
  simp only [Billing.holdings, Prod.mk.injEq] at same
  obtain ⟨users, tokens, keys, overrides⟩ := same
  exact ⟨congrArg _ users, congrArg _ tokens, congrArg _ keys, congrArg _ overrides, upkept⟩

/-- With everything else in place, a request writes nothing when it leaves the subscriptions alone. -/
theorem unwritten_iff_upkept (same : Billing.holdings after = Billing.holdings (touchApiToken db now row.id)) :
    Unwritten settings now db after row ↔ ∀ organizationId, Upkept settings now db after organizationId :=
  ⟨Unwritten.subscriptions, unwritten_of_holdings same⟩

theorem upkept_start {start : Db} {organizationId : Nat} (same : start.subscriptions = db.subscriptions) :
    Upkept settings now start after organizationId ↔ Upkept settings now db after organizationId := by
  unfold Upkept current subscription
  rw [same]

theorem upkept_touched {tokenId organizationId : Nat} :
    Upkept settings now (touchApiToken db now tokenId) after organizationId ↔ Upkept settings now db after organizationId :=
  upkept_start rfl

theorem effectiveLimits_opened (settings : Settings) (now : Time) (db : Db) (organizationId : Nat) :
    ∃ sub, subscriptionFor settings now db organizationId =
      .ok ((Quotas.effectiveLimits settings now db organizationId).1, sub) := by
  obtain ⟨opened, sub, ensured⟩ := subscriptionFor_total settings now db organizationId
  refine ⟨sub, ensured.trans ?_⟩
  unfold Quotas.effectiveLimits
  rw [ensured]
  dsimp only
  split
  · rfl
  · split
    · rfl
    · split <;> rfl

theorem performCall_unwritten_iff {user : User} {call : Billing.Call}
    (done : performCall host.settings now (touchApiToken db now row.id) user call = .ok after) :
    Unwritten host.settings now db after row ↔ Settled host now db (.billing call) := by
  cases call with
  | getOrgBilling slug =>
    simp only [performCall, Outcome.bind_eq_ok] at done
    obtain ⟨org, _, reconciled⟩ := done
    refine iff_of_true (unwritten_of_holdings (reconcileSubscription_holdings reconciled) ?_) trivial
    intro organizationId
    exact upkept_touched.mp (reconcileSubscription_upkept reconciled organizationId)
  | transitionBilling slug status reason =>
    simp only [performCall, Outcome.bind_eq_ok] at done
    obtain ⟨org, member, transition⟩ := done
    have found : orgBySlug db slug = some org := orgAndMember_ok member
    have upkept := transition_upkept_iff transition
    simp only [upkept_touched] at upkept
    rw [unwritten_iff_upkept (perform_transition_holdings transition), upkept]
    constructor
    · exact fun asked => ⟨org, found, asked⟩
    · rintro ⟨_, same, asked⟩
      cases found.symm.trans same
      exact asked
  | changeOrgPlan slug plan =>
    simp only [performCall, Outcome.bind_eq_ok] at done
    obtain ⟨org, member, change⟩ := done
    have found : orgBySlug db slug = some org := orgAndMember_ok member
    have upkept := changePlan_upkept_iff change
    simp only [upkept_touched] at upkept
    rw [unwritten_iff_upkept (perform_plan_holdings change), upkept]
    constructor
    · rintro ⟨chosen, named, same⟩
      exact ⟨org, chosen, found, named, same⟩
    · rintro ⟨_, chosen, same, named, kept⟩
      cases found.symm.trans same
      exact ⟨chosen, named, kept⟩
  | updateOrgQuota slug limits ttlDays =>
    obtain ⟨org, result, found, set⟩ := updateOrgQuota_ok done
    obtain ⟨orgQuotas, auditEvents, rfl, restates⟩ := Quotas.setOrgQuotaOverrides_frame set
    obtain ⟨sub, opened⟩ := effectiveLimits_opened host.settings now
      { touchApiToken db now row.id with orgQuotas, auditEvents } org.id
    have kept := (ensureSubscription_billingOnly opened).holdings
    simp only [Billing.holdings, Prod.mk.injEq] at kept
    obtain ⟨users, tokens, keys, overrides⟩ := kept
    constructor
    · intro unwritten
      refine ⟨org, found, restates.mp ?_⟩
      show orgQuotas.rows = db.orgQuotas.rows
      rw [← unwritten.overrides, overrides]
    · rintro ⟨_, same, asked⟩
      cases found.symm.trans same
      refine ⟨congrArg _ users, congrArg _ tokens, congrArg _ keys, ?_, fun organizationId => ?_⟩
      · rw [overrides]
        exact restates.mpr asked
      · exact (upkept_start rfl).mp (subscriptionFor_upkept opened organizationId)

theorem userFromBearer_apiToken {token : String} (found : userFromBearer host now db token = some (resolved, caller))
    (presented : caller.credential = .apiToken row) :
    apiTokenByHash db (host.hashToken token) = some row ∧ row.revokedAt = none ∧ resolved = touchApiToken db now row.id := by
  unfold userFromBearer at found
  split at found
  · rename_i interactive
    cases found
    rcases interactiveUser_some interactive with ⟨_, jwt, _⟩ | ⟨_, session⟩
    · cases jwt.symm.trans presented
    · cases session.symm.trans presented
  · obtain ⟨_, stored, usable, _, _, credential, rfl⟩ := userFromApiToken_some found
    cases credential.symm.trans presented
    refine ⟨stored, ?_, rfl⟩
    simp only [usableToken, Bool.and_eq_true, Option.isNone_iff_eq_none] at usable
    exact usable.1.1

theorem touchApiToken_byHash {tokenHash : String} {tokenId : Nat} (stored : apiTokenByHash db tokenHash = some row) :
    ∃ found, apiTokenByHash (touchApiToken db now tokenId) tokenHash = some found ∧ found.revokedAt = row.revokedAt ∧
      found.scopes = row.scopes := by
  have lookup : (touchApiToken db now tokenId).apiTokens.one (·.tokenHash == tokenHash) = _ :=
    Table.one_modify (lastUsed_preserves now) fun _ => rfl
  unfold apiTokenByHash at stored ⊢
  rw [lookup, stored, Option.map_some]
  refine ⟨_, rfl, ?_⟩
  split
  · exact ⟨rfl, rfl⟩
  · exact ⟨rfl, rfl⟩

theorem apiTokenScopes_announced {headers : Headers} {token : String} (seen : bearerToken headers.authorization = some token)
    (present : token ≠ "") (undecoded : host.decodeToken now token = none)
    (stored : apiTokenByHash db (host.hashToken token) = some row) (unrevoked : row.revokedAt = none) :
    apiTokenScopes host now db headers = some (scopeSet row.scopes) := by
  have given : (bearerToken headers.authorization).filter (· ≠ "") = some token := by
    rw [seen, Option.filter_some, if_pos (by simpa using present)]
  have usable : (apiTokenByHash db (host.hashToken token)).filter (·.revokedAt.isNone) = some row := by
    rw [stored, Option.filter_some, if_pos (by simp [unrevoked])]
  unfold apiTokenScopes
  rw [given]
  show (if (host.decodeToken now token).isSome then none else _) = _
  rw [undecoded, usable]
  rfl

/-- A token presented where `api_token_scopes` sees it is held to its scopes. -/
theorem requireScope_refuses {headers : Headers} {scope : String} (announced : Announced host now headers)
    (lacking : scope ∉ scopeSet row.scopes) (presented : caller.credential = .apiToken row) :
    requireScope host now db headers [scope] ≠ .ok (resolved, caller) := by
  intro served
  obtain ⟨token, taken, seen, present, undecoded⟩ := announced
  obtain ⟨recognised, permitted⟩ := requireScope_ok served
  have current := (requireActiveUser_ok recognised).1
  unfold getCurrentUser at current
  rw [taken, Outcome.demand_some, Outcome.ok_bind, Outcome.demand_eq_ok] at current
  obtain ⟨stored, unrevoked, rfl⟩ := userFromBearer_apiToken current presented
  obtain ⟨found, isFound, revocation, scopes⟩ := touchApiToken_byHash stored
  have granted := apiTokenScopes_announced seen present undecoded isFound (revocation.trans unrevoked)
  obtain ⟨_, isScope, allowed⟩ := permitted _ granted
  rw [List.mem_singleton.mp isScope, scopes] at allowed
  exact lacking allowed

theorem unwritten_touched (settings : Settings) (now : Time) (db : Db) (row : ApiToken) :
    Unwritten settings now db (touchApiToken db now row.id) row := ⟨rfl, rfl, rfl, rfl, fun _ => .inl rfl⟩

section Keys

variable {headers : Headers} {user : User}

theorem uploadKey_unwritten_iff {publicKey : String} {label : Option String} {expiresAt : Option Time} {key : SigningKey}
    (done : registerSigningKey host.toPackageHost now (touchApiToken db now row.id) user publicKey label expiresAt =
      .ok (after, key)) :
    Unwritten settings now db after row ↔ Settled host now db (.identity (.uploadKey publicKey label expiresAt)) := by
  simp only [registerSigningKey, Outcome.bind_eq_ok, reraise_eq_ok] at done
  obtain ⟨fingerprint, hashed, rest⟩ := done
  cases known : keyByFingerprint (touchApiToken db now row.id) fingerprint with
  | some existing =>
    rw [known] at rest
    simp only [Outcome.bind_eq_ok, Outcome.pure_eq_ok, Prod.mk.injEq] at rest
    obtain ⟨_, _, rfl, _⟩ := rest
    have registered : keyByFingerprint db fingerprint ≠ none := fun missing => by
      cases known.symm.trans missing
    exact iff_of_true (unwritten_touched ..) ⟨fingerprint, hashed, registered⟩
  | none =>
    rw [known] at rest
    simp only [Outcome.bind_eq_ok, Outcome.pure_eq_ok, Prod.mk.injEq, Prod.exists] at rest
    obtain ⟨_, signingKeys, inserted, rfl, _⟩ := rest
    obtain ⟨_, _, rows, _⟩ := Table.insert_eq_some.mp (Db.insertRow_eq_ok.mp inserted)
    refine iff_of_false ?_ ?_
    · intro unwritten
      have kept : signingKeys.rows = db.signingKeys.rows := unwritten.keys
      rw [rows] at kept
      exact absurd (congrArg List.length kept) (by simp [touchApiToken])
    · rintro ⟨other, same, registered⟩
      cases hashed.symm.trans same
      exact registered known

theorem revokeKey_unwritten_iff {keyId : Nat} {key : SigningKey}
    (done : revokeSigningKey host.toPackageHost now (touchApiToken db now row.id) user keyId = .ok (after, key)) :
    Unwritten settings now db after row ↔ Settled host now db (.identity (.revokeKey keyId)) := by
  simp only [revokeSigningKey, Outcome.bind_eq_ok, Outcome.demand_eq_ok] at done
  obtain ⟨stored, found, _, _, rest⟩ := done
  have inDb : db.signingKeys.byId keyId = some stored := found
  split at rest
  · rename_i revoked
    cases rest
    exact iff_of_true (unwritten_touched ..) ⟨_, inDb, revoked⟩
  · rename_i unrevoked
    cases rest
    refine iff_of_false ?_ ?_
    · intro unwritten
      obtain ⟨member, isKey⟩ := Table.byId_eq_some.mp inDb
      have fixed := Table.modify_fixed (keyRevoked_preserves now) unwritten.keys member (beq_iff_eq.mpr isKey)
      rw [← fixed] at unrevoked
      exact unrevoked rfl
    · rintro ⟨_, same, revoked⟩
      cases inDb.symm.trans same
      exact unrevoked revoked

end Keys

section Tokens

variable {user : User}

theorem written_of_new {fresh : ApiToken} (member : fresh ∈ after.apiTokens.rows) (new : db.apiTokens.next ≤ fresh.id) :
    ¬ Unwritten settings now db after row := by
  intro unwritten
  rw [unwritten.tokens] at member
  exact absurd new (Nat.not_le.mpr ((touchApiToken db now row.id).apiTokens.ids_below fresh member))

theorem createToken_written {raw : String} {asked : TokenRequest} {fresh : ApiToken}
    (done : createToken host now (touchApiToken db now row.id) user raw asked = .ok (after, fresh)) :
    ¬ Unwritten settings now db after row := by
  simp only [createToken, Outcome.bind_eq_ok] at done
  obtain ⟨_, _, created⟩ := done
  obtain ⟨_, rfl, apiTokens, _, rfl, rows⟩ := createApiToken_ok created
  have member : newToken host.toHost now user raw asked db.apiTokens.next ∈ apiTokens.rows := by
    rw [rows]
    exact List.mem_append_right _ (List.mem_singleton.mpr rfl)
  exact written_of_new member (Nat.le_refl _)

theorem rotateToken_written {host : Host} {tokenId : Nat} {raw : String} {expiresInDays : Option Int} {fresh : ApiToken}
    (done : rotateApiToken host now (touchApiToken db now row.id) user tokenId raw expiresInDays = .ok (after, fresh)) :
    ¬ Unwritten settings now db after row := by
  obtain ⟨existing, apiTokens, auditEvents, found, _, rfl, _, rows, rfl⟩ := rotateApiToken_ok done
  have below := (touchApiToken db now row.id).apiTokens.ids_below
  have older : existing.id < (touchApiToken db now row.id).apiTokens.next := below existing (Table.byId_eq_some.mp found).1
  obtain ⟨member, _⟩ := (rotated_mem older rows below).mpr rfl
  exact written_of_new member (Nat.le_refl _)

theorem revokeToken_unwritten_iff {tokenId : Nat}
    (done : revokeApiToken now (touchApiToken db now row.id) user tokenId = .ok after) :
    Unwritten settings now db after row ↔ Settled host now db (.identity (.revokeToken tokenId)) := by
  obtain ⟨found, stored, _, outcome⟩ := revokeApiToken_ok done
  have touched : Touched now db (touchApiToken db now row.id) (.apiToken row) := .apiToken row
  obtain ⟨update, lastUse, same⟩ := touched.byId tokenId
  obtain ⟨before, inDb, isFound⟩ := Option.map_eq_some_iff.mp (same.symm.trans stored)
  have revocation : found.revokedAt = before.revokedAt := by
    obtain ⟨_, updated⟩ := lastUse before
    rw [← isFound, updated]
  rcases outcome with ⟨revoked, rfl⟩ | ⟨unrevoked, auditEvents, rfl⟩
  · rw [revocation] at revoked
    exact iff_of_true (unwritten_touched ..) ⟨before, inDb, revoked⟩
  · refine iff_of_false ?_ ?_
    · intro unwritten
      have fixed := Table.modify_fixed (revoked_preserves now) unwritten.tokens (Table.byId_eq_some.mp stored).1
        (beq_self_eq_true _)
      rw [← fixed] at unrevoked
      cases unrevoked
    · rintro ⟨other, isIt, revoked⟩
      cases inDb.symm.trans isIt
      rw [← revocation, unrevoked] at revoked
      cases revoked

theorem suspendUser_unwritten_iff {actor result : User} {userId : Nat} {suspended : Bool}
    (done : suspendUser now (touchApiToken db now row.id) actor userId suspended = .ok (after, result)) :
    Unwritten settings now db after row ↔ Settled host now db (.identity (.adminSuspendUser userId suspended)) := by
  obtain ⟨target, found, _, outcome⟩ := suspendUser_ok done
  have inDb : db.users.byId userId = some target := found
  rcases outcome with ⟨same, rfl⟩ | ⟨other, auditEvents, rfl⟩
  · exact iff_of_true (unwritten_touched ..) ⟨target, inDb, same⟩
  · refine iff_of_false ?_ ?_
    · intro unwritten
      have fixed := Table.modify_fixed (status_preserves _) unwritten.users (Table.byId_eq_some.mp inDb).1
        (beq_self_eq_true _)
      exact other (congrArg User.status fixed).symm
    · rintro ⟨_, isIt, same⟩
      cases inDb.symm.trans isIt
      exact other same

end Tokens

theorem asksScope_authenticate {headers : Headers} {throttled : Bool} {call : Call}
    (asks : asksScope (.identity call) = true) :
    authenticate host db ⟨now, headers, throttled, call⟩ = requireScope host now db headers ["keys:manage"] := by
  cases call <;> first | rfl | cases asks

/-- What an identity route commits for the holder of an API token. -/
theorem handle_unwritten_iff {request : Request} (done : handle host db request = .ok (after, some caller))
    (presented : caller.credential = .apiToken row) :
    Unwritten settings request.now db after row ↔ Settled host request.now db (.identity request.call) := by
  obtain ⟨resolved, authenticated, performed⟩ := handle_some.mp done
  have touched := authenticate_touched authenticated
  rw [presented] at touched
  have isTouched := touched.of_apiToken
  obtain ⟨now, headers, throttled, call⟩ := request
  subst isTouched
  cases call with
  | uploadKey publicKey label expiresAt =>
    obtain ⟨_, registered⟩ := Outcome.map_fst_ok.mp performed
    exact uploadKey_unwritten_iff registered
  | revokeKey keyId =>
    obtain ⟨_, revoked⟩ := Outcome.map_fst_ok.mp performed
    exact revokeKey_unwritten_iff revoked
  | createToken raw asked =>
    obtain ⟨_, created⟩ := Outcome.map_fst_ok.mp performed
    exact iff_of_false (createToken_written created) id
  | revokeToken tokenId => exact revokeToken_unwritten_iff performed
  | rotateToken tokenId raw expiresInDays =>
    obtain ⟨_, rotation⟩ := Outcome.map_fst_ok.mp performed
    exact iff_of_false (rotateToken_written rotation) id
  | adminSuspendUser userId suspended =>
    obtain ⟨_, changed⟩ := Outcome.map_fst_ok.mp performed
    exact suspendUser_unwritten_iff changed
  | deleteMyAccount confirm =>
    obtain ⟨_, session, _⟩ := resolveCookieSessionOnly_ok authenticated
    cases session.symm.trans presented
  | approveDevice userCode =>
    simp only [authenticate, Outcome.bind_eq_ok] at authenticated
    obtain ⟨_, _, recognised⟩ := authenticated
    exact absurd presented (resolveCookieInteractive_interactive recognised row)
  | updateAgreements tos privacy publisher =>
    exact absurd presented (resolveCookieInteractive_interactive authenticated row)
  | revokeMySession sessionId => exact absurd presented (resolveCookieInteractive_interactive authenticated row)
  | logout =>
    obtain ⟨_, session, _⟩ := resolveCookieSessionOnly_ok authenticated
    cases session.symm.trans presented

end Requests

/-- Read-only tokens are read-only on the routes that ask for a scope and see the token, and otherwise
    where the request asks for what is there. -/
theorem read_only_iff {host : IdentityHost} {db after : Db} {visit : Visit} {caller : Caller} {row : ApiToken}
    (done : respond host db visit = .ok (after, some caller)) (presented : caller.credential = .apiToken row)
    (readOnly : ReadOnlyToken row) :
    Unwritten host.settings visit.now db after row ↔
      (asksScope visit.route = true ∧ Announced host visit.now visit.headers) ∨ Settled host visit.now db visit.route := by
  obtain ⟨now, headers, throttled, route⟩ := visit
  have settled : Unwritten host.settings now db after row ↔ Settled host now db route := by
    cases route with
    | identity call => exact handle_unwritten_iff done presented
    | billing call =>
      simp only [respond, Outcome.bind_eq_ok, Outcome.pure_eq_ok, Prod.exists, Prod.mk.injEq, Option.some.injEq] at done
      obtain ⟨_, _, handled, rfl, rfl⟩ := done
      obtain ⟨resolved, authenticated, performed⟩ := handleCall_ok handled
      have touched := resolveCookieActiveUser_touched authenticated
      rw [presented] at touched
      rw [touched.of_apiToken] at performed
      exact performCall_unwritten_iff performed
  rw [settled]
  refine ⟨.inr, ?_⟩
  rintro (⟨asks, announced⟩ | already)
  · have lacking : "keys:manage" ∉ scopeSet row.scopes := by
      rw [readOnly "keys:manage"]
      decide
    cases route with
    | billing call => cases asks
    | identity call =>
      obtain ⟨resolved, authenticated, _⟩ := handle_some.mp done
      rw [asksScope_authenticate asks] at authenticated
      exact absurd authenticated (requireScope_refuses announced lacking presented)
  · exact already

section Desk

def readerRow : ApiToken where
  id := 1
  userId := 1
  tokenHash := readerToken.digest
  tokenPrefix := "oah_UQkxpU05"
  label := "reader"
  scopes := "packages:read"
  expiresAt := some (days 90)

def office : Db where
  users := signedUp
  organizations := .single { id := 1, slug := "acme", displayName := "Acme" }
  organizationMembers := .single { id := 1, organizationId := 1, userId := 1, role := .owner }
  apiTokens := ⟨[readerRow], 2, by decide, by decide⟩

theorem readerRow_readOnly : ReadOnlyToken readerRow := by
  have granted : scopeSet readerRow.scopes = ["packages:read"] := by decide +kernel
  intro scope
  rw [granted, List.mem_singleton]

theorem reader_recognised : resolveCookieActiveUser deskHost 1 office (bearing readerToken.raw) =
    .ok (touchApiToken office 1 1, ⟨founder, .apiToken readerRow⟩) := by
  have presented : bearerToken (bearing readerToken.raw).authorization = some readerToken.raw :=
    bearerToken_bearing (by decide +kernel)
  have undecoded : deskHost.decodeToken 1 readerToken.raw = none := by decide +kernel
  have hashed : deskHost.hashToken readerToken.raw = readerToken.digest := by decide +kernel
  have found : userFromBearer deskHost 1 office readerToken.raw =
      some (touchApiToken office 1 1, ⟨founder, .apiToken readerRow⟩) := by
    unfold userFromBearer interactiveUser jwtUser userFromApiToken
    rw [undecoded, hashed]
    rfl
  have absent : (bearing readerToken.raw).cookie.filter (· ≠ "") = none := rfl
  unfold resolveCookieActiveUser resolveCookieUser resolveCookieWith
  rw [absent, presented]
  dsimp only [Option.bind_some]
  rw [found]
  rfl

theorem reader_served {call : Billing.Call} {after : Db}
    (performed : performCall deskHost.settings 1 (touchApiToken office 1 1) founder call = .ok after) :
    respond deskHost office ⟨1, bearing readerToken.raw, false, .billing call⟩ =
      .ok (after, some ⟨founder, .apiToken readerRow⟩) := by
  have handled : handleCall deskHost 1 office (bearing readerToken.raw) false call =
      .ok (after, ⟨founder, .apiToken readerRow⟩) := by
    unfold handleCall
    refine Outcome.bind_eq_ok.mpr ⟨_, reader_recognised, ?_⟩
    exact Outcome.bind_eq_ok.mpr ⟨(), rfl, Outcome.bind_eq_ok.mpr ⟨after, performed, rfl⟩⟩
  unfold respond
  dsimp only
  rw [handled]
  rfl

theorem reading_billing_is_read_only : ∃ after,
    respond deskHost office ⟨1, bearing readerToken.raw, false, .billing (.getOrgBilling "acme")⟩ =
      .ok (after, some ⟨founder, .apiToken readerRow⟩) ∧ Unwritten deskHost.settings 1 office after readerRow := by
  have succeeds : (performCall deskHost.settings 1 (touchApiToken office 1 1) founder (.getOrgBilling "acme")).isOk =
      true := by decide +kernel
  obtain ⟨after, performed⟩ := Outcome.isOk_iff.mp succeeds
  have served := reader_served performed
  exact ⟨after, served, (read_only_iff served rfl readerRow_readOnly).mpr (.inr trivial)⟩

/-- The owner's read-only token cancels the subscription. -/
theorem read_only_token_cancels : ∃ after,
    respond deskHost office ⟨1, bearing readerToken.raw, false, .billing (.transitionBilling "acme" "canceled" none)⟩ =
      .ok (after, some ⟨founder, .apiToken readerRow⟩) ∧ ReadOnlyToken readerRow ∧
      ¬ Unwritten deskHost.settings 1 office after readerRow := by
  have performed : ∃ after, performCall deskHost.settings 1 (touchApiToken office 1 1) founder
      (.transitionBilling "acme" "canceled" none) = .ok after := ⟨_, rfl⟩
  obtain ⟨after, performed⟩ := performed
  refine ⟨after, reader_served performed, readerRow_readOnly, fun unwritten => ?_⟩
  obtain ⟨org, found, asked⟩ := (performCall_unwritten_iff performed).mp unwritten
  cases found
  rcases asked with still | ⟨due, reason, isDue, _⟩
  · exact absurd still (by decide +kernel)
  · have none_due : dueTransition deskHost.settings 1 (current deskHost.settings 1 office 1) = none := by decide +kernel
    cases none_due.symm.trans isDue

end Desk

end Registry.Identity
