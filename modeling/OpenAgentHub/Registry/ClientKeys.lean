import Mathlib.Data.List.TakeWhile
import OpenAgentHub.Lib.Text

namespace Registry.RateLimit

structure RateLimitRule where
  limit : Nat
  windowSeconds : Nat

structure RateLimitExceeded where
  limit : Nat
  windowSeconds : Nat
  retryAfter : Nat

/-- What the limits look at: the direct peer and the first `X-Forwarded-For` header. -/
structure Request where
  client : Option String
  forwardedFor : Option String

def trustedClientIp (request : Request) (trustedProxies : List String) : String :=
  let peer := request.client.getD ""
  if peer ∈ trustedProxies then
    let forwarded := request.forwardedFor.getD ""
    if forwarded = "" then peer
    else
      match Text.split ',' forwarded with
      | first :: _ => Text.strip first
      | [] => peer
  else peer

def ipKey (bucket : String) (request : Request) (trustedProxies : List String) : String :=
  bucket ++ ":" ++ trustedClientIp request trustedProxies

/-- `check` gives the seconds until the next call is allowed, over the state `σ` of the backend. -/
abbrev Check (σ : Type) := String → Nat → Nat → σ → Option Nat × σ

def enforceRule {σ : Type} (check : Check σ) (key : String) (rule : RateLimitRule) (state : σ) :
    Except RateLimitExceeded Unit × σ :=
  match check key rule.limit rule.windowSeconds state with
  | (some retry, state) => (.error ⟨rule.limit, rule.windowSeconds, retry⟩, state)
  | (none, state) => (.ok (), state)

def enforce {σ : Type} (check : Check σ) (trustedProxies : List String) (request : Request) (ipRule accountRule : Option RateLimitRule)
    (accountKey : Option String) (bucket : String) (state : σ) : Except RateLimitExceeded Bool × σ :=
  let byIp :=
    match ipRule with
    | some rule => enforceRule check (ipKey bucket request trustedProxies) rule state
    | none => (.ok (), state)
  match byIp with
  | (.error exceeded, state) => (.error exceeded, state)
  | (.ok (), state) =>
    match accountRule, accountKey.filter (· ≠ "") with
    | some rule, some key =>
      match enforceRule check ("acct:" ++ key) rule state with
      | (.error exceeded, state) => (.error exceeded, state)
      | (.ok (), state) => (.ok true, state)
    | _, _ => (.ok ipRule.isSome, state)

structure Address where
  text : String
  filled : text ≠ ""
  plain : ',' ∉ text.toList
  trimmed : Text.strip text = text

/-- The header that a proxy sends on: what its client sent, with the client's address at the end. -/
def appended (sent : Option String) (address : Address) : String :=
  match sent with
  | some text => text ++ ", " ++ address.text
  | none => address.text

def throughProxy (proxy : String) (sent : Option String) (address : Address) : Request where
  client := some proxy
  forwardedFor := some (appended sent address)

def firstEntry (text : String) : String := Text.strip (String.ofList (text.toList.takeWhile (· ≠ ',')))

def claimed (sent : Option String) (address : Address) : String :=
  match sent with
  | some text => firstEntry text
  | none => address.text

variable {trustedProxies : List String} {proxy : String} {address : Address} {sent other : Option String}

theorem trustedClientIp_eq {text : String} (trusted : proxy ∈ trustedProxies) (filled : text ≠ "") :
    trustedClientIp ⟨some proxy, some text⟩ trustedProxies = firstEntry text := by
  obtain ⟨others, pieces⟩ := Text.head_splitOn ',' text.toList
  unfold trustedClientIp
  simp only [Option.getD_some, trusted, filled, if_true, if_false, Text.split, pieces, List.map_cons]
  rfl

theorem firstEntry_appended : firstEntry (appended sent address) = claimed sent address := by
  cases sent with
  | none =>
    have whole : address.text.toList.takeWhile (· ≠ ',') = address.text.toList := by
      rw [List.takeWhile_eq_self_iff]
      intro char member
      rw [decide_eq_true_eq]
      rintro rfl
      exact address.plain member
    show Text.strip (String.ofList (address.text.toList.takeWhile (· ≠ ','))) = address.text
    rw [whole, String.ofList_toList]
    exact address.trimmed
  | some text =>
    have spread : (appended (some text) address).toList = text.toList ++ ',' :: ' ' :: address.text.toList := by
      simp [appended]
    show Text.strip (String.ofList ((appended (some text) address).toList.takeWhile (· ≠ ','))) = firstEntry text
    rw [spread, Text.takeWhile_before]
    rfl

theorem appended_filled : appended sent address ≠ "" := by
  cases sent with
  | none => exact address.filled
  | some text =>
    intro empty
    have chars := congrArg String.toList empty
    simp [appended] at chars

/-- Behind a trusted proxy, the key of a request names the address that the request claims. -/
theorem ipKey_claimed (bucket : String) (trusted : proxy ∈ trustedProxies) :
    ipKey bucket (throughProxy proxy sent address) trustedProxies = bucket ++ ":" ++ claimed sent address := by
  rw [ipKey, throughProxy, trustedClientIp_eq trusted appended_filled, firstEntry_appended]

/-- Two requests of one client get one key exactly where they claim one address. -/
theorem client_key_iff (bucket : String) (trusted : proxy ∈ trustedProxies) :
    ipKey bucket (throughProxy proxy sent address) trustedProxies =
        ipKey bucket (throughProxy proxy other address) trustedProxies ↔
      claimed sent address = claimed other address := by
  rw [ipKey_claimed bucket trusted, ipKey_claimed bucket trusted]
  exact String.append_right_inj _

def clientAddress : Address := ⟨"203.0.113.7", by decide, by decide, by decide⟩

/-- A client that sends a header of its own gets a key of its own choice. -/
theorem forged_key : ipKey "ip" (throughProxy "10.0.0.1" (some "6.6.6.6") clientAddress) ["10.0.0.1"] ≠
    ipKey "ip" (throughProxy "10.0.0.1" (some "7.7.7.7") clientAddress) ["10.0.0.1"] := by
  decide

theorem genuine_key : ipKey "ip" (throughProxy "10.0.0.1" (some "203.0.113.7 , 6.6.6.6") clientAddress) ["10.0.0.1"] =
    ipKey "ip" (throughProxy "10.0.0.1" none clientAddress) ["10.0.0.1"] :=
  (client_key_iff "ip" (List.mem_singleton.mpr rfl)).mpr (by decide)

end Registry.RateLimit
