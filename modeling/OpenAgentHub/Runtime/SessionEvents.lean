import OpenAgentHub.Lib.Double
import OpenAgentHub.Lib.Json
import OpenAgentHub.Runtime.UsageStore

namespace Runtime

/-- What the adapters take from the JavaScript runtime. Positions in a decoded file count characters. -/
structure UsageHost where
  decode : List UInt8 → List Char
  decode_newline : ∀ before after, decode (before ++ 10 :: after) = decode before ++ '\n' :: decode after
  decode_plain : ∀ bytes, 10 ∉ bytes → '\n' ∉ decode bytes
  decode_length : ∀ bytes, (decode bytes).length ≤ bytes.length
  jsonParse : List Char → Option Json
  /-- `Number(text)`, where it is finite. -/
  number : String → Option Int
  /-- `toISOString` of a valid date, in milliseconds. -/
  iso : Int → String

def validTime (time : Int) : Bool := -8640000000000000 ≤ time && time ≤ 8640000000000000

structure LimitObservation where
  provider : ProviderName
  window : String
  units : String
  creditsTotal : Option Int
  creditsUsed : Option Int
  resetAt : Option String
  deriving DecidableEq, Repr

/-- What a line of a session file gives. `ignored` says that a line without an observation counts as skipped. -/
structure LineResult where
  observation : Option UsageObservation
  limit : Option LimitObservation
  ignored : Bool
  totals : ModelTotals

def isUsageObject : Json → Bool
  | .obj _ => true
  | _ => false

def usageObject (field : Option Json) : Option Json := field.filter isUsageObject

def textOf (field : Option Json) : Option String := field.bind Json.asString

section Fields

variable (host : UsageHost)

def num : Option Json → Option Int
  | some (.num value) => some value
  | some (.str text) => host.number text
  | _ => none

end Fields

/-! ### Claude -/

structure ModelPrice where
  input : Rat
  output : Rat
  cacheWrite : Rat
  cacheRead : Rat

def pricing : List (String × ModelPrice) :=
  [("claude-opus-4", ⟨15, 75, 75 / 4, 3 / 2⟩),
   ("claude-sonnet-4", ⟨3, 15, 15 / 4, 3 / 10⟩),
   ("claude-haiku-4", ⟨1, 5, 5 / 4, 1 / 10⟩),
   ("claude-3-5-haiku", ⟨4 / 5, 4, 1, 2 / 25⟩),
   ("claude-3-opus", ⟨15, 75, 75 / 4, 3 / 2⟩),
   ("claude-3-sonnet", ⟨3, 15, 15 / 4, 3 / 10⟩),
   ("claude-3-haiku", ⟨1 / 4, 5 / 4, 3 / 10, 3 / 100⟩)]

def claudePrice (model : Option String) : Option ModelPrice :=
  match model with
  | none => none
  | some name => if name = "" then none else (pricing.find? fun entry => Text.startsWith name entry.1).map Prod.snd

/-- Exact where the source rounds. -/
def estimateClaudeCost (obs : UsageObservation) : Option Rat :=
  (claudePrice obs.model).map fun price =>
    (obs.tokensIn * price.input + obs.tokensOut * price.output + obs.cacheWrite.getD 0 * price.cacheWrite +
      obs.cacheRead.getD 0 * price.cacheRead) / 1000000

def eventToObservation (host : UsageHost) (source : String) (event : Json) (lineNo : Nat) (now : Int) :
    Option UsageObservation :=
  (usageObject (some event)).bind fun event =>
    if textOf (event.get "type") ≠ some "assistant" then none
    else
      (usageObject (event.get "message")).bind fun message =>
        (usageObject (message.get "usage")).bind fun usage =>
          let tokensIn := num host (usage.get "input_tokens")
          let tokensOut := num host (usage.get "output_tokens")
          if tokensIn = none ∧ tokensOut = none then none
          else
            let costExact := (num host (usage.get "cost_usd")).map (Int.cast : Int → Rat)
            let occurredAt := (textOf (event.get "timestamp")).getD (host.iso now)
            let base : UsageObservation := {
              provider := .claude
              source := source
              sessionId := textOf (message.get "session_id")
              model := textOf (message.get "model")
              tokensIn := tokensIn.getD 0
              tokensOut := tokensOut.getD 0
              cacheRead := num host (usage.get "cache_read_input_tokens")
              cacheWrite := num host (usage.get "cache_creation_input_tokens")
              occurredAt := occurredAt
              eventKey := (textOf (message.get "uuid")).getD (occurredAt ++ "|" ++ toString lineNo) }
            some { base with
              costExact := costExact
              costEstimated := if costExact.isSome then none else estimateClaudeCost base }

def claudeLine (host : UsageHost) (source : String) (totals : ModelTotals) (event : Json) (lineNo : Nat) (now : Int) :
    Except Unit LineResult :=
  .ok { observation := eventToObservation host source event lineNo now, limit := none, ignored := true, totals := totals }

/-! ### Codex -/

structure UsageRecord where
  tokensIn : Int
  tokensOut : Int
  cumulative : Bool
  model : Option String
  sessionId : Option String
  timestamp : Option String
  id : Option String

def isTrue : Option Json → Bool
  | some (.bool value) => value
  | _ => false

def findUsageRecord (host : UsageHost) (item : Json) : Option UsageRecord := do
  let item ← usageObject (some item)
  let payload := item.get "payload"
  let usageSource ← (usageObject ((usageObject payload).bind (·.get "usage"))).or (usageObject (item.get "usage"))
  let tokensIn := num host (usageSource.get "input_tokens")
  let tokensOut := num host (usageSource.get "output_tokens")
  if tokensIn = none ∧ tokensOut = none then none
  some {
    tokensIn := tokensIn.getD 0
    tokensOut := tokensOut.getD 0
    cumulative := isTrue (usageSource.get "cumulative") || textOf (item.get "type") == some "summary"
    model := ((textOf (usageSource.get "model")).or (textOf (item.get "model"))).or
      (textOf (payload.bind (·.get "model")))
    sessionId := (textOf (usageSource.get "session_id")).or (textOf (item.get "session_id"))
    timestamp := (textOf (usageSource.get "observed_at")).or (textOf (item.get "timestamp"))
    id := (textOf (usageSource.get "id")).or (textOf (item.get "id")) }

/-- The error is the `RangeError` of `toISOString`. -/
def findRateLimit (host : UsageHost) (item : Json) (now : Int) : Except Unit (Option LimitObservation) :=
  match usageObject (some item) with
  | none => .ok none
  | some item =>
    if textOf (item.get "type") ≠ some "ratelimit" then .ok none
    else
      match usageObject (item.get "payload") with
      | none => .ok none
      | some rl =>
        let limit := num host (rl.get "limit")
        let remaining := num host (rl.get "remaining")
        if limit = none ∧ remaining = none then .ok none
        else
          let obs : LimitObservation := {
            provider := .codex
            window := "sliding"
            units := (textOf (rl.get "units")).getD "requests"
            creditsTotal := limit
            creditsUsed :=
              match limit, remaining with
              | some limit, some remaining => some (max 0 (limit - remaining))
              | _, remaining => remaining
            resetAt := none }
          match num host (rl.get "reset_after") with
          | some resetAfter =>
            if resetAfter < 0 then .ok (some obs)
            else if validTime (now + resetAfter * 1000) then
              .ok (some { obs with resetAt := some (host.iso (now + resetAfter * 1000)) })
            else .error ()
          | none => .ok (some obs)

structure CumulativeTotal where
  model : String
  tokensIn : Int
  tokensOut : Int

def findCumulativeTotal (host : UsageHost) (item : Json) : Option CumulativeTotal := do
  let item ← usageObject (some item)
  let totals ← usageObject ((usageObject (item.get "payload")).bind (·.get "totals"))
  let input := num host (totals.get "input_tokens")
  let output := num host (totals.get "output_tokens")
  if input = none ∧ output = none then none
  let model ← textOf (totals.get "model")
  if model = "" then none
  some { model := model, tokensIn := input.getD 0, tokensOut := output.getD 0 }

def cumulativeKey (total : CumulativeTotal) : String :=
  "cum|" ++ total.model ++ "|" ++ toString total.tokensIn ++ "|" ++ toString total.tokensOut

def totalsGrowth (host : UsageHost) (source : String) (stored : ModelTotals) (last : CodexTotal) (total : CumulativeTotal)
    (now : Int) : Option UsageObservation × ModelTotals :=
  let deltaIn := Double.add total.tokensIn (-last.lastInput)
  let deltaOut := Double.add total.tokensOut (-last.lastOutput)
  if deltaIn ≤ 0 ∧ deltaOut ≤ 0 then (none, stored)
  else
    (some {
      provider := .codex
      source := source
      model := some total.model
      tokensIn := deltaIn
      tokensOut := deltaOut
      occurredAt := host.iso now
      eventKey := cumulativeKey total },
     Function.update stored total.model (some ⟨total.tokensIn, total.tokensOut⟩))

def totalsToObservation (host : UsageHost) (source : String) (stored : ModelTotals) (total : CumulativeTotal) (now : Int) :
    Except Unit (Option UsageObservation × ModelTotals) := do
  let last ← UsageStore.getCodexTotal stored total.model
  .ok (totalsGrowth host source stored (last.getD ⟨0, 0⟩) total now)

def recordToObservation (host : UsageHost) (source : String) (rec : UsageRecord) (lineNo : Nat) (now : Int) :
    Option UsageObservation :=
  if rec.cumulative then none
  else
    some {
      provider := .codex
      source := source
      sessionId := rec.sessionId
      model := some (rec.model.getD "unknown")
      tokensIn := rec.tokensIn
      tokensOut := rec.tokensOut
      occurredAt := rec.timestamp.getD (host.iso now)
      eventKey := rec.id.getD (rec.timestamp.getD (toString lineNo) ++ "|" ++ toString lineNo) }

def codexLine (host : UsageHost) (source : String) (totals : ModelTotals) (item : Json) (lineNo : Nat) (now : Int) :
    Except Unit LineResult := do
  let limit ← findRateLimit host item now
  match findCumulativeTotal host item, findUsageRecord host item with
  | some total, _ =>
    let (observation, stored) ← totalsToObservation host source totals total now
    .ok { observation := observation, limit := limit, ignored := true, totals := stored }
  | none, some rec =>
    .ok { observation := recordToObservation host source rec lineNo now, limit := limit, ignored := true, totals := totals }
  | none, none => .ok { observation := none, limit := limit, ignored := limit.isNone, totals := totals }

/-! ### The usage events of a file -/

/-- What a line says, before it gets a time and a key: `own` is its own key, `derived` one that is made of its counts,
    `stamp` its own time. -/
structure UsageEvent where
  own : Option String
  derived : Option String := none
  stamp : Option String
  base : UsageObservation

/-- The observation of an event; `undated` stands in the key for a missing time. -/
def UsageEvent.observed (host : UsageHost) (undated : Nat → Int → String) (event : UsageEvent) (lineNo : Nat) (now : Int) :
    UsageObservation :=
  { event.base with
    occurredAt := event.stamp.getD (host.iso now)
    eventKey := event.own.getD (event.derived.getD (event.stamp.getD (undated lineNo now) ++ "|" ++ toString lineNo)) }

/-- An adapter reads a line, and what it reads is an event that does not depend on when and where the line is read. -/
structure Adapter (host : UsageHost) where
  provider : ProviderName
  source : String
  read : ModelTotals → Json → Nat → Int → Except Unit LineResult
  undated : Nat → Int → String
  event : ModelTotals → Json → Option UsageEvent
  advance : ModelTotals → Json → ModelTotals
  observes : ∀ totals item lineNo now result, read totals item lineNo now = .ok result →
    result.observation = (event totals item).map (fun event => event.observed host undated lineNo now) ∧
      result.totals = advance totals item
  quiet : ∀ totals item, event totals item = none → advance totals item = totals
  belongs : ∀ totals item found, event totals item = some found → found.base.provider = provider ∧ found.base.source = source

def claudeEvent (host : UsageHost) (source : String) (event : Json) : Option UsageEvent :=
  (eventToObservation host source event 0 0).map fun base => {
    own := (usageObject (event.get "message")).bind fun message => textOf (message.get "uuid")
    stamp := textOf (event.get "timestamp")
    base := base }

theorem eventToObservation_eq {host : UsageHost} {source : String} {event : Json} {lineNo : Nat} {now : Int} :
    eventToObservation host source event lineNo now =
      (claudeEvent host source event).map fun found =>
        found.observed host (fun _ now => host.iso now) lineNo now := by
  unfold claudeEvent eventToObservation
  cases opened : usageObject (some event) with
  | none => rfl
  | some event =>
    have same := (Option.filter_eq_some_iff.mp opened).1
    cases same
    by_cases typed : textOf (event.get "type") = some "assistant"
    · cases said : usageObject (event.get "message") with
      | none => simp [typed, said]
      | some message =>
        cases used : usageObject (message.get "usage") with
        | none => simp [typed, said, used]
        | some usage =>
          by_cases missing : num host (usage.get "input_tokens") = none ∧ num host (usage.get "output_tokens") = none
          · simp [typed, said, used, missing]
          · simp [typed, said, used, missing, UsageEvent.observed, estimateClaudeCost]
    · simp [typed]

theorem eventToObservation_belongs {host : UsageHost} {source : String} {event : Json} {lineNo : Nat} {now : Int}
    {obs : UsageObservation} (observed : eventToObservation host source event lineNo now = some obs) :
    obs.provider = .claude ∧ obs.source = source := by
  obtain ⟨event, _, observed⟩ := Option.bind_eq_some_iff.mp observed
  split at observed
  · cases observed
  · obtain ⟨message, _, observed⟩ := Option.bind_eq_some_iff.mp observed
    obtain ⟨usage, _, observed⟩ := Option.bind_eq_some_iff.mp observed
    dsimp only at observed
    split at observed
    · cases observed
    · obtain rfl := Option.some.inj observed
      exact ⟨rfl, rfl⟩

def claudeAdapter (host : UsageHost) (source : String) : Adapter host where
  provider := .claude
  source := source
  read := claudeLine host source
  undated := fun _ now => host.iso now
  event := fun _ item => claudeEvent host source item
  advance := fun totals _ => totals
  observes := by
    intro totals item lineNo now result ok
    obtain rfl := Except.ok.inj ok
    exact ⟨eventToObservation_eq, rfl⟩
  quiet := fun _ _ _ => rfl
  belongs := by
    intro _ item found read
    obtain ⟨base, observed, rfl⟩ := Option.map_eq_some_iff.mp read
    exact eventToObservation_belongs observed

def codexGrowth (host : UsageHost) (source : String) (totals : ModelTotals) (total : CumulativeTotal) (now : Int) :
    Option UsageObservation × ModelTotals :=
  totalsGrowth host source totals ((totals total.model).getD ⟨0, 0⟩) total now

/-- A growth is an event of its own, also where another one has the same totals and so the same key. -/
def codexEvent (host : UsageHost) (source : String) (totals : ModelTotals) (item : Json) : Option UsageEvent :=
  match findCumulativeTotal host item, findUsageRecord host item with
  | some total, _ =>
    (codexGrowth host source totals total 0).1.map fun base =>
      { own := none, derived := some (cumulativeKey total), stamp := none, base := base }
  | none, some rec =>
    (recordToObservation host source rec 0 0).map fun base => { own := rec.id, stamp := rec.timestamp, base := base }
  | none, none => none

def codexAdvance (host : UsageHost) (source : String) (totals : ModelTotals) (item : Json) : ModelTotals :=
  match findCumulativeTotal host item with
  | some total => (codexGrowth host source totals total 0).2
  | none => totals

theorem totalsToObservation_ok {host : UsageHost} {source : String} {totals : ModelTotals} {total : CumulativeTotal}
    {now : Int} {found : Option UsageObservation × ModelTotals}
    (ok : totalsToObservation host source totals total now = .ok found) : found = codexGrowth host source totals total now := by
  unfold totalsToObservation UsageStore.getCodexTotal at ok
  unfold codexGrowth
  cases known : totals total.model with
  | none =>
    rw [known] at ok
    exact (Except.ok.inj ok).symm
  | some last =>
    rw [known] at ok
    dsimp only at ok
    split at ok
    · exact (Except.ok.inj ok).symm
    · cases ok

theorem codexGrowth_eq {host : UsageHost} {source : String} {totals : ModelTotals} {total : CumulativeTotal}
    {now : Int} (lineNo : Nat) : codexGrowth host source totals total now =
      ((codexGrowth host source totals total 0).1.map fun base =>
        UsageEvent.observed host (fun lineNo _ => toString lineNo)
          { own := none, derived := some (cumulativeKey total), stamp := none, base := base } lineNo now,
       (codexGrowth host source totals total 0).2) := by
  unfold codexGrowth totalsGrowth
  dsimp only
  split
  · rfl
  · rfl

theorem recordToObservation_eq {host : UsageHost} {source : String} {rec : UsageRecord} (lineNo : Nat) (now : Int) :
    recordToObservation host source rec lineNo now =
      (recordToObservation host source rec 0 0).map fun base =>
        UsageEvent.observed host (fun lineNo _ => toString lineNo)
          { own := rec.id, stamp := rec.timestamp, base := base } lineNo now := by
  unfold recordToObservation
  split
  · rfl
  · rfl

def codexAdapter (host : UsageHost) (source : String) : Adapter host where
  provider := .codex
  source := source
  read := codexLine host source
  undated := fun lineNo _ => toString lineNo
  event := codexEvent host source
  advance := codexAdvance host source
  observes := by
    intro totals item lineNo now result ok
    cases limited : findRateLimit host item now with
    | error thrown =>
      simp only [codexLine, limited] at ok
      cases ok
    | ok limit =>
      simp only [codexLine, limited, codexEvent, codexAdvance] at ok ⊢
      cases counted : findCumulativeTotal host item with
      | some total =>
        rw [counted] at ok
        cases grown : totalsToObservation host source totals total now with
        | error thrown =>
          simp only [bind, Except.bind, grown] at ok
          cases ok
        | ok growth =>
          simp only [bind, Except.bind, grown] at ok
          obtain rfl := Except.ok.inj ok
          obtain rfl := totalsToObservation_ok grown
          dsimp only
          rw [codexGrowth_eq lineNo, Option.map_map]
          exact ⟨rfl, rfl⟩
      | none =>
        rw [counted] at ok
        cases record : findUsageRecord host item with
        | some rec =>
          rw [record] at ok
          obtain rfl := Except.ok.inj ok
          dsimp only
          rw [recordToObservation_eq lineNo now, Option.map_map]
          exact ⟨rfl, rfl⟩
        | none =>
          rw [record] at ok
          obtain rfl := Except.ok.inj ok
          exact ⟨rfl, rfl⟩
  quiet := by
    intro totals item silent
    unfold codexEvent at silent
    unfold codexAdvance
    cases total : findCumulativeTotal host item with
    | none => rfl
    | some total =>
      rw [total] at silent
      simp only [Option.map_eq_none_iff] at silent
      unfold codexGrowth totalsGrowth at silent ⊢
      dsimp only at silent ⊢
      split at silent
      · rename_i unchanged
        rw [if_pos unchanged]
      · cases silent
  belongs := by
    intro totals item found read
    unfold codexEvent at read
    cases total : findCumulativeTotal host item with
    | some total =>
      rw [total] at read
      obtain ⟨base, observed, rfl⟩ := Option.map_eq_some_iff.mp read
      unfold codexGrowth totalsGrowth at observed
      dsimp only at observed
      split at observed
      · cases observed
      · obtain rfl := Option.some.inj observed
        exact ⟨rfl, rfl⟩
    | none =>
      rw [total] at read
      cases record : findUsageRecord host item with
      | none =>
        rw [record] at read
        cases read
      | some rec =>
        rw [record] at read
        obtain ⟨base, observed, rfl⟩ := Option.map_eq_some_iff.mp read
        unfold recordToObservation at observed
        split at observed
        · cases observed
        · obtain rfl := Option.some.inj observed
          exact ⟨rfl, rfl⟩

end Runtime
