import OpenAgentHub.Lib.Runs
import OpenAgentHub.Runtime.Launch

namespace Runtime

open Sdk (Thrown)

/-- What an open vault takes from `node:crypto` and `JSON`. The `iv` of a write is drawn at random. -/
structure VaultHost where
  pathFor : String → String
  masterKeyPath : String
  encrypt : (iv plaintext : String) → String
  decrypt : String → Option String
  stringify : Record String → String
  parse : String → Option (Record String)

/-- Decryption undoes encryption, `JSON.parse` undoes `JSON.stringify` but for the order of the keys, and no two
    agent keys share a file. -/
structure VaultHost.Sound (host : VaultHost) : Prop where
  apart : Function.Injective host.pathFor
  decrypts : ∀ iv plaintext, host.decrypt (host.encrypt iv plaintext) = some plaintext
  parses : ∀ values, ∃ read, host.parse (host.stringify values) = some read ∧ ∀ name, read.get name = values.get name

abbrev VaultFiles := String → Option String

def integrationVaultKey : String := "__integrations__"

/-- `object[key] = value` on a plain object, where `__proto__` takes no text unless it is already a key of its own. -/
def assign (values : Record String) (key value : String) : Record String :=
  if key = "__proto__" ∧ values.get key = none then values else values.set key value

def withoutEmpty (values : Record String) : Record String :=
  values.discard fun name => values.get name == some ""

section Vault

variable (host : VaultHost) (iv : String) (files : VaultFiles)

def vaultCorrupt (agentKey : String) : Thrown :=
  ⟨.vaultCorruptError, "secret file " ++ host.pathFor agentKey ++ " failed to decrypt — the master key (" ++ host.masterKeyPath ++
    ") may have changed or the file is corrupt\nrecovery: encrypted secrets are unrecoverable by design; " ++
    "delete this file and re-store the secrets with: agent env " ++ agentKey ++ " KEY=VALUE"⟩

namespace SecretsVault

def get : SecretsVault := fun agentKey =>
  match files (host.pathFor agentKey) with
  | none => .ok {}
  | some raw => Outcome.demand ((host.decrypt raw).bind host.parse) (vaultCorrupt host agentKey)

/-- The values are merged into those of the file. -/
def set (agentKey : String) (values : Record String) : Except Thrown VaultFiles := do
  let current ← get host files agentKey
  let merged := withoutEmpty (current.spread values)
  return Function.update files (host.pathFor agentKey) (some (host.encrypt iv (host.stringify merged)))

def delete (agentKey : String) : VaultFiles := Function.update files (host.pathFor agentKey) none

end SecretsVault

def storeIntegrationKey (env value : String) : Except Thrown VaultFiles := do
  let current ← SecretsVault.get host files integrationVaultKey
  SecretsVault.set host iv files integrationVaultKey (assign current env value)

def clearIntegrationKey (env : String) : Except Thrown VaultFiles := do
  let current ← SecretsVault.get host files integrationVaultKey
  SecretsVault.set host iv files integrationVaultKey (current.discard (· == env))

end Vault

inductive VaultCall where
  | storeIntegrationKey (env value : String)
  | clearIntegrationKey (env : String)
  | set (agentKey : String) (values : Record String)
  | delete (agentKey : String)

def VaultCall.agentKey : VaultCall → String
  | .storeIntegrationKey _ _ => integrationVaultKey
  | .clearIntegrationKey _ => integrationVaultKey
  | .set agentKey _ => agentKey
  | .delete agentKey => agentKey

def VaultCall.outcome (host : VaultHost) (iv : String) (files : VaultFiles) : VaultCall → Except Thrown VaultFiles
  | .storeIntegrationKey env value => Runtime.storeIntegrationKey host iv files env value
  | .clearIntegrationKey env => Runtime.clearIntegrationKey host iv files env
  | .set agentKey values => SecretsVault.set host iv files agentKey values
  | .delete agentKey => .ok (SecretsVault.delete host files agentKey)

/-- A call with its random bytes. A call that throws leaves the files as they are. -/
def callVault (host : VaultHost) (files : VaultFiles) (call : String × VaultCall) : VaultFiles :=
  (call.2.outcome host call.1 files).toOption.getD files

section MapLaw

def nonEmpty (value : String) : Option String := if value = "" then none else some value

/-- What a call says of a name of its agent key: that it has a value from now on, or none, or nothing at all. -/
def VaultCall.means (name : String) : VaultCall → Option (Option String)
  | .storeIntegrationKey env value => if name = env then some (nonEmpty value) else none
  | .clearIntegrationKey env => if name = env then some none else none
  | .set _ values => (values.get name).map nonEmpty
  | .delete _ => some none

def lastStored (agentKey name : String) (past : List (String × VaultCall)) : Option String :=
  past.foldl (fun value call => if call.2.agentKey = agentKey then (call.2.means name).getD value else value) none

def MapLaw (host : VaultHost) (run : VaultFiles × List (String × VaultCall)) : Prop :=
  ∀ agentKey, ∃ values, SecretsVault.get host run.1 agentKey = .ok values ∧
    ∀ name, values.get name = lastStored agentKey name run.2

/-- No name is cleared that has a value, and no value is stored under `__proto__` where it has none. -/
def Heeded (run : VaultFiles × List (String × VaultCall)) (call : String × VaultCall) : Prop :=
  match call.2 with
  | .storeIntegrationKey env value =>
    env = "__proto__" → value ≠ "" → lastStored integrationVaultKey env run.2 ≠ none
  | .clearIntegrationKey env => lastStored integrationVaultKey env run.2 = none
  | .set _ _ => True
  | .delete _ => True

end MapLaw

section Calls

variable {host : VaultHost} {files : VaultFiles} {agentKey other name : String} {current values : Record String}

theorem nonEmpty_means {call : VaultCall} {value : Option String} (said : call.means name = some value) :
    value.bind nonEmpty = value := by
  have stable : ∀ text, (nonEmpty text).bind nonEmpty = nonEmpty text := by
    intro text
    by_cases empty : text = "" <;> simp [nonEmpty, empty]
  cases call with
  | storeIntegrationKey env text =>
    rw [VaultCall.means] at said
    split at said
    · cases said
      exact stable text
    · cases said
  | clearIntegrationKey env =>
    rw [VaultCall.means] at said
    split at said
    · cases said
      rfl
    · cases said
  | set agentKey values =>
    obtain ⟨text, _, rfl⟩ := Option.map_eq_some_iff.mp said
    exact stable text
  | delete agentKey =>
    cases said
    rfl

theorem lastStored_snoc {past : List (String × VaultCall)} {call : String × VaultCall} :
    lastStored agentKey name (past ++ [call]) =
      if call.2.agentKey = agentKey then (call.2.means name).getD (lastStored agentKey name past)
      else lastStored agentKey name past := by
  rw [lastStored, List.foldl_append]
  rfl

theorem lastStored_nonEmpty (past : List (String × VaultCall)) :
    (lastStored agentKey name past).bind nonEmpty = lastStored agentKey name past := by
  induction past using List.reverseRecOn with
  | nil => rfl
  | append_singleton past call ih =>
    rw [lastStored_snoc]
    split
    · cases said : call.2.means name with
      | none => exact ih
      | some value => exact nonEmpty_means said
    · exact ih

theorem get_withoutEmpty : (withoutEmpty values).get name = (values.get name).bind nonEmpty := by
  rw [withoutEmpty, Record.get_discard]
  cases present : values.get name with
  | none => simp
  | some text => by_cases empty : text = "" <;> simp [nonEmpty, empty]

theorem get_assign {env value : String} : (assign values env value).get name =
    if name = env ∧ ¬(env = "__proto__" ∧ values.get env = none) then some value else values.get name := by
  unfold assign
  by_cases refused : env = "__proto__" ∧ values.get env = none
  · rw [if_pos refused, if_neg (fun both => both.2 refused)]
  · rw [if_neg refused, Record.get_set]
    simp only [refused, not_false_eq_true, and_true]

theorem get_elsewhere (sound : host.Sound) (apart : other ≠ agentKey) (content : Option String) :
    SecretsVault.get host (Function.update files (host.pathFor agentKey) content) other = SecretsVault.get host files other := by
  have elsewhere : host.pathFor other ≠ host.pathFor agentKey := fun same => apart (sound.apart same)
  unfold SecretsVault.get
  rw [Function.update_of_ne elsewhere]

theorem set_spec (sound : host.Sound) (iv : String) (values : Record String) (readable : SecretsVault.get host files agentKey = .ok current) :
    ∃ after, SecretsVault.set host iv files agentKey values = .ok after ∧
      ∃ left, SecretsVault.get host after agentKey = .ok left ∧
        ∀ name, left.get name = ((values.get name).or (current.get name)).bind nonEmpty := by
  obtain ⟨left, parsed, same⟩ := sound.parses (withoutEmpty (current.spread values))
  have stored : SecretsVault.set host iv files agentKey values = .ok (Function.update files (host.pathFor agentKey)
      (some (host.encrypt iv (host.stringify (withoutEmpty (current.spread values)))))) := by
    rw [SecretsVault.set, readable]
    rfl
  refine ⟨_, stored, left, ?_, ?_⟩
  · unfold SecretsVault.get
    rw [Function.update_self]
    simp only [sound.decrypts, Option.bind_some, parsed, Outcome.demand_some]
  · intro name
    rw [same, get_withoutEmpty, Record.get_spread]

def VaultCall.leaves (current : Record String) (name : String) : VaultCall → Option String
  | .storeIntegrationKey env value => (((assign current env value).get name).or (current.get name)).bind nonEmpty
  | .clearIntegrationKey env => (((current.discard (· == env)).get name).or (current.get name)).bind nonEmpty
  | .set _ values => ((values.get name).or (current.get name)).bind nonEmpty
  | .delete _ => none

theorem callVault_own (sound : host.Sound) (iv : String) (call : VaultCall)
    (readable : SecretsVault.get host files call.agentKey = .ok current) :
    ∃ left, SecretsVault.get host (callVault host files (iv, call)) call.agentKey = .ok left ∧
      ∀ name, left.get name = call.leaves current name := by
  cases call with
  | storeIntegrationKey env value =>
    dsimp only [VaultCall.agentKey] at readable ⊢
    obtain ⟨after, stored, spec⟩ := set_spec sound iv (assign current env value) readable
    rw [callVault, VaultCall.outcome, storeIntegrationKey, readable, Outcome.ok_bind, stored]
    exact spec
  | clearIntegrationKey env =>
    dsimp only [VaultCall.agentKey] at readable ⊢
    obtain ⟨after, stored, spec⟩ := set_spec sound iv (current.discard (· == env)) readable
    rw [callVault, VaultCall.outcome, clearIntegrationKey, readable, Outcome.ok_bind, stored]
    exact spec
  | set agentKey values =>
    dsimp only [VaultCall.agentKey] at readable ⊢
    obtain ⟨after, stored, spec⟩ := set_spec sound iv values readable
    rw [callVault, VaultCall.outcome, stored]
    exact spec
  | delete agentKey =>
    refine ⟨{}, ?_, fun _ => rfl⟩
    rw [callVault, VaultCall.outcome]
    unfold SecretsVault.get
    simp [SecretsVault.delete, VaultCall.agentKey, Except.toOption]

theorem callVault_frame (sound : host.Sound) (call : String × VaultCall) (apart : other ≠ call.2.agentKey) :
    SecretsVault.get host (callVault host files call) other = SecretsVault.get host files other := by
  have stored : ∀ iv values, SecretsVault.get host ((SecretsVault.set host iv files call.2.agentKey values).toOption.getD files)
      other = SecretsVault.get host files other := by
    intro iv values
    cases read : SecretsVault.get host files call.2.agentKey with
    | error raised =>
      rw [SecretsVault.set, read]
      rfl
    | ok current =>
      rw [SecretsVault.set, read]
      exact get_elsewhere sound apart _
  obtain ⟨iv, call⟩ := call
  cases call with
  | storeIntegrationKey env value =>
    rw [callVault, VaultCall.outcome, storeIntegrationKey]
    cases read : SecretsVault.get host files integrationVaultKey with
    | error raised => rfl
    | ok current => exact stored iv _
  | clearIntegrationKey env =>
    rw [callVault, VaultCall.outcome, clearIntegrationKey]
    cases read : SecretsVault.get host files integrationVaultKey with
    | error raised => rfl
    | ok current => exact stored iv _
  | set agentKey values => exact stored iv values
  | delete agentKey => exact get_elsewhere sound apart none

end Calls

section Law

variable {host : VaultHost} {run : VaultFiles × List (String × VaultCall)} {call : VaultCall} {current : Record String}

/-- A call leaves what it says exactly when it is heeded. -/
theorem leaves_iff (solid : ∀ name, (current.get name).bind nonEmpty = current.get name)
    (stored : ∀ name, current.get name = lastStored call.agentKey name run.2) (iv : String) :
    (∀ name, call.leaves current name = (call.means name).getD (current.get name)) ↔ Heeded run (iv, call) := by
  cases call with
  | storeIntegrationKey env value =>
    dsimp only [VaultCall.leaves, VaultCall.means, Heeded, VaultCall.agentKey] at stored ⊢
    rw [← stored env]
    constructor
    · intro told isProto given absent
      have same := told env
      rw [get_assign, if_neg (fun both => both.2 ⟨isProto, absent⟩), if_pos rfl, absent] at same
      simp [nonEmpty, given] at same
    · intro heeded name
      rw [get_assign]
      by_cases named : name = env
      · subst named
        by_cases refused : name = "__proto__" ∧ current.get name = none
        · have empty : value = "" := by
            by_contra given
            exact heeded refused.1 given refused.2
          rw [if_neg (fun both => both.2 refused), refused.2, if_pos rfl, empty]
          rfl
        · simp only [refused, not_false_eq_true, and_self, if_true, Option.some_or, Option.bind_some, Option.getD_some]
      · simp only [named, false_and, if_false, Option.getD_none, Option.or_self]
        exact solid name
  | clearIntegrationKey env =>
    dsimp only [VaultCall.leaves, VaultCall.means, Heeded, VaultCall.agentKey] at stored ⊢
    rw [← stored env]
    have survives : ∀ name, ((current.discard (· == env)).get name).or (current.get name) = current.get name := by
      intro name
      rw [Record.get_discard]
      by_cases named : name = env <;> simp [named]
    constructor
    · intro told
      have same := told env
      rw [survives, solid, if_pos rfl] at same
      exact same
    · intro absent name
      rw [survives, solid]
      by_cases named : name = env
      · rw [named, absent, if_pos rfl]
        rfl
      · rw [if_neg named]
        rfl
  | set agentKey values =>
    refine iff_of_true (fun name => ?_) trivial
    dsimp only [VaultCall.leaves, VaultCall.means]
    cases values.get name with
    | none => exact solid name
    | some value => rfl
  | delete agentKey => exact iff_of_true (fun name => rfl) trivial

/-- Where the law holds, a call keeps it exactly when the call is heeded. -/
theorem mapLaw_call_iff (sound : host.Sound) (law : MapLaw host run) (call : String × VaultCall) :
    MapLaw host (Runs.logged (callVault host) run call) ↔ Heeded run call := by
  obtain ⟨current, readable, stored⟩ := law call.2.agentKey
  obtain ⟨left, reads, leaves⟩ := callVault_own sound call.1 call.2 readable
  have solid : ∀ name, (current.get name).bind nonEmpty = current.get name := by
    intro name
    rw [stored]
    exact lastStored_nonEmpty run.2
  rw [← leaves_iff solid stored call.1]
  constructor
  · intro after name
    obtain ⟨values, readsToo, same⟩ := after call.2.agentKey
    rw [show values = left from Except.ok.inj (readsToo.symm.trans reads)] at same
    rw [← leaves, same, Runs.logged, lastStored_snoc, if_pos rfl, stored]
  · intro told agentKey
    by_cases own : agentKey = call.2.agentKey
    · subst own
      refine ⟨left, reads, fun name => ?_⟩
      rw [leaves, told, Runs.logged, lastStored_snoc, if_pos rfl, stored]
    · obtain ⟨values, readsToo, same⟩ := law agentKey
      refine ⟨values, (callVault_frame sound call own).trans readsToo, fun name => ?_⟩
      rw [same, Runs.logged, lastStored_snoc, if_neg (Ne.symm own)]

/-- Over calls on an empty directory, the law holds all along exactly when every call is heeded. In any case a call
    leaves the maps of the other agent keys alone. -/
theorem vault_map_law_iff (sound : host.Sound) (calls : List (String × VaultCall)) :
    (Runs.Along (Runs.logged (callVault host)) (MapLaw host) (fun _ => none, []) calls ↔
      Runs.AllMeet (Runs.logged (callVault host)) Heeded (fun _ => none, []) calls) ∧
    ∀ (earlier : List (String × VaultCall)) call agentKey, agentKey ≠ call.2.agentKey →
      SecretsVault.get host (callVault host (earlier.foldl (callVault host) fun _ => none) call) agentKey =
        SecretsVault.get host (earlier.foldl (callVault host) fun _ => none) agentKey := by
  constructor
  · refine Runs.along_iff_allMeet (fun _ => True) (fun _ _ _ _ => trivial) ?_ trivial ?_
    · intro run call _ law
      exact mapLaw_call_iff sound law call
    · intro agentKey
      exact ⟨{}, rfl, fun _ => rfl⟩
  · intro earlier call agentKey apart
    exact callVault_frame sound call apart

end Law

section Example

def escaped : List Char → List Char
  | [] => []
  | char :: rest => (if char = '"' ∨ char = '\\' then ['\\', char] else [char]) ++ escaped rest

def writeEntries : List (String × String) → List Char
  | [] => []
  | (name, value) :: rest =>
    '"' :: (escaped name.toList ++ '"' :: ':' :: '"' :: (escaped value.toList ++ '"' ::
      (if rest = [] then [] else ',' :: writeEntries rest)))

def readQuoted : List Char → List Char × List Char
  | '\\' :: char :: rest => (char :: (readQuoted rest).1, (readQuoted rest).2)
  | '"' :: rest => ([], rest)
  | char :: rest => (char :: (readQuoted rest).1, (readQuoted rest).2)
  | [] => ([], [])

def readEntries : Nat → List Char → List (String × String)
  | fuel + 1, '"' :: text =>
    let (name, text) := readQuoted text
    let (value, text) := readQuoted (text.drop 2)
    (String.ofList name, String.ofList value) :: readEntries fuel (text.drop 1)
  | _, _ => []

theorem readQuoted_escaped (text rest : List Char) : readQuoted (escaped text ++ '"' :: rest) = (text, rest) := by
  induction text with
  | nil => rfl
  | cons char text ih =>
    rw [escaped]
    by_cases special : char = '"' ∨ char = '\\'
    · rw [if_pos special]
      simp only [List.cons_append, List.nil_append, readQuoted, ih]
    · rw [if_neg special]
      rw [not_or] at special
      simp only [List.cons_append, List.nil_append]
      rw [readQuoted, ih]
      · intro other more isSlash
        exact fun _ => special.2 isSlash
      · exact special.1

theorem readEntries_written (entries : List (String × String)) :
    ∀ fuel, entries.length ≤ fuel → readEntries fuel (writeEntries entries) = entries := by
  induction entries with
  | nil =>
    intro fuel _
    cases fuel <;> rfl
  | cons entry rest ih =>
    intro fuel enough
    obtain ⟨name, value⟩ := entry
    cases fuel with
    | zero => simp at enough
    | succ fuel =>
      rw [writeEntries, readEntries, readQuoted_escaped]
      simp only [List.drop_succ_cons, List.drop_zero, readQuoted_escaped, String.ofList_toList]
      by_cases last : rest = []
      · subst last
        cases fuel <;> rfl
      · rw [if_neg last]
        simpa using ih fuel (Nat.le_of_succ_le_succ enough)

theorem entries_length (entries : List (String × String)) : entries.length ≤ (writeEntries entries).length := by
  induction entries with
  | nil => exact Nat.zero_le _
  | cons entry rest ih =>
    obtain ⟨name, value⟩ := entry
    by_cases last : rest = []
    · simp [writeEntries, last]
    · simp only [writeEntries, if_neg last, List.length_cons, List.length_append]
      omega

def plainVault : VaultHost where
  pathFor := id
  masterKeyPath := "/root/.openagenthub/master.key"
  encrypt _ plaintext := plaintext
  decrypt := some
  stringify values := String.ofList ('\x7b' :: writeEntries values.entries ++ ['\x7d'])
  parse text := some (Record.setAll {} (readEntries text.length (text.toList.drop 1).dropLast))

theorem plainVault_sound : plainVault.Sound where
  apart := fun _ _ same => same
  decrypts _ _ := rfl
  parses values := by
    have enough : values.entries.length ≤ (String.ofList ('\x7b' :: writeEntries values.entries ++ ['\x7d'])).length := by
      have least := entries_length values.entries
      simp only [String.length_ofList, List.length_append, List.length_cons]
      omega
    refine ⟨_, rfl, fun name => ?_⟩
    dsimp only [plainVault]
    rw [String.toList_ofList, List.cons_append, List.drop_succ_cons, List.drop_zero, List.dropLast_concat, ← List.cons_append,
      readEntries_written _ _ enough]
    exact (Record.get_setAll values.distinct).trans (Option.or_none ..)

def openaiKey : String := "OPENAI_API_KEY"

def replacedCalls : List (String × VaultCall) :=
  [("", .storeIntegrationKey openaiKey "sk-0123456789"), ("", .storeIntegrationKey openaiKey "sk-9876543210"),
    ("", .storeIntegrationKey openaiKey "")]

theorem replaced_lawful :
    Runs.Along (Runs.logged (callVault plainVault)) (MapLaw plainVault) (fun _ => none, []) replacedCalls :=
  (vault_map_law_iff plainVault_sound replacedCalls).1.mpr
    ⟨fun isProto => absurd isProto (by decide), fun isProto => absurd isProto (by decide),
      fun isProto => absurd isProto (by decide), trivial⟩

def clearedCalls : List (String × VaultCall) :=
  [("", .storeIntegrationKey openaiKey "sk-0123456789"), ("", .clearIntegrationKey openaiKey)]

theorem cleared_key_survives :
    plainVault.Sound ∧ lastStored integrationVaultKey openaiKey clearedCalls = none ∧
      (SecretsVault.get plainVault (clearedCalls.foldl (callVault plainVault) fun _ => none)
        integrationVaultKey).toOption.map (·.get openaiKey) = some (some "sk-0123456789") :=
  ⟨plainVault_sound, by decide +kernel, by decide +kernel⟩

end Example

end Runtime
