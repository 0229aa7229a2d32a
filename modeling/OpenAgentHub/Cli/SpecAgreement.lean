import Mathlib.Data.List.TakeWhile
import OpenAgentHub.Cli.Installer
import OpenAgentHub.Runtime.DepsVolume

namespace Cli

open Runtime (AgentKey agentKeyToString acceptedName isNamePart)
open Registry.Semver (accepted cut cut_append)

section Splitting

/-- `String.prototype.lastIndexOf`. -/
def lastIndexOf (chars : List Char) (char : Char) : Int :=
  if char ∈ chars then chars.length - 1 - chars.reverse.idxOf char else -1

/-- Where `slice` takes an index to be: a negative one counts from the end. -/
def position (length : Nat) (index : Int) : Nat :=
  if index < 0 then (length + index).toNat else min index.toNat length

/-- `String.prototype.slice`, up to the end unless it is told where to stop. -/
def slice (chars : List Char) (start : Int) (stop : Option Int := none) : String :=
  let stop := (stop.map (position chars.length)).getD chars.length
  String.ofList ((chars.take stop).drop (position chars.length start))

/-- The parts that `supervisor-run` takes from the `agentKey` of a run. -/
def splitAgentKey (agentKey : String) : Spec :=
  let chars := agentKey.toList
  let slash := lastIndexOf chars '/'
  let sign := lastIndexOf chars '@'
  { namespaceName := slice chars 0 (some slash)
    name := if sign > slash then slice chars (slash + 1) (some sign) else slice chars (slash + 1)
    version := if sign > slash then some (slice chars (sign + 1)) else none }

variable {front back : List Char} {char : Char}

theorem lastIndexOf_append (absent : char ∉ back) : lastIndexOf (front ++ char :: back) char = front.length := by
  have index : (front ++ char :: back).reverse.idxOf char = back.length := by
    rw [List.reverse_append, List.reverse_cons, List.append_assoc, List.singleton_append,
      List.idxOf_append_of_notMem (by simpa using absent), List.idxOf_cons_self, List.length_reverse, Nat.add_zero]
  rw [lastIndexOf, if_pos (by simp), index, List.length_append, List.length_cons]
  omega

theorem position_nat (length index : Nat) : position length index = min index length := by
  rw [position, if_neg (by omega), Int.toNat_natCast]

theorem slice_front : slice (front ++ back) 0 (some front.length) = String.ofList front := by
  have start : position (front ++ back).length 0 = 0 := rfl
  rw [slice, start, Option.map_some, Option.getD_some, position_nat, List.drop_zero, Nat.min_eq_left (by simp),
    List.take_left]

theorem slice_back : slice (front ++ back) front.length = String.ofList back := by
  rw [slice, Option.map_none, Option.getD_none, position_nat, List.take_length, Nat.min_eq_left (by simp), List.drop_left]

theorem slice_after : slice (front ++ char :: back) (front.length + 1) = String.ofList back := by
  have start : (front.length + 1 : Int) = ((front ++ [char]).length : Int) := by simp
  rw [start, show front ++ char :: back = (front ++ [char]) ++ back by simp, slice_back]

theorem slice_middle {middle : List Char} : slice ((front ++ char :: middle) ++ back) (front.length + 1)
    (some (front ++ char :: middle).length) = String.ofList middle := by
  have start : (front.length + 1 : Int) = ((front.length + 1 : Nat) : Int) := by simp
  have stop : Nat.min (front ++ char :: middle).length ((front ++ char :: middle) ++ back).length =
      (front ++ char :: middle).length := Nat.min_eq_left (by simp)
  rw [slice, start, Option.map_some, Option.getD_some, position_nat, position_nat, Nat.min_eq_left (by simp),
    Nat.min_eq_left (by simp), List.take_left, ← List.drop_drop, List.drop_left, List.drop_one, List.tail_cons]

end Splitting

structure KnownAgent where
  key : AgentKey
  named : acceptedName (key.namespaceName ++ "/" ++ key.name) = true
  versioned : accepted key.version = true

def RoundTrips (key : AgentKey) : Prop :=
  parseSpec (agentKeyToString key) = .ok ⟨key.namespaceName, key.name, some key.version⟩ ∧
    parseSpec (key.namespaceName ++ "/" ++ key.name) = .ok ⟨key.namespaceName, key.name, none⟩ ∧
    splitAgentKey (agentKeyToString key) = ⟨key.namespaceName, key.name, some key.version⟩

section Labels

variable {inner : Char → Bool} {chars : List Char}

/-- The command line asks for one character more than the schema. -/
theorem isLabel_iff (part : isNamePart inner chars = true) : isLabel inner chars = true ↔ 2 ≤ chars.length := by
  simp only [isNamePart, Bool.and_eq_true] at part
  simp only [isLabel, Bool.and_eq_true, decide_eq_true_eq]
  constructor
  · rintro ⟨⟨⟨long, _⟩, _⟩, _⟩
    exact long
  · intro long
    exact ⟨⟨⟨long, part.1.1.2⟩, part.1.2⟩, part.2⟩

theorem namePart_not_mem {char : Char} (part : isNamePart inner chars = true)
    (outside : Text.isLowerOrDigit char = false ∧ inner char = false) : char ∉ chars := by
  intro listed
  rcases Runtime.namePart_char part listed with plain | special
  · rw [outside.1] at plain
    cases plain
  · rw [outside.2] at special
    cases special

end Labels

section Matching

variable {front name version : List Char}

theorem takeWhile_before {separator : Char} {back : List Char} (absent : separator ∉ front) :
    (front ++ separator :: back).takeWhile (· != separator) = front :=
  congrArg Prod.fst (cut_append absent)

theorem dropWhile_before {separator : Char} {back : List Char} (absent : separator ∉ front) :
    (front ++ separator :: back).dropWhile (· != separator) = separator :: back := by
  have before : ∀ char ∈ front, (char != separator) = true := fun char listed =>
    bne_iff_ne.mpr fun same => absent (same ▸ listed)
  rw [List.dropWhile_append_of_pos before, List.dropWhile_cons_of_neg (by simp)]

def Long (front name : List Char) : Prop :=
  isLabel (· == '-') front = true ∧ isLabel (fun char => char == '_' || char == '-') name = true

theorem matchSpec_versioned (slash : '/' ∉ front) (sign : '@' ∉ name) (nonempty : version ≠ [])
    (line : version.any isLineTerminator = false) (spec : Spec) :
    matchSpec (front ++ '/' :: (name ++ '@' :: version)) = some spec ↔
      Long front name ∧ spec = ⟨String.ofList front, String.ofList name, some (String.ofList version)⟩ := by
  unfold matchSpec Long
  dsimp only
  rw [takeWhile_before slash, dropWhile_before slash]
  dsimp only
  rw [takeWhile_before sign, dropWhile_before sign, List.drop_one, List.tail_cons, line, if_neg nonempty, Bool.not_false,
    Bool.and_true]
  split
  · rename_i labels
    rw [Bool.and_eq_true] at labels
    simp [labels, eq_comm]
  · rename_i labels
    rw [Bool.and_eq_true] at labels
    simp [labels]

theorem matchSpec_bare (slash : '/' ∉ front) (sign : '@' ∉ name) (spec : Spec) :
    matchSpec (front ++ '/' :: name) = some spec ↔
      Long front name ∧ spec = ⟨String.ofList front, String.ofList name, none⟩ := by
  have other : ∀ char ∈ name, (char != '@') = true := fun char listed => bne_iff_ne.mpr fun same => sign (same ▸ listed)
  unfold matchSpec Long
  dsimp only
  rw [takeWhile_before slash, dropWhile_before slash]
  dsimp only
  rw [List.takeWhile_eq_self_iff.mpr other, List.dropWhile_eq_nil_iff.mpr other, List.drop_nil, if_pos rfl, List.any_nil,
    Bool.not_false, Bool.and_true]
  split
  · rename_i labels
    rw [Bool.and_eq_true] at labels
    simp [labels, eq_comm]
  · rename_i labels
    rw [Bool.and_eq_true] at labels
    simp [labels]

theorem parseSpec_ok {text : String} {spec : Spec} : parseSpec text = .ok spec ↔ matchSpec text.toList = some spec :=
  Outcome.demand_eq_ok

end Matching

namespace KnownAgent

variable (agent : KnownAgent)

theorem parts : isNamePart (· == '-') agent.key.namespaceName.toList = true ∧
    isNamePart (fun char => char == '-' || char == '_') agent.key.name.toList = true := by
  have named := agent.named
  have chars : (agent.key.namespaceName ++ "/" ++ agent.key.name).toList =
      agent.key.namespaceName.toList ++ '/' :: agent.key.name.toList := by
    simp only [String.toList_append, List.append_assoc]
    rfl
  have single : '/' ∉ agent.key.namespaceName.toList := by
    intro listed
    obtain ⟨front, middle, split, absent⟩ := List.eq_append_cons_of_mem listed
    rw [acceptedName, chars, split, List.append_assoc, List.cons_append, cut_append absent] at named
    simp only [Bool.and_eq_true, Option.any_some] at named
    exact namePart_not_mem named.2 (by decide) (List.mem_append_right _ (List.mem_cons_self ..))
  rw [acceptedName, chars, cut_append single] at named
  simp only [Bool.and_eq_true, Option.any_some] at named
  exact ⟨named.1.2, named.2⟩

theorem slash_namespace : '/' ∉ agent.key.namespaceName.toList := namePart_not_mem agent.parts.1 (by decide)

theorem slash_name : '/' ∉ agent.key.name.toList := namePart_not_mem agent.parts.2 (by decide)

theorem sign_name : '@' ∉ agent.key.name.toList := namePart_not_mem agent.parts.2 (by decide)

theorem version_chars {char : Char} (listed : char ∈ agent.key.version.toList) : Runtime.VersionChar char :=
  Registry.Semver.accepted_plain agent.versioned char listed

theorem version_not_mem {char : Char} (outside : ¬ Runtime.VersionChar char) : char ∉ agent.key.version.toList :=
  fun listed => outside (agent.version_chars listed)

theorem key_chars : (agentKeyToString agent.key).toList =
    agent.key.namespaceName.toList ++ '/' :: (agent.key.name.toList ++ '@' :: agent.key.version.toList) := by
  simp only [agentKeyToString, String.toList_append, List.append_assoc]
  rfl

theorem splitAgentKey_key : splitAgentKey (agentKeyToString agent.key) =
    ⟨agent.key.namespaceName, agent.key.name, some agent.key.version⟩ := by
  have chars := agent.key_chars
  have whole : (agentKeyToString agent.key).toList =
      (agent.key.namespaceName.toList ++ '/' :: agent.key.name.toList) ++ '@' :: agent.key.version.toList := by
    rw [chars, List.append_assoc, List.cons_append]
  have slash : lastIndexOf (agentKeyToString agent.key).toList '/' = agent.key.namespaceName.toList.length := by
    rw [chars]
    refine lastIndexOf_append ?_
    rw [List.mem_append, List.mem_cons]
    rintro (inName | isSign | inVersion)
    · exact agent.slash_name inName
    · exact absurd isSign (by decide)
    · exact agent.version_not_mem (by decide) inVersion
  have sign : lastIndexOf (agentKeyToString agent.key).toList '@' =
      (agent.key.namespaceName.toList ++ '/' :: agent.key.name.toList).length := by
    rw [whole]
    exact lastIndexOf_append (agent.version_not_mem (by decide))
  have later : lastIndexOf (agentKeyToString agent.key).toList '@' > lastIndexOf (agentKeyToString agent.key).toList '/' := by
    rw [slash, sign, List.length_append, List.length_cons]
    omega
  have namespaceName : slice (agentKeyToString agent.key).toList 0 (some (lastIndexOf (agentKeyToString agent.key).toList '/')) =
      agent.key.namespaceName := by
    rw [slash, chars, slice_front, String.ofList_toList]
  have name : slice (agentKeyToString agent.key).toList (lastIndexOf (agentKeyToString agent.key).toList '/' + 1)
      (some (lastIndexOf (agentKeyToString agent.key).toList '@')) = agent.key.name := by
    rw [slash, sign, whole]
    rw [slice_middle, String.ofList_toList]
  have version : slice (agentKeyToString agent.key).toList (lastIndexOf (agentKeyToString agent.key).toList '@' + 1) =
      agent.key.version := by
    rw [sign, whole]
    rw [slice_after, String.ofList_toList]
  unfold splitAgentKey
  dsimp only
  rw [if_pos later, if_pos later, namespaceName, name, version]

theorem long_iff : Long agent.key.namespaceName.toList agent.key.name.toList ↔
    2 ≤ agent.key.namespaceName.length ∧ 2 ≤ agent.key.name.length := by
  have swapped : (fun char : Char => char == '_' || char == '-') = fun char => char == '-' || char == '_' := by
    funext char
    exact Bool.or_comm ..
  unfold Long
  rw [swapped, isLabel_iff agent.parts.1, isLabel_iff agent.parts.2, String.length_toList, String.length_toList]

theorem version_nonempty : agent.key.version.toList ≠ [] := by
  intro empty
  have versioned := agent.versioned
  unfold accepted at versioned
  rw [empty] at versioned
  exact absurd versioned (by decide)

theorem version_line : agent.key.version.toList.any isLineTerminator = false := by
  rw [List.any_eq_false]
  intro char listed terminates
  simp only [isLineTerminator, Bool.or_eq_true, beq_iff_eq] at terminates
  have known := agent.version_chars listed
  have small : char.toNat < 128 := by
    rcases known with rfl | plain
    · decide
    · exact Runtime.plain_ascii plain
  rcases terminates with ((rfl | rfl) | high) | high
  · exact absurd known (by decide)
  · exact absurd known (by decide)
  · omega
  · omega

/-- The three readings agree on a known agent exactly when both parts of its name have two characters. -/
theorem roundTrips_iff : RoundTrips agent.key ↔ 2 ≤ agent.key.namespaceName.length ∧ 2 ≤ agent.key.name.length := by
  have bare : (agent.key.namespaceName ++ "/" ++ agent.key.name).toList =
      agent.key.namespaceName.toList ++ '/' :: agent.key.name.toList := by
    simp only [String.toList_append, List.append_assoc]
    rfl
  have versioned := matchSpec_versioned agent.slash_namespace agent.sign_name agent.version_nonempty agent.version_line
    ⟨agent.key.namespaceName, agent.key.name, some agent.key.version⟩
  have unversioned := matchSpec_bare agent.slash_namespace agent.sign_name ⟨agent.key.namespaceName, agent.key.name, none⟩
  simp only [String.ofList_toList, and_true] at versioned unversioned
  unfold RoundTrips
  rw [parseSpec_ok, parseSpec_ok, agent.key_chars, bare, versioned, unversioned, long_iff]
  constructor
  · rintro ⟨long, _⟩
    exact long
  · intro long
    exact ⟨long, long, agent.splitAgentKey_key⟩

end KnownAgent

/-- The schema knows an agent of one-letter parts, and the command line refuses its key. -/
theorem short_name_does_not_round_trip : acceptedName "a/b" = true ∧ accepted "1.0.0" = true ∧ ¬ RoundTrips ⟨"a", "b", "1.0.0"⟩ := by
  refine ⟨by decide +kernel, by decide +kernel, ?_⟩
  rintro ⟨parsed, _⟩
  have refused : matchSpec (agentKeyToString ⟨"a", "b", "1.0.0"⟩).toList = none := by decide +kernel
  rw [parseSpec_ok, refused] at parsed
  cases parsed

end Cli
