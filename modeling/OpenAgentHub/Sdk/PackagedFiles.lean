import OpenAgentHub.Sdk.Packing

namespace Sdk

/-- A finite directory tree of regular files and directories: every path stands in a directory of the tree. -/
structure PlainTree where
  nodes : List (List String × Stat)
  distinct : (nodes.map Prod.fst).Nodup
  named : ∀ path ∈ nodes.map Prod.fst, ∀ name ∈ path, ValidName name
  rooted : ∀ path ∈ nodes.map Prod.fst, path ≠ []
  closed : ∀ path ∈ nodes.map Prod.fst, path.dropLast = [] ∨ (path.dropLast, Stat.directory) ∈ nodes

def PlainTree.tree (plain : PlainTree) : Tree where
  paths := plain.nodes.map Prod.fst
  stat path := plain.nodes.lookup path

def PatternMatches (pattern name : String) : Prop := name = pattern ∨ ∃ ending, pattern = "*" ++ ending ∧ ending.toList <:+ name.toList

structure Packaged (path : List String) : Prop where
  unmatched : ∀ name ∈ path, ∀ pattern ∈ ignorePatterns ++ secretIgnorePatterns, ¬ PatternMatches pattern name
  shown : ∀ name ∈ path.dropLast, ¬ ['.'] <+: name.toList
  plain : ∀ name ∈ path.getLast?, ¬ ['.', '_'] <+: name.toList

section Names

variable {name pattern : String} {path : List String}

theorem matchesName_iff : matchesName name pattern = true ↔ PatternMatches pattern name := by
  unfold matchesName PatternMatches
  cases star : Text.startsWith pattern "*" with
  | true =>
    have lead : ['*'] <+: pattern.toList := List.isPrefixOf_iff_prefix.mp star
    obtain ⟨ending, isEnding⟩ := lead
    rw [if_pos rfl, List.isSuffixOf_iff_suffix, ← isEnding]
    constructor
    · intro ends
      refine Or.inr ⟨String.ofList ending, ?_, by simpa using ends⟩
      apply String.toList_injective
      simpa using isEnding.symm
    · rintro (same | ⟨other, isOther, ends⟩)
      · rw [same, ← isEnding]
        exact List.suffix_cons ..
      · have same : ending = other.toList := by
          rw [isOther] at isEnding
          simpa using isEnding
        rw [same]
        exact ends
  | false =>
    rw [if_neg (by decide), beq_iff_eq]
    constructor
    · exact Or.inl
    · rintro (same | ⟨ending, isPattern, _⟩)
      · exact same
      · have starred : Text.startsWith pattern "*" = true := by
          apply List.isPrefixOf_iff_prefix.mpr
          rw [isPattern]
          simp
        rw [star] at starred
        cases starred

theorem isIgnoredName_iff : isIgnoredName name = true ↔
    ∃ pattern ∈ ignorePatterns ++ secretIgnorePatterns, PatternMatches pattern name := by
  unfold isIgnoredName
  simp only [List.any_eq_true, matchesName_iff]

theorem kept_iff : isIgnoredName name = false ↔
    ∀ pattern ∈ ignorePatterns ++ secretIgnorePatterns, ¬ PatternMatches pattern name := by
  rw [← Bool.not_eq_true, isIgnoredName_iff]
  push Not
  rfl

/-- No directory is called `.` or `..`, so the walk skips every hidden one. -/
theorem hidden_iff (valid : ValidName name) :
    (Text.startsWith name "." && name != "." && name != "..") = true ↔ ['.'] <+: name.toList := by
  have notDot : (name != ".") = true := bne_iff_ne.mpr valid.2.1
  have notDots : (name != "..") = true := bne_iff_ne.mpr valid.2.2.1
  rw [notDot, notDots, Bool.and_true, Bool.and_true]
  exact List.isPrefixOf_iff_prefix

theorem underscored_iff : Text.startsWith name "._" = true ↔ ['.', '_'] <+: name.toList := List.isPrefixOf_iff_prefix

/-- The walk's pruning on the way down asks of the names what the filter asks of the whole path. -/
theorem visibleNames_iff (valid : ∀ name ∈ path, ValidName name) : visibleNames path = true ↔ path ≠ [] ∧ Packaged path := by
  induction path with
  | nil => simp [visibleNames]
  | cons name rest ih =>
    rw [List.forall_mem_cons] at valid
    cases rest with
    | nil =>
      rw [visibleNames, Bool.and_eq_true, Bool.not_eq_true', Bool.not_eq_true', kept_iff, ← Bool.not_eq_true, underscored_iff]
      constructor
      · rintro ⟨kept, plain⟩
        exact ⟨by simp, by simpa using kept, by simp, by simpa using plain⟩
      · rintro ⟨_, packaged⟩
        exact ⟨packaged.unmatched name (by simp), packaged.plain name (by simp)⟩
    | cons next rest =>
      rw [visibleNames, Bool.and_eq_true, Bool.and_eq_true, Bool.not_eq_true', Bool.not_eq_true', kept_iff, ← Bool.not_eq_true,
        hidden_iff valid.1, ih valid.2]
      constructor
      · rintro ⟨⟨kept, shown⟩, _, packaged⟩
        refine ⟨by simp, List.forall_mem_cons.mpr ⟨kept, packaged.unmatched⟩, ?_, by simpa using packaged.plain⟩
        rw [List.dropLast_cons_of_ne_nil (by simp)]
        exact List.forall_mem_cons.mpr ⟨shown, packaged.shown⟩
      · rintro ⟨_, packaged⟩
        have shown := packaged.shown
        rw [List.dropLast_cons_of_ne_nil (by simp)] at shown
        have kept := List.forall_mem_cons.mp packaged.unmatched
        have visible := List.forall_mem_cons.mp shown
        exact ⟨⟨kept.1, visible.1⟩, by simp, kept.2, visible.2, by simpa using packaged.plain⟩

end Names

namespace PlainTree

variable {plain : PlainTree} {path lead : List String}

theorem stat_iff {stat : Stat} : plain.tree.stat path = some stat ↔ (path, stat) ∈ plain.nodes := by
  change plain.nodes.lookup path = some stat ↔ _
  rw [List.lookup_eq_some_iff]
  constructor
  · rintro ⟨before, rest, split, _⟩
    rw [split]
    exact List.mem_append_right _ (List.mem_cons_self ..)
  · intro present
    obtain ⟨before, rest, split⟩ := List.append_of_mem present
    refine ⟨before, rest, split, fun earlier isEarlier => bne_iff_ne.mpr ?_⟩
    have distinct := plain.distinct
    rw [split, List.map_append, List.map_cons, List.nodup_append] at distinct
    exact (distinct.2.2 earlier.1 (List.mem_map_of_mem isEarlier) path (List.mem_cons_self ..)).symm

theorem lead_mem (present : path ∈ plain.tree.paths) (leads : lead <+: path) (nonempty : lead ≠ []) (differs : lead ≠ path) :
    (lead, Stat.directory) ∈ plain.nodes := by
  induction h : path.length using Nat.strongRecOn generalizing path with
  | ind size ih =>
    have shorter : lead <+: path.dropLast := by
      obtain ⟨rest, rfl⟩ := leads
      have more : rest ≠ [] := by
        rintro rfl
        simp at differs
      rw [List.dropLast_append_of_ne_nil more]
      exact List.prefix_append ..
    rcases plain.closed path present with isRoot | isDirectory
    · rw [isRoot] at shorter
      exact absurd (List.prefix_nil.mp shorter) nonempty
    · by_cases same : lead = path.dropLast
      · rw [same]
        exact isDirectory
      · have positive := List.length_pos_iff.mpr (plain.rooted path present)
        refine ih path.dropLast.length ?_ (List.mem_map_of_mem (f := Prod.fst) isDirectory) shorter same rfl
        rw [List.length_dropLast]
        omega

theorem located_iff : plain.tree.Located path ↔ (path, Stat.file) ∈ plain.nodes := by
  rw [← stat_iff]
  constructor
  · exact Tree.Located.isFile
  · intro isFile
    have present : path ∈ plain.tree.paths := List.mem_map_of_mem (f := Prod.fst) (stat_iff.mp isFile)
    refine ⟨present, isFile, fun lead leads nonempty differs => ?_⟩
    have isDirectory := lead_mem present leads nonempty differs
    exact ⟨List.mem_map_of_mem (f := Prod.fst) isDirectory, stat_iff.mpr isDirectory⟩

theorem mem_listed : path ∈ plain.tree.listed ↔ (path, Stat.file) ∈ plain.nodes ∧ Packaged path := by
  rw [mem_listed_iff, located_iff, and_comm]
  refine and_congr_right fun isFile => ?_
  have present : path ∈ plain.nodes.map Prod.fst := List.mem_map_of_mem (f := Prod.fst) isFile
  rw [visibleNames_iff (plain.named path present)]
  exact and_iff_right (plain.rooted path present)

/-- `listProjectFiles` lists the relative paths of the files that the filter lets through, each exactly once. -/
theorem listProjectFiles_exact (plain : PlainTree) : plain.tree.listProjectFiles.Nodup ∧
    ∀ file, file ∈ plain.tree.listProjectFiles ↔
      ∃ path, file = Text.join "/" path ∧ (path, Stat.file) ∈ plain.nodes ∧ Packaged path := by
  have isNamed : ∀ path ∈ plain.tree.listed, (∀ name ∈ path, ValidName name) ∧ path ≠ [] := by
    intro path isListed
    have present := List.mem_map_of_mem (f := Prod.fst) (mem_listed.mp isListed).1
    exact ⟨plain.named path present, plain.rooted path present⟩
  constructor
  · refine listed_nodup.map_on fun first isFirst second isSecond same => ?_
    have first_named := isNamed first isFirst
    have second_named := isNamed second isSecond
    rw [← split_path first_named.1 first_named.2, same, split_path second_named.1 second_named.2]
  · intro file
    unfold Tree.listProjectFiles
    simp only [List.mem_map, mem_listed]
    constructor
    · rintro ⟨path, packaged, rfl⟩
      exact ⟨path, rfl, packaged⟩
    · rintro ⟨path, rfl, packaged⟩
      exact ⟨path, packaged, rfl⟩

def sample : PlainTree where
  nodes := [(["agent.yaml"], .file), (["src"], .directory), (["src", "main.py"], .file), (["src", "tls.key"], .file),
    ([".cache"], .directory), ([".cache", "x"], .file), (["._agent.yaml"], .file), ([".gitignore"], .file)]
  distinct := by decide
  named := by decide
  rooted := by decide
  closed := by decide

example : sample.tree.listProjectFiles = ["agent.yaml", "src/main.py", ".gitignore"] := by decide +kernel

end PlainTree

end Sdk
