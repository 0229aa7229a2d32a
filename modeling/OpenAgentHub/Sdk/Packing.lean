import OpenAgentHub.Sdk.ProjectFiles

namespace Sdk

def ValidName (name : String) : Prop := name ≠ "" ∧ name ≠ "." ∧ name ≠ ".." ∧ '/' ∉ name.toList ∧ '\x00' ∉ name.toList

instance (name : String) : Decidable (ValidName name) := by unfold ValidName; infer_instance

/-- What is at a path of a project. A link is given with what it leads to; below a link to a directory are the paths
    that lead through it. -/
inductive ProjectNode where
  | file (size : Nat) (file : File)
  | directory
  | linkToFile (size : Nat) (file : File)
  | linkToDirectory

namespace ProjectNode

def stat : ProjectNode → Stat
  | .file .. | .linkToFile .. => .file
  | .directory | .linkToDirectory => .directory

/-- `readFileSync` follows the link. -/
def read : ProjectNode → Option File
  | .file _ content | .linkToFile _ content => some content
  | .directory | .linkToDirectory => none

def size : ProjectNode → Nat
  | .file size _ | .linkToFile size _ => size
  | .directory | .linkToDirectory => 0

def isLink : ProjectNode → Bool
  | .linkToFile .. | .linkToDirectory => true
  | .file .. | .directory => false

end ProjectNode

structure Project where
  dir : String
  nodes : List (List String × ProjectNode)
  distinct : (nodes.map Prod.fst).Nodup
  named : ∀ path ∈ nodes.map Prod.fst, ∀ name ∈ path, ValidName name

namespace Project

variable (project : Project)

def node (path : List String) : Option ProjectNode := project.nodes.lookup path

def tree : Tree where
  paths := project.nodes.map Prod.fst
  stat path := (project.node path).map ProjectNode.stat

end Project

def loadManifestFrom (host : Host) (project : Project) : List String → Except Thrown Json
  | [] => .error ⟨.manifestValidationError,
      "manifest invalid: no manifest found in " ++ project.dir ++ " (expected agent.yaml or manifest.yaml)"⟩
  | name :: rest =>
    match project.node [name] with
    | none => loadManifestFrom host project rest
    | some node =>
      match node.read with
      | none => .error ⟨.systemError, "EISDIR: illegal operation on a directory, read"⟩
      | some file => loadManifest host file.text

def loadManifestFromDir (host : Host) (project : Project) : Except Thrown Json :=
  loadManifestFrom host project ["agent.yaml", "manifest.yaml"]

/-- A member of the archive that `tar` creates: a link is stored as a link. -/
def tarMember (project : Project) (name : String) : Option Entry :=
  match project.node (segments name) with
  | some (.file size file) => some ⟨name, .file, size, file.data, some file.mode, 0⟩
  | some .directory => some ⟨name, .directory, 0, [], none, 0⟩
  | some (.linkToFile ..) | some .linkToDirectory => some ⟨name, .other "SymbolicLink", 0, [], none, 0⟩
  | none => none

/-- `tar -cz` with its exclusions, for the named members. -/
def tarCreate (project : Project) (patterns names : List String) : List Entry :=
  (names.filter fun name => !patterns.any (Glob.excludes · name)).filterMap (tarMember project)

/-- The manifest, and the entries of the archive. Without names `tar` refuses to create one. -/
def packAgent (host : Host) (project : Project) : Except Thrown (Json × List Entry) := do
  let manifest ← loadManifestFromDir host project
  let files := project.tree.listProjectFiles
  Outcome.ensure (files ≠ []) (archiveError "failed to create archive")
  return (manifest, tarCreate project (".git" :: (ignorePatterns ++ secretIgnorePatterns)) (files.map stripLead))

section Names

variable {path : List String}

theorem split_path (valid : ∀ name ∈ path, ValidName name) (nonempty : path ≠ []) :
    Text.split '/' (Text.join "/" path) = path :=
  Text.split_join (fun name isName => (valid name isName).2.2.2.1) nonempty

theorem segments_join (valid : ∀ name ∈ path, ValidName name) (nonempty : path ≠ []) :
    segments (Text.join "/" path) = path := by
  unfold segments
  rw [split_path valid nonempty, List.filter_eq_self]
  intro name isName
  simp [(valid name isName).1, (valid name isName).2.1]

theorem stripLead_join (valid : ∀ name ∈ path, ValidName name) (nonempty : path ≠ []) :
    stripLead (Text.join "/" path) = Text.join "/" path := by
  rcases stripLead_cases (Text.join "/" path) with ⟨_, isLead⟩ | ⟨_, isSame⟩
  · have dot : "." ∈ Text.split '/' (Text.join "/" path) := by
      rw [Text.mem_split, isLead, show ∀ rest, '.' :: '/' :: rest = ['.'] ++ '/' :: rest from fun _ => rfl,
        List.splitOn_append_cons_self]
      exact List.mem_append_left _ (by decide)
    rw [split_path valid nonempty] at dot
    exact absurd rfl (valid "." dot).2.1
  · exact isSame

end Names

section Exclusion

def plainPattern (pattern : String) : Bool :=
  let literal := if Text.startsWith pattern "*" then pattern.toList.drop 1 else pattern.toList
  !literal.contains '*' && !literal.contains '/'

theorem patterns_plain : ∀ pattern ∈ ".git" :: (ignorePatterns ++ secretIgnorePatterns), plainPattern pattern = true := by
  decide +kernel

theorem glob_matchesName {pattern : String} {run : List String} (plain : plainPattern pattern = true) (present : run ≠ [])
    (globs : Glob.glob pattern.toList (Text.join "/" run).toList = true) : ∃ name ∈ run, matchesName name pattern = true := by
  unfold plainPattern at plain
  unfold matchesName
  cases star : Text.startsWith pattern "*" with
  | true =>
    have lead : ['*'] <+: pattern.toList := List.isPrefixOf_iff_prefix.mp star
    obtain ⟨literal, isLiteral⟩ := lead
    simp only [star, if_true, ← isLiteral, List.singleton_append, List.drop_succ_cons, List.drop_zero, Bool.and_eq_true,
      Bool.not_eq_true', List.contains_eq_mem, decide_eq_false_iff_not] at plain globs
    have ends := (Glob.glob_star plain.1).mp globs
    obtain ⟨name, isName, nameEnds⟩ := Glob.suffix_getLast plain.2 present ends
    refine ⟨name, isName, ?_⟩
    simpa [← isLiteral] using nameEnds
  | false =>
    simp only [star, Bool.false_eq_true, if_false, Bool.and_eq_true, Bool.not_eq_true', List.contains_eq_mem,
      decide_eq_false_iff_not] at plain
    have same := (Glob.glob_literal plain.1).mp globs
    have isName : Text.join "/" run = pattern := String.toList_injective same
    have single := Glob.join_slashless (by rw [same]; exact plain.2) present
    refine ⟨pattern, ?_, by simp⟩
    rw [single, isName]
    exact List.mem_singleton_self _

/-- `tar` excludes nothing that the walk has listed: both filters look at one name at a time. -/
theorem listed_not_excluded {tree : Tree} {path : List String} {pattern : String} (isListed : path ∈ tree.listed)
    (valid : ∀ name ∈ path, ValidName name) (known : pattern ∈ ".git" :: (ignorePatterns ++ secretIgnorePatterns)) :
    Glob.excludes pattern (Text.join "/" path) = false := by
  by_contra excluded
  rw [Bool.not_eq_false] at excluded
  unfold Glob.excludes at excluded
  rw [split_path valid (listed_nonempty isListed)] at excluded
  simp only [List.any_eq_true, List.mem_tails, List.mem_inits, Bool.and_eq_true, Bool.not_eq_true',
    List.isEmpty_eq_false_iff] at excluded
  obtain ⟨rest, isRest, run, isRun, nonempty, globs⟩ := excluded
  obtain ⟨name, isName, matched⟩ := glob_matchesName (patterns_plain pattern known) nonempty globs
  have kept := visibleNames_kept (mem_listed_iff.mp isListed).1 (isRest.subset (isRun.subset isName))
  have ignored : isIgnoredName name = true := by
    unfold isIgnoredName
    rw [List.any_eq_true]
    refine ⟨pattern, ?_, matched⟩
    rcases List.mem_cons.mp known with rfl | member
    · decide
    · exact member
  rw [kept] at ignored
  cases ignored

end Exclusion

section Packed

variable {host : Host} {project : Project} {path : List String}

theorem Project.listed_node (isListed : path ∈ project.tree.listed) :
    ∃ node, project.node path = some node ∧ node.stat = .file := by
  have isFile := (mem_listed_iff.mp isListed).2.isFile
  exact Option.map_eq_some_iff.mp isFile

theorem Project.listed_named (isListed : path ∈ project.tree.listed) : ∀ name ∈ path, ValidName name :=
  project.named path (mem_listed_iff.mp isListed).2.present

def Project.entry (project : Project) (path : List String) : Entry :=
  match project.node path with
  | some (.file size file) => ⟨Text.join "/" path, .file, size, file.data, some file.mode, 0⟩
  | _ => ⟨Text.join "/" path, .other "SymbolicLink", 0, [], none, 0⟩

theorem tarMember_listed (isListed : path ∈ project.tree.listed) :
    tarMember project (Text.join "/" path) = some (project.entry path) := by
  obtain ⟨node, isNode, isFile⟩ := project.listed_node isListed
  unfold tarMember Project.entry
  rw [segments_join (project.listed_named isListed) (listed_nonempty isListed), isNode]
  cases node with
  | file size file => rfl
  | linkToFile size file => rfl
  | directory => cases isFile
  | linkToDirectory => cases isFile

/-- The archive has one member for each listed file, and nothing else. -/
theorem tarCreate_listed (project : Project) :
    tarCreate project (".git" :: (ignorePatterns ++ secretIgnorePatterns)) (project.tree.listProjectFiles.map stripLead) =
      project.tree.listed.map project.entry := by
  have stripped : project.tree.listProjectFiles.map stripLead = project.tree.listed.map (Text.join "/") := by
    unfold Tree.listProjectFiles
    rw [List.map_map]
    apply List.map_congr_left
    intro path isListed
    exact stripLead_join (project.listed_named isListed) (listed_nonempty isListed)
  have kept : (project.tree.listed.map (Text.join "/")).filter (fun name =>
      !(".git" :: (ignorePatterns ++ secretIgnorePatterns)).any (Glob.excludes · name)) = project.tree.listed.map (Text.join "/") := by
    rw [List.filter_eq_self]
    intro name isName
    obtain ⟨path, isListed, rfl⟩ := List.mem_map.mp isName
    rw [Bool.not_eq_true', List.any_eq_false]
    intro pattern known
    rw [listed_not_excluded isListed (project.listed_named isListed) known]
    simp
  have members : ∀ path ∈ project.tree.listed, (tarMember project ∘ Text.join "/") path = (some ∘ project.entry) path :=
    fun path isListed => tarMember_listed isListed
  unfold tarCreate
  rw [stripped, kept, List.filterMap_map, List.filterMap_congr members]
  exact congrFun List.filterMap_eq_map _

theorem packAgent_ok {manifest : Json} {entries : List Entry} : packAgent host project = .ok (manifest, entries) ↔
    loadManifestFromDir host project = .ok manifest ∧ project.tree.listed ≠ [] ∧
      entries = project.tree.listed.map project.entry := by
  have listing : project.tree.listProjectFiles = [] ↔ project.tree.listed = [] := List.map_eq_nil_iff
  simp only [packAgent, tarCreate_listed, Outcome.bind_eq_ok, Outcome.ensure_eq_ok, Outcome.pure_eq_ok, Prod.mk.injEq, ne_eq,
    listing]
  constructor
  · rintro ⟨_, loaded, _, present, rfl, rfl⟩
    exact ⟨loaded, present, rfl⟩
  · rintro ⟨loaded, present, rfl⟩
    exact ⟨manifest, loaded, (), present, rfl, rfl⟩

end Packed

end Sdk
