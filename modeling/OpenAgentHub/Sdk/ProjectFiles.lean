import OpenAgentHub.Lib.Glob
import OpenAgentHub.Sdk.Extraction
import Mathlib.Data.List.Dedup
import Mathlib.Data.List.Nodup

namespace Sdk

def ignorePatterns : List String :=
  [".git", "node_modules", ".venv", "venv", "__pycache__", ".pytest_cache", "dist", "coverage", ".DS_Store", "*.ahb",
    "*.sig.json"]

def secretIgnorePatterns : List String :=
  [".env", ".env.local", ".env.development", ".env.production", ".env.test", ".env.staging", "*.pem", "*.key", "*.p12",
    "*.pfx", "master.key", "id_rsa", "id_ed25519", "id_dsa", ".ssh", "credentials.json", ".pypirc", ".npmrc",
    ".openagenthub"]

def matchesName (name pattern : String) : Bool :=
  if Text.startsWith pattern "*" then (pattern.toList.drop 1).isSuffixOf name.toList else name == pattern

def isIgnoredName (name : String) : Bool := (ignorePatterns ++ secretIgnorePatterns).any (matchesName name)

/-- What `statSync` says of a path, links followed. -/
inductive Stat where
  | file | directory
  deriving DecidableEq, Repr

/-- A directory tree as `readdirSync` and `statSync` show it, below some root. -/
structure Tree where
  paths : List (List String)
  stat : List String → Option Stat

namespace Tree

variable (tree : Tree)

def readdir (rel : List String) : List String :=
  ((tree.paths.filter fun path => path != [] && path.dropLast == rel).filterMap List.getLast?).dedup

def visit (below : List String → List (List String)) (rel : List String) (name : String) : List (List String) :=
  if isIgnoredName name then []
  else
    match tree.stat (rel ++ [name]) with
    | some .directory => if Text.startsWith name "." && name != "." && name != ".." then [] else below (rel ++ [name])
    | some .file => if Text.startsWith name "._" then [] else [rel ++ [name]]
    | none => []

/-- The `walk` of `listProjectFiles`; no path is longer than the fuel that it gets there. -/
def walk : Nat → List String → List (List String)
  | 0, _ => []
  | fuel + 1, rel => (tree.readdir rel).flatMap (tree.visit (walk fuel) rel)

def listed : List (List String) := tree.walk tree.paths.flatten.length []

def listProjectFiles : List String := tree.listed.map (Text.join "/")

end Tree

/-- What the walk asks of the names from a directory down to a file. -/
def Tree.Listable (tree : Tree) : List String → List String → Prop
  | _, [] => False
  | rel, [name] => rel ++ [name] ∈ tree.paths ∧ isIgnoredName name = false ∧ tree.stat (rel ++ [name]) = some .file ∧
      Text.startsWith name "._" = false
  | rel, name :: next :: rest => rel ++ [name] ∈ tree.paths ∧ isIgnoredName name = false ∧
      tree.stat (rel ++ [name]) = some .directory ∧ (Text.startsWith name "." && name != "." && name != "..") = false ∧
      Tree.Listable tree (rel ++ [name]) (next :: rest)

section Walk

variable {tree : Tree} {rel path names : List String} {name : String} {fuel : Nat}

theorem mem_readdir : name ∈ tree.readdir rel ↔ rel ++ [name] ∈ tree.paths := by
  unfold Tree.readdir
  simp only [List.mem_dedup, List.mem_filterMap, List.mem_filter, Bool.and_eq_true, bne_iff_ne, beq_iff_eq]
  constructor
  · rintro ⟨path, ⟨present, _, isRel⟩, isLast⟩
    rw [← isRel, List.dropLast_append_getLast? name isLast]
    exact present
  · intro present
    exact ⟨rel ++ [name], ⟨present, by simp, by simp⟩, by simp⟩

theorem mem_walk : path ∈ tree.walk fuel rel ↔
    ∃ names, path = rel ++ names ∧ names.length ≤ fuel ∧ tree.Listable rel names := by
  induction fuel generalizing rel with
  | zero =>
    simp only [Tree.walk, List.not_mem_nil, false_iff]
    rintro ⟨names, _, short, listable⟩
    have none : names = [] := List.length_eq_zero_iff.mp (by omega)
    rw [none] at listable
    exact listable
  | succ fuel ih =>
    simp only [Tree.walk, List.mem_flatMap, mem_readdir]
    constructor
    · rintro ⟨name, present, found⟩
      unfold Tree.visit at found
      split at found
      · cases found
      · rename_i regarded
        have kept : isIgnoredName name = false := by simpa using regarded
        split at found
        · rename_i isDirectory
          split at found
          · cases found
          · rename_i visible
            obtain ⟨names, rfl, short, listable⟩ := ih.mp found
            cases names with
            | nil => exact listable.elim
            | cons next rest =>
              refine ⟨name :: next :: rest, by simp, by simp only [List.length_cons] at short ⊢; omega, ?_⟩
              exact ⟨present, kept, isDirectory, by simpa using visible, listable⟩
        · rename_i isFile
          split at found
          · cases found
          · rename_i visible
            exact ⟨[name], List.mem_singleton.mp found, by simp, present, kept, isFile, by simpa using visible⟩
        · cases found
    · rintro ⟨names, rfl, short, listable⟩
      unfold Tree.visit
      match names, listable with
      | [name], ⟨present, kept, isFile, visible⟩ =>
        refine ⟨name, present, ?_⟩
        simp [kept, isFile, visible]
      | name :: next :: rest, ⟨present, kept, isDirectory, visible, listable⟩ =>
        refine ⟨name, present, ?_⟩
        rw [if_neg (by simp [kept]), isDirectory]
        dsimp only
        rw [if_neg (by simp [visible]), ih]
        exact ⟨next :: rest, by simp, by simp only [List.length_cons] at short ⊢; omega, listable⟩

theorem visit_below {below : List String → List (List String)} (leads : ∀ dir path, path ∈ below dir → dir <+: path)
    (found : path ∈ tree.visit below rel name) : rel ++ [name] <+: path := by
  unfold Tree.visit at found
  split at found
  · cases found
  · split at found
    · split at found
      · cases found
      · exact leads _ _ found
    · split at found
      · cases found
      · rw [List.mem_singleton.mp found]
    · cases found

theorem walk_below (found : path ∈ tree.walk fuel rel) : rel <+: path := by
  obtain ⟨names, rfl, _⟩ := mem_walk.mp found
  exact List.prefix_append ..

theorem walk_nodup : (tree.walk fuel rel).Nodup := by
  induction fuel generalizing rel with
  | zero => exact List.nodup_nil
  | succ fuel ih =>
    unfold Tree.walk
    rw [List.nodup_flatMap]
    constructor
    · intro name _
      unfold Tree.visit
      split
      · exact List.nodup_nil
      · split
        · split
          · exact List.nodup_nil
          · exact ih
        · split
          · exact List.nodup_nil
          · exact List.nodup_singleton _
        · exact List.nodup_nil
    · -- two names of one directory lead to different paths
      refine (List.nodup_dedup _).imp fun {first second} differ path inFirst inSecond => differ ?_
      have below : ∀ dir path, path ∈ tree.walk fuel dir → dir <+: path := fun _ _ => walk_below
      have same := List.prefix_of_prefix_length_le (visit_below below inFirst) (visit_below below inSecond) (by simp)
      have equal := same.eq_of_length (by simp)
      simpa using equal

theorem listable_mem (listable : tree.Listable rel names) : rel ++ names ∈ tree.paths := by
  induction names generalizing rel with
  | nil => exact listable.elim
  | cons name rest ih =>
    cases rest with
    | nil => exact listable.1
    | cons next rest =>
      have below := ih listable.2.2.2.2
      rwa [List.append_assoc] at below

/-- The fuel of `listed` is enough for every path. -/
theorem mem_listed : path ∈ tree.listed ↔ tree.Listable [] path := by
  unfold Tree.listed
  rw [mem_walk]
  constructor
  · rintro ⟨names, rfl, _, listable⟩
    exact listable
  · intro listable
    exact ⟨path, rfl, (List.sublist_flatten_of_mem (listable_mem listable)).length_le, listable⟩

theorem listed_nodup : tree.listed.Nodup := walk_nodup

end Walk

def visibleNames : List String → Bool
  | [] => false
  | [name] => !isIgnoredName name && !Text.startsWith name "._"
  | name :: next :: rest => !isIgnoredName name && !(Text.startsWith name "." && name != "." && name != "..") &&
      visibleNames (next :: rest)

structure Tree.Located (tree : Tree) (path : List String) : Prop where
  present : path ∈ tree.paths
  isFile : tree.stat path = some .file
  below : ∀ lead, lead <+: path → lead ≠ [] → lead ≠ path → lead ∈ tree.paths ∧ tree.stat lead = some .directory

section Located

variable {tree : Tree} {rel path names : List String}

theorem listable_iff_names : tree.Listable rel names ↔
    visibleNames names = true ∧ rel ++ names ∈ tree.paths ∧ tree.stat (rel ++ names) = some .file ∧
      ∀ lead, lead <+: names → lead ≠ [] → lead ≠ names →
        rel ++ lead ∈ tree.paths ∧ tree.stat (rel ++ lead) = some .directory := by
  induction names generalizing rel with
  | nil => simp [Tree.Listable, visibleNames]
  | cons name rest ih =>
    cases rest with
    | nil =>
      have alone : ∀ lead : List String, lead <+: [name] → lead ≠ [] → lead = [name] := by
        intro lead leads nonempty
        exact leads.eq_of_length_le (by simpa [Nat.one_le_iff_ne_zero] using nonempty)
      simp only [Tree.Listable, visibleNames, Bool.and_eq_true, Bool.not_eq_true']
      constructor
      · rintro ⟨present, kept, isFile, visible⟩
        exact ⟨⟨kept, visible⟩, present, isFile, fun lead leads nonempty differs => absurd (alone lead leads nonempty) differs⟩
      · rintro ⟨⟨kept, visible⟩, present, isFile, _⟩
        exact ⟨present, kept, isFile, visible⟩
    | cons next rest =>
      simp only [Tree.Listable, visibleNames, ih, Bool.and_eq_true, Bool.not_eq_true', List.append_assoc, List.singleton_append]
      constructor
      · rintro ⟨present, kept, isDirectory, visible, names, isPresent, isFile, below⟩
        refine ⟨⟨⟨kept, visible⟩, names⟩, isPresent, isFile, fun lead leads nonempty differs => ?_⟩
        cases lead with
        | nil => exact absurd rfl nonempty
        | cons first more =>
          obtain ⟨rfl, inner⟩ := List.cons_prefix_cons.mp leads
          cases more with
          | nil => exact ⟨present, isDirectory⟩
          | cons second more => exact below (second :: more) inner (by simp) (by simpa using differs)
      · rintro ⟨⟨⟨kept, visible⟩, names⟩, isPresent, isFile, below⟩
        have first := below [name] (by simp) (by simp) (by simp)
        refine ⟨first.1, kept, first.2, visible, names, isPresent, isFile, fun lead leads nonempty differs => ?_⟩
        exact below (name :: lead) (by simpa using leads) (by simp) (by simpa using differs)

theorem mem_listed_iff : path ∈ tree.listed ↔ visibleNames path = true ∧ tree.Located path := by
  rw [mem_listed, listable_iff_names]
  constructor
  · rintro ⟨visible, present, isFile, below⟩
    exact ⟨visible, present, isFile, below⟩
  · rintro ⟨visible, present, isFile, below⟩
    exact ⟨visible, present, isFile, below⟩

theorem listed_nonempty (isListed : path ∈ tree.listed) : path ≠ [] := by
  rintro rfl
  exact absurd (mem_listed_iff.mp isListed).1 (by decide)

/-- No listed path leads to another. -/
theorem listed_prefix_free {other : List String} (isListed : path ∈ tree.listed) (otherListed : other ∈ tree.listed)
    (leads : path <+: other) : path = other := by
  by_contra differs
  have isDirectory := ((mem_listed_iff.mp otherListed).2.below path leads (listed_nonempty isListed) differs).2
  rw [(mem_listed_iff.mp isListed).2.isFile] at isDirectory
  cases isDirectory

theorem visibleNames_kept {name : String} (visible : visibleNames names = true) (present : name ∈ names) :
    isIgnoredName name = false := by
  induction names with
  | nil => cases present
  | cons first rest ih =>
    cases rest with
    | nil =>
      rw [List.mem_singleton.mp present]
      simp only [visibleNames, Bool.and_eq_true, Bool.not_eq_true'] at visible
      exact visible.1
    | cons next rest =>
      simp only [visibleNames, Bool.and_eq_true, Bool.not_eq_true'] at visible
      rcases List.mem_cons.mp present with rfl | later
      · exact visible.1.1
      · exact ih visible.2 later

end Located

end Sdk
