import OpenAgentHub.Sdk.Completion
import OpenAgentHub.Sdk.CleanScan
import OpenAgentHub.Sdk.Packing

namespace Sdk

def Disk.tree (disk : Disk) : Tree where
  paths := disk.files.map Prod.fst ++ disk.directories
  stat path :=
    if (disk.read path).isSome then some .file else if disk.directories.contains path then some .directory else none

structure UnpackResult where
  manifest : Json
  files : List String

def unpackInto (host : Host) (limits : UnpackLimits) (destRoot : List String) (disk : Disk) (archive : Archive)
    (schedule : Schedule) : Option (Except Thrown (UnpackResult × Disk)) := do
  let extraction ← extracted host limits destRoot disk archive schedule
  let settled ← extraction.settled
  return do
    let (manifestCandidates, disk) ← settled
    let manifest ← readManifest host manifestCandidates disk
    return (⟨manifest, disk.tree.listProjectFiles⟩, disk)

theorem unpackAgent_eq (host : Host) (limits : UnpackLimits) (destRoot : List String) (disk : Disk) (archive : Archive)
    (schedule : Schedule) : unpackAgent host limits destRoot disk archive schedule =
      (unpackInto host limits destRoot disk archive schedule).map (Except.map fun result => result.1.manifest) := by
  unfold unpackAgent unpackInto
  cases extracted host limits destRoot disk archive schedule with
  | none => rfl
  | some extraction =>
    cases isSettled : extraction.settled with
    | none => simp [isSettled]
    | some settled =>
      simp only [Option.bind_eq_bind, Option.bind_some, isSettled, Option.pure_def, Option.map_some, Option.some.injEq]
      cases settled with
      | error thrown => rfl
      | ok resolved =>
        simp only [Outcome.ok_bind]
        cases readManifest host resolved.1 resolved.2 <;> rfl

/-- Each listed file arrives, with its contents, and nothing else is listed. -/
def RoundTrip (project : Project) (outcome : Option (Except Thrown (UnpackResult × Disk))) : Prop :=
  ∃ result disk, outcome = some (.ok (result, disk)) ∧
    (∀ path, path ∈ result.files ↔ path ∈ project.tree.listProjectFiles) ∧
    ∀ path ∈ project.tree.listed, (disk.read path).map File.data = ((project.node path).bind ProjectNode.read).map File.data

/-- No listed file is a link, and the extractor takes its path. -/
def Storable (destRoot : List String) (project : Project) : Prop :=
  ∀ path ∈ project.tree.listed, (∀ node ∈ project.node path, node.isLink = false) ∧
    assertSafeArchivePath (Text.join "/" path) destRoot = .ok ()

def fileSize (project : Project) (path : List String) : Nat := ((project.node path).map ProjectNode.size).getD 0

structure WithinLimits (limits : UnpackLimits) (project : Project) : Prop where
  files : project.tree.listed.length ≤ limits.maxFiles
  single : ∀ path ∈ project.tree.listed, fileSize project path ≤ limits.maxSingleFileBytes
  total : (project.tree.listed.map (fileSize project)).sum ≤ limits.maxTotalBytes

def Loads (host : Host) (project : Project) (path : String) : Prop :=
  ∃ node file manifest, project.node (segments path) = some node ∧ node.read = some file ∧
    loadManifest host file.text = .ok manifest

/-- No write finishes alone while entries are still to come, and the manifest whose write finishes first loads. -/
def Attentive (host : Host) (project : Project) (extraction : Extraction) : Event → Prop
  | .finish index => extraction.settled = none →
      (extraction.pending.length = 1 → extraction.incoming = []) ∧
      (extraction.manifestCandidates = [] → ∀ path, extraction.pending[index]? = some ⟨path, false⟩ →
        isManifestName (baseName path) = true → Loads host project path)
  | .entry | .error _ | .end => True

section Storing

variable {limits : UnpackLimits} {destRoot : List String} {project : Project} {path : List String}
  {paths : List (List String)} {tally after : Tally}

def stored (project : Project) (path : List String) : List String × File :=
  (path, ⟨(project.entry path).piped, sanitizeMode (project.entry path).mode⟩)

theorem entry_path (project : Project) (path : List String) : (project.entry path).path = Text.join "/" path := by
  unfold Project.entry
  split <;> rfl

theorem entry_file_iff (isListed : path ∈ project.tree.listed) :
    (project.entry path).type = .file ↔ ∀ node ∈ project.node path, node.isLink = false := by
  obtain ⟨node, isNode, isFile⟩ := project.listed_node isListed
  unfold Project.entry
  rw [isNode]
  cases node with
  | file size file => simp [ProjectNode.isLink]
  | linkToFile size file => simp [ProjectNode.isLink]
  | directory => cases isFile
  | linkToDirectory => cases isFile

theorem entry_not_directory (project : Project) (path : List String) : (project.entry path).type ≠ .directory := by
  unfold Project.entry
  split <;> simp

theorem entry_whole (project : Project) (path : List String) : (project.entry path).buffered = 0 := by
  unfold Project.entry
  split <;> rfl

theorem segments_entry (isListed : path ∈ project.tree.listed) :
    segments (stripLead (project.entry path).path) = path := by
  have valid := project.listed_named isListed
  rw [entry_path, stripLead_join valid (listed_nonempty isListed), segments_join valid (listed_nonempty isListed)]

theorem stripLead_entry (isListed : path ∈ project.tree.listed) :
    stripLead (project.entry path).path = Text.join "/" path := by
  rw [entry_path, stripLead_join (project.listed_named isListed) (listed_nonempty isListed)]

theorem accept_entry (isListed : path ∈ project.tree.listed)
    (accepted : accept limits destRoot tally (project.entry path) = some after) :
    after.disk.files = tally.disk.files ++ [stored project path] ∧ (project.entry path).type = .file ∧
      assertSafeArchivePath (Text.join "/" path) destRoot = .ok () := by
  have received := accept_eq_some accepted
  have safe : assertSafeArchivePath (Text.join "/" path) destRoot = .ok () := by
    rw [receive_eq, Outcome.bind_eq_ok] at received
    obtain ⟨checked, isChecked, _⟩ := received
    have admissible := (checkEntry_eq_ok.mp isChecked).1.1
    rwa [stripLead_entry isListed] at admissible
  rcases receive_cases received with ⟨isDirectory, _⟩ | ⟨type, isDoomed, _⟩ | ⟨type, _, _, files⟩
  · exact absurd isDirectory (entry_not_directory project path)
  · rw [Entry.stream, type] at isDoomed
    cases isDoomed
  · rw [segments_entry isListed] at files
    exact ⟨files, type, safe⟩

theorem acceptAll_entries (areListed : ∀ path ∈ paths, path ∈ project.tree.listed)
    (accepted : acceptAll limits destRoot tally (paths.map project.entry) = some after) :
    after.disk.files = tally.disk.files ++ paths.map (stored project) ∧
      ∀ path ∈ paths, (project.entry path).type = .file ∧ assertSafeArchivePath (Text.join "/" path) destRoot = .ok () := by
  induction paths generalizing tally with
  | nil =>
    cases accepted
    simp
  | cons path rest ih =>
    rw [List.forall_mem_cons] at areListed
    rw [acceptAll, List.map_cons, List.foldlM_cons] at accepted
    obtain ⟨middle, first, others⟩ := Option.bind_eq_some_iff.mp accepted
    obtain ⟨written, isFile, safe⟩ := accept_entry areListed.1 first
    obtain ⟨files, all⟩ := ih areListed.2 others
    refine ⟨?_, List.forall_mem_cons.mpr ⟨⟨isFile, safe⟩, all⟩⟩
    rw [files, written, List.map_cons, List.append_assoc, List.singleton_append]

structure Filled (project : Project) (consumed : List (List String)) (disk : Disk) : Prop where
  files : disk.files = consumed.map (stored project)
  directories : ∀ dir ∈ disk.directories, ∃ path ∈ consumed, dir <+: path.dropLast
  covered : ∀ path ∈ consumed, ∀ lead, lead <+: path.dropLast → lead ∈ disk.directories

theorem lookup_stored : (paths.map (stored project)).lookup path = if path ∈ paths then some (stored project path).2 else none := by
  induction paths with
  | nil => rfl
  | cons first rest ih =>
    rw [List.map_cons, show stored project first = (first, (stored project first).2) from rfl, List.lookup_cons, ih]
    by_cases same : path = first
    · simp [same]
    · simp [same, beq_eq_false_iff_ne.mpr same]

theorem read_stored {disk : Disk} (files : disk.files = paths.map (stored project)) :
    disk.read path = if path ∈ paths then some (stored project path).2 else none := by
  unfold Disk.read
  rw [files, lookup_stored]

theorem Filled.read_isSome {consumed : List (List String)} {disk : Disk} (filled : Filled project consumed disk) :
    (disk.read path).isSome = true ↔ path ∈ consumed := by
  rw [read_stored filled.files]
  split <;> simp_all

theorem dropLast_shorter {lead : List String} (nonempty : path ≠ []) (leads : lead <+: path.dropLast) : lead ≠ path := by
  rintro rfl
  have short := leads.length_le
  have positive := List.length_pos_iff.mpr nonempty
  rw [List.length_dropLast] at short
  omega

/-- A listed file that has not come yet finds its place free. -/
theorem storeEntry_free {consumed : List (List String)} (filled : Filled project consumed tally.disk)
    (areListed : ∀ other ∈ consumed, other ∈ project.tree.listed) (isListed : path ∈ project.tree.listed)
    (fresh : path ∉ consumed) (isFile : (project.entry path).type = .file) :
    ∃ after stream, storeEntry tally (project.entry path) = .ok (after, some stream) ∧ stream.doomed = false ∧
      after.fileCount = tally.fileCount ∧ after.totalBytes = tally.totalBytes ∧ Filled project (consumed ++ [path]) after.disk := by
  have nonempty := listed_nonempty isListed
  have unobstructed : (path.dropLast.inits.any fun lead => (tally.disk.read lead).isSome) = false := by
    rw [List.any_eq_false]
    intro lead isLead occupied
    have leads := (List.mem_inits _ _).mp isLead
    have other := areListed lead (filled.read_isSome.mp occupied)
    exact dropLast_shorter nonempty leads
      (listed_prefix_free other isListed (leads.trans (List.dropLast_prefix path)))
  have notDirectory : path ∉ tally.disk.directories ++ path.dropLast.inits := by
    rw [List.mem_append, List.mem_inits]
    rintro (older | own)
    · obtain ⟨other, isOther, leads⟩ := filled.directories path older
      have otherListed := areListed other isOther
      exact dropLast_shorter (listed_nonempty otherListed) leads
        (listed_prefix_free isListed otherListed (leads.trans (List.dropLast_prefix other)))
    · exact dropLast_shorter nonempty own rfl
  have unread : (tally.disk.read path).isSome = false := by
    rw [Bool.eq_false_iff]
    exact fun occupied => fresh (filled.read_isSome.mp occupied)
  have made : tally.disk.makeDirectory path.dropLast =
      .ok { tally.disk with directories := tally.disk.directories ++ path.dropLast.inits } := by
    unfold Disk.makeDirectory
    rw [unobstructed, if_neg (by decide)]
  have free : Disk.taken { tally.disk with directories := tally.disk.directories ++ path.dropLast.inits } path = false := by
    unfold Disk.taken
    rw [show Disk.read { tally.disk with directories := tally.disk.directories ++ path.dropLast.inits } path =
      tally.disk.read path from rfl, unread]
    simpa [nonempty] using notDirectory
  refine ⟨{ tally with
      disk := Disk.write { tally.disk with directories := tally.disk.directories ++ path.dropLast.inits } path
        (stored project path).2 }, ⟨Text.join "/" path, false⟩, ?_, rfl, rfl, rfl, ?_, ?_, ?_⟩
  · unfold storeEntry
    rw [isFile, stripLead_entry isListed]
    dsimp only
    rw [segments_join (project.listed_named isListed) nonempty, made, Outcome.ok_bind, free, if_neg (by decide)]
    rfl
  · show tally.disk.files ++ [stored project path] = _
    rw [filled.files, List.map_append, List.map_singleton]
  · intro dir isDirectory
    rcases List.mem_append.mp isDirectory with older | own
    · obtain ⟨other, isOther, leads⟩ := filled.directories dir older
      exact ⟨other, List.mem_append_left _ isOther, leads⟩
    · exact ⟨path, by simp, (List.mem_inits _ _).mp own⟩
  · intro other isOther lead leads
    rcases List.mem_append.mp isOther with older | own
    · exact List.mem_append_left _ (filled.covered other older lead leads)
    · rw [List.mem_singleton.mp own] at leads
      exact List.mem_append_right _ ((List.mem_inits _ _).mpr leads)

theorem entry_size (isFile : (project.entry path).type = .file) : (project.entry path).size = fileSize project path := by
  unfold Project.entry at isFile ⊢
  unfold fileSize
  split at isFile
  · rename_i isNode
    simp [isNode, ProjectNode.size]
  · cases isFile

theorem accept_listed {consumed : List (List String)} (filled : Filled project consumed tally.disk)
    (areListed : ∀ other ∈ consumed, other ∈ project.tree.listed) (isListed : path ∈ project.tree.listed)
    (fresh : path ∉ consumed) (isFile : (project.entry path).type = .file)
    (safe : assertSafeArchivePath (Text.join "/" path) destRoot = .ok ())
    (single : fileSize project path ≤ limits.maxSingleFileBytes) (count : tally.fileCount + 1 ≤ limits.maxFiles)
    (total : tally.totalBytes + fileSize project path ≤ limits.maxTotalBytes) :
    ∃ after, accept limits destRoot tally (project.entry path) = some after ∧ Filled project (consumed ++ [path]) after.disk ∧
      after.fileCount = tally.fileCount + 1 ∧ after.totalBytes = tally.totalBytes + fileSize project path := by
  have size := entry_size isFile
  have checked : checkEntry limits destRoot tally (project.entry path) =
      .ok { tally with totalBytes := tally.totalBytes + fileSize project path, fileCount := tally.fileCount + 1 } := by
    rw [checkEntry_eq_ok]
    refine ⟨⟨by rw [stripLead_entry isListed]; exact safe, .inr ⟨isFile, by rw [size]; exact single⟩⟩, ?_⟩
    rw [if_pos (by simp [isFile, Sdk.isFile]), size]
    exact ⟨count, total, rfl⟩
  have unchanged : Filled project consumed
      (Tally.disk { tally with totalBytes := tally.totalBytes + fileSize project path, fileCount := tally.fileCount + 1 }) :=
    filled
  obtain ⟨after, stream, isStored, fine, counts, totals, refilled⟩ :=
    storeEntry_free unchanged areListed isListed fresh isFile
  refine ⟨after, ?_, refilled, counts, totals⟩
  unfold accept
  rw [receive_eq, checked, Outcome.ok_bind, isStored]
  simp [fine]

theorem acceptAll_listed {consumed rest : List (List String)} (filled : Filled project consumed tally.disk)
    (areListed : ∀ path ∈ consumed ++ rest, path ∈ project.tree.listed) (distinct : (consumed ++ rest).Nodup)
    (storable : Storable destRoot project) (single : ∀ path ∈ rest, fileSize project path ≤ limits.maxSingleFileBytes)
    (count : tally.fileCount + rest.length ≤ limits.maxFiles)
    (total : tally.totalBytes + (rest.map (fileSize project)).sum ≤ limits.maxTotalBytes) :
    ∃ after, acceptAll limits destRoot tally (rest.map project.entry) = some after ∧
      Filled project (consumed ++ rest) after.disk := by
  induction rest generalizing consumed tally with
  | nil => exact ⟨tally, rfl, by simpa using filled⟩
  | cons path rest ih =>
    have isListed := areListed path (by simp)
    have fresh : path ∉ consumed := fun older => (List.nodup_append.mp distinct).2.2 path older path (by simp) rfl
    obtain ⟨linkless, safe⟩ := storable path isListed
    simp only [List.length_cons, List.map_cons, List.sum_cons] at count total
    obtain ⟨middle, first, refilled, counts, totals⟩ := accept_listed filled
      (fun other older => areListed other (List.mem_append_left _ older)) isListed fresh
      ((entry_file_iff isListed).mpr linkless) safe (single path (by simp)) (by omega) (by omega)
    have regrouped : consumed ++ path :: rest = (consumed ++ [path]) ++ rest := by simp
    rw [regrouped] at areListed distinct ⊢
    obtain ⟨after, others, full⟩ := ih refilled areListed distinct
      (fun other later => single other (List.mem_cons_of_mem _ later)) (by omega) (by omega)
    refine ⟨after, ?_, full⟩
    rw [acceptAll, List.map_cons, List.foldlM_cons, first]
    exact others

/-- The archive of a storable project is accepted as a whole. -/
theorem project_accepted (storable : Storable destRoot project) (within : WithinLimits limits project) :
    ∃ after, acceptAll limits destRoot { disk := {} } (project.tree.listed.map project.entry) = some after ∧
      Filled project project.tree.listed after.disk := by
  have empty : Filled project [] (Tally.disk { disk := {} }) := ⟨rfl, by simp, by simp⟩
  exact acceptAll_listed empty (fun path isListed => isListed) listed_nodup storable within.single
    (by simpa using within.files) (by simpa using within.total)

/-- The walk finds in the destination what has been put there. -/
theorem Filled.listed {disk : Disk} (filled : Filled project project.tree.listed disk) :
    path ∈ disk.tree.listed ↔ path ∈ project.tree.listed := by
  constructor
  · intro found
    have isFile := (mem_listed_iff.mp found).2.isFile
    by_contra unlisted
    have unread : (disk.read path).isSome = false := by
      rw [Bool.eq_false_iff]
      exact fun occupied => unlisted (filled.read_isSome.mp occupied)
    simp only [Disk.tree, unread, Bool.false_eq_true, if_false] at isFile
    split at isFile <;> cases isFile
  · intro isListed
    have nonempty := listed_nonempty isListed
    refine mem_listed_iff.mpr ⟨(mem_listed_iff.mp isListed).1, ?_, ?_, ?_⟩
    · refine List.mem_append_left _ ?_
      rw [filled.files, List.map_map]
      exact List.mem_map.mpr ⟨path, isListed, rfl⟩
    · exact if_pos (filled.read_isSome.mpr isListed)
    · intro lead leads leadNonempty differs
      have above : lead <+: path.dropLast := by
        refine List.prefix_of_prefix_length_le leads (List.dropLast_prefix path) ?_
        have shorter : lead.length < path.length := lt_of_le_of_ne leads.length_le fun same => differs (leads.eq_of_length same)
        rw [List.length_dropLast]
        omega
      have isDirectory := filled.covered path isListed lead above
      have unread : ¬ (disk.read lead).isSome = true := fun occupied =>
        differs (listed_prefix_free (filled.read_isSome.mp occupied) isListed leads)
      refine ⟨List.mem_append_right _ isDirectory, ?_⟩
      simp [Disk.tree, unread, isDirectory]

theorem Filled.listProjectFiles {disk : Disk} (filled : Filled project project.tree.listed disk) (name : String) :
    name ∈ disk.tree.listProjectFiles ↔ name ∈ project.tree.listProjectFiles := by
  unfold Tree.listProjectFiles
  simp only [List.mem_map, filled.listed]

/-- The contents that are stored are the contents of the file. -/
theorem stored_data (isFile : (project.entry path).type = .file) :
    ((project.node path).bind ProjectNode.read).map File.data = some (project.entry path).data := by
  unfold Project.entry at isFile ⊢
  split at isFile
  · rename_i isNode
    simp [isNode, ProjectNode.read]
  · cases isFile

end Storing

def projectArchive (project : Project) : Archive := ⟨project.tree.listed.map project.entry, none⟩

theorem projectArchive_whole {project : Project} : ∀ entry ∈ (projectArchive project).entries, entry.buffered = 0 := by
  intro entry present
  obtain ⟨path, _, rfl⟩ := List.mem_map.mp present
  exact entry_whole project path

theorem blank_tree (disk : Disk) : disk.blank.tree = disk.tree := by
  simp only [Disk.tree, blank_read, Option.isSome_map]
  simp [Disk.blank, Function.comp_def]

section Settled

variable {limits : UnpackLimits} {destRoot : List String} {extraction next : Extraction} {event : Event} {events : List Event}

theorem fail_settled {error : Thrown} {settled : Except Thrown (List String × Disk)}
    (isSettled : extraction.settled = some settled) : (extraction.fail error).settled = some settled := by
  unfold Extraction.fail
  simp [isSettled]

theorem finish_settled {settled : Except Thrown (List String × Disk)} (isSettled : extraction.settled = some settled) :
    extraction.finish.settled = some settled := by
  unfold Extraction.finish
  simp [isSettled]

theorem step_settled {settled : Except Thrown (List String × Disk)} (isSettled : extraction.settled = some settled)
    (stepped : extraction.step limits destRoot event = some next) : next.settled = some settled := by
  rcases step_cases stepped with ⟨entry, rest, _, _, rfl⟩ | ⟨index, path, _, _, rfl⟩ | ⟨_, _, error, _, _, rfl⟩ |
    ⟨_, _, _, rfl⟩ | ⟨error, _, _, _, rfl⟩
  · unfold Extraction.onEntry
    split
    · exact fail_settled isSettled
    · exact isSettled
  · exact finish_settled isSettled
  · exact fail_settled isSettled
  · exact finish_settled isSettled
  · exact fail_settled isSettled

def Headed (first : String) (extraction : Extraction) : Prop :=
  extraction.manifestCandidates.head? = some first ∧
    ∀ candidates written, extraction.settled = some (.ok (candidates, written)) → candidates.head? = some first

theorem fail_headed {first : String} {error : Thrown} (headed : Headed first extraction) : Headed first (extraction.fail error) := by
  unfold Extraction.fail
  split
  · exact headed
  · refine ⟨headed.1, fun candidates written resolved => ?_⟩
    cases resolved

theorem finish_headed {first : String} (headed : Headed first extraction) : Headed first extraction.finish := by
  unfold Extraction.finish
  split
  · exact headed
  · split
    · refine ⟨headed.1, fun candidates written resolved => ?_⟩
      cases resolved
      exact headed.1
    · exact headed

theorem step_headed {first : String} (headed : Headed first extraction)
    (stepped : extraction.step limits destRoot event = some next) : Headed first next := by
  rcases step_cases stepped with ⟨entry, rest, _, _, rfl⟩ | ⟨index, path, _, _, rfl⟩ | ⟨_, _, error, _, _, rfl⟩ |
    ⟨_, _, _, rfl⟩ | ⟨error, _, _, _, rfl⟩
  · unfold Extraction.onEntry
    split
    · exact fail_headed headed
    · exact headed
  · refine finish_headed ⟨?_, headed.2⟩
    simp [headed.1]
  · exact fail_headed headed
  · exact finish_headed headed
  · exact fail_headed headed

end Settled

section Arrived

variable {limits : UnpackLimits} {destRoot : List String} {project : Project} {tally : Tally}
  {consumed incoming : List Entry}

/-- A destination in which every listed file is found has received the whole archive. -/
theorem arrived_all (entries : (projectArchive project).entries = consumed ++ incoming)
    (accepted : acceptAll limits destRoot { disk := {} } consumed = some tally)
    (found : ∀ name ∈ project.tree.listProjectFiles, name ∈ tally.disk.tree.listProjectFiles) : incoming = [] := by
  obtain ⟨paths, rest, split, rfl, rfl⟩ := List.map_eq_append_iff.mp entries
  have areListed : ∀ path ∈ paths ++ rest, path ∈ project.tree.listed := fun path present => split ▸ present
  have files := (acceptAll_entries (fun path present => areListed path (List.mem_append_left _ present)) accepted).1
  have distinct : (paths ++ rest).Nodup := split ▸ listed_nodup
  cases rest with
  | nil => rfl
  | cons missing rest =>
    have isListed := areListed missing (by simp)
    obtain ⟨path, isFound, same⟩ := List.mem_map.mp (found _ (List.mem_map.mpr ⟨missing, isListed, rfl⟩))
    have isFile := (mem_listed_iff.mp isFound).2.isFile
    have arrived : path ∈ paths := by
      by_contra absent
      simp only [Disk.tree, read_stored files, if_neg absent, Option.isSome_none, Bool.false_eq_true, if_false] at isFile
      split at isFile <;> cases isFile
    -- the name determines the path
    have known := areListed path (List.mem_append_left _ arrived)
    have equal : path = missing := by
      rw [← segments_join (project.listed_named known) (listed_nonempty known), same,
        segments_join (project.listed_named isListed) (listed_nonempty isListed)]
    exact ((List.nodup_append.mp distinct).2.2 path arrived missing (by simp) equal).elim

theorem extractArchive_sound (limits : UnpackLimits) (destRoot : List String) (archive : Archive) :
    Sound limits destRoot {} archive (extractArchive {} archive) :=
  ⟨[], rfl, .inr rfl, by simp [extractArchive], by simp [extractArchive]⟩

variable {host : Host} {schedule : Schedule}

theorem unpackInto_ok {archive : Archive} {disk written : Disk} {result : UnpackResult} :
    unpackInto host limits destRoot disk archive schedule = some (.ok (result, written)) ↔
      ∃ final candidates, extracted host limits destRoot disk archive schedule = some final ∧
        final.settled = some (.ok (candidates, written)) ∧ readManifest host candidates written = .ok result.manifest ∧
        result.files = written.tree.listProjectFiles := by
  unfold unpackInto
  cases extracted host limits destRoot disk archive schedule with
  | none => simp
  | some final =>
    cases isSettled : final.settled with
    | none => simp [isSettled]
    | some settled =>
      cases settled with
      | error thrown => simp [isSettled]
      | ok resolved =>
        simp only [Option.bind_eq_bind, Option.bind_some, isSettled, Outcome.ok_bind, Option.pure_def, Option.some.injEq,
          Outcome.bind_eq_ok, Outcome.pure_eq_ok]
        constructor
        · rintro ⟨manifest, read, same⟩
          cases same
          exact ⟨final, resolved.1, rfl, by rw [isSettled], read, rfl⟩
        · rintro ⟨_, candidates, rfl, same, read, files⟩
          rw [isSettled] at same
          cases same
          refine ⟨result.manifest, read, ?_⟩
          rw [← files]

/-- Of a project that comes back whole no file has lost any of its data. -/
theorem unlost_of_roundTrip
    (roundTrip : RoundTrip project (unpackInto host limits destRoot {} (projectArchive project) schedule)) :
    ∀ amount ∈ schedule.buffered, amount = 0 := by
  obtain ⟨result, written, outcome, files, contents⟩ := roundTrip
  obtain ⟨final, candidates, extracts, settled, _, isFiles⟩ := unpackInto_ok.mp outcome
  obtain ⟨emitted, emits, ran⟩ := Option.bind_eq_some_iff.mp extracts
  have same := emit_emitted emits
  have sound := run_sound (extractArchive_sound limits destRoot ⟨emitted, none⟩) ran
  rw [Sound, settled] at sound
  obtain ⟨consumed, rest, tally, split, accepted, rfl, _⟩ := sound
  obtain rfl : emitted = consumed ++ rest := split
  -- what has been accepted of it would have been accepted with all of its data
  have sameFirst := List.forall₂_take_append _ _ _ same
  have sameLater := List.forall₂_drop_append _ _ _ same
  have blanks : (acceptAll limits destRoot { disk := {} } consumed).map Tally.blank = _ := acceptAll_emitted sameFirst
  rw [accepted] at blanks
  obtain ⟨whole, acceptedWhole, sameBlank⟩ := Option.map_eq_some_iff.mp blanks.symm
  have tree : whole.disk.tree = tally.disk.tree := by
    rw [← blank_tree whole.disk, ← blank_tree tally.disk]
    exact congrArg (fun tally => tally.disk.tree) sameBlank
  have entries := (List.take_append_drop consumed.length (projectArchive project).entries).symm
  have drained := arrived_all entries acceptedWhole fun name isListed => by
    rw [tree, ← isFiles]
    exact (files name).mpr isListed
  rw [drained, List.append_nil] at entries
  rw [← entries] at acceptedWhole
  rw [drained, List.forall₂_nil_left_iff] at sameLater
  have areFiles := (acceptAll_entries (fun _ isListed => isListed) acceptedWhole).2
  refine emit_unlost emits (List.forall₂_iff_zip.mpr ⟨same.length_eq, fun {entry out} pair => ?_⟩)
  have isEmitted : Emitted entry out := List.forall₂_zip same pair
  obtain ⟨isEntry, isOut⟩ := List.of_mem_zip pair
  rw [sameLater, List.append_nil] at isOut
  obtain ⟨path, isListed, rfl⟩ := List.mem_map.mp isEntry
  rw [Emitted] at isEmitted
  have type : out.type = .file := by
    rw [isEmitted]
    exact (areFiles path isListed).1
  have place : segments (stripLead out.path) = path := by
    rw [isEmitted]
    exact segments_entry isListed
  have arrived := contents path isListed
  have isWritten := acceptAll_writes accepted isOut type
  rw [place] at isWritten
  rw [isWritten, stored_data (areFiles path isListed).1] at arrived
  exact Option.some.inj arrived

theorem ran_of_roundTrip
    (roundTrip : RoundTrip project (unpackInto host limits destRoot {} (projectArchive project) schedule)) :
    ∃ final candidates result written, (extractArchive {} (projectArchive project)).run limits destRoot schedule.events = some final ∧
      final.settled = some (.ok (candidates, written)) ∧ readManifest host candidates written = .ok result ∧
      (∀ name, name ∈ written.tree.listProjectFiles ↔ name ∈ project.tree.listProjectFiles) ∧
      ∀ path ∈ project.tree.listed, (written.read path).map File.data = ((project.node path).bind ProjectNode.read).map File.data := by
  have unlost := unlost_of_roundTrip roundTrip
  obtain ⟨result, written, outcome, files, contents⟩ := roundTrip
  obtain ⟨final, candidates, extracts, settled, read, isFiles⟩ := unpackInto_ok.mp outcome
  rw [isFiles] at files
  exact ⟨final, candidates, result.manifest, written, extracted_whole projectArchive_whole unlost extracts, settled, read, files,
    contents⟩

/-- A project that comes back whole has no links among its files and safe paths. -/
theorem storable_of_roundTrip
    (roundTrip : RoundTrip project (unpackInto host limits destRoot {} (projectArchive project) schedule)) :
    Storable destRoot project := by
  obtain ⟨final, candidates, _, written, ran, settled, _, files, _⟩ := ran_of_roundTrip roundTrip
  have sound := run_sound (extractArchive_sound limits destRoot (projectArchive project)) ran
  rw [Sound, settled] at sound
  obtain ⟨consumed, rest, tally, entries, accepted, rfl, _⟩ := sound
  have all := arrived_all entries accepted fun name isListed => (files name).mpr isListed
  rw [all, List.append_nil] at entries
  rw [← entries] at accepted
  have each := (acceptAll_entries (fun _ isListed => isListed) accepted).2
  intro path isListed
  exact ⟨(entry_file_iff isListed).mp (each path isListed).1, (each path isListed).2⟩

theorem mem_projectArchive {entry : Entry} (present : entry ∈ (projectArchive project).entries) :
    ∃ path ∈ project.tree.listed, stripLead entry.path = Text.join "/" path ∧ segments (stripLead entry.path) = path := by
  obtain ⟨path, isListed, rfl⟩ := List.mem_map.mp present
  exact ⟨path, isListed, stripLead_entry isListed, segments_entry isListed⟩

theorem loads_of_written {path : List String} {file : File} {manifest : Json} {written : Disk}
    (same : (written.read path).map File.data = ((project.node path).bind ProjectNode.read).map File.data)
    (isFile : written.read path = some file) (loaded : loadManifest host file.text = .ok manifest) (name : String)
    (isPath : segments name = path) : Loads host project name := by
  rw [isFile, Option.map_some] at same
  obtain ⟨original, isOriginal, sameData⟩ := Option.map_eq_some_iff.mp same.symm
  obtain ⟨node, isNode, isRead⟩ := Option.bind_eq_some_iff.mp isOriginal
  exact ⟨node, original, manifest, by rw [isPath, isNode], isRead, by rw [File.text, sameData]; exact loaded⟩

theorem attentive_of_roundTrip {earlier later : List Event} {event : Event} {state : Extraction}
    (roundTrip : RoundTrip project (unpackInto host limits destRoot {} (projectArchive project) schedule))
    (split : schedule.events = earlier ++ event :: later)
    (reached : (extractArchive {} (projectArchive project)).run limits destRoot earlier = some state) :
    Attentive host project state event := by
  obtain ⟨final, candidates, _, written, ran, settled, read, files, contents⟩ := ran_of_roundTrip roundTrip
  rw [split, run_append reached, Extraction.run, List.foldlM_cons] at ran
  obtain ⟨next, stepped, ran⟩ := Option.bind_eq_some_iff.mp ran
  have sound := run_sound (extractArchive_sound limits destRoot (projectArchive project)) reached
  rcases step_cases stepped with ⟨_, _, rfl, _⟩ | ⟨index, path, rfl, present, rfl⟩ | ⟨_, _, _, rfl, _⟩ | ⟨rfl, _⟩ | ⟨_, rfl, _⟩
  · trivial
  · intro unsettled
    rw [Sound, unsettled] at sound
    obtain ⟨consumed, sound⟩ := sound
    constructor
    · intro alone
      obtain ⟨candidates', resolved⟩ := onFinish_resolves present unsettled alone
      have stays := run_invariant (fun extraction => extraction.settled = some (.ok (candidates', state.tally.disk)))
        (fun _ _ _ => step_settled) resolved ran
      rw [settled] at stays
      cases stays
      obtain ⟨bound, isStream⟩ := List.getElem?_eq_some_iff.mp present
      have accepted : acceptAll limits destRoot { disk := {} } consumed = some state.tally := by
        refine sound.accepted.resolve_left ?_
        rintro ⟨stream, isPending, isDoomed⟩
        obtain ⟨only, isOnly⟩ := List.length_eq_one_iff.mp alone
        rw [isOnly] at isPending present
        have first : index = 0 := by
          rw [isOnly] at bound
          simpa using bound
        rw [first] at present
        cases present
        rw [List.mem_singleton.mp isPending] at isDoomed
        cases isDoomed
      exact arrived_all sound.entries accepted fun name isListed => (files name).mpr isListed
    · intro none other isOther named
      have isPath : other = path := by
        rw [present] at isOther
        cases isOther
        rfl
      subst isPath
      have headed : Headed other (state.onFinish index other) := by
        refine finish_headed ⟨?_, fun _ _ resolved => ?_⟩
        · simp [none, named]
        · rw [show state.settled = _ from resolved] at unsettled
          cases unsettled
      have first := (run_invariant (Headed other) (fun _ _ _ => step_headed) headed ran).2 candidates written settled
      simp only [readManifest, Outcome.bind_eq_ok, Outcome.demand_eq_ok, first] at read
      obtain ⟨_, isFirst, file, isFile, loaded⟩ := read
      cases isFirst
      obtain ⟨entry, came, _, isEntry⟩ := sound.pending _ (List.mem_of_getElem? present)
      obtain ⟨path, isListed, _, isPath⟩ := mem_projectArchive (sound.entries ▸ List.mem_append_left _ came)
      rw [isEntry] at isPath
      rw [isPath] at isFile
      exact loads_of_written (contents path isListed) isFile loaded other isPath
  · trivial
  · trivial
  · trivial

end Arrived

section Staged

variable {host : Host} {limits : UnpackLimits} {destRoot : List String} {project : Project}
  {extraction next : Extraction} {consumed : List Entry} {past : List Event}

structure Underway (host : Host) (limits : UnpackLimits) (destRoot : List String) (project : Project)
    (consumed : List Entry) (extraction : Extraction) : Prop where
  accounted : Accounted limits destRoot {} (projectArchive project) [] consumed extraction
  fine : ∀ stream ∈ extraction.pending, stream.doomed = false
  loads : ∀ first ∈ extraction.manifestCandidates.head?, Loads host project first

def Staged (host : Host) (limits : UnpackLimits) (destRoot : List String) (project : Project) (extraction : Extraction) :
    Prop :=
  match extraction.settled with
  | none => extraction.corrupt = none ∧ ∃ consumed, Underway host limits destRoot project consumed extraction
  | some (.ok (candidates, written)) => Delivered limits destRoot {} (projectArchive project) candidates written ∧
      ∀ first ∈ candidates.head?, Loads host project first
  | some (.error _) => False

theorem Accounted.forget {archive : Archive} {disk : Disk} (accounted : Accounted limits destRoot disk archive past consumed extraction) :
    Accounted limits destRoot disk archive [] consumed extraction :=
  ⟨accounted.entries, by simp, accounted.accepted, accounted.candidates⟩

theorem Underway.accepted (underway : Underway host limits destRoot project consumed extraction) :
    acceptAll limits destRoot { disk := {} } consumed = some extraction.tally := by
  refine underway.accounted.accepted.resolve_left ?_
  rintro ⟨stream, isPending, isDoomed⟩
  rw [underway.fine stream isPending] at isDoomed
  cases isDoomed

theorem Underway.staged (underway : Underway host limits destRoot project consumed extraction)
    (unsettled : extraction.settled = none) (intact : extraction.corrupt = none) :
    Staged host limits destRoot project extraction := by
  rw [Staged, unsettled]
  exact ⟨intact, consumed, underway⟩

theorem finish_staged (underway : Underway host limits destRoot project consumed extraction)
    (unsettled : extraction.settled = none) (intact : extraction.corrupt = none)
    (drained : extraction.pending = [] → extraction.incoming = []) :
    Staged host limits destRoot project extraction.finish := by
  unfold Extraction.finish
  rw [unsettled, if_neg (by simp)]
  split
  · rename_i idle
    exact ⟨underway.accounted.delivered (drained idle) idle, underway.loads⟩
  · exact underway.staged unsettled intact

theorem onEntry_staged {entry : Entry} {rest : List Entry} {whole : Tally}
    (accepted : acceptAll limits destRoot { disk := {} } (projectArchive project).entries = some whole)
    (underway : Underway host limits destRoot project consumed extraction) (unsettled : extraction.settled = none)
    (intact : extraction.corrupt = none) (incoming : extraction.incoming = entry :: rest) :
    Staged host limits destRoot project (extraction.onEntry limits destRoot entry rest) := by
  rw [underway.accounted.entries, incoming, acceptAll_append, underway.accepted] at accepted
  obtain ⟨after, first, _⟩ := Option.bind_eq_some_iff.mp (show (accept limits destRoot extraction.tally entry).bind _ = _ from accepted)
  have received := accept_eq_some first
  unfold Extraction.onEntry
  rw [received]
  refine Underway.staged ⟨(underway.accounted.received incoming received).forget, ?_, underway.loads⟩ unsettled intact
  intro stream isPending
  rcases List.mem_append.mp isPending with older | own
  · exact underway.fine stream older
  · unfold Entry.stream at own
    split at own
    · rw [List.mem_singleton.mp own]
    · cases own

theorem onFinish_staged {index : Nat} {path : String} (underway : Underway host limits destRoot project consumed extraction)
    (unsettled : extraction.settled = none) (intact : extraction.corrupt = none)
    (present : extraction.pending[index]? = some ⟨path, false⟩)
    (attentive : Attentive host project extraction (.finish index)) :
    Staged host limits destRoot project (extraction.onFinish index path) := by
  obtain ⟨bound, _⟩ := List.getElem?_eq_some_iff.mp present
  obtain ⟨last, firstLoads⟩ := attentive unsettled
  unfold Extraction.onFinish
  refine finish_staged ⟨(underway.accounted.finished present).forget, ?_, ?_⟩ unsettled intact ?_
  · intro stream isPending
    exact underway.fine stream (List.mem_of_mem_eraseIdx isPending)
  · intro first isFirst
    cases earlier : extraction.manifestCandidates with
    | cons head rest =>
      simp only [earlier, List.cons_append, List.head?_cons] at isFirst
      exact underway.loads first (by rw [earlier]; exact isFirst)
    | nil =>
      simp only [earlier, List.nil_append] at isFirst
      split at isFirst
      · rename_i named
        cases isFirst
        exact firstLoads earlier path present named
      · cases isFirst
  · intro idle
    have erased := congrArg List.length (show extraction.pending.eraseIdx index = [] from idle)
    rw [List.length_eraseIdx_of_lt bound, List.length_nil] at erased
    exact last (by omega)

theorem step_staged {event : Event} {whole : Tally}
    (accepted : acceptAll limits destRoot { disk := {} } (projectArchive project).entries = some whole)
    (staged : Staged host limits destRoot project extraction) (attentive : Attentive host project extraction event)
    (stepped : extraction.step limits destRoot event = some next) : Staged host limits destRoot project next := by
  cases settled : extraction.settled with
  | some outcome =>
    have same := step_settled settled stepped
    rw [Staged, settled] at staged
    rw [Staged, same]
    cases outcome with
    | ok resolved => exact staged
    | error thrown => exact staged
  | none =>
    rw [Staged, settled] at staged
    obtain ⟨intact, consumed, underway⟩ := staged
    rcases step_cases stepped with ⟨entry, rest, rfl, incoming, rfl⟩ | ⟨index, path, rfl, present, rfl⟩ |
      ⟨index, path, error, rfl, present, rfl⟩ | ⟨rfl, drained, _, rfl⟩ | ⟨error, rfl, _, corrupt, rfl⟩
    · exact onEntry_staged accepted underway settled intact incoming
    · exact onFinish_staged underway settled intact present attentive
    · exact absurd (underway.fine _ (List.mem_of_getElem? present)) (by simp)
    · exact finish_staged underway settled intact fun _ => drained
    · rw [intact] at corrupt
      cases corrupt

theorem listed_root {name : String} {node : ProjectNode} {file : File} (isNode : project.node [name] = some node)
    (isRead : node.read = some file) (visible : visibleNames [name] = true) : [name] ∈ project.tree.listed := by
  refine mem_listed_iff.mpr ⟨visible, ?_, ?_, ?_⟩
  · obtain ⟨before, after, nodes, _⟩ := List.lookup_eq_some_iff.mp isNode
    show [name] ∈ project.nodes.map Prod.fst
    rw [nodes]
    simp
  · show (project.node [name]).map ProjectNode.stat = some .file
    rw [isNode]
    cases node with
    | file size content => rfl
    | linkToFile size content => rfl
    | directory => cases isRead
    | linkToDirectory => cases isRead
  · intro lead leads nonempty differs
    exact absurd (leads.eq_of_length_le (by simpa [Nat.one_le_iff_ne_zero] using nonempty)) differs

theorem manifest_listed {manifest : Json} (loaded : loadManifestFromDir host project = .ok manifest) :
    ["agent.yaml"] ∈ project.tree.listed ∨ ["manifest.yaml"] ∈ project.tree.listed := by
  unfold loadManifestFromDir at loaded
  rw [loadManifestFrom] at loaded
  cases agent : project.node ["agent.yaml"] with
  | some node =>
    cases isRead : node.read with
    | some file => exact .inl (listed_root agent isRead (by decide))
    | none => simp [agent, isRead] at loaded
  | none =>
    rw [agent] at loaded
    dsimp only at loaded
    rw [loadManifestFrom] at loaded
    cases other : project.node ["manifest.yaml"] with
    | some node =>
      cases isRead : node.read with
      | some file => exact .inr (listed_root other isRead (by decide))
      | none => simp [other, isRead] at loaded
    | none => simp [other, loadManifestFrom] at loaded

theorem extractArchive_staged (host : Host) (limits : UnpackLimits) (destRoot : List String) (project : Project) :
    Staged host limits destRoot project (extractArchive {} (projectArchive project)) := by
  have accounted : Accounted limits destRoot {} (projectArchive project) [] [] (extractArchive {} (projectArchive project)) :=
    ⟨rfl, by simp, .inr rfl, by simp [extractArchive]⟩
  exact Underway.staged ⟨accounted, by simp [extractArchive], by simp [extractArchive]⟩ rfl rfl

theorem candidate_listed {first : String} (isCandidate : first ∈ (projectArchive project).entries.filterMap Entry.candidate?) :
    ∃ path ∈ project.tree.listed, segments first = path := by
  obtain ⟨entry, present, isFirst⟩ := List.mem_filterMap.mp isCandidate
  obtain ⟨path, isListed, _, isPath⟩ := mem_projectArchive present
  refine ⟨path, isListed, ?_⟩
  obtain ⟨stream, isStream, isFirst⟩ := Option.bind_eq_some_iff.mp isFirst
  unfold WriteStream.candidate? at isFirst
  split at isFirst
  · cases isFirst
    unfold Entry.stream at isStream
    split at isStream
    · cases isStream
      exact isPath
    · cases isStream
  · cases isFirst

theorem root_candidate {name : String} (isListed : [name] ∈ project.tree.listed) (isFile : (project.entry [name]).type = .file)
    (named : isManifestName (baseName name) = true) : name ∈ (projectArchive project).entries.filterMap Entry.candidate? := by
  refine List.mem_filterMap.mpr ⟨project.entry [name], List.mem_map.mpr ⟨[name], isListed, rfl⟩, ?_⟩
  simp [Entry.candidate?, Entry.stream, isFile, stripLead_entry isListed, WriteStream.candidate?, Text.join, named]

/-- What has been delivered of a storable project is the project. -/
theorem Delivered.roundTrip {manifest : Json} {candidates : List String} {written : Disk}
    (loaded : loadManifestFromDir host project = .ok manifest) (storable : Storable destRoot project)
    (within : WithinLimits limits project)
    (delivered : Delivered limits destRoot {} (projectArchive project) candidates written)
    (loads : ∀ first ∈ candidates.head?, Loads host project first) :
    ∃ result, readManifest host candidates written = .ok result ∧
      (∀ name, name ∈ written.tree.listProjectFiles ↔ name ∈ project.tree.listProjectFiles) ∧
      ∀ path ∈ project.tree.listed, (written.read path).map File.data = ((project.node path).bind ProjectNode.read).map File.data := by
  obtain ⟨tally, accepted, rfl, isPerm⟩ := delivered
  obtain ⟨after, same, filled⟩ := project_accepted storable within
  rw [show acceptAll limits destRoot { disk := {} } (project.tree.listed.map project.entry) = some tally from accepted] at same
  cases same
  have areFiles : ∀ path ∈ project.tree.listed, (project.entry path).type = .file := fun path isListed =>
    (entry_file_iff isListed).mpr (storable path isListed).1
  have contents : ∀ path ∈ project.tree.listed,
      (tally.disk.read path).map File.data = ((project.node path).bind ProjectNode.read).map File.data := by
    intro path isListed
    rw [read_stored filled.files, if_pos isListed, stored_data (areFiles path isListed), Option.map_some, stored, Entry.piped,
      entry_whole, List.drop_zero]
  have nonempty : candidates ≠ [] := by
    rintro rfl
    have none := isPerm.nil_eq
    rcases manifest_listed loaded with isListed | isListed
    · have isCandidate := root_candidate isListed (areFiles _ isListed) (by decide)
      rw [← none] at isCandidate
      cases isCandidate
    · have isCandidate := root_candidate isListed (areFiles _ isListed) (by decide)
      rw [← none] at isCandidate
      cases isCandidate
  obtain ⟨first, rest, rfl⟩ := List.exists_cons_of_ne_nil nonempty
  obtain ⟨node, file, manifest, isNode, isRead, isManifest⟩ := loads first rfl
  obtain ⟨path, isListed, isPath⟩ := candidate_listed (isPerm.subset List.mem_cons_self)
  refine ⟨manifest, ?_, filled.listProjectFiles, contents⟩
  rw [isPath] at isNode
  have isData := contents path isListed
  rw [isNode, Option.bind_some, isRead, Option.map_some] at isData
  obtain ⟨copy, isCopy, sameData⟩ := Option.map_eq_some_iff.mp isData
  rw [File.text, ← sameData, ← File.text] at isManifest
  simp [readManifest, isPath, isCopy, isManifest]

end Staged

variable {host : Host} {limits : UnpackLimits} {destRoot : List String} {project : Project}

/-- A packed project comes back whole exactly when none of its files is a link, the extractor takes their paths, no
    entry loses data that the parser has buffered, no write finishes alone while entries are still to come, and the
    first manifest that is written loads. -/
theorem round_trip_iff {manifest : Json} {entries : List Entry} {schedule : Schedule}
    (packed : packAgent host project = .ok (manifest, entries)) (within : WithinLimits limits project)
    (settles : (unpackInto host limits destRoot {} ⟨entries, none⟩ schedule).isSome) :
    RoundTrip project (unpackInto host limits destRoot {} ⟨entries, none⟩ schedule) ↔
      Storable destRoot project ∧ (∀ amount ∈ schedule.buffered, amount = 0) ∧
        ∀ earlier event later state, schedule.events = earlier ++ event :: later →
          (extractArchive {} ⟨entries, none⟩).run limits destRoot earlier = some state → Attentive host project state event := by
  obtain ⟨loaded, _, rfl⟩ := packAgent_ok.mp packed
  constructor
  · intro roundTrip
    exact ⟨storable_of_roundTrip roundTrip, unlost_of_roundTrip roundTrip, fun _ _ _ _ => attentive_of_roundTrip roundTrip⟩
  · rintro ⟨storable, unlost, attentive⟩
    obtain ⟨whole, accepted, _⟩ := project_accepted storable within
    obtain ⟨outcome, isOutcome⟩ := Option.isSome_iff_exists.mp settles
    unfold unpackInto at isOutcome
    obtain ⟨final, extracts, isOutcome⟩ := Option.bind_eq_some_iff.mp isOutcome
    obtain ⟨settled, isSettled, _⟩ := Option.bind_eq_some_iff.mp isOutcome
    have ran : (extractArchive {} (projectArchive project)).run limits destRoot schedule.events = some final :=
      extracted_whole projectArchive_whole unlost extracts
    have staged := run_conditioned (fun _ => Staged host limits destRoot project) (fun _ => Attentive host project)
      (fun _ _ _ _ => step_staged accepted) (extractArchive_staged host limits destRoot project) attentive ran
    rw [Staged, isSettled] at staged
    match settled, staged with
    | .ok (candidates, written), ⟨delivered, loads⟩ =>
      obtain ⟨result, read, files, contents⟩ := delivered.roundTrip loaded storable within loads
      refine ⟨⟨result, written.tree.listProjectFiles⟩, written, ?_, files, contents⟩
      exact unpackInto_ok.mpr ⟨final, candidates, extracts, isSettled, read, rfl⟩

def manifestNode : ProjectNode := .file 300 ⟨sampleData "none", 0o644⟩

def helloProject : Project where
  dir := "/home/alice/hello"
  nodes := [(["agent.yaml"], manifestNode), (["data"], .directory), (["data", "file.txt"], .file 7 ⟨Utf8.encode "nested\n".toList, 0o644⟩),
    (["node_modules"], .directory), (["node_modules", "junk.js"], .file 19 ⟨Utf8.encode "should be excluded\n".toList, 0o644⟩)]
  distinct := by decide
  named := by decide +kernel

theorem helloProject_manifest : helloProject.node ["agent.yaml"] = some manifestNode := by
  simp [Project.node, helloProject]

theorem helloProject_listed : helloProject.tree.listed = [["agent.yaml"], ["data", "file.txt"]] := by decide +kernel

theorem loadManifestFromDir_sample {project : Project} (isNode : project.node ["agent.yaml"] = some manifestNode) :
    loadManifestFromDir sampleHost project = .ok (sampleManifest "none") := by
  unfold loadManifestFromDir loadManifestFrom
  simp only [isNode, manifestNode, ProjectNode.read]
  rw [File.text, loadManifest_sampleData parseSample_none]

/-- When all entries have come, only a manifest that does not load can do harm. -/
theorem attentive_drained {extraction : Extraction} {index : Nat} (drained : extraction.incoming = [])
    (loads : ∀ stream ∈ extraction.pending, isManifestName (baseName stream.path) = true → Loads host project stream.path) :
    Attentive host project extraction (.finish index) := by
  intro _
  refine ⟨fun _ => drained, fun _ path present named => ?_⟩
  exact loads ⟨path, false⟩ (List.mem_of_getElem? present) named

def patientEvents : List Event := [.entry, .entry, .finish 1, .finish 0, .end]

theorem patientEvents_finish {earlier later : List Event} {index : Nat}
    (split : patientEvents = earlier ++ .finish index :: later) :
    earlier ∈ [[.entry, .entry], [.entry, .entry, .finish 1]] := by
  rcases earlier with _ | ⟨first, _ | ⟨second, _ | ⟨third, _ | ⟨fourth, _ | ⟨fifth, rest⟩⟩⟩⟩⟩ <;>
    simp [patientEvents] at split <;> grind

theorem hello_comes_back :
    RoundTrip helloProject (unpackInto sampleHost {} ["opt"] {} ⟨helloProject.tree.listed.map helloProject.entry, none⟩ ⟨[0, 0], patientEvents⟩) := by
  have packed : packAgent sampleHost helloProject = .ok (sampleManifest "none", helloProject.tree.listed.map helloProject.entry) :=
    packAgent_ok.mpr ⟨loadManifestFromDir_sample helloProject_manifest, by rw [helloProject_listed]; simp, rfl⟩
  have within : WithinLimits {} helloProject := by
    refine ⟨?_, ?_, ?_⟩ <;> rw [helloProject_listed] <;> decide
  refine (round_trip_iff packed within (by rw [helloProject_listed]; decide +kernel)).mpr ⟨?_, by simp, ?_⟩
  · unfold Storable
    rw [helloProject_listed]
    decide +kernel
  · intro earlier event later state split reached
    have loads : Loads sampleHost helloProject "agent.yaml" := by
      refine ⟨manifestNode, ⟨sampleData "none", 0o644⟩, sampleManifest "none", ?_, rfl, ?_⟩
      · rw [show segments "agent.yaml" = ["agent.yaml"] by decide +kernel]
        exact helloProject_manifest
      · rw [File.text, loadManifest_sampleData parseSample_none]
    have quiet : ∀ earlier ∈ [[.entry, .entry], [.entry, .entry, .finish 1]],
        ((extractArchive {} ⟨helloProject.tree.listed.map helloProject.entry, none⟩).run {} ["opt"] earlier).all (fun state =>
          state.incoming.isEmpty && state.pending.all fun stream =>
            stream.path == "agent.yaml" || !isManifestName (baseName stream.path)) = true := by
      rw [helloProject_listed]
      decide +kernel
    cases event with
    | finish index =>
      have summary := quiet earlier (patientEvents_finish split)
      rw [reached] at summary
      simp only [Option.all_some, Bool.and_eq_true, List.isEmpty_iff, List.all_eq_true, Bool.or_eq_true, beq_iff_eq,
        Bool.not_eq_true'] at summary
      refine attentive_drained summary.1 fun stream pending named => ?_
      rcases summary.2 stream pending with isManifest | other
      · rw [isManifest]
        exact loads
      · rw [other] at named
        cases named
    | _ => trivial

def linkedProject : Project where
  dir := "/home/alice/hello"
  nodes := [(["agent.yaml"], manifestNode), (["README.md"], .linkToFile 10 ⟨Utf8.encode "# Weather\n".toList, 0o644⟩)]
  distinct := by decide
  named := by decide +kernel

theorem linkedProject_manifest : linkedProject.node ["agent.yaml"] = some manifestNode := by
  simp [Project.node, linkedProject]

theorem linkedProject_listed : linkedProject.tree.listed = [["agent.yaml"], ["README.md"]] := by decide +kernel

theorem packed_link_refused :
    packAgent sampleHost linkedProject = .ok (sampleManifest "none", linkedProject.tree.listed.map linkedProject.entry) ∧
      WithinLimits {} linkedProject ∧
      (unpackInto sampleHost {} ["opt"] {} ⟨linkedProject.tree.listed.map linkedProject.entry, none⟩ ⟨[0, 0], [.entry, .entry]⟩).isSome ∧
      ¬ RoundTrip linkedProject
          (unpackInto sampleHost {} ["opt"] {} ⟨linkedProject.tree.listed.map linkedProject.entry, none⟩ ⟨[0, 0], [.entry, .entry]⟩) := by
  refine ⟨packAgent_ok.mpr ⟨loadManifestFromDir_sample linkedProject_manifest, by rw [linkedProject_listed]; simp, rfl⟩, ?_,
    by rw [linkedProject_listed]; decide +kernel, ?_⟩
  · refine ⟨?_, ?_, ?_⟩ <;> rw [linkedProject_listed] <;> decide
  · intro roundTrip
    have linkless := (storable_of_roundTrip roundTrip ["README.md"] (by rw [linkedProject_listed]; simp)).1
    have isNode : linkedProject.node ["README.md"] = some (.linkToFile 10 ⟨Utf8.encode "# Weather\n".toList, 0o644⟩) := by
      simp [Project.node, linkedProject, List.lookup_cons]
    cases linkless _ isNode

end Sdk
