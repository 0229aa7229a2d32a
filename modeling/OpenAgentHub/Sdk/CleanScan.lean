import OpenAgentHub.Sdk.ManifestChoice

namespace Sdk

def checkEntry (limits : UnpackLimits) (destRoot : List String) (tally : Tally) (entry : Entry) : Except Thrown Tally := do
  let safe := stripLead entry.path
  assertSafeArchivePath safe destRoot
  match entry.type with
  | .directory => return tally
  | .other name => .error (archiveError ("unsupported entry type '" ++ name ++ "' in archive: " ++ safe))
  | .file => do
    let fileCount := tally.fileCount + 1
    Outcome.ensure (fileCount ≤ limits.maxFiles) (archiveError "too many files in archive")
    Outcome.ensure (entry.size ≤ limits.maxSingleFileBytes) (archiveError ("file too large in archive: " ++ safe))
    let totalBytes := tally.totalBytes + entry.size
    Outcome.ensure (totalBytes ≤ limits.maxTotalBytes) (archiveError "archive exceeds total size limit")
    return { tally with totalBytes, fileCount }

def checkEntries (limits : UnpackLimits) (destRoot : List String) (tally : Tally) (entries : List Entry) : Except Thrown Tally :=
  entries.foldlM (checkEntry limits destRoot) tally

def storeEntry (tally : Tally) (entry : Entry) : Except Thrown (Tally × Option WriteStream) :=
  let safe := stripLead entry.path
  match entry.type with
  | .directory => do
    let disk ← tally.disk.makeDirectory (segments safe)
    return ({ tally with disk }, none)
  | .file => do
    let disk ← tally.disk.makeDirectory (segments safe).dropLast
    if disk.taken (segments safe) then return ({ tally with disk }, some ⟨safe, true⟩)
    else return ({ tally with disk := disk.write (segments safe) ⟨entry.piped, sanitizeMode entry.mode⟩ }, some ⟨safe, false⟩)
  | .other _ => return (tally, none)

section Checks

variable {limits : UnpackLimits} {destRoot : List String} {tally after : Tally} {entry : Entry} {entries : List Entry}

theorem receive_eq : receive limits destRoot tally entry =
    checkEntry limits destRoot tally entry >>= fun checked => storeEntry checked entry := by
  unfold receive checkEntry storeEntry
  dsimp only
  cases entry.type with
  | directory => simp only [bind_assoc, pure_bind]
  | other name => simp only [bind_assoc, Outcome.error_bind]
  | file => simp only [bind_assoc, pure_bind]

theorem safePath_iff {path : String} : assertSafeArchivePath path destRoot = .ok () ↔
    path ≠ "" ∧ '\x00' ∉ path.toList ∧
      (Text.startsWith path "/" = false ∧ Text.startsWith path "\\" = false ∧ hasDrive path = false) ∧
      ".." ∉ Text.split '/' (Text.replace path '\\' '/') ∧ (segments path = [] ∨ destRoot ≠ []) := by
  simp [assertSafeArchivePath]

def Admissible (limits : UnpackLimits) (destRoot : List String) (entry : Entry) : Prop :=
  assertSafeArchivePath (stripLead entry.path) destRoot = .ok () ∧
    (entry.type = .directory ∨ entry.type = .file ∧ entry.size ≤ limits.maxSingleFileBytes)

def isFile (entry : Entry) : Bool := entry.type == .file

theorem checkEntry_eq_ok : checkEntry limits destRoot tally entry = .ok after ↔
    Admissible limits destRoot entry ∧
      (if isFile entry then tally.fileCount + 1 ≤ limits.maxFiles ∧ tally.totalBytes + entry.size ≤ limits.maxTotalBytes ∧
          after = { tally with totalBytes := tally.totalBytes + entry.size, fileCount := tally.fileCount + 1 }
        else after = tally) := by
  unfold checkEntry Admissible isFile
  dsimp only
  cases entry.type with
  | directory =>
    simp only [Outcome.bind_eq_ok, Outcome.pure_eq_ok]
    constructor
    · rintro ⟨_, safe, rfl⟩
      exact ⟨⟨safe, .inl trivial⟩, rfl⟩
    · rintro ⟨⟨safe, _⟩, same⟩
      exact ⟨(), safe, same.symm⟩
  | other name =>
    simp only [Outcome.bind_eq_ok]
    constructor
    · rintro ⟨_, _, refused⟩
      cases refused
    · rintro ⟨⟨_, unsupported | ⟨unsupported, _⟩⟩, _⟩ <;> cases unsupported
  | file =>
    simp only [Outcome.bind_eq_ok, Outcome.ensure_eq_ok, Outcome.pure_eq_ok]
    constructor
    · rintro ⟨_, safe, _, count, _, size, _, total, rfl⟩
      exact ⟨⟨safe, .inr ⟨trivial, size⟩⟩, count, total, rfl⟩
    · rintro ⟨⟨safe, unsupported | ⟨_, size⟩⟩, count, total, same⟩
      · cases unsupported
      · exact ⟨(), safe, (), count, (), size, (), total, same.symm⟩

/-- Every entry is admissible, and the files keep within the limits together. -/
theorem checkEntries_ok (count : tally.fileCount ≤ limits.maxFiles) (total : tally.totalBytes ≤ limits.maxTotalBytes) :
    (∃ after, checkEntries limits destRoot tally entries = .ok after) ↔
      (∀ entry ∈ entries, Admissible limits destRoot entry) ∧
        tally.fileCount + (entries.filter isFile).length ≤ limits.maxFiles ∧
        tally.totalBytes + ((entries.filter isFile).map Entry.size).sum ≤ limits.maxTotalBytes := by
  induction entries generalizing tally with
  | nil => simp [checkEntries, count, total]
  | cons entry rest ih =>
    simp only [checkEntries, List.foldlM_cons, Outcome.bind_eq_ok, checkEntry_eq_ok, List.forall_mem_cons] at ih ⊢
    by_cases file : isFile entry = true
    · simp only [file, if_true, List.filter_cons, List.length_cons, List.map_cons, List.sum_cons]
      constructor
      · rintro ⟨after, next, ⟨admissible, count, total, rfl⟩, checked⟩
        obtain ⟨others, counts, totals⟩ := (ih count total).mp ⟨after, checked⟩
        dsimp only at counts totals
        exact ⟨⟨admissible, others⟩, by omega, by omega⟩
      · rintro ⟨⟨admissible, others⟩, counts, totals⟩
        have within : tally.fileCount + 1 ≤ limits.maxFiles := by omega
        have bounded : tally.totalBytes + entry.size ≤ limits.maxTotalBytes := by omega
        have checked : ∃ after, rest.foldlM (checkEntry limits destRoot)
            { tally with totalBytes := tally.totalBytes + entry.size, fileCount := tally.fileCount + 1 } = .ok after :=
          (ih within bounded).mpr ⟨others, by dsimp only; omega, by dsimp only; omega⟩
        obtain ⟨after, checked⟩ := checked
        exact ⟨after, _, ⟨admissible, within, bounded, rfl⟩, checked⟩
    · simp only [file, List.filter_cons]
      constructor
      · rintro ⟨after, next, ⟨admissible, rfl⟩, checked⟩
        obtain ⟨others, sums⟩ := (ih count total).mp ⟨after, checked⟩
        exact ⟨⟨admissible, others⟩, sums⟩
      · rintro ⟨⟨admissible, others⟩, sums⟩
        obtain ⟨after, checked⟩ := (ih count total).mpr ⟨others, sums⟩
        exact ⟨after, tally, ⟨admissible, rfl⟩, checked⟩

end Checks

section Scan

open Registry.Packages

/-- One entry as the two tar readers list it. A directory may keep the slashes at its end. -/
structure SameEntry (member : TarMember) (entry : Entry) : Prop where
  path : ∃ slashes, entry.path.toList = member.name.toList ++ List.replicate slashes '/' ∧
    (slashes ≠ 0 → entry.type = .directory ∧ member.name ≠ "")
  size : entry.size = member.size
  file : entry.type = .file → member.kind = .regular
  directory : member.kind = .directory → entry.type = .directory

/-- What the extractor asks of an entry beyond what the scan has looked at. -/
structure Extractable (limits : UnpackLimits) (destRoot : List String) (entry : Entry) : Prop where
  nonempty : stripLead entry.path ≠ ""
  lead : Text.startsWith entry.path "./" = true →
    Text.startsWith (stripLead entry.path) "/" = false ∧ Sdk.hasDrive (stripLead entry.path) = false
  backslash : '\\' ∈ entry.path.toList → Text.startsWith (stripLead entry.path) "\\" = false ∧
    ".." ∉ Text.split '/' (Text.replace (stripLead entry.path) '\\' '/')
  inside : segments (stripLead entry.path) = [] ∨ destRoot ≠ []
  supported : entry.type = .directory ∨ entry.type = .file ∧ entry.size ≤ limits.maxSingleFileBytes

/-- A clean scan has found nothing against any member. -/
theorem clean_members {host : PackageHost} {archive : Bytes} {maxBytes : Nat} {members : List TarMember}
    (clean : checkArchiveSafety host archive maxBytes = .ok []) (opened : host.openTar archive = .ok members) :
    ∀ member ∈ members, memberRejection member = none := by
  unfold checkArchiveSafety at clean
  split at clean
  · cases clean
  · rw [opened] at clean
    simp only [Except.ok.injEq, List.append_eq_nil_iff, List.filterMap_eq_nil_iff] at clean
    exact clean.1.1.2

theorem memberRejection_none {member : TarMember} (unobjected : memberRejection member = none) :
    Text.startsWith member.name "/" = false ∧ ".." ∉ Text.split '/' member.name ∧
      Registry.Packages.hasDrive member.name = false ∧ '\x00' ∉ member.name.toList := by
  unfold memberRejection at unobjected
  split_ifs at unobjected
  simp_all

variable {member : TarMember} {entry : Entry}

/-- The segments of the path that the extractor checks are segments of the name that the scan has checked. -/
theorem SameEntry.dots (same : SameEntry member entry) (above : ".." ∉ Text.split '/' member.name) :
    ".." ∉ Text.split '/' (stripLead entry.path) := by
  rw [Text.mem_split] at above ⊢
  obtain ⟨slashes, isPath, _⟩ := same.path
  intro present
  apply above
  have onPath : "..".toList ∈ entry.path.toList.splitOn '/' := by
    rcases stripLead_cases entry.path with ⟨_, isLead⟩ | ⟨_, isSame⟩
    · rw [isLead, show '.' :: '/' :: (stripLead entry.path).toList = ['.'] ++ '/' :: (stripLead entry.path).toList from rfl,
        List.splitOn_append_cons_self]
      exact List.mem_append_right _ present
    · rwa [isSame] at present
  rw [isPath] at onPath
  exact Text.mem_splitOn_of_trailing (by decide) onPath

theorem mem_stripLead {path : String} {char : Char} (present : char ∈ (stripLead path).toList) : char ∈ path.toList := by
  rcases stripLead_cases path with ⟨_, isLead⟩ | ⟨_, isSame⟩
  · rw [isLead]
    exact List.mem_cons_of_mem _ (List.mem_cons_of_mem _ present)
  · rwa [isSame] at present

/-- A name that neither starts with a slash nor with a drive stays so with slashes at its end. -/
theorem SameEntry.relative (same : SameEntry member entry) (relative : Text.startsWith member.name "/" = false)
    (driveless : Registry.Packages.hasDrive member.name = false) :
    Text.startsWith entry.path "/" = false ∧ Sdk.hasDrive entry.path = false := by
  obtain ⟨slashes, isPath, onlyDirectories⟩ := same.path
  unfold Text.startsWith Sdk.hasDrive
  unfold Text.startsWith at relative
  unfold Registry.Packages.hasDrive at driveless
  rw [isPath]
  cases name : member.name.toList with
  | nil =>
    have none : slashes = 0 := by
      by_contra some
      exact (onlyDirectories some).2 (String.toList_eq_nil_iff.mp name)
    simp [none]
  | cons first rest =>
    rw [name] at relative driveless
    refine ⟨by simpa [List.isPrefixOf] using relative, ?_⟩
    cases rest with
    | nil => cases slashes <;> simp [List.replicate_succ]
    | cons second more =>
      by_cases colon : second = ':'
      · subst colon
        exact driveless
      · simp [colon]

/-- Of an entry that the scan does not object to, the extractor accepts path, type and size exactly when it is extractable. -/
theorem admissible_iff {limits : UnpackLimits} {destRoot : List String} (same : SameEntry member entry)
    (unobjected : memberRejection member = none) :
    Admissible limits destRoot entry ↔ Extractable limits destRoot entry := by
  obtain ⟨relative, above, driveless, nulless⟩ := memberRejection_none unobjected
  unfold Admissible
  rw [safePath_iff]
  constructor
  · rintro ⟨⟨nonempty, _, ⟨absolute, backslash, drive⟩, dots, inside⟩, supported⟩
    exact ⟨nonempty, fun _ => ⟨absolute, drive⟩, fun _ => ⟨backslash, dots⟩, inside, supported⟩
  · intro extractable
    have noNul : '\x00' ∉ (stripLead entry.path).toList := by
      intro present
      obtain ⟨slashes, isPath, _⟩ := same.path
      have onPath := mem_stripLead present
      rw [isPath, List.mem_append] at onPath
      rcases onPath with inName | trailing
      · exact nulless inName
      · exact absurd (List.eq_of_mem_replicate trailing) (by decide)
    have leads : Text.startsWith (stripLead entry.path) "/" = false ∧ Sdk.hasDrive (stripLead entry.path) = false := by
      rcases stripLead_cases entry.path with ⟨isLead, _⟩ | ⟨_, isSame⟩
      · exact extractable.lead isLead
      · rw [isSame]
        exact same.relative relative driveless
    have separators : Text.startsWith (stripLead entry.path) "\\" = false ∧
        ".." ∉ Text.split '/' (Text.replace (stripLead entry.path) '\\' '/') := by
      by_cases has : '\\' ∈ entry.path.toList
      · exact extractable.backslash has
      · have missing : '\\' ∉ (stripLead entry.path).toList := fun present => has (mem_stripLead present)
        rw [Text.replace_eq_self missing]
        refine ⟨?_, same.dots above⟩
        by_contra starts
        rw [Bool.not_eq_false] at starts
        have lead : ['\\'] <+: (stripLead entry.path).toList := List.isPrefixOf_iff_prefix.mp starts
        exact missing (lead.subset (List.mem_singleton_self _))
    exact ⟨⟨extractable.nonempty, noNul, ⟨leads.1, separators.1, leads.2⟩, separators.2, extractable.inside⟩,
      extractable.supported⟩

/-- An archive with a clean scan passes the checks of the extractor exactly when its entries pass the stricter ones,
    and its files keep within the lower limits. -/
theorem clean_archive_accepted_iff {host : PackageHost} {archive : Bytes} {maxBytes : Nat} {members : List TarMember}
    {entries : List Entry} (limits : UnpackLimits) (destRoot : List String) (disk : Disk)
    (clean : checkArchiveSafety host archive maxBytes = .ok []) (opened : host.openTar archive = .ok members)
    (same : List.Forall₂ SameEntry members entries) :
    (∃ after, checkEntries limits destRoot { disk } entries = .ok after) ↔
      (∀ entry ∈ entries, Extractable limits destRoot entry) ∧ (entries.filter isFile).length ≤ limits.maxFiles ∧
        ((entries.filter isFile).map Entry.size).sum ≤ limits.maxTotalBytes := by
  have unobjected := clean_members clean opened
  have each : (∀ entry ∈ entries, Admissible limits destRoot entry) ↔ ∀ entry ∈ entries, Extractable limits destRoot entry := by
    clear opened clean
    induction same with
    | nil => simp
    | cons first _ ih =>
      rw [List.forall_mem_cons] at unobjected
      rw [List.forall_mem_cons, List.forall_mem_cons, admissible_iff first unobjected.1, ih unobjected.2]
  rw [checkEntries_ok (Nat.zero_le _) (Nat.zero_le _), each, Nat.zero_add, Nat.zero_add]

theorem rootMember_same : SameEntry rootMember rootEntry :=
  ⟨⟨0, by simp [rootMember, rootEntry], by simp⟩, rfl, fun _ => rfl, by simp [rootMember]⟩

def guideText : String := "# Weather\n"

def treeMembers : List TarMember :=
  [rootMember, ⟨"docs", .directory, 0, none⟩, ⟨"docs/guide.md", .regular, 10, some guideText⟩]

def treeEntries : List Entry :=
  [rootEntry, ⟨"docs/", .directory, 0, [], none, 0⟩,
    ⟨"docs/guide.md", .file, 10, Utf8.encode guideText.toList, none, 0⟩]

theorem treeMembers_same : List.Forall₂ SameEntry treeMembers treeEntries := by
  refine .cons rootMember_same (.cons ?_ (.cons ?_ .nil))
  · exact ⟨⟨1, by decide, fun _ => ⟨rfl, by decide⟩⟩, rfl, by simp, fun _ => rfl⟩
  · exact ⟨⟨0, by simp, by simp⟩, rfl, fun _ => rfl, by simp⟩

theorem clean_root_accepted : ∃ after, checkEntries {} ["opt"] { disk := {} } treeEntries = .ok after := by
  have clean : checkArchiveSafety (sampleRegistry treeMembers) [] (250 * 1024 * 1024) = .ok [] := by rfl
  refine (clean_archive_accepted_iff {} ["opt"] {} clean rfl treeMembers_same).mpr ⟨?_, by decide, by decide⟩
  refine List.forall_mem_cons.mpr ⟨?_, List.forall_mem_cons.mpr ⟨?_, List.forall_mem_singleton.mpr ?_⟩⟩
  · exact ⟨by decide, by decide, by decide, .inr (by decide), .inr ⟨rfl, by decide⟩⟩
  · exact ⟨by decide, by decide, by decide, .inr (by decide), .inl rfl⟩
  · exact ⟨by decide, by decide, by decide, .inr (by decide), .inr ⟨rfl, by decide⟩⟩

def weightsText : String := String.ofList (List.replicate (60 * 1024 * 1024) '\x00')

def weightsMember : TarMember := ⟨"weights.bin", .regular, 60 * 1024 * 1024, some weightsText⟩

def weightsEntry : Entry := ⟨"weights.bin", .file, 60 * 1024 * 1024, Utf8.encode weightsText.toList, none, 0⟩

theorem clean_large_file_rejected :
    checkArchiveSafety (sampleRegistry [rootMember, weightsMember]) [] (250 * 1024 * 1024) = .ok [] ∧
      List.Forall₂ SameEntry [rootMember, weightsMember] [rootEntry, weightsEntry] ∧
      checkEntries {} ["opt"] { disk := {} } [rootEntry, weightsEntry] =
        .error (archiveError "file too large in archive: weights.bin") := by
  refine ⟨by rfl, .cons rootMember_same (.cons ?_ .nil), by rfl⟩
  exact ⟨⟨0, by simp [weightsMember, weightsEntry], by simp⟩, rfl, fun _ => rfl, by simp [weightsMember]⟩

end Scan

end Sdk
