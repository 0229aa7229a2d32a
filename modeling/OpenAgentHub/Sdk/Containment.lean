import OpenAgentHub.Lib.Lexical
import OpenAgentHub.Sdk.Extraction

namespace Sdk

section Paths

def pushSegment (stack : List String) (segment : String) : List String :=
  if segment = "" ∨ segment = "." then stack
  else if segment = ".." then stack.dropLast
  else stack ++ [segment]

/-- Where an absolute path leads: the segments that `normalizeString` keeps of it. -/
def location (path : String) : List String := (Text.split '/' path).foldl pushSegment []

def absolutePath (location : List String) : String := "/" ++ Text.join "/" location

/-- `resolve(base, path)`, for an absolute base. -/
def resolve (base path : String) : String :=
  absolutePath (location (if Text.startsWith path "/" then path else base ++ "/" ++ path))

def joined (base path : String) : List String := location (base ++ "/" ++ path)

end Paths

section Extracting

variable (limits : UnpackLimits) (destRoot : String)

/-- `assertSafeArchivePath`, over the texts of the paths. -/
def assertSafeArchivePathAt (entryPath : String) : Except Thrown Unit := do
  Outcome.ensure (entryPath ≠ "") (archiveError "empty path in archive")
  Outcome.ensure ('\x00' ∉ entryPath.toList) (archiveError "NUL byte in archive path")
  Outcome.ensure (Text.startsWith entryPath "/" = false ∧ Text.startsWith entryPath "\\" = false ∧
    hasDrive entryPath = false) (archiveError ("absolute path in archive: " ++ entryPath))
  Outcome.ensure (".." ∉ Text.split '/' (Text.replace entryPath '\\' '/'))
    (archiveError ("path traversal in archive: " ++ entryPath))
  let resolved := resolve destRoot entryPath
  Outcome.ensure (resolved = destRoot ∨ Text.startsWith resolved (destRoot ++ "/") = true)
    (archiveError ("path escapes destination: " ++ entryPath))

/-- The `entry` handler, with the whole file system: its paths are the locations from the root. -/
def receiveAt (tally : Tally) (entry : Entry) : Except Thrown (Tally × Option WriteStream) := do
  let safe := stripLead entry.path
  assertSafeArchivePathAt destRoot safe
  match entry.type with
  | .directory => do
    let disk ← tally.disk.makeDirectory (joined destRoot safe)
    return ({ tally with disk }, none)
  | .other name => .error (archiveError ("unsupported entry type '" ++ name ++ "' in archive: " ++ safe))
  | .file => do
    let fileCount := tally.fileCount + 1
    Outcome.ensure (fileCount ≤ limits.maxFiles) (archiveError "too many files in archive")
    Outcome.ensure (entry.size ≤ limits.maxSingleFileBytes) (archiveError ("file too large in archive: " ++ safe))
    let totalBytes := tally.totalBytes + entry.size
    Outcome.ensure (totalBytes ≤ limits.maxTotalBytes) (archiveError "archive exceeds total size limit")
    let dest := joined destRoot safe
    let disk ← tally.disk.makeDirectory dest.dropLast
    if disk.taken dest then return (⟨disk, totalBytes, fileCount⟩, some ⟨safe, true⟩)
    else return (⟨disk.write dest ⟨entry.piped, sanitizeMode entry.mode⟩, totalBytes, fileCount⟩, some ⟨safe, false⟩)

/-- The entries up to the first whose handler throws. An error of a stream may only end them earlier. -/
def receiveEntries (tally : Tally) : List Entry → Tally × Option Thrown
  | [] => (tally, none)
  | entry :: rest =>
    match receiveAt limits destRoot tally entry with
    | .error error => (tally, some error)
    | .ok (after, _) => receiveEntries after rest

end Extracting

section Locations

theorem split_append (base path : String) : Text.split '/' (base ++ "/" ++ path) = Text.split '/' base ++ Text.split '/' path := by
  have text : (base ++ "/" ++ path).toList = base.toList ++ '/' :: path.toList := by
    rw [String.toList_append, String.toList_append, List.append_assoc]
    rfl
  unfold Text.split
  rw [text, List.splitOn_append_cons_self, List.map_append]

theorem pushes (stack : List String) {pieces : List String} (plain : ".." ∉ pieces) :
    pieces.foldl pushSegment stack = stack ++ pieces.filter fun segment => segment != "" && segment != "." := by
  induction pieces generalizing stack with
  | nil => simp
  | cons piece rest ih =>
    have later : ".." ∉ rest := fun listed => plain (List.mem_cons_of_mem piece listed)
    have here : piece ≠ ".." := fun same => plain (same ▸ List.mem_cons_self)
    rw [List.foldl_cons, ih _ later]
    unfold pushSegment
    by_cases skipped : piece = "" ∨ piece = "."
    · have dropped : (piece != "" && piece != ".") = false := by
        rcases skipped with rfl | rfl <;> rfl
      rw [if_pos skipped, List.filter_cons, dropped]
      rfl
    · have kept : (piece != "" && piece != ".") = true := by simpa [not_or] using skipped
      rw [if_neg skipped, if_neg here, List.filter_cons, if_pos kept, List.append_assoc]
      rfl

theorem joined_eq (base : String) {path : String} (plain : ".." ∉ Text.split '/' path) :
    joined base path = location base ++ segments path := by
  unfold joined location segments
  rw [split_append, List.foldl_append, pushes _ plain]

/-- Splitting at a second separator splits the pieces again. -/
theorem splitOn_map {separator other : Char} (xs : List Char) :
    (xs.map fun char => if char == other then separator else char).splitOn separator =
      (xs.splitOn separator).flatMap fun piece =>
        (piece.map fun char => if char == other then separator else char).splitOn separator := by
  induction xs with
  | nil => simp
  | cons x xs ih =>
    obtain ⟨first, rest, pieces⟩ := List.exists_cons_of_ne_nil (List.splitOn_ne_nil separator xs)
    rw [List.map_cons, Lexical.splitOn_cons, Lexical.splitOn_cons, ih, pieces]
    by_cases here : x = separator
    · have kept : (if x == other then separator else x) = separator := by
        rw [here]
        split <;> rfl
      rw [if_pos kept, if_pos here]
      rfl
    · rw [if_neg here, List.modifyHead_cons, List.flatMap_cons, List.flatMap_cons, List.map_cons, Lexical.splitOn_cons]
      by_cases becomes : (if x == other then separator else x) = separator
      · rw [if_pos becomes, if_pos becomes]
        rfl
      · obtain ⟨head, tail, split⟩ := List.exists_cons_of_ne_nil
          (List.splitOn_ne_nil separator (first.map fun char => if char == other then separator else char))
        rw [if_neg becomes, if_neg becomes, split]
        rfl

theorem dotdot_kept {path : String} (listed : ".." ∈ Text.split '/' path) :
    ".." ∈ Text.split '/' (Text.replace path '\\' '/') := by
  rw [Text.mem_split] at listed ⊢
  unfold Text.replace
  rw [String.toList_ofList, splitOn_map]
  exact List.mem_flatMap.mpr ⟨_, listed, by decide⟩

end Locations

section Growth

/-- At the destination or below it, by a way without `..`. -/
def Within (destRoot : String) (path : List String) : Prop := ∃ below, path = location destRoot ++ below ∧ ".." ∉ below

variable {limits : UnpackLimits} {destRoot : String} {tally after : Tally} {entry : Entry}

theorem safe_joined {path : String} (safe : assertSafeArchivePathAt destRoot path = .ok ()) :
    joined destRoot path = location destRoot ++ segments path ∧ ".." ∉ segments path := by
  simp only [assertSafeArchivePathAt, Outcome.bind_eq_ok, Outcome.ensure_eq_ok] at safe
  obtain ⟨_, _, _, _, _, _, _, plain, _⟩ := safe
  have none : ".." ∉ Text.split '/' path := fun listed => plain (dotdot_kept listed)
  exact ⟨joined_eq destRoot none, fun listed => none (List.mem_of_mem_filter listed)⟩

theorem within_of_lead {path whole : List String} (plain : ".." ∉ whole) (lead : path <+: location destRoot ++ whole) :
    path <+: location destRoot ∨ Within destRoot path := by
  rcases List.prefix_or_prefix_of_prefix lead (List.prefix_append _ _) with above | ⟨below, rfl⟩
  · exact .inl above
  · have inner : below <+: whole := (List.prefix_append_right_inj _).mp lead
    exact .inr ⟨below, rfl, fun listed => plain (inner.subset listed)⟩

theorem files_makeDirectory {disk made : Disk} {path : List String} (makes : disk.makeDirectory path = .ok made) :
    made.files = disk.files := by
  unfold Disk.makeDirectory at makes
  split at makes
  · cases makes
  · cases makes
    rfl

theorem taken_makeDirectory {disk made : Disk} {path other : List String} (makes : disk.makeDirectory path = .ok made) :
    made.taken other = true ↔ disk.taken other = true ∨ other <+: path := by
  unfold Disk.makeDirectory at makes
  split at makes
  · cases makes
  · cases makes
    simp [Disk.taken, Disk.read, or_assoc, List.mem_inits]

def Grown (destRoot : String) (before after : Disk) : Prop :=
  ∀ path, after.taken path = true → before.taken path = true ∨ path <+: location destRoot ∨ Within destRoot path

theorem Grown.trans {first second third : Disk} (one : Grown destRoot first second) (two : Grown destRoot second third) :
    Grown destRoot first third := by
  intro path there
  rcases two path there with before | new
  · exact one path before
  · exact .inr new

theorem grown_makeDirectory {disk made : Disk} {path whole : List String} (plain : ".." ∉ whole)
    (lead : path <+: location destRoot ++ whole) (makes : disk.makeDirectory path = .ok made) : Grown destRoot disk made := by
  intro other there
  rcases (taken_makeDirectory makes).mp there with before | inner
  · exact .inl before
  · exact .inr (within_of_lead plain (inner.trans lead))

theorem taken_write {disk : Disk} {path other : List String} {file : File} :
    (disk.write path file).taken other = true ↔ disk.taken other = true ∨ other = path := by
  unfold Disk.taken Disk.write Disk.read
  dsimp only
  rw [List.lookup_append]
  by_cases same : other = path
  · subst same
    simp
  · simp [List.lookup_cons, same, beq_false_of_ne same]

theorem grown_write {disk : Disk} {below : List String} {file : File} (plain : ".." ∉ below) :
    Grown destRoot disk (disk.write (location destRoot ++ below) file) := by
  intro path there
  rcases taken_write.mp there with before | rfl
  · exact .inl before
  · exact .inr (.inr ⟨below, rfl, plain⟩)

/-- The files that an extraction adds: within the destination, without special bits in their modes. -/
def Added (destRoot : String) (file : List String × File) : Prop :=
  Within destRoot file.1 ∧ file.2.mode &&& 0o7000 = 0

theorem sanitizeMode_plain (mode : Option Nat) : sanitizeMode mode &&& 0o7000 = 0 := by
  have masked : (mode.getD 0o644 &&& 0o777) &&& 0o7000 = 0 := by
    rw [Nat.and_assoc]
    exact Nat.and_zero _
  unfold sanitizeMode
  dsimp only
  split
  · exact masked
  · rw [Nat.and_or_distrib_right, masked]
    rfl

structure Stored (limits : UnpackLimits) (destRoot : String) (before after : Tally) (files : List Entry) : Prop where
  grown : Grown destRoot before.disk after.disk
  added : ∃ new, after.disk.files = before.disk.files ++ new ∧ new.length ≤ files.length ∧ ∀ file ∈ new, Added destRoot file
  counted : after.fileCount = before.fileCount + files.length
  totalled : after.totalBytes = before.totalBytes + (files.map Entry.size).sum
  small : ∀ file ∈ files, file.size ≤ limits.maxSingleFileBytes
  bounded : files ≠ [] → after.fileCount ≤ limits.maxFiles ∧ after.totalBytes ≤ limits.maxTotalBytes

theorem Stored.refl (limits : UnpackLimits) (destRoot : String) (tally : Tally) : Stored limits destRoot tally tally [] where
  grown _ there := .inl there
  added := ⟨[], by simp, by simp, by simp⟩
  counted := rfl
  totalled := rfl
  small := by simp
  bounded := by simp

theorem Stored.trans {first second third : Tally} {xs ys : List Entry} (one : Stored limits destRoot first second xs)
    (two : Stored limits destRoot second third ys) : Stored limits destRoot first third (xs ++ ys) where
  grown := one.grown.trans two.grown
  added := by
    obtain ⟨new, files, short, each⟩ := one.added
    obtain ⟨more, others, few, every⟩ := two.added
    refine ⟨new ++ more, by rw [others, files, List.append_assoc], by simp only [List.length_append]; omega, ?_⟩
    intro file listed
    rcases List.mem_append.mp listed with left | right
    · exact each file left
    · exact every file right
  counted := by
    rw [two.counted, one.counted, List.length_append, Nat.add_assoc]
  totalled := by
    rw [two.totalled, one.totalled, List.map_append, List.sum_append, Nat.add_assoc]
  small := by
    intro file listed
    rcases List.mem_append.mp listed with left | right
    · exact one.small file left
    · exact two.small file right
  bounded := by
    intro nonempty
    by_cases last : ys = []
    · subst last
      have count := two.counted
      have total := two.totalled
      rw [List.append_nil] at nonempty
      obtain ⟨few, light⟩ := one.bounded nonempty
      rw [count, total]
      exact ⟨few, light⟩
    · exact two.bounded last

end Growth

section Handling

variable {limits : UnpackLimits} {destRoot : String} {tally after : Tally} {entry : Entry} {stream : Option WriteStream}

def Entry.isFile (entry : Entry) : Bool := entry.type == .file

theorem receiveAt_stored (received : receiveAt limits destRoot tally entry = .ok (after, stream)) :
    Stored limits destRoot tally after ([entry].filter Entry.isFile) := by
  unfold receiveAt at received
  dsimp only at received
  obtain ⟨_, safe, received⟩ := Outcome.bind_eq_ok.mp received
  obtain ⟨place, plain⟩ := safe_joined safe
  rw [place] at received
  cases kind : entry.type with
  | directory =>
    rw [kind] at received
    obtain ⟨disk, made, done⟩ := Outcome.bind_eq_ok.mp received
    cases done
    have notFile : entry.isFile = false := by rw [Entry.isFile, kind]; rfl
    rw [List.filter_cons, notFile]
    exact {
      grown := grown_makeDirectory plain (List.prefix_refl _) made
      added := ⟨[], by rw [files_makeDirectory made]; simp, by simp, by simp⟩
      counted := rfl
      totalled := rfl
      small := by simp
      bounded := by simp }
  | other name =>
    rw [kind] at received
    cases received
  | file =>
    rw [kind] at received
    simp only [Outcome.bind_eq_ok, Outcome.ensure_eq_ok] at received
    obtain ⟨_, few, _, single, _, light, disk, made, done⟩ := received
    have isFile : entry.isFile = true := by rw [Entry.isFile, kind]; rfl
    rw [List.filter_cons, if_pos isFile, List.filter_nil]
    have grown := grown_makeDirectory plain (List.dropLast_prefix _) made
    have kept := files_makeDirectory made
    split at done
    · cases done
      exact {
        grown := grown
        added := ⟨[], by rw [kept]; simp, by simp, by simp⟩
        counted := rfl
        totalled := rfl
        small := by simpa using single
        bounded := fun _ => ⟨few, light⟩ }
    · cases done
      exact {
        grown := grown.trans (grown_write plain)
        added := ⟨[_], by rw [← kept]; rfl, by simp, by
          simp only [List.forall_mem_singleton]
          exact ⟨⟨_, rfl, plain⟩, sanitizeMode_plain entry.mode⟩⟩
        counted := rfl
        totalled := rfl
        small := by simpa using single
        bounded := fun _ => ⟨few, light⟩ }

/-- The entries that were handled are a first part of the archive, all of it unless a handler threw. -/
theorem receiveEntries_stored (entries : List Entry) : ∃ handled, handled <+: entries ∧
    ((receiveEntries limits destRoot tally entries).2 = none → handled = entries) ∧
    Stored limits destRoot tally (receiveEntries limits destRoot tally entries).1 (handled.filter Entry.isFile) := by
  induction entries generalizing tally with
  | nil => exact ⟨[], List.prefix_refl _, fun _ => rfl, .refl limits destRoot tally⟩
  | cons entry rest ih =>
    rw [receiveEntries]
    cases received : receiveAt limits destRoot tally entry with
    | error raised => exact ⟨[], List.nil_prefix, by rintro ⟨⟩, .refl limits destRoot tally⟩
    | ok result =>
      obtain ⟨next, stream⟩ := result
      obtain ⟨handled, first, whole, stored⟩ := @ih next
      refine ⟨entry :: handled, (List.prefix_cons_inj entry).mpr first, fun none => by rw [whole none], ?_⟩
      have both := (receiveAt_stored received).trans stored
      rwa [← List.filter_append, List.singleton_append] at both

end Handling

section Agreement

variable {root : List String}

def Named (name : String) : Prop := name ≠ "" ∧ name ≠ "." ∧ name ≠ ".." ∧ '/' ∉ name.toList

theorem location_absolutePath (named : ∀ name ∈ root, Named name) (below : root ≠ []) :
    location (absolutePath root) = root := by
  have pieces : Text.split '/' (absolutePath root) = "" :: root := by
    have split := split_append "" (Text.join "/" root)
    have whole : Text.split '/' (Text.join "/" root) = root := Text.split_join (fun name listed => (named name listed).2.2.2) below
    rw [whole] at split
    exact split
  have plain : ".." ∉ "" :: root := by
    intro listed
    rcases List.mem_cons.mp listed with empty | inside
    · exact absurd empty (by decide)
    · exact (named _ inside).2.2.1 rfl
  have kept : root.filter (fun segment => segment != "" && segment != ".") = root := by
    apply List.filter_eq_self.mpr
    intro name listed
    have known := named name listed
    simp [known.1, known.2.1]
  unfold location
  rw [pieces, pushes _ plain, List.filter_cons_of_neg (by simp), List.nil_append, kept]

theorem join_append (more : List String) (below : root ≠ []) (some : more ≠ []) :
    Text.join "/" (root ++ more) = Text.join "/" root ++ "/" ++ Text.join "/" more := by
  induction root with
  | nil => exact absurd rfl below
  | cons name rest ih =>
    cases rest with
    | nil =>
      obtain ⟨next, others, rfl⟩ := List.exists_cons_of_ne_nil some
      rfl
    | cons next others =>
      have tail := ih (List.cons_ne_nil _ _)
      change name ++ "/" ++ Text.join "/" (next :: others ++ more) = name ++ "/" ++ Text.join "/" (next :: others) ++ "/" ++ _
      rw [tail]
      simp only [String.append_assoc]

/-- Below a resolved destination the test on the text of the path always passes. -/
theorem resolve_passes (named : ∀ name ∈ root, Named name) (below : root ≠ []) {path : String}
    (relative : Text.startsWith path "/" = false) (plain : ".." ∉ Text.split '/' path) :
    resolve (absolutePath root) path = absolutePath root ∨
      Text.startsWith (resolve (absolutePath root) path) (absolutePath root ++ "/") = true := by
  have place : location (absolutePath root ++ "/" ++ path) = root ++ segments path := by
    have joins := joined_eq (absolutePath root) plain
    rwa [location_absolutePath named below] at joins
  unfold resolve
  rw [relative, if_neg (by simp), place]
  by_cases here : segments path = []
  · rw [here, List.append_nil]
    exact .inl rfl
  · right
    unfold absolutePath Text.startsWith
    rw [join_append _ below here, List.isPrefixOf_iff_prefix]
    simp only [String.toList_append, List.append_assoc]
    exact ⟨(Text.join "/" (segments path)).toList, by simp⟩

theorem ensure_congr {condition : Prop} [Decidable condition] {error : Thrown} {one other : Except Thrown Unit}
    (same : condition → one = other) :
    (Outcome.ensure condition error >>= fun _ => one) = (Outcome.ensure condition error >>= fun _ => other) := by
  by_cases holds : condition
  · rw [same holds]
  · rw [Outcome.ensure_false holds]
    rfl

/-- Below the root of the file system, the test over the texts is the one over the segments. -/
theorem assertSafe_agrees (named : ∀ name ∈ root, Named name) (below : root ≠ []) (entryPath : String) :
    assertSafeArchivePathAt (absolutePath root) entryPath = assertSafeArchivePath entryPath root := by
  unfold assertSafeArchivePathAt assertSafeArchivePath
  apply ensure_congr
  intro _
  apply ensure_congr
  intro _
  apply ensure_congr
  intro relative
  apply ensure_congr
  intro none
  have plain : ".." ∉ Text.split '/' entryPath := fun listed => none (dotdot_kept listed)
  rw [Outcome.ensure_true (resolve_passes named below relative.1 plain), Outcome.ensure_true (.inr below)]

end Agreement

structure Destination where
  path : String
  isAbsolute : Text.startsWith path "/" = true
  below : location path ≠ []

/-- Whatever the entries are, an extraction into a destination that has been made creates nothing outside it,
    gives no file special bits, and unless a handler throws keeps to the limits. -/
theorem extraction_contained (limits : UnpackLimits) (dest : Destination) (entries : List Entry) (disk opened : Disk)
    (made : disk.makeDirectory (location dest.path) = .ok opened) :
    let result := receiveEntries limits dest.path { disk := opened } entries
    (∀ path, result.1.disk.taken path = true → opened.taken path = false → Within dest.path path) ∧
    ∃ new, result.1.disk.files = opened.files ++ new ∧ (∀ file ∈ new, Added dest.path file) ∧
      (result.2 = none → new.length ≤ (entries.filter Entry.isFile).length ∧
        (entries.filter Entry.isFile).length ≤ limits.maxFiles ∧
        (∀ file ∈ entries.filter Entry.isFile, file.size ≤ limits.maxSingleFileBytes) ∧
        ((entries.filter Entry.isFile).map Entry.size).sum ≤ limits.maxTotalBytes) := by
  intro result
  obtain ⟨handled, _, whole, stored⟩ := @receiveEntries_stored limits dest.path { disk := opened } entries
  constructor
  · intro path there new
    rcases stored.grown path there with before | above | within
    · rw [before] at new
      cases new
    · rw [(taken_makeDirectory made).mpr (.inr above)] at new
      cases new
    · exact within
  · obtain ⟨new, files, few, each⟩ := stored.added
    refine ⟨new, files, each, fun none => ?_⟩
    have all : handled = entries := whole none
    rw [all] at stored few
    have count := stored.counted
    have total := stored.totalled
    refine ⟨few, ?_, stored.small, ?_⟩
    · by_cases nothing : entries.filter Entry.isFile = []
      · rw [nothing]
        exact Nat.zero_le _
      · have bound := (stored.bounded nothing).1
        omega
    · by_cases nothing : entries.filter Entry.isFile = []
      · rw [nothing]
        exact Nat.zero_le _
      · have bound := (stored.bounded nothing).2
        omega

def agentDestination : Destination := ⟨"/tmp/agent", by decide +kernel, by decide +kernel⟩

def agentDisk : Disk := { directories := [[], ["tmp"], ["tmp", "agent"]] }

def mixedEntries : List Entry :=
  [⟨"./agent.yaml", .file, 9, Utf8.encode "name: a/b".toList, some 0o4755, 0⟩, ⟨"src/./lib", .directory, 0, [], none, 0⟩,
    ⟨"../secret", .file, 1, Utf8.encode ['x'], none, 0⟩]

theorem mixed_contained :
    (receiveEntries {} "/tmp/agent" { disk := agentDisk } mixedEntries).1.disk.taken ["tmp", "agent", "agent.yaml"] = true ∧
      ∀ path, (receiveEntries {} "/tmp/agent" { disk := agentDisk } mixedEntries).1.disk.taken path = true →
        agentDisk.taken path = false → Within "/tmp/agent" path :=
  ⟨by decide +kernel, (extraction_contained {} agentDestination mixedEntries {} agentDisk (by rfl)).1⟩

end Sdk
