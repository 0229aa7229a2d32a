import OpenAgentHub.Lib.Json
import OpenAgentHub.Lib.Outcome
import OpenAgentHub.Lib.Text
import OpenAgentHub.Lib.Utf8
import Mathlib.Data.List.Infix

namespace Sdk

/-- The classes of `errors.ts`, `VaultCorruptError`, a plain `Error`, and the errors of Node. -/
inductive ErrorClass where
  | manifestValidationError | signatureError | archiveError | registryError | vaultCorruptError | error | systemError
  deriving DecidableEq, Repr

structure Thrown where
  cls : ErrorClass
  message : String
  deriving DecidableEq, Repr

def archiveError (message : String) : Thrown := ⟨.archiveError, message⟩

inductive EntryType where
  | file | directory | other (name : String)
  deriving DecidableEq, Repr

/-- An entry as `tar.Parser` emits it. Its first `buffered` bytes have come while the parser was held up by an
    earlier entry. -/
structure Entry where
  path : String
  type : EntryType
  size : Nat
  data : List UInt8
  mode : Option Nat := none
  buffered : Nat := 0

/-- What `entry.pipe(out)` gets: `entry.on("data")` before it makes the entry flow, and the buffered bytes are gone. -/
def Entry.piped (entry : Entry) : List UInt8 := entry.data.drop entry.buffered

def Entry.buffering (entry : Entry) (amount : Nat) : Entry := { entry with buffered := amount }

structure UnpackLimits where
  maxTotalBytes : Nat := 200 * 1024 * 1024
  maxSingleFileBytes : Nat := 50 * 1024 * 1024
  maxFiles : Nat := 5000

/-- `path.replace(/^\.\//, "")`. -/
def stripLead (path : String) : String :=
  if Text.startsWith path "./" then String.ofList (path.toList.drop 2) else path

theorem stripLead_cases (path : String) :
    (Text.startsWith path "./" = true ∧ path.toList = '.' :: '/' :: (stripLead path).toList) ∨
      (Text.startsWith path "./" = false ∧ stripLead path = path) := by
  unfold stripLead
  cases starts : Text.startsWith path "./" with
  | false => exact .inr ⟨rfl, by simp⟩
  | true =>
    have lead : ['.', '/'] <+: path.toList := List.isPrefixOf_iff_prefix.mp starts
    obtain ⟨rest, isRest⟩ := lead
    refine .inl ⟨rfl, ?_⟩
    simp [← isRest]

/-- The path below the destination that `join` and `resolve` make of it. -/
def segments (path : String) : List String := (Text.split '/' path).filter fun segment => segment != "" && segment != "."

/-- `path.split("/").pop()`. -/
def baseName (path : String) : String := ((Text.split '/' path).getLast?).getD ""

/-- `/^[a-zA-Z]:/`. -/
def hasDrive (path : String) : Bool :=
  match path.toList with
  | letter :: ':' :: _ => letter.isAlpha
  | _ => false

/-- The destination is given by its segments; below the root of the file system no path starts with it and
    a separator. -/
def assertSafeArchivePath (entryPath : String) (destRoot : List String) : Except Thrown Unit := do
  Outcome.ensure (entryPath ≠ "") (archiveError "empty path in archive")
  Outcome.ensure ('\x00' ∉ entryPath.toList) (archiveError "NUL byte in archive path")
  Outcome.ensure (Text.startsWith entryPath "/" = false ∧ Text.startsWith entryPath "\\" = false ∧
    hasDrive entryPath = false) (archiveError ("absolute path in archive: " ++ entryPath))
  Outcome.ensure (".." ∉ Text.split '/' (Text.replace entryPath '\\' '/'))
    (archiveError ("path traversal in archive: " ++ entryPath))
  Outcome.ensure (segments entryPath = [] ∨ destRoot ≠ []) (archiveError ("path escapes destination: " ++ entryPath))

structure File where
  data : List UInt8
  mode : Nat

/-- `toString("utf8")`. -/
def decodeText (data : List UInt8) : String := String.ofList (Utf8.decodeReplace data)

@[simp] theorem decodeText_encode (text : String) : decodeText (Utf8.encode text.toList) = text := by
  rw [decodeText, Utf8.decodeReplace_encode, String.ofList_toList]

/-- `readFileSync(path, "utf8")`. -/
def File.text (file : File) : String := decodeText file.data

structure Disk where
  files : List (List String × File) := []
  directories : List (List String) := []

namespace Disk

variable (disk : Disk)

def read (path : List String) : Option File := disk.files.lookup path

def taken (path : List String) : Bool := path == [] || (disk.read path).isSome || disk.directories.contains path

def makeDirectory (path : List String) : Except Thrown Disk :=
  if path.inits.any fun lead => (disk.read lead).isSome then .error ⟨.systemError, "EEXIST: file already exists, mkdir"⟩
  else .ok { disk with directories := disk.directories ++ path.inits }

def write (path : List String) (file : File) : Disk := { disk with files := disk.files ++ [(path, file)] }

end Disk

/-- `(mode & 0o777)`, and readable and writable by its owner unless it is executable. -/
def sanitizeMode (mode : Option Nat) : Nat :=
  let masked := (mode.getD 0o644) &&& 0o777
  if masked &&& 0o111 ≠ 0 then masked else masked ||| 0o600

/-- An open write stream. One that meets something at its path (`flags: "wx"`) ends with an error. -/
structure WriteStream where
  path : String
  doomed : Bool
  deriving DecidableEq, Repr

structure Tally where
  disk : Disk
  totalBytes : Nat := 0
  fileCount : Nat := 0

/-- The `entry` handler. Of two streams for one path the second one is taken to open last. -/
def receive (limits : UnpackLimits) (destRoot : List String) (tally : Tally) (entry : Entry) :
    Except Thrown (Tally × Option WriteStream) := do
  let safe := stripLead entry.path
  assertSafeArchivePath safe destRoot
  match entry.type with
  | .directory => do
    let disk ← tally.disk.makeDirectory (segments safe)
    return ({ tally with disk }, none)
  | .other name => .error (archiveError ("unsupported entry type '" ++ name ++ "' in archive: " ++ safe))
  | .file => do
    let fileCount := tally.fileCount + 1
    Outcome.ensure (fileCount ≤ limits.maxFiles) (archiveError "too many files in archive")
    Outcome.ensure (entry.size ≤ limits.maxSingleFileBytes) (archiveError ("file too large in archive: " ++ safe))
    let totalBytes := tally.totalBytes + entry.size
    Outcome.ensure (totalBytes ≤ limits.maxTotalBytes) (archiveError "archive exceeds total size limit")
    let disk ← tally.disk.makeDirectory (segments safe).dropLast
    if disk.taken (segments safe) then return (⟨disk, totalBytes, fileCount⟩, some ⟨safe, true⟩)
    else
      let disk := disk.write (segments safe) ⟨entry.piped, sanitizeMode entry.mode⟩
      return (⟨disk, totalBytes, fileCount⟩, some ⟨safe, false⟩)

/-- The bytes of an archive as the parser reads them: its entries, and an error where they end in one. -/
structure Archive where
  entries : List Entry
  corrupt : Option Thrown := none

/-- The state of `extractArchive`. `settled` is what the promise has been settled with: an error, or the
    candidates, beside the files as they are then. -/
structure Extraction where
  incoming : List Entry
  corrupt : Option Thrown
  tally : Tally
  pending : List WriteStream := []
  manifestCandidates : List String := []
  settled : Option (Except Thrown (List String × Disk)) := none

inductive Event where
  | entry
  | finish (index : Nat)
  | error (index : Nat)
  | «end»

def isManifestName (name : String) : Bool := name == "agent.yaml" || name == "manifest.yaml"

namespace Extraction

variable (extraction : Extraction)

def fail (error : Thrown) : Extraction :=
  if extraction.settled.isSome then extraction else { extraction with settled := some (.error error) }

/-- `finish()`: whichever event finds no write pending resolves the promise. -/
def finish : Extraction :=
  if extraction.settled.isSome then extraction
  else if extraction.pending = [] then
    { extraction with settled := some (.ok (extraction.manifestCandidates, extraction.tally.disk)) }
  else extraction

/-- An entry that is not consumed stops the parser. -/
def onEntry (limits : UnpackLimits) (destRoot : List String) (entry : Entry) (rest : List Entry) : Extraction :=
  match receive limits destRoot extraction.tally entry with
  | .error error => { extraction with incoming := [] }.fail error
  | .ok (tally, stream) => { extraction with incoming := rest, tally, pending := extraction.pending ++ stream.toList }

def onFinish (index : Nat) (path : String) : Extraction :=
  let manifestCandidates := extraction.manifestCandidates ++ if isManifestName (baseName path) then [path] else []
  { extraction with pending := extraction.pending.eraseIdx index, manifestCandidates }.finish

/-- One event; nothing when it cannot occur. -/
def step (limits : UnpackLimits) (destRoot : List String) : Event → Option Extraction
  | .entry =>
    match extraction.incoming with
    | entry :: rest => some (extraction.onEntry limits destRoot entry rest)
    | [] => none
  | .finish index =>
    match extraction.pending[index]? with
    | some ⟨path, false⟩ => some (extraction.onFinish index path)
    | _ => none
  | .error index =>
    match extraction.pending[index]? with
    | some ⟨path, true⟩ => some (extraction.fail ⟨.systemError, "EEXIST: file already exists, open '" ++ path ++ "'"⟩)
    | _ => none
  | .end =>
    match extraction.incoming, extraction.corrupt with
    | [], none => some extraction.finish
    | [], some error => some (extraction.fail error)
    | _ :: _, _ => none

def run (limits : UnpackLimits) (destRoot : List String) (events : List Event) : Option Extraction :=
  events.foldlM (step · limits destRoot) extraction

end Extraction

def extractArchive (disk : Disk) (archive : Archive) : Extraction where
  incoming := archive.entries
  corrupt := archive.corrupt
  tally := { disk }

/-- What the SDK takes from other libraries, and the `highWaterMark` of a write stream. -/
structure Host where
  parseManifest : String → Except Thrown Json
  manifestErrors : Json → List String
  highWaterMark : Nat

/-- Whether the parser is held up behind this entry. A write stream takes less than `highWaterMark` bytes at once; an
    entry of which nothing is left ends as it comes. -/
def Entry.holdsUp (highWaterMark : Nat) (heldUp : Bool) (entry : Entry) : Bool :=
  (entry.type == .file && decide (highWaterMark ≤ entry.piped.length)) || (heldUp && entry.piped.isEmpty)

/-- The entries with what the parser has buffered of each; nothing when it cannot have. -/
def emit (highWaterMark : Nat) : Bool → List Entry → List Nat → Option (List Entry)
  | _, [], [] => some []
  | heldUp, entry :: rest, amount :: more =>
    if amount = 0 ∨ (heldUp = true ∧ amount ≤ entry.data.length) then do
      let others ← emit highWaterMark ((entry.buffering amount).holdsUp highWaterMark heldUp) rest more
      return entry.buffering amount :: others
    else none
  | _, _, _ => none

/-- How the parser and the write streams get on: the bytes that are buffered of each entry, and the order of the events. -/
structure Schedule where
  buffered : List Nat
  events : List Event

def extracted (host : Host) (limits : UnpackLimits) (destRoot : List String) (disk : Disk) (archive : Archive)
    (schedule : Schedule) : Option Extraction := do
  let entries ← emit host.highWaterMark false archive.entries schedule.buffered
  (extractArchive disk { archive with entries }).run limits destRoot schedule.events

def assertValidManifest (host : Host) (input : Json) : Except Thrown Json := do
  let errors := host.manifestErrors input
  Outcome.ensure (errors = []) ⟨.manifestValidationError, "manifest invalid: " ++ Text.join "; " errors⟩
  return input

def loadManifest (host : Host) (text : String) : Except Thrown Json := do
  assertValidManifest host (← host.parseManifest text)

def readManifest (host : Host) (manifestCandidates : List String) (disk : Disk) : Except Thrown Json := do
  let first ← Outcome.demand manifestCandidates.head? (archiveError "archive is missing agent.yaml/manifest.yaml")
  let file ← Outcome.demand (disk.read (segments first)) ⟨.systemError, "ENOENT: no such file or directory"⟩
  loadManifest host file.text

/-- The manifest that `unpackAgent` returns under this schedule, once it is settled. -/
def unpackAgent (host : Host) (limits : UnpackLimits) (destRoot : List String) (disk : Disk) (archive : Archive)
    (schedule : Schedule) : Option (Except Thrown Json) := do
  let extraction ← extracted host limits destRoot disk archive schedule
  let settled ← extraction.settled
  return do
    let (manifestCandidates, disk) ← settled
    readManifest host manifestCandidates disk

end Sdk
