import OpenAgentHub.Lib.Lexical

namespace Registry.Semver

/-- A dot-separated part, as the tuples `(0, int)` and `(1, str)`. -/
inductive Identifier where
  | numeric (value : Nat)
  | text (chars : List Char)
  deriving DecidableEq, Repr

instance : Ord Identifier where
  compare
    | .numeric m, .numeric n => compare m n
    | .numeric _, .text _ => .lt
    | .text _, .numeric _ => .gt
    | .text s, .text t => compare s t

/-- The zeros of Unicode 15; the other nine digits of a script follow its zero. -/
def decimalZeros : List Nat :=
  [0x30, 0x660, 0x6F0, 0x7C0, 0x966, 0x9E6, 0xA66, 0xAE6, 0xB66, 0xBE6, 0xC66, 0xCE6, 0xD66, 0xDE6, 0xE50, 0xED0,
   0xF20, 0x1040, 0x1090, 0x17E0, 0x1810, 0x1946, 0x19D0, 0x1A80, 0x1A90, 0x1B50, 0x1BB0, 0x1C40, 0x1C50, 0xA620,
   0xA8D0, 0xA900, 0xA9D0, 0xA9F0, 0xAA50, 0xABF0, 0xFF10, 0x104A0, 0x10D30, 0x11066, 0x110F0, 0x11136, 0x111D0,
   0x112F0, 0x11450, 0x114D0, 0x11650, 0x116C0, 0x11730, 0x118E0, 0x11950, 0x11C50, 0x11D50, 0x11DA0, 0x11F50,
   0x16A60, 0x16AC0, 0x16B50, 0x1D7CE, 0x1D7D8, 0x1D7E2, 0x1D7EC, 0x1D7F6, 0x1E140, 0x1E2F0, 0x1E4F0, 0x1E950,
   0x1FBF0]

def decimal (char : Char) : Option Nat :=
  (decimalZeros.find? fun first => first ≤ char.toNat && char.toNat < first + 10).map fun first => char.toNat - first

/-- `\d` in Python. -/
def isDecimal (char : Char) : Bool := (decimal char).isSome

/-- `str.isdigit`. The digits that are no decimal ones, such as superscripts, occur in no version. -/
def isdigit (part : List Char) : Bool := !part.isEmpty && part.all isDecimal

def toAscii (char : Char) : Char := (decimal char).elim char Nat.digitChar

/-- `int(part)`, for decimal digits of any script. -/
def int (part : List Char) : Nat := Lexical.value (part.map toAscii)

def identifier (part : List Char) : Identifier :=
  if isdigit part then .numeric (int part) else .text part

def core (version : String) : List Char := version.toList.takeWhile (· != '-')

/-- `version.split("-", 1)[1] if "-" in version else None`. -/
def pre (version : String) : Option (List Char) :=
  match version.toList.dropWhile (· != '-') with
  | [] => none
  | _ :: rest => some rest

def parts (version : String) : List Identifier := ((core version).splitOn '.').map identifier

def preParts (pre : List Char) : List Identifier := (pre.splitOn '.').map identifier

abbrev Key := List Identifier × Nat × List Identifier

def semverKey (version : String) : Key :=
  match pre version with
  | none => (parts version, 1, [])
  | some pre => (parts version, 0, preParts pre)

def compareKeys (first second : Key) : Ordering :=
  (compare first.1 second.1).then ((compare first.2.1 second.2.1).then (compare first.2.2 second.2.2))

/-- `f"{value:012d}"`. -/
def padded (value : Nat) : List Char := List.leftpad 12 '0' (Nat.toDigits 10 value)

def Identifier.render : Identifier → List Char
  | .numeric value => 'n' :: padded value
  | .text chars => 's' :: chars

def joined (identifiers : List Identifier) : List Char := identifiers.flatMap Identifier.render

def dotted : List Identifier → List Char
  | [] => []
  | first :: rest => first.render ++ rest.flatMap fun next => '.' :: next.render

def preSortKey (pre : List Char) : List Char := dotted (preParts pre)

def preTag (version : String) : List Char :=
  match pre version with
  | none => ['1']
  | some pre => '0' :: preSortKey pre

def sortKey (version : String) : String := String.ofList (joined (parts version) ++ '#' :: preTag version)

/-- Texts in the order of their code points. -/
def compareText (first second : String) : Ordering := compare first.toList second.toList

def cut (separator : Char) (text : List Char) : List Char × Option (List Char) :=
  (text.takeWhile (· != separator), (text.dropWhile (· != separator)).tail?)

/-- `[a-zA-Z-]`. -/
def isLetter (char : Char) : Bool := char.isAlpha || char == '-'

/-- `[0-9a-zA-Z-]`. -/
def isWord (char : Char) : Bool := char.isAlphanum || char == '-'

/-- `[0-9a-zA-Z-]+`. -/
def isBuild (part : List Char) : Bool := !part.isEmpty && part.all isWord

section Pattern

variable (digit : Char → Bool)

/-- `0|[1-9]\d*`. -/
def isNumeric (part : List Char) : Bool :=
  part == ['0'] || part.head?.any (fun first => first.isDigit && first != '0') && part.tail.all digit

/-- `0|[1-9]\d*|\d*[a-zA-Z-][0-9a-zA-Z-]*`. -/
def isPrerelease (part : List Char) : Bool :=
  isNumeric digit part || (part.dropWhile digit).head?.any isLetter && (part.dropWhile digit).all isWord

/-- The `version` pattern of the manifest schema, from the start of the text to its end. -/
def matchesVersion (text : List Char) : Bool :=
  let (main, build) := cut '+' text
  let (core, pre) := cut '-' main
  (core.splitOn '.').length == 3 && (core.splitOn '.').all (isNumeric digit) &&
    pre.all (fun text => (text.splitOn '.').all (isPrerelease digit)) &&
    build.all fun text => (text.splitOn '.').all isBuild

end Pattern

/-- The pattern in ECMAScript, where `\d` is an ASCII digit and `$` the end. -/
def accepted (version : String) : Bool := matchesVersion Char.isDigit version.toList

def chomp (text : List Char) : List Char := if text.getLast? = some '\n' then text.dropLast else text

def bare (text : String) : String := String.ofList (chomp text.toList)

/-- The pattern in Python, where `\d` is any decimal digit and `$` matches before a final newline too. -/
def registryAccepts (version : String) : Bool := matchesVersion isDecimal (chomp version.toList)

end Registry.Semver
