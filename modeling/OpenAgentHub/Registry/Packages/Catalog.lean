import OpenAgentHub.Registry.Packages.Reading

namespace Registry.Packages

open Relational Semver

def pageSize : Int := 100

def pythonFilterPageGuard : Nat := 20

section Items

def runtimeOf (manifest : Json) : Option String :=
  match manifest.get "runtime" with
  | some (.obj fields) => ((Json.obj fields).get "language").bind Json.asString
  | some (.str language) => some language
  | _ => none

/-- `value.get(key) or None` for a text. -/
def presentText (value : Json) (key : String) : Option String := given ((value.get key).bind Json.asString)

def interfaceOf : String × Json → Option String
  | (kind, .obj fields) =>
    let value := Json.obj fields
    let reference := (presentText value "command").or
      ((presentText value "entrypoint").or (presentText value "endpoint"))
    some (match reference with
      | some text => kind ++ ":" ++ text
      | none => kind)
  | _ => none

def interfacesOf (manifest : Json) : List String :=
  match manifest.get "interfaces" with
  | some (.obj fields) => (fields.filterMap interfaceOf).mergeSort fun first second => decide (first ≤ second)
  | _ => []

def stringsAt (manifest : Json) (key : String) : List String := ((manifest.get key).map Json.strings).getD []

structure CatalogItem where
  namespaceName : String
  name : String
  version : String
  digest : String
  author : String
  description : String
  license : String
  framework : Option String
  models : List String
  tags : List String
  runtime : Option String
  interfaces : List String
  permissions : List String
  secrets : List String
  downloads : Nat
  publisher : String
  signerVerified : Bool
  reviewStatus : ReviewStatus
  securityStatus : SecurityStatus
  yanked : Bool
  publishedAt : Time
  reviewedAt : Option Time
  deriving DecidableEq, Repr

def toCatalogItem (agent : Agent) (version : AgentVersion) (signerVerified : Bool) : CatalogItem where
  namespaceName := agent.namespaceName
  name := agent.name
  version := version.version
  digest := version.sha256
  author := agent.author
  description := agent.description
  license := agent.license
  framework := agent.framework
  models := agent.models
  tags := agent.tags
  runtime := runtimeOf version.manifest
  interfaces := interfacesOf version.manifest
  permissions := stringsAt version.manifest "permissions"
  secrets := stringsAt version.manifest "secrets"
  downloads := version.downloadCount
  publisher := agent.author
  signerVerified
  reviewStatus := version.reviewStatus
  securityStatus := version.securityStatus
  yanked := version.yanked
  publishedAt := version.publishedAt
  reviewedAt := version.reviewedAt

def signerVerified (db : Db) (version : AgentVersion) : Bool :=
  (signerKey db version).any fun key => key.revokedAt.isNone

end Items

structure CatalogQuery where
  filters : Filters := {}
  reviewStatus : Option String := none
  securityStatus : Option String := none
  permission : Option String := none
  runtime : Option String := none
  publisherStatus : Option String := none
  limit : Int

def SecurityStatus.name : SecurityStatus → String
  | .pending => "pending"
  | .clean => "clean"
  | .flagged => "flagged"

def CatalogQuery.accepts (query : CatalogQuery) (item : CatalogItem) : Bool :=
  (given query.permission).all (fun permission =>
    if permission = "none" then item.permissions.isEmpty else item.permissions.contains permission) &&
  (given query.runtime).all (fun runtime => item.runtime == some runtime) &&
  !(query.publisherStatus == some "verified" && !item.signerVerified) &&
  !(query.publisherStatus == some "unverified" && item.signerVerified)

abbrev CatalogRow := Agent × AgentVersion

/-- `ORDER BY sort_key, id`. -/
def rowOrder (first second : CatalogRow) : Ordering :=
  (compareText first.2.sortKey second.2.sortKey).then (compare first.2.id second.2.id)

def CatalogQuery.selects (host : PackageHost) (query : CatalogQuery) (row : CatalogRow) : Bool :=
  row.1.visibility == .public && query.filters.matches host row.1 &&
    (given query.reviewStatus).all (row.2.reviewStatus.name == ·) &&
    (given query.securityStatus).all (SecurityStatus.name row.2.securityStatus == ·)

def latestRows (db : Db) : List CatalogRow :=
  db.agents.rows.filterMap fun agent => (latestVisible db agent.id).map (agent, ·)

def catalogRows (host : PackageHost) (db : Db) (query : CatalogQuery) : List CatalogRow :=
  Selection.descending rowOrder ((latestRows db).filter (query.selects host))

section Cursors

structure Cursor where
  sortKey : String
  versionId : Int
  deriving DecidableEq, Repr

def Cursor.payload (cursor : Cursor) : Json := .obj [("s", .str cursor.sortKey), ("i", .num cursor.versionId)]

def encodeCursor (host : PackageHost) (cursor : Cursor) : String :=
  host.b64Encode (host.dumpsJson cursor.payload)

/-- `str(obj["s"]), int(obj["i"])`. -/
def cursorOf (host : PackageHost) (payload : Json) : Option Cursor := do
  let sortKey ← payload.get "s"
  let versionId ← payload.get "i"
  let versionId ← match versionId with
    | .num value => some value
    | other => host.intOf other
  return ⟨match sortKey with | .str text => text | other => host.strOf other, versionId⟩

def decodeCursor (host : PackageHost) (cursor : Option String) : Option Cursor := do
  let text ← given cursor
  let payload ← host.b64Decode text
  let object ← host.parseJson payload
  cursorOf host object

def cursorAt (row : CatalogRow) : Cursor := ⟨row.2.sortKey, row.2.id⟩

/-- `(sort_key < s) | ((sort_key = s) & (id < i))`. -/
def Cursor.above (cursor : Cursor) (row : CatalogRow) : Bool :=
  (compareText row.2.sortKey cursor.sortKey).then (compare (row.2.id : Int) cursor.versionId) == .lt

end Cursors

section Loop

structure Page where
  items : List CatalogItem
  nextCursor : Option String
  deriving DecidableEq, Repr

structure Gathered where
  items : List CatalogItem := []
  last : Option Cursor := none
  stoppedAt : Option Nat := none

def catalogItem (db : Db) (row : CatalogRow) : CatalogItem := toCatalogItem row.1 row.2 (signerVerified db row.2)

def gather (db : Db) (query : CatalogQuery) (limit : Nat) : Nat → List CatalogRow → Gathered → Gathered
  | _, [], gathered => gathered
  | index, row :: rest, gathered =>
    if query.accepts (catalogItem db row) then
      let gathered := { gathered with
        items := gathered.items ++ [catalogItem db row], last := some (cursorAt row) }
      if limit ≤ gathered.items.length then { gathered with stoppedAt := some index }
      else gather db query limit (index + 1) rest gathered
    else gather db query limit (index + 1) rest gathered

def CatalogQuery.pageLimit (query : CatalogQuery) : Nat := clamp 1 pageSize query.limit

def CatalogQuery.window (query : CatalogQuery) : Nat := query.pageLimit * pythonFilterPageGuard

def Gathered.next (gathered : Gathered) (host : PackageHost) (rowsCap count : Nat) : Option String :=
  let moreBeyondWindow := decide (rowsCap ≤ count)
  let moreInWindow := gathered.stoppedAt.any fun index => decide (index + 1 < count)
  (gathered.last.filter fun _ => moreBeyondWindow || moreInWindow).map (encodeCursor host)

def loadCatalogPage (host : PackageHost) (db : Db) (query : CatalogQuery) (cursorRaw : Option String) :
    Except Raised Page := do
  let cursor := decodeCursor host cursorRaw
  Outcome.ensure (cursorRaw.isSome = true → cursor.isSome = true) ⟨.catalogQueryError, "invalid cursor"⟩
  let rows := ((catalogRows host db query).filter fun row => cursor.all (·.above row)).take query.window
  let gathered := gather db query query.pageLimit 0 rows {}
  return ⟨gathered.items, gathered.next host query.window rows.length⟩

end Loop

end Registry.Packages
