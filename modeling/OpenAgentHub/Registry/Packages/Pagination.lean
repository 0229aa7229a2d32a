import OpenAgentHub.Lib.Paging
import OpenAgentHub.Registry.Packages.Catalog

namespace Registry.Packages

open Relational Semver

instance : Std.TransCmp rowOrder :=
  inferInstanceAs (Std.TransCmp (compareLex (compareOn fun row : CatalogRow => row.2.sortKey.toList)
    (compareOn fun row : CatalogRow => row.2.id)))

section Rows

variable {host : PackageHost} {db : Db} {query : CatalogQuery} {row : CatalogRow}

theorem mem_latestRows :
    row ∈ latestRows db ↔ row.1 ∈ db.agents.rows ∧ latestVisible db row.1.id = some row.2 := by
  obtain ⟨agent, version⟩ := row
  unfold latestRows
  simp only [List.mem_filterMap, Option.map_eq_some_iff, Prod.mk.injEq]
  constructor
  · intro found
    obtain ⟨_, stored, _, latest, rfl, rfl⟩ := found
    exact ⟨stored, latest⟩
  · intro both
    exact ⟨agent, both.1, version, both.2, rfl, rfl⟩

theorem mem_catalogRows :
    row ∈ catalogRows host db query ↔ row ∈ latestRows db ∧ query.selects host row = true := by
  unfold catalogRows
  rw [(Selection.descending_perm _ _).mem_iff, List.mem_filter]

theorem latestRows_distinct (db : Db) :
    (latestRows db).Pairwise fun first second => first.2.id ≠ second.2.id := by
  unfold latestRows
  apply List.pairwise_filterMap.mpr
  apply db.agents.distinct.imp
  intro first second apart one left two right
  obtain ⟨version, latest, rfl⟩ := Option.map_eq_some_iff.mp left
  obtain ⟨version', latest', rfl⟩ := Option.map_eq_some_iff.mp right
  have here := latestVisible_mem latest
  have there := latestVisible_mem latest'
  intro same
  have equal : version = version' := Table.eq_of_id here.1 there.1 same
  apply apart.1
  rw [← equal, here.2.2] at there
  exact there.2.2

theorem catalogRows_strict (host : PackageHost) (db : Db) (query : CatalogQuery) :
    (catalogRows host db query).Pairwise fun first second => rowOrder first second = .gt := by
  have distinct := (latestRows_distinct db).filter (query.selects host)
  have apart : (catalogRows host db query).Pairwise fun first second => first.2.id ≠ second.2.id :=
    ((Selection.descending_perm rowOrder _).pairwise_iff fun different => Ne.symm different).mpr distinct
  have sorted : (catalogRows host db query).Pairwise fun first second => rowOrder first second ≠ .lt :=
    Selection.descending_sorted _
  apply (sorted.and apart).imp
  intro first second both
  cases compared : rowOrder first second with
  | lt => exact absurd compared both.1
  | gt => rfl
  | eq =>
    have same := (Ordering.then_eq_eq.mp compared).2
    exact absurd (Nat.compare_eq_eq.mp same) both.2

end Rows

section Cursors

variable {host : PackageHost} {db : Db} {query : CatalogQuery}

/-- What a cursor needs from `json` and `base64`: they read back what they wrote. -/
structure Readable (host : PackageHost) (cursor : Cursor) : Prop where
  json : host.parseJson (host.dumpsJson cursor.payload) = some cursor.payload
  base64 : host.b64Decode (encodeCursor host cursor) = some (host.dumpsJson cursor.payload)
  nonempty : encodeCursor host cursor ≠ ""

theorem decodeCursor_encodeCursor {cursor : Cursor} (readable : Readable host cursor) :
    decodeCursor host (some (encodeCursor host cursor)) = some cursor := by
  have present : given (some (encodeCursor host cursor)) = some (encodeCursor host cursor) := by
    simp [given, readable.nonempty]
  unfold decodeCursor
  rw [present]
  simp only [Option.bind_eq_bind, Option.bind_some, readable.base64, readable.json]
  rfl

theorem above_cursorAt (row other : CatalogRow) : (cursorAt row).above other = (rowOrder other row == .lt) := by
  have same : compare (other.2.id : Int) (row.2.id : Int) = compare other.2.id row.2.id := by
    simp only [compare, compareOfLessAndEq, Int.ofNat_lt, Int.natCast_inj]
  unfold Cursor.above cursorAt rowOrder
  rw [same]

/-- A cursor that the request accepts and after which these rows are left. -/
structure Resumes (host : PackageHost) (db : Db) (query : CatalogQuery) (cursor : Option String)
    (rest : List CatalogRow) : Prop where
  valid : cursor.isSome = true → (decodeCursor host cursor).isSome = true
  left : (catalogRows host db query).filter (fun row => (decodeCursor host cursor).all (·.above row)) = rest

theorem resumes_start (host : PackageHost) (db : Db) (query : CatalogQuery) :
    Resumes host db query none (catalogRows host db query) where
  valid present := by cases present
  left := by simp [decodeCursor, given]

theorem resumes_after {front back : List CatalogRow} {row : CatalogRow}
    (split : catalogRows host db query = front ++ row :: back) (readable : Readable host (cursorAt row)) :
    Resumes host db query (some (encodeCursor host (cursorAt row))) back where
  valid _ := by rw [decodeCursor_encodeCursor readable]; rfl
  left := by
    have strict := catalogRows_strict host db query
    rw [split] at strict
    rw [split, decodeCursor_encodeCursor readable]
    simp only [Option.all_some, above_cursorAt]
    exact Selection.below_eq_after strict

end Cursors

section Pages

variable {host : PackageHost} {db : Db} {query : CatalogQuery}

def CatalogQuery.keeps (query : CatalogQuery) (db : Db) (row : CatalogRow) : Bool :=
  query.accepts (catalogItem db row)

theorem pageLimit_pos (query : CatalogQuery) : 0 < query.pageLimit := by
  unfold CatalogQuery.pageLimit clamp
  omega

theorem gather_eq_collect {limit : Nat} (left index : Nat) (rows : List CatalogRow) (gathered : Gathered)
    (room : gathered.items.length + (left + 1) = limit) (running : gathered.stoppedAt = none) :
    gather db query limit index rows gathered =
      { items := gathered.items ++ (Paging.collect (query.keeps db) (left + 1) rows).1.map (catalogItem db)
        last := ((Paging.collect (query.keeps db) (left + 1) rows).1.getLast?.map cursorAt).or gathered.last
        stoppedAt := if left + 1 ≤ (Paging.collect (query.keeps db) (left + 1) rows).1.length
          then some (index + (Paging.collect (query.keeps db) (left + 1) rows).2 - 1) else none } := by
  induction rows generalizing left index gathered with
  | nil =>
    obtain ⟨items, last, stopped⟩ := gathered
    subst running
    simp [gather, Paging.collect]
  | cons row rest ih =>
    cases known : query.keeps db row with
    | false =>
      have rejected : query.accepts (catalogItem db row) = false := known
      rw [Paging.collect_dropped known]
      simp only [gather, rejected, Bool.false_eq_true, if_false]
      rw [ih left _ gathered room running]
      by_cases empty : (Paging.collect (query.keeps db) (left + 1) rest).1 = []
      · simp [empty]
      · simp only [empty, if_false, Gathered.mk.injEq, true_and]
        congr 2
        omega
    | true =>
      have accepted : query.accepts (catalogItem db row) = true := known
      rw [Paging.collect_kept known]
      simp only [gather, accepted, if_true, List.length_append, List.length_singleton]
      cases left with
      | zero =>
        rw [if_pos (by omega), Paging.collect_zero]
        simp
      | succ left =>
        have room' : (gathered.items ++ [catalogItem db row]).length + (left + 1) = limit := by
          rw [List.length_append, List.length_singleton]
          omega
        rw [if_neg (by omega), ih _ _ ⟨_, some (cursorAt row), gathered.stoppedAt⟩ room' running]
        simp only [List.append_assoc, List.singleton_append, List.map_cons, Gathered.mk.injEq, true_and]
        constructor
        · cases later : (Paging.collect (query.keeps db) (left + 1) rest).1 with
          | nil => rfl
          | cons next more =>
            rw [List.getLast?_cons_cons]
            simp [List.getLast?_cons]
        · simp only [List.length_cons, Nat.add_le_add_iff_right]
          congr 2
          omega

theorem gathered_next {items : List CatalogItem} {cursor : Cursor} {limit taken index rowsCap count : Nat} :
    (Gathered.mk items (some cursor) (if limit ≤ taken then some index else none)).next host rowsCap count =
      if rowsCap ≤ count ∨ (limit ≤ taken ∧ index + 1 < count) then some (encodeCursor host cursor) else none := by
  unfold Gathered.next
  by_cases full : limit ≤ taken
  · simp [full, Option.filter]
  · simp [full, Option.filter]

theorem loadCatalogPage_eq_page {cursor : Option String} {rest : List CatalogRow}
    (resumes : Resumes host db query cursor rest) :
    loadCatalogPage host db query cursor =
      .ok ⟨(Paging.page (query.keeps db) query.pageLimit query.window rest).1.map (catalogItem db),
        (Paging.page (query.keeps db) query.pageLimit query.window rest).2.bind fun _ =>
          (Paging.page (query.keeps db) query.pageLimit query.window rest).1.getLast?.map
            fun row => encodeCursor host (cursorAt row)⟩ := by
  have accepted : Outcome.ensure (cursor.isSome = true → (decodeCursor host cursor).isSome = true)
      (⟨.catalogQueryError, "invalid cursor"⟩ : Raised) = .ok () := Outcome.ensure_eq_ok.mpr resumes.valid
  obtain ⟨limit, limitIs⟩ := Nat.exists_eq_succ_of_ne_zero (Nat.ne_of_gt (pageLimit_pos query))
  have collected : gather db query (limit + 1) 0 (rest.take query.window) {} = _ :=
    gather_eq_collect limit 0 _ {} (Nat.zero_add _) rfl
  unfold loadCatalogPage Paging.page
  simp only [accepted, resumes.left, limitIs, collected]
  rcases Paging.collect_cases limit (rest.take query.window) with ⟨nothing, _⟩ | ⟨front, row, unread, last⟩
  · rw [nothing]
    simp [Gathered.next, Bind.bind, Except.bind, Pure.pure, Except.pure]
  · have stops : 0 + (front.length + 1) - 1 + 1 = front.length + 1 := by omega
    rw [last.collected]
    simp only [List.getLast?_concat, Option.map_some, Option.some_or, gathered_next, stops]
    split <;> simp [Bind.bind, Except.bind, Pure.pure, Except.pure]

end Pages

section Listing

variable {host : PackageHost} {db : Db} {query : CatalogQuery}

/-- The items of all the pages, following `nextCursor` until there is none. -/
def visit (host : PackageHost) (db : Db) (query : CatalogQuery) : Nat → Option String → Option (List CatalogItem)
  | 0, _ => none
  | fuel + 1, cursor =>
    match loadCatalogPage host db query cursor with
    | .error _ => none
    | .ok ⟨items, none⟩ => some items
    | .ok ⟨items, some next⟩ => (visit host db query fuel (some next)).map (items ++ ·)

theorem visit_eq_follow (readable : ∀ row ∈ catalogRows host db query, Readable host (cursorAt row)) (fuel : Nat)
    {cursor : Option String} {front rest : List CatalogRow} (split : catalogRows host db query = front ++ rest)
    (resumes : Resumes host db query cursor rest) :
    visit host db query fuel cursor =
      (Paging.follow (query.keeps db) query.pageLimit query.window fuel rest).map (List.map (catalogItem db)) := by
  induction fuel generalizing cursor front rest with
  | zero => rfl
  | succ fuel ih =>
    unfold visit Paging.follow
    rw [loadCatalogPage_eq_page resumes]
    rcases Paging.page_cases (query.keeps db) query.window (pageLimit_pos query) rest with
      ⟨empty, _⟩ | ⟨before, row, back, inside, _, _, ⟨goesOn⟩ | ⟨ends, _, _⟩⟩
    · rw [empty]
      rfl
    · have split' : catalogRows host db query = (front ++ before) ++ row :: back := by
        rw [split, inside, List.append_assoc]
      have member : row ∈ catalogRows host db query := by simp [split']
      have further := resumes_after split' (readable row member)
      have split'' : catalogRows host db query = (front ++ before ++ [row]) ++ back := by simp [split']
      rw [goesOn]
      simp only [Option.bind_some, List.getLast?_concat, Option.map_some]
      rw [ih split'' further]
      cases Paging.follow (query.keeps db) query.pageLimit query.window fuel back <;> simp
    · rw [ends]
      simp

/-- The public agents whose latest visible version passes every filter. -/
structure Listed (host : PackageHost) (db : Db) (query : CatalogQuery) (agent : Agent) (version : AgentVersion) :
    Prop where
  stored : agent ∈ db.agents.rows
  latest : latestVisible db agent.id = some version
  selected : query.selects host (agent, version) = true
  accepted : query.accepts (catalogItem db (agent, version)) = true

theorem mem_listing {row : CatalogRow} :
    row ∈ (catalogRows host db query).filter (query.keeps db) ↔ Listed host db query row.1 row.2 := by
  rw [List.mem_filter, mem_catalogRows, mem_latestRows]
  constructor
  · intro ⟨⟨⟨stored, latest⟩, selected⟩, accepted⟩
    exact ⟨stored, latest, selected, accepted⟩
  · intro listed
    exact ⟨⟨⟨listed.stored, listed.latest⟩, listed.selected⟩, listed.accepted⟩

/-- Following the cursors ends, and has then shown each listed agent once, in descending order. -/
def ListsExactly (host : PackageHost) (db : Db) (query : CatalogQuery) : Prop :=
  ∃ (fuel : Nat) (rows : List CatalogRow), visit host db query fuel none = some (rows.map (catalogItem db)) ∧
    rows.Pairwise (fun first second => rowOrder first second = .gt) ∧
    ∀ row : CatalogRow, row ∈ rows ↔ Listed host db query row.1 row.2

theorem catalog_lists_exactly_iff (host : PackageHost) (db : Db) (query : CatalogQuery)
    (readable : ∀ row ∈ catalogRows host db query, Readable host (cursorAt row)) :
    ListsExactly host db query ↔ Paging.Dense (query.keeps db) query.window (catalogRows host db query) := by
  have visited := fun fuel => visit_eq_follow readable fuel (List.nil_append _).symm (resumes_start host db query)
  have strict := (catalogRows_strict host db query).filter (query.keeps db)
  obtain ⟨enough, items, followed, dense⟩ :
      ∃ fuel items, Paging.follow (query.keeps db) query.pageLimit query.window fuel (catalogRows host db query) =
          some items ∧
        (items = (catalogRows host db query).filter (query.keeps db) ↔
          Paging.Dense (query.keeps db) query.window (catalogRows host db query)) :=
    Paging.follow_spec (pageLimit_pos query) _
  rw [← dense]
  constructor
  · intro ⟨fuel, rows, shown, sorted, exactly⟩
    have all : rows = (catalogRows host db query).filter (query.keeps db) :=
      Selection.eq_of_strict sorted strict fun row => (exactly row).trans mem_listing.symm
    rw [visited] at shown
    obtain ⟨items', followed', mapped⟩ := Option.map_eq_some_iff.mp shown
    have same : items = items' := Paging.follow_unique followed followed'
    have lengths := congrArg List.length mapped
    rw [List.length_map, List.length_map, all, ← same] at lengths
    exact (Paging.follow_sublist (pageLimit_pos query) followed).eq_of_length lengths
  · intro complete
    refine ⟨enough, items, by rw [visited, followed]; rfl, ?_, ?_⟩
    · rw [complete]
      exact strict
    · intro row
      rw [complete]
      exact mem_listing

section Shelves

def shelved (id : Nat) : Agent where
  id := id
  namespaceName := "acme"
  name := "tool-" ++ toString id
  ownerId := 1
  author := "founder"

def released (id : Nat) (permissions : List String) : AgentVersion where
  id := id
  agentId := id
  version := "1.0.0"
  sortKey := "n000000000001n000000000000n000000000000#1"
  manifest := .obj [("permissions", .arr (permissions.map Json.str))]
  sha256 := ""
  archiveName := ""
  signature := ⟨1, "", "1.0.0", "", "", "", ""⟩
  publishedById := 1
  publishedAt := 0

def shelf : Db where
  agents := ⟨[shelved 1, shelved 2], 3, by decide, by decide +kernel⟩
  agentVersions := ⟨[released 1 [], released 2 ["network"]], 3, by decide, by decide +kernel⟩

def longShelf : Db where
  agents := ⟨(List.range 21).reverse.map fun n => shelved (n + 1), 22, by decide, by decide +kernel⟩
  agentVersions := ⟨(List.range 21).reverse.map fun n => released (n + 1) (if n = 0 then ["network"] else []), 22,
    by decide, by decide +kernel⟩

def shelfPayload (id : Int) : Json := (Cursor.mk "n000000000001n000000000000n000000000000#1" id).payload

def shelfText (id : String) : String :=
  "\x7b\"s\":\"n000000000001n000000000000n000000000000#1\",\"i\":" ++ id ++ "\x7d"

def shelfToken (last : String) : String :=
  "eyJzIjoibjAwMDAwMDAwMDAwMW4wMDAwMDAwMDAwMDBuMDAwMDAwMDAwMDAwIzEiLCJpIjo" ++ last ++ "fQ=="

def shelfHost : PackageHost :=
  { plainHost with
    dumpsJson := fun value => match value.get "i" with
      | some (.num id) => shelfText (toString id)
      | _ => ""
    parseJson := fun text =>
      if text = shelfText "1" then some (shelfPayload 1)
      else if text = shelfText "2" then some (shelfPayload 2) else none
    b64Encode := fun text =>
      if text = shelfText "1" then shelfToken "x" else if text = shelfText "2" then shelfToken "y" else ""
    b64Decode := fun token =>
      if token = shelfToken "x" then some (shelfText "1")
      else if token = shelfToken "y" then some (shelfText "2") else none }

theorem shelf_readable {query : CatalogQuery} (row : CatalogRow) (member : row ∈ catalogRows shelfHost shelf query) :
    Readable shelfHost (cursorAt row) := by
  have stored := (latestVisible_mem (mem_latestRows.mp (mem_catalogRows.mp member).1).2).1
  simp only [shelf, List.mem_cons, List.not_mem_nil, or_false] at stored
  rcases stored with first | second
  · rw [cursorAt, first]
    exact ⟨by rfl, by rfl, by decide +kernel⟩
  · rw [cursorAt, second]
    exact ⟨by rfl, by rfl, by decide +kernel⟩

end Shelves

theorem catalog_lists_shelf : ListsExactly shelfHost shelf { limit := 1 } := by
  apply (catalog_lists_exactly_iff shelfHost shelf { limit := 1 } shelf_readable).mpr
  apply Paging.dense_of_short
  decide +kernel

/-- The first window holds no package that asks for the network, and the listing ends there. -/
theorem catalog_stops_in_first_window :
    ¬ ListsExactly plainHost longShelf { permission := some "network", limit := 1 } := by
  intro ⟨fuel, rows, shown, _, exactly⟩
  have page : loadCatalogPage plainHost longShelf { permission := some "network", limit := 1 } none =
      .ok ⟨[], none⟩ := by decide +kernel
  have nothing : rows = [] := by
    cases fuel with
    | zero => cases shown
    | succ fuel =>
      unfold visit at shown
      rw [page] at shown
      exact List.map_eq_nil_iff.mp (Option.some.inj shown).symm
  have listed : Listed plainHost longShelf { permission := some "network", limit := 1 } (shelved 1)
      (released 1 ["network"]) := ⟨by decide +kernel, rfl, rfl, by decide +kernel⟩
  have member := (exactly (shelved 1, released 1 ["network"])).mpr listed
  rw [nothing] at member
  cases member

end Listing

end Registry.Packages
