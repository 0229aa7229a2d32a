import OpenAgentHub.Registry.Packages.Catalog

namespace Registry.Packages

open Relational

/-- The same state without the agent; its versions and grants are deleted with it. -/
def without (db : Db) (agent : Agent) : Db :=
  { db with
    agents := db.agents.delete (·.id == agent.id)
    agentVersions := db.agentVersions.delete (·.agentId == agent.id)
    agentGrants := db.agentGrants.delete (·.agentId == agent.id) }

section Others

variable {db : Db} {agent other : Agent}

theorem key_spared {key kept dropped : Nat} (different : kept ≠ dropped) (theirs : (key == kept) = true) :
    (key == dropped) = false := by
  have same : key = kept := beq_iff_eq.mp theirs
  rw [same]
  exact beq_eq_false_iff_ne.mpr different

theorem versionsOf_without (different : other.id ≠ agent.id) :
    versionsOf (without db agent) other = versionsOf db other := by
  apply Table.select_delete
  intro row _ theirs
  exact key_spared different theirs

theorem versionByName_without {version : String} (different : other.id ≠ agent.id) :
    versionByName (without db agent) other version = versionByName db other version := by
  apply Table.one_delete
  intro row _ theirs
  exact key_spared different (Bool.and_eq_true_iff.mp theirs).1

theorem resolveVersion_without {version : String} (different : other.id ≠ agent.id) :
    resolveVersion (without db agent) other version = resolveVersion db other version := by
  unfold resolveVersion latest
  rw [versionsOf_without different, versionByName_without different]

theorem latestVisible_without {id : Nat} (different : id ≠ agent.id) :
    latestVisible (without db agent) id = latestVisible db id := by
  unfold latestVisible
  congr 1
  have swap : ∀ table : Table AgentVersion, (table.select visible).filter (·.agentId == id) =
      table.select fun row => row.agentId == id && visible row := by
    intro table
    unfold Table.select
    rw [List.filter_filter]
  rw [swap, swap]
  apply Table.select_delete
  intro row _ theirs
  exact key_spared different (Bool.and_eq_true_iff.mp theirs).1

theorem grant_without {condition : AgentGrant → Bool} (different : other.id ≠ agent.id) :
    (without db agent).agentGrants.one (fun grant => grant.agentId == other.id && condition grant) =
      db.agentGrants.one fun grant => grant.agentId == other.id && condition grant := by
  apply Table.one_delete
  intro row _ theirs
  exact key_spared different (Bool.and_eq_true_iff.mp theirs).1

theorem canView_without {subject : Option Subject} (different : other.id ≠ agent.id) :
    canView (without db agent) other subject = canView db other subject := by
  have byUser : ∀ userId, userGrant (without db agent) other userId = userGrant db other userId :=
    fun _ => grant_without different
  have byTeam : ∀ teamId, teamGrant (without db agent) other teamId = teamGrant db other teamId :=
    fun _ => grant_without different
  unfold canView
  simp only [byUser, byTeam]
  rfl

theorem mem_agents_without : other ∈ (without db agent).agents.rows ↔ other ∈ db.agents.rows ∧ other.id ≠ agent.id := by
  simp [without]

end Others

section Requests

variable {db : Db} {agent : Agent} {subject : Option Subject}

theorem agentByName_without {namespaceName name : String} :
    agentByName (without db agent) namespaceName name =
      (agentByName db namespaceName name).filter fun found => found.id ≠ agent.id := by
  ext found
  rw [agentByName_eq_some, mem_agents_without]
  simp only [Option.filter_eq_some_iff, agentByName_eq_some, decide_eq_true_eq]
  tauto

variable (stored : agent ∈ db.agents.rows) (hidden : canView db agent subject = false)

include stored

theorem filterMap_without {β : Type} {show' show_ : Agent → Option β}
    (agree : ∀ other, other.id ≠ agent.id → show' other = show_ other) (unseen : show_ agent = none) :
    (without db agent).agents.rows.filterMap show' = db.agents.rows.filterMap show_ := by
  unfold without
  rw [Table.delete_rows, List.filterMap_filter]
  apply List.filterMap_congr
  intro other member
  by_cases same : other.id = agent.id
  · rw [Table.eq_of_id member stored same, unseen]
    simp
  · simp [same, agree other same]

include hidden

theorem viewableAgent_without (namespaceName name : String) :
    viewableAgent (without db agent) namespaceName name subject = viewableAgent db namespaceName name subject := by
  unfold viewableAgent
  congr 1
  rw [agentByName_without]
  cases found : agentByName db namespaceName name with
  | none => rfl
  | some other =>
    by_cases same : other.id = agent.id
    · have equal : other = agent := Table.eq_of_id (agentByName_eq_some.mp found).1 stored same
      simp [equal, hidden, Option.filter_some]
    · simp [same, canView_without same, Option.filter_some]

theorem viewable_bind_without {α : Type} {namespaceName name : String} {serve serve' : Agent → Except Raised α}
    (same : ∀ other, other.id ≠ agent.id → serve' other = serve other) :
    (viewableAgent (without db agent) namespaceName name subject >>= serve') =
      (viewableAgent db namespaceName name subject >>= serve) := by
  rw [viewableAgent_without stored hidden]
  cases found : viewableAgent db namespaceName name subject with
  | error raised => rfl
  | ok other =>
    apply same
    intro equal
    obtain ⟨named, seen⟩ := Option.filter_eq_some_iff.mp (Outcome.demand_eq_ok.mp found)
    rw [Table.eq_of_id (agentByName_eq_some.mp named).1 stored equal, hidden] at seen
    cases seen

theorem getAgentSummary_without (namespaceName name : String) :
    getAgentSummary (without db agent) namespaceName name subject = getAgentSummary db namespaceName name subject := by
  apply viewable_bind_without stored hidden
  intro other different
  unfold latest
  rw [versionsOf_without different]

theorem listVersions_without (namespaceName name : String) :
    listVersions (without db agent) namespaceName name subject = listVersions db namespaceName name subject := by
  apply viewable_bind_without stored hidden
  intro other different
  unfold listFor
  rw [versionsOf_without different]

theorem getVersionDetail_without (now : Time) (namespaceName name version : String) :
    getVersionDetail now (without db agent) namespaceName name version subject =
      getVersionDetail now db namespaceName name version subject := by
  apply viewable_bind_without stored hidden
  intro other different
  rw [resolveVersion_without different]
  rfl

theorem downloadArchive_without (files : Archives) (namespaceName name version : String) :
    downloadArchive (without db agent) files namespaceName name version subject =
      downloadArchive db files namespaceName name version subject := by
  apply viewable_bind_without stored hidden
  intro other different
  rw [resolveVersion_without different]

theorem getPackageAuditLog_without (settings : Settings) (namespaceName name : String) (limit : Int)
    (beforeId : Option Nat) (action : Option String) :
    getPackageAuditLog settings (without db agent) subject namespaceName name limit beforeId action =
      getPackageAuditLog settings db subject namespaceName name limit beforeId action :=
  viewable_bind_without stored hidden fun _ _ => rfl

theorem searchAgents_without (host : PackageHost) (filters : Filters) (sort : SearchSort) (limit offset : Int) :
    searchAgents host (without db agent) filters sort limit offset subject =
      searchAgents host db filters sort limit offset subject := by
  unfold searchAgents agentsMatching Table.select
  dsimp only
  simp only [List.filterMap_filter]
  rw [filterMap_without stored]
  · intro other different
    rw [canView_without different, latestVisible_without different]
  · simp [hidden]

theorem catalogRows_without (host : PackageHost) (query : CatalogQuery) :
    catalogRows host (without db agent) query = catalogRows host db query := by
  have closed : agent.visibility ≠ .public := by
    intro isPublic
    simp [canView, isPublic] at hidden
  unfold catalogRows latestRows
  congr 1
  simp only [List.filter_filterMap]
  apply filterMap_without stored
  · intro other different
    rw [latestVisible_without different]
  · cases latestVisible db agent.id with
    | none => rfl
    | some version => simp [Option.filter_some, CatalogQuery.selects, closed]

omit stored hidden in
theorem gather_without {query : CatalogQuery} {limit index : Nat} {rows : List CatalogRow} {gathered : Gathered} :
    gather (without db agent) query limit index rows gathered = gather db query limit index rows gathered := by
  have item : ∀ row, catalogItem (without db agent) row = catalogItem db row := fun _ => rfl
  induction rows generalizing index gathered with
  | nil => rfl
  | cons row rest ih => simp only [gather, item, ih]

theorem loadCatalogPage_without (host : PackageHost) (query : CatalogQuery) (cursor : Option String) :
    loadCatalogPage host (without db agent) query cursor = loadCatalogPage host db query cursor := by
  unfold loadCatalogPage
  simp only [catalogRows_without stored hidden, gather_without]

end Requests

section Leaks

variable {db : Db} {agent : Agent}

theorem blockedDownloadReason_isSome {version : AgentVersion} :
    (blockedDownloadReason version).isSome = (version.reviewStatus.blocked || version.securityStatus == .flagged) := by
  unfold blockedDownloadReason
  by_cases blocked : version.reviewStatus.blocked = true
  · simp [blocked]
  · by_cases flagged : version.securityStatus = .flagged
    · simp [blocked, flagged]
    · simp [blocked, flagged]

def hasBlockedVersion (db : Db) (agent : Agent) : Bool :=
  (versionsOf db agent).any fun version => (blockedDownloadReason version).isSome

theorem mem_blockedVersions {version : AgentVersion} :
    version ∈ blockedVersions db ↔
      version ∈ db.agentVersions.rows ∧ (blockedDownloadReason version).isSome = true := by
  unfold blockedVersions
  rw [(Selection.descending_perm _ _).mem_iff, Table.mem_select, blockedDownloadReason_isSome]

theorem blockedVersions_without (clean : hasBlockedVersion db agent = false) :
    blockedVersions (without db agent) = blockedVersions db := by
  unfold blockedVersions
  congr 1
  apply Table.select_delete
  intro version member blocked
  by_contra theirs
  have own : version ∈ versionsOf db agent := Table.mem_select.mpr ⟨member, by simpa using theirs⟩
  have counted := List.any_eq_false.mp clean version own
  rw [blockedDownloadReason_isSome] at counted
  exact counted blocked

theorem mem_getRevocationFeed {item : RevocationItem} :
    item ∈ getRevocationFeed db ↔ ∃ version ∈ blockedVersions db, ∃ owner, db.agents.byId version.agentId = some owner ∧
      ∃ reason, blockedDownloadReason version = some reason ∧ revocationItem owner version reason = item := by
  unfold getRevocationFeed
  simp only [List.mem_filterMap, Option.bind_eq_bind, Option.bind_eq_some_iff, Option.pure_def, Option.some.injEq]

theorem getRevocationFeed_without (stored : agent ∈ db.agents.rows) :
    getRevocationFeed (without db agent) = getRevocationFeed db ↔ hasBlockedVersion db agent = false := by
  constructor
  · intro same
    by_contra leaks
    obtain ⟨version, own, blocked⟩ := List.any_eq_true.mp (Bool.eq_true_of_not_eq_false leaks)
    obtain ⟨member, theirs⟩ := Table.mem_select.mp own
    obtain ⟨reason, reasonIs⟩ := Option.isSome_iff_exists.mp blocked
    have owner : db.agents.byId version.agentId = some agent :=
      Table.byId_eq_some.mpr ⟨stored, (beq_iff_eq.mp theirs).symm⟩
    have named : revocationItem agent version reason ∈ getRevocationFeed (without db agent) := by
      rw [same]
      exact mem_getRevocationFeed.mpr
        ⟨version, mem_blockedVersions.mpr ⟨member, blocked⟩, agent, owner, reason, reasonIs, rfl⟩
    obtain ⟨_, _, other, found, _, _, itemIs⟩ := mem_getRevocationFeed.mp named
    obtain ⟨kept, different⟩ := mem_agents_without.mp (Table.byId_eq_some.mp found).1
    have names := (RevocationItem.mk.injEq ..).mp itemIs
    apply different
    rw [Table.eq_of_clash kept stored (by simp [Row.clash, names.1, names.2.1])]
  · intro clean
    unfold getRevocationFeed
    rw [blockedVersions_without clean]
    apply List.filterMap_congr
    intro version member
    obtain ⟨inTable, blocked⟩ := mem_blockedVersions.mp member
    have different : version.agentId ≠ agent.id := by
      intro theirs
      have own : version ∈ versionsOf db agent := Table.mem_select.mpr ⟨inTable, by simpa using theirs⟩
      exact List.any_eq_false.mp clean version own blocked
    have same : (without db agent).agents.byId version.agentId = db.agents.byId version.agentId := by
      apply Table.one_delete
      intro other _ theirs
      exact key_spared different theirs
    rw [same]

def tokenRaises (host : PackageHost) (token : String) : Bool := !(tokenPayload host token).isOk

theorem tokenPayload_raised {host : PackageHost} {token : String} {raised : Raised}
    (fails : tokenPayload host token = .error raised) : raised ≠ agentNotFound := by
  unfold tokenPayload signedFields at fails
  repeat' split at fails
  all_goals cases fails
  all_goals decide

section Tokens

variable {host : PackageHost} {now : Time} {files : Archives} {namespaceName name version token : String}

theorem verifyDownloadToken_error {target : TokenTarget} {raised : Raised}
    (fails : verifyDownloadToken host now token target = .error raised) :
    tokenRaises host token = true ∧ raised ≠ agentNotFound := by
  unfold verifyDownloadToken at fails
  unfold tokenRaises
  cases payload : tokenPayload host token with
  | error other =>
    rw [payload, Outcome.error_bind] at fails
    cases fails
    exact ⟨rfl, tokenPayload_raised payload⟩
  | ok data =>
    rw [payload] at fails
    cases data <;> cases fails

theorem verifyDownloadToken_ok {target : TokenTarget} {valid : Bool × Int}
    (done : verifyDownloadToken host now token target = .ok valid) : tokenRaises host token = false := by
  obtain ⟨data, payload, _⟩ := Outcome.bind_eq_ok.mp done
  unfold tokenRaises
  rw [payload]
  rfl

/-- With a token that does not verify, the answer is that of a missing agent unless the version is
    missing too or the verification raises. -/
theorem downloadArchiveViaToken_refused (found : agentByName db namespaceName name = some agent)
    (rejected : ∀ row, resolveVersion db agent version = some row →
      (verifyDownloadToken host now token (tokenTarget namespaceName name row)).map Prod.fst ≠ .ok true) :
    downloadArchiveViaToken host now db files namespaceName name version token = .error agentNotFound ↔
      (resolveVersion db agent version).isSome = true ∧ tokenRaises host token = false := by
  unfold downloadArchiveViaToken
  rw [found, Outcome.demand_some, Outcome.ok_bind]
  cases resolved : resolveVersion db agent version with
  | none =>
    have other : versionNotFound ≠ agentNotFound := by decide
    simp [other]
  | some row =>
    rw [Outcome.demand_some, Outcome.ok_bind]
    cases verified : verifyDownloadToken host now token (tokenTarget namespaceName name row) with
    | error raised => simp [verifyDownloadToken_error verified]
    | ok valid =>
      have refused : valid.1 ≠ true := by
        intro accepted
        exact rejected row resolved (by rw [verified, ← accepted]; rfl)
      simp [verifyDownloadToken_ok verified, Outcome.ensure, refused]

theorem downloadArchiveViaToken_without (stored : agent ∈ db.agents.rows)
    (rejected : ∀ row, resolveVersion db agent version = some row →
      (verifyDownloadToken host now token (tokenTarget namespaceName name row)).map Prod.fst ≠ .ok true) :
    downloadArchiveViaToken host now (without db agent) files namespaceName name version token =
        downloadArchiveViaToken host now db files namespaceName name version token ↔
      (agentByName db namespaceName name = some agent →
        (resolveVersion db agent version).isSome = true ∧ tokenRaises host token = false) := by
  cases found : agentByName db namespaceName name with
  | none =>
    have absent : agentByName (without db agent) namespaceName name = none := by
      rw [agentByName_without, found]
      rfl
    simp [downloadArchiveViaToken, found, absent]
  | some other =>
    by_cases same : other.id = agent.id
    · have equal : other = agent := Table.eq_of_id (agentByName_eq_some.mp found).1 stored same
      subst equal
      have absent : agentByName (without db other) namespaceName name = none := by
        rw [agentByName_without, found]
        simp
      have missing : downloadArchiveViaToken host now (without db other) files namespaceName name version token =
          .error agentNotFound := by
        simp [downloadArchiveViaToken, absent]
      rw [missing, eq_comm, downloadArchiveViaToken_refused found rejected]
      simp
    · have present : agentByName (without db agent) namespaceName name = some other := by
        rw [agentByName_without, found]
        simp [same]
      have distinct : other ≠ agent := fun equal => same (by rw [equal])
      simp [downloadArchiveViaToken, found, present, resolveVersion_without same, distinct]

end Tokens

end Leaks

section Surfaces

inductive Surface where
  | search (filters : Filters) (sort : SearchSort) (limit offset : Int)
  | catalog (query : CatalogQuery) (cursor : Option String)
  | agentSummary (namespaceName name : String)
  | versions (namespaceName name : String)
  | versionDetail (namespaceName name version : String)
  | archive (namespaceName name version : String)
  | archiveViaToken (namespaceName name version token : String)
  | auditLog (namespaceName name : String) (limit : Int) (beforeId : Option Nat) (action : Option String)
  | revocationFeed

inductive Answer where
  | summaries (items : List AgentSummary)
  | page (page : Page)
  | agentSummary (summary : AgentSummary)
  | versions (names : List String)
  | versionDetail (detail : AgentVersionDetail)
  | archive (download : Download)
  | auditLog (page : Audit.AuditPage)
  | revocations (items : List RevocationItem)

def read (host : PackageHost) (now : Time) (files : Archives) (db : Db) (subject : Option Subject) :
    Surface → Except Raised Answer
  | .search filters sort limit offset => .ok (.summaries (searchAgents host db filters sort limit offset subject))
  | .catalog query cursor => (loadCatalogPage host db query cursor).map .page
  | .agentSummary namespaceName name => (getAgentSummary db namespaceName name subject).map .agentSummary
  | .versions namespaceName name => (listVersions db namespaceName name subject).map .versions
  | .versionDetail namespaceName name version =>
    (getVersionDetail now db namespaceName name version subject).map .versionDetail
  | .archive namespaceName name version =>
    (downloadArchive db files namespaceName name version subject).map .archive
  | .archiveViaToken namespaceName name version token =>
    (downloadArchiveViaToken host now db files namespaceName name version token).map .archive
  | .auditLog namespaceName name limit beforeId action =>
    (getPackageAuditLog host.settings db subject namespaceName name limit beforeId action).map .auditLog
  | .revocationFeed => .ok (.revocations (getRevocationFeed db))

def Surface.Unverified (host : PackageHost) (now : Time) (db : Db) (agent : Agent) : Surface → Prop
  | .archiveViaToken namespaceName name version token =>
    ∀ row, resolveVersion db agent version = some row →
      (verifyDownloadToken host now token (tokenTarget namespaceName name row)).map Prod.fst ≠ .ok true
  | _ => True

/-- The route names the agent with a version it does not have or with a token whose verification
    raises, or the feed carries one of the agent's versions. -/
def Surface.discloses (host : PackageHost) (db : Db) (agent : Agent) : Surface → Bool
  | .archiveViaToken namespaceName name version token =>
    agentByName db namespaceName name == some agent &&
      ((resolveVersion db agent version).isNone || tokenRaises host token)
  | .revocationFeed => hasBlockedVersion db agent
  | _ => false

variable {α : Type} {first second : Except Raised α} {wrap : α → Answer}

theorem map_inj (injective : ∀ a b, wrap a = wrap b → a = b) : first.map wrap = second.map wrap ↔ first = second := by
  cases first with
  | error raised => cases second <;> simp [Except.map]
  | ok value =>
    cases second with
    | error raised => simp [Except.map]
    | ok other =>
      simp only [Except.map, Except.ok.injEq]
      exact ⟨injective _ _, fun same => by rw [same]⟩

/-- To a caller who may not view it, an agent is as good as absent exactly on the surfaces that do not
    disclose it. -/
theorem existence_hidden_iff (host : PackageHost) (now : Time) (files : Archives) (db : Db) (subject : Option Subject)
    (agent : Agent) (surface : Surface) (stored : agent ∈ db.agents.rows) (hidden : canView db agent subject = false)
    (unverified : surface.Unverified host now db agent) :
    read host now files (without db agent) subject surface = read host now files db subject surface ↔
      surface.discloses host db agent = false := by
  cases surface with
  | search filters sort limit offset => simp [read, Surface.discloses, searchAgents_without stored hidden]
  | catalog query cursor => simp [read, Surface.discloses, loadCatalogPage_without stored hidden]
  | agentSummary namespaceName name => simp [read, Surface.discloses, getAgentSummary_without stored hidden]
  | versions namespaceName name => simp [read, Surface.discloses, listVersions_without stored hidden]
  | versionDetail namespaceName name version =>
    simp [read, Surface.discloses, getVersionDetail_without stored hidden]
  | archive namespaceName name version => simp [read, Surface.discloses, downloadArchive_without stored hidden]
  | archiveViaToken namespaceName name version token =>
    unfold read
    rw [map_inj fun _ _ same => Answer.archive.inj same, downloadArchiveViaToken_without stored unverified]
    cases resolved : resolveVersion db agent version <;> simp [Surface.discloses, resolved]
  | auditLog namespaceName name limit beforeId action =>
    simp [read, Surface.discloses, getPackageAuditLog_without stored hidden]
  | revocationFeed => simp [read, Surface.discloses, getRevocationFeed_without stored]

def secret : Agent where
  id := 1
  namespaceName := "acme"
  name := "secret"
  ownerId := 1
  visibility := .private
  author := "founder"

def secretVersion : AgentVersion where
  id := 1
  agentId := 1
  version := "1.0.0"
  sortKey := "n000000000001n000000000000n000000000000#1"
  manifest := .obj []
  sha256 := ""
  archiveName := "acme_secret-1.0.0.ahb"
  signature := ⟨1, "acme/secret", "1.0.0", "", "", "", ""⟩
  publishedById := 1
  publishedAt := 0
  reviewStatus := .revoked

def oneSecret : Db where
  agents := ⟨[secret], 2, by decide, by decide⟩
  agentVersions := ⟨[secretVersion], 2, by decide, by decide⟩

theorem secret_hidden_from_token :
    read plainHost 0 (fun _ => none) (without oneSecret secret) none (.archiveViaToken "acme" "secret" "1.0.0" "x") =
      read plainHost 0 (fun _ => none) oneSecret none (.archiveViaToken "acme" "secret" "1.0.0" "x") := by
  apply (existence_hidden_iff plainHost 0 (fun _ => none) oneSecret none secret
    (.archiveViaToken "acme" "secret" "1.0.0" "x") (by decide) (by decide) ?_).mpr (by decide +kernel)
  intro row _ valid
  cases valid

/-- An anonymous caller learns of the agent from the error for a version it does not have, and from the feed. -/
theorem secret_disclosed :
    canView oneSecret secret none = false ∧
      read plainHost 0 (fun _ => none) (without oneSecret secret) none (.archiveViaToken "acme" "secret" "9.9.9" "x") ≠
        read plainHost 0 (fun _ => none) oneSecret none (.archiveViaToken "acme" "secret" "9.9.9" "x") ∧
      read plainHost 0 (fun _ => none) (without oneSecret secret) none .revocationFeed ≠
        read plainHost 0 (fun _ => none) oneSecret none .revocationFeed := by
  have missing : read plainHost 0 (fun _ => none) (without oneSecret secret) none
      (.archiveViaToken "acme" "secret" "9.9.9" "x") = .error agentNotFound := by rfl
  have present : read plainHost 0 (fun _ => none) oneSecret none
      (.archiveViaToken "acme" "secret" "9.9.9" "x") = .error versionNotFound := by rfl
  refine ⟨by decide, ?_, ?_⟩
  · rw [missing, present]
    simp [agentNotFound, versionNotFound]
  · intro same
    have feeds := Answer.revocations.inj (Except.ok.inj same)
    exact absurd (congrArg List.length feeds) (by decide)

end Surfaces

end Registry.Packages
