import OpenAgentHub.Registry.Packages.Transactions

namespace Registry.Packages

open Relational Runs

section Archives

variable {files after : Archives} {namespaceName name version : String} {data : Bytes}

theorem storeArchive_ok {submission : Submission} (stored : storeArchive files submission = .ok after) :
    files.put submission.namespaceName submission.name submission.version submission.archive = .ok after :=
  reraise_eq_ok.mp stored

theorem get_put (written : files.put namespaceName name version data = .ok after) :
    after.get namespaceName name version = .ok (some data) := by
  unfold Archives.put at written
  simp only [Outcome.bind_eq_ok, Outcome.pure_eq_ok] at written
  obtain ⟨path, safe, _, _, made⟩ := written
  unfold Archives.get
  rw [safe, Outcome.ok_bind, ← made]
  simp [Pure.pure, Except.pure]

theorem archivePath_inj {namespaceName' name' version' : String} {path : List String}
    (one : archivePath namespaceName name version = .ok path)
    (two : archivePath namespaceName' name' version' = .ok path) :
    namespaceName' = namespaceName ∧ name' = name ∧ version' = version := by
  have same := (archivePath_ok one).symm.trans (archivePath_ok two)
  simp only [List.cons.injEq, and_true] at same
  obtain ⟨space, named, versioned⟩ := same
  have chars := congrArg String.toList versioned
  rw [String.toList_append, String.toList_append] at chars
  exact ⟨space.symm, named.symm, (String.toList_inj.mp (List.append_cancel_right chars)).symm⟩

theorem get_put_other {namespaceName' name' version' : String}
    (written : files.put namespaceName name version data = .ok after)
    (other : ¬ (namespaceName' = namespaceName ∧ name' = name ∧ version' = version)) :
    after.get namespaceName' name' version' = files.get namespaceName' name' version' := by
  unfold Archives.put at written
  simp only [Outcome.bind_eq_ok, Outcome.pure_eq_ok] at written
  obtain ⟨path, safe, _, _, made⟩ := written
  unfold Archives.get
  cases located : archivePath namespaceName' name' version' with
  | error raised => rfl
  | ok path' =>
    have apart : path' ≠ path := by
      intro same
      rw [same] at located
      exact other (archivePath_inj safe located)
    rw [Outcome.ok_bind, Outcome.ok_bind, ← made]
    simp [apart]

end Archives

section Steadiness

variable {before middle after : Db}

def identity (agent : Agent) : Nat × String × String := (agent.id, agent.namespaceName, agent.name)

structure Steady (before after : Db) : Prop where
  agents : Table.Upkeep identity before.agents after.agents
  releases : Table.Upkeep release before.agentVersions after.agentVersions

theorem Steady.refl (db : Db) : Steady db db := ⟨.refl _, .refl _⟩

theorem Steady.trans (first : Steady before middle) (second : Steady middle after) : Steady before after :=
  ⟨first.agents.trans second.agents, first.releases.trans second.releases⟩

theorem Maintains.steady (maintained : Maintains before after) : Steady before after :=
  ⟨.of_eq maintained.agents, maintained.releases⟩

theorem setAgent_steady {db : Db} {id : Nat} {update : Agent → Agent} (preserves : Table.Preserves update)
    (keeps : ∀ agent, identity (update agent) = identity agent) : Steady db (setAgent db id update preserves) :=
  ⟨.modify preserves keeps, .refl _⟩

theorem perform_steady {host : PackageHost} {now : Time} {store : Store} {actor : Subject} {operation : Operation}
    (done : perform host now store actor operation = .ok after) : Steady store.db after := by
  rcases perform_cases done with maintained | ⟨_, _, agent, visibility, organizationId, _, _, _, same⟩
  · exact maintained.steady
  · have rebound : Steady store.db (setAgent store.db agent.id fun row => { row with visibility, organizationId }) :=
      setAgent_steady _ fun _ => rfl
    exact rebound.trans (Maintains.of_packages same).steady

end Steadiness

section Soundness

variable (host : PackageHost) (start : System)

def Begun (system : System) (user : User) (now : Time) (submission : Submission) (admission : Admission) : Prop :=
  ∃ earlier next, Reaches (Steps host) start earlier ∧ Steps host earlier (.begin user now submission) next ∧
    Reaches (Steps host) next system ∧
    ∃ key, SignerUsable now earlier.db user.id admission.signature.publicKeyId key

structure ClaimSound (db : Db) (submission : Submission) (claim : Claim) : Prop where
  space : claim.agent.namespaceName = submission.namespaceName
  name : claim.agent.name = submission.name
  known : claim.fresh = false → ∃ agent ∈ db.agents.rows, identity agent = identity claim.agent
  unknown : claim.fresh = true → ∀ agent ∈ db.agents.rows,
    ¬ (agent.namespaceName = submission.namespaceName ∧ agent.name = submission.name)

structure FlightSound (system : System) (flight : Flight) : Prop where
  admitted : Admitted host flight.submission flight.admission
  begun : Begun host start system flight.user flight.now flight.submission flight.admission
  claimed : ∀ claim, flight.stage.claim = some claim → ClaimSound system.db flight.submission claim
  reserved : ∀ claim, flight.stage.reservation = some claim → ∀ row ∈ system.db.agentVersions.rows,
    ¬ (row.agentId = claim.agent.id ∧ row.version = flight.submission.version)
  stored : ∀ claim versionId, flight.stage = .stored claim versionId →
    system.files.get flight.submission.namespaceName flight.submission.name flight.submission.version =
      .ok (some flight.submission.archive)

structure Intact (system : System) (namespaceName name : String) (release : Release) : Prop where
  digest : ∃ data, system.files.get namespaceName name release.version = .ok (some data) ∧
    host.sha256Hex data = release.sha256
  signed : release.sha256 = release.signature.sha256
  verified : host.verifyEd25519 release.signature.publicKey release.signature.signature
    (signaturePayload (namespaceName ++ "/" ++ name) release.version release.sha256) = .valid
  fingerprint : publicKeyFingerprint host release.signature.publicKey = .ok release.signature.publicKeyId
  manifest : manifestStates release.manifest (namespaceName ++ "/" ++ name) release.version
  published : ∃ user submission admission, user.id = release.publishedById ∧
    submission.namespaceName = namespaceName ∧ submission.name = name ∧ submission.version = release.version ∧
    admission.signature = release.signature ∧
    Begun host start system user release.publishedAt submission admission

structure Sound (system : System) : Prop where
  versions : ∀ row ∈ system.db.agentVersions.rows, ∃ agent ∈ system.db.agents.rows, agent.id = row.agentId ∧
    Intact host start system agent.namespaceName agent.name (release row)
  flights : ∀ flight ∈ system.flights.rows, FlightSound host start system flight

variable {host start} {before after : System}

theorem Begun.later {user : User} {now : Time} {submission : Submission} {admission : Admission}
    (begun : Begun host start before user now submission admission) (reaches : Reaches (Steps host) before after) :
    Begun host start after user now submission admission := by
  obtain ⟨earlier, next, reached, begins, later, signer⟩ := begun
  exact ⟨earlier, next, reached, begins, later.trans reaches, signer⟩

theorem Intact.later {namespaceName name : String} {release : Release}
    (intact : Intact host start before namespaceName name release) (reaches : Reaches (Steps host) before after)
    (same : after.files.get namespaceName name release.version = before.files.get namespaceName name release.version) :
    Intact host start after namespaceName name release where
  digest := by
    rw [same]
    exact intact.digest
  signed := intact.signed
  verified := intact.verified
  fingerprint := intact.fingerprint
  manifest := intact.manifest
  published := by
    obtain ⟨user, submission, admission, owned, space, named, versioned, signed, begun⟩ := intact.published
    exact ⟨user, submission, admission, owned, space, named, versioned, signed, begun.later reaches⟩

theorem ClaimSound.steady {db db' : Db} {submission : Submission} {claim : Claim}
    (sound : ClaimSound db submission claim) (steady : Steady db db') : ClaimSound db' submission claim where
  space := sound.space
  name := sound.name
  known := by
    intro existing
    obtain ⟨agent, stored, same⟩ := sound.known existing
    obtain ⟨agent', stored', same'⟩ := steady.agents.forward stored
    exact ⟨agent', stored', same'.trans same⟩
  unknown := by
    intro fresh agent stored names
    obtain ⟨agent', stored', same⟩ := steady.agents.backward stored
    simp only [identity, Prod.mk.injEq] at same
    apply sound.unknown fresh agent' stored'
    rw [same.2.1, same.2.2]
    exact names

theorem FlightSound.steady {flight : Flight} (sound : FlightSound host start before flight)
    (reaches : Reaches (Steps host) before after) (steady : Steady before.db after.db)
    (files : after.files = before.files) : FlightSound host start after flight where
  admitted := sound.admitted
  begun := sound.begun.later reaches
  claimed claim holds := (sound.claimed claim holds).steady steady
  reserved := by
    intro claim holds row stored taken
    obtain ⟨row', stored', same⟩ := steady.releases.backward stored
    simp only [release, Release.mk.injEq] at same
    apply sound.reserved claim holds row' stored'
    rw [same.2.1, same.2.2.1]
    exact taken
  stored := by
    rw [files]
    exact sound.stored

theorem Sound.steady (sound : Sound host start before) (reaches : Reaches (Steps host) before after)
    (steady : Steady before.db after.db) (files : after.files = before.files)
    (flights : ∀ flight ∈ after.flights.rows, flight ∈ before.flights.rows ∨ FlightSound host start after flight) :
    Sound host start after where
  versions := by
    intro row stored
    obtain ⟨row', stored', same⟩ := steady.releases.backward stored
    obtain ⟨agent, known, own, intact⟩ := sound.versions row' stored'
    obtain ⟨agent', known', sameAgent⟩ := steady.agents.forward known
    simp only [identity, Prod.mk.injEq] at sameAgent
    have sameId : row'.agentId = row.agentId := congrArg Release.agentId same
    refine ⟨agent', known', by rw [sameAgent.1, own, sameId], ?_⟩
    rw [sameAgent.2.1, sameAgent.2.2, ← same]
    exact intact.later reaches (by rw [files])
  flights := by
    intro flight present
    rcases flights flight present with old | new
    · exact (sound.flights flight old).steady reaches steady files
    · exact new

end Soundness

section Advancing

variable {host : PackageHost} {start system after : System} {flight : Flight} {stage : Stage}

theorem advance_ok (advanced : system.advance flight stage = some after) :
    after.db = system.db ∧ after.files = system.files ∧
      ∀ other ∈ after.flights.rows,
        (other ∈ system.flights.rows ∧ other.ticket ≠ flight.ticket) ∨ other = { flight with stage } := by
  unfold System.advance at advanced
  simp only [Option.bind_eq_bind, Option.bind_eq_some_iff, Option.pure_def, Option.some.injEq] at advanced
  obtain ⟨flights, adopted, rfl⟩ := advanced
  refine ⟨rfl, rfl, ?_⟩
  intro other present
  rw [(Table.adopt_eq_some adopted).2.1, List.mem_append, List.mem_singleton, Table.mem_delete] at present
  rcases present with ⟨old, different⟩ | new
  · exact .inl ⟨old, by simpa using different⟩
  · exact .inr new

theorem Sound.advance {before : System} (sound : Sound host start before) (steady : Steady before.db system.db)
    (files : system.files = before.files) (flights : system.flights = before.flights)
    (advanced : system.advance flight stage = some after) (reaches : Reaches (Steps host) before after)
    (advances : FlightSound host start after { flight with stage }) : Sound host start after := by
  obtain ⟨sameDb, sameFiles, present⟩ := advance_ok advanced
  apply sound.steady reaches
  · rw [sameDb]
    exact steady
  · rw [sameFiles, files]
  · intro other member
    rcases present other member with ⟨old, _⟩ | new
    · rw [flights] at old
      exact .inl old
    · rw [new]
      exact .inr advances

variable (sound : Sound host start system) (flying : flight ∈ system.flights.rows)
  (reaches : Reaches (Steps host) system after)

include sound flying reaches

theorem placePublish_sound (placed : placePublish host system flight = some after) : Sound host start after := by
  unfold placePublish at placed
  split at placed
  · simp only [Option.bind_eq_bind, Option.bind_eq_some_iff, Prod.exists] at placed
    obtain ⟨_, organizationId, _, advanced⟩ := placed
    have old := sound.flights flight flying
    apply sound.advance (.refl _) rfl rfl advanced reaches
    exact {
      admitted := old.admitted
      begun := old.begun.later reaches
      claimed := fun _ holds => nomatch holds
      reserved := fun _ holds => nomatch holds
      stored := fun _ _ holds => nomatch holds }
  · cases placed

theorem locatePublish_sound (located : locatePublish system flight = some after) : Sound host start after := by
  have old := sound.flights flight flying
  unfold locatePublish at located
  split at located
  · rename_i organizationId _
    split at located
    · rename_i missing
      have steady : Steady system.db system.drawAgent.db := ⟨.draw _, .refl _⟩
      have sameDb := (advance_ok located).1
      apply sound.advance steady rfl rfl located reaches
      exact {
        admitted := old.admitted
        begun := old.begun.later reaches
        claimed := by
          intro claim holds
          cases holds
          rw [sameDb]
          refine ⟨rfl, rfl, (nomatch ·), ?_⟩
          intro _ agent stored names
          have absent := Table.one_none.mp missing agent stored
          simp [names] at absent
        reserved := fun _ holds => nomatch holds
        stored := fun _ _ holds => nomatch holds }
    · rename_i agent found
      have sameDb := (advance_ok located).1
      obtain ⟨stored, space, name⟩ := agentByName_eq_some.mp found
      apply sound.advance (.refl _) rfl rfl located reaches
      exact {
        admitted := old.admitted
        begun := old.begun.later reaches
        claimed := by
          intro claim holds
          cases holds
          rw [sameDb]
          exact ⟨space, name, fun _ => ⟨agent, stored, rfl⟩, (nomatch ·)⟩
        reserved := fun _ holds => nomatch holds
        stored := fun _ _ holds => nomatch holds }
  · cases located

theorem clearPublish_sound (cleared : clearPublish host system flight = some after) : Sound host start after := by
  have old := sound.flights flight flying
  unfold clearPublish at cleared
  split at cleared
  · rename_i claim staged
    simp only [Option.bind_eq_bind, Option.bind_eq_some_iff] at cleared
    obtain ⟨_, _, _, _, advanced⟩ := cleared
    have sameDb := (advance_ok advanced).1
    apply sound.advance (.refl _) rfl rfl advanced reaches
    exact {
      admitted := old.admitted
      begun := old.begun.later reaches
      claimed := by
        intro claim' holds
        cases holds
        rw [sameDb]
        exact old.claimed claim (by rw [staged]; rfl)
      reserved := fun _ holds => nomatch holds
      stored := fun _ _ holds => nomatch holds }
  · cases cleared

theorem reservePublish_sound (reserved : reservePublish system flight = some after) : Sound host start after := by
  have old := sound.flights flight flying
  unfold reservePublish at reserved
  split at reserved
  · rename_i claim staged
    split at reserved
    · rename_i free
      have steady : Steady system.db system.drawVersion.db := ⟨.refl _, .draw _⟩
      have sameDb := (advance_ok reserved).1
      have claimed := old.claimed claim (by rw [staged]; rfl)
      apply sound.advance steady rfl rfl reserved reaches
      exact {
        admitted := old.admitted
        begun := old.begun.later reaches
        claimed := by
          intro claim' holds
          cases holds
          rw [sameDb]
          exact claimed.steady steady
        reserved := by
          intro claim' holds row stored taken
          cases holds
          rw [sameDb] at stored
          have absent := Table.one_none.mp (Option.isNone_iff_eq_none.mp free) row stored
          simp [taken] at absent
        stored := fun _ _ holds => nomatch holds }
    · cases reserved
  · cases reserved

end Advancing

section Storing

variable {host : PackageHost} {start system after : System} {flight other : Flight} {claim : Claim} {versionId : Nat}

theorem ClaimSound.same_agent {db : Db} {submission : Submission} {agent : Agent} (sound : ClaimSound db submission claim)
    (stored : agent ∈ db.agents.rows) (space : agent.namespaceName = submission.namespaceName)
    (name : agent.name = submission.name) : claim.fresh = false ∧ claim.agent.id = agent.id := by
  cases fresh : claim.fresh with
  | true => exact absurd ⟨space, name⟩ (sound.unknown fresh agent stored)
  | false =>
    obtain ⟨known, present, same⟩ := sound.known fresh
    simp only [identity, Prod.mk.injEq] at same
    have clash : Row.clash known agent = true := by
      simp only [Row.clash, Bool.and_eq_true, beq_iff_eq]
      exact ⟨by rw [same.2.1, sound.space, space], by rw [same.2.2, sound.name, name]⟩
    rw [Table.eq_of_clash present stored clash] at same
    exact ⟨rfl, same.1.symm⟩

theorem Sound.path_free (sound : Sound host start system) (flying : flight ∈ system.flights.rows)
    (reserved : flight.stage.reservation = some claim) {row : AgentVersion} {agent : Agent}
    (stored : row ∈ system.db.agentVersions.rows) (known : agent ∈ system.db.agents.rows) (own : agent.id = row.agentId) :
    ¬ (agent.namespaceName = flight.submission.namespaceName ∧ agent.name = flight.submission.name ∧
      row.version = flight.submission.version) := by
  rintro ⟨space, name, version⟩
  have flightSound := sound.flights flight flying
  have claimed := flightSound.claimed claim (Stage.claim_of_reservation reserved)
  obtain ⟨_, sameId⟩ := claimed.same_agent known space name
  exact flightSound.reserved claim reserved row stored ⟨by rw [sameId, own], version⟩

theorem locks_apart (flying : flight ∈ system.flights.rows) (flying' : other ∈ system.flights.rows)
    (different : other.ticket ≠ flight.ticket) :
    contend flight.nameLock other.nameLock = false ∧ contend flight.versionLock other.versionLock = false := by
  have distinct : flight ≠ other := by
    intro same
    rw [same] at different
    exact different rfl
  have apart := (system.flights.distinct.forall flying flying' distinct).2
  exact Bool.or_eq_false_iff.mp apart

theorem Sound.reservations_apart (sound : Sound host start system) (flying : flight ∈ system.flights.rows)
    (flying' : other ∈ system.flights.rows) (different : other.ticket ≠ flight.ticket) {claim' : Claim}
    (reserved : flight.stage.reservation = some claim) (reserved' : other.stage.reservation = some claim') :
    ¬ (other.submission.namespaceName = flight.submission.namespaceName ∧
      other.submission.name = flight.submission.name ∧ other.submission.version = flight.submission.version) := by
  rintro ⟨space, name, version⟩
  obtain ⟨names, versions⟩ := locks_apart flying flying' different
  have claims := Stage.claim_of_reservation reserved
  have claims' := Stage.claim_of_reservation reserved'
  have claimed := (sound.flights flight flying).claimed claim claims
  have claimed' := (sound.flights other flying').claimed claim' claims'
  by_cases fresh' : claim'.fresh = true
  · by_cases fresh : claim.fresh = true
    · rw [Flight.nameLock_of_fresh claims fresh, Flight.nameLock_of_fresh claims' fresh', space, name,
        contend_self] at names
      cases names
    · obtain ⟨known, present, same⟩ := claimed.known (Bool.eq_false_iff.mpr fresh)
      simp only [identity, Prod.mk.injEq] at same
      apply claimed'.unknown fresh' known present
      rw [same.2.1, same.2.2, claimed.space, claimed.name, space, name]
      exact ⟨rfl, rfl⟩
  · obtain ⟨known, present, same⟩ := claimed'.known (Bool.eq_false_iff.mpr fresh')
    simp only [identity, Prod.mk.injEq] at same
    obtain ⟨_, sameId⟩ := claimed.same_agent present (by rw [same.2.1, claimed'.space, space])
      (by rw [same.2.2, claimed'.name, name])
    rw [Flight.versionLock_of_reservation reserved, Flight.versionLock_of_reservation reserved', version, sameId, same.1,
      contend_self] at versions
    cases versions

variable (sound : Sound host start system) (flying : flight ∈ system.flights.rows)

include sound flying

theorem storePublish_keeps (written : storePublish system flight = some after) :
    after.db = system.db ∧ ∀ row ∈ system.db.agentVersions.rows, ∀ agent ∈ system.db.agents.rows,
      agent.id = row.agentId → after.files.get agent.namespaceName agent.name row.version =
        system.files.get agent.namespaceName agent.name row.version := by
  unfold storePublish at written
  split at written
  · rename_i claim versionId staged
    simp only [Option.bind_eq_bind, Option.bind_eq_some_iff, Outcome.toOption_eq_some] at written
    obtain ⟨files, stored, advanced⟩ := written
    obtain ⟨sameDb, sameFiles, _⟩ := advance_ok advanced
    refine ⟨sameDb, ?_⟩
    intro row present agent known own
    rw [sameFiles]
    exact get_put_other (storeArchive_ok stored) (sound.path_free flying (by rw [staged]; rfl) present known own)
  · cases written

theorem storePublish_sound (reaches : Reaches (Steps host) system after)
    (written : storePublish system flight = some after) : Sound host start after := by
  obtain ⟨sameDb, kept⟩ := storePublish_keeps sound flying written
  have old := sound.flights flight flying
  unfold storePublish at written
  split at written
  · rename_i claim versionId staged
    simp only [Option.bind_eq_bind, Option.bind_eq_some_iff, Outcome.toOption_eq_some] at written
    obtain ⟨files, stored, advanced⟩ := written
    obtain ⟨_, sameFiles, flights⟩ := advance_ok advanced
    have reserved : flight.stage.reservation = some claim := by rw [staged]; rfl
    constructor
    · intro row present
      rw [sameDb] at present ⊢
      obtain ⟨agent, known, own, intact⟩ := sound.versions row present
      exact ⟨agent, known, own, intact.later reaches (kept row present agent known own)⟩
    · intro other present
      rcases flights other present with ⟨flying', different⟩ | rfl
      · have sound' := sound.flights other flying'
        exact {
          admitted := sound'.admitted
          begun := sound'.begun.later reaches
          claimed := by rw [sameDb]; exact sound'.claimed
          reserved := by rw [sameDb]; exact sound'.reserved
          stored := by
            intro claim' versionId' staged'
            have apart := sound.reservations_apart flying flying' different reserved (by rw [staged']; rfl)
            rw [sameFiles, get_put_other (storeArchive_ok stored) apart]
            exact sound'.stored claim' versionId' staged' }
      · exact {
          admitted := old.admitted
          begun := old.begun.later reaches
          claimed := by
            intro claim' claims
            cases claims
            rw [sameDb]
            exact old.claimed claim (Stage.claim_of_reservation reserved)
          reserved := by
            intro claim' holds
            cases holds
            rw [sameDb]
            exact old.reserved claim reserved
          stored := by
            intro _ _ _
            rw [sameFiles]
            exact get_put (storeArchive_ok stored) }
  · cases written

end Storing

section Committing

variable {host : PackageHost} {start system after : System} {flight other : Flight} {claim : Claim} {versionId : Nat}

structure AddsAgent (before after : Db) (claim : Claim) : Prop where
  kept : ∀ agent ∈ before.agents.rows, ∃ agent' ∈ after.agents.rows, identity agent' = identity agent
  claimed : claim.fresh = true → ∃ agent ∈ after.agents.rows, identity agent = identity claim.agent
  fresh : ∀ agent ∈ after.agents.rows, (∃ agent' ∈ before.agents.rows, identity agent' = identity agent) ∨
    (claim.fresh = true ∧ identity agent = identity claim.agent)

structure AddsRelease (before after : Db) (row : AgentVersion) : Prop where
  kept : ∀ row' ∈ before.agentVersions.rows, ∃ row'' ∈ after.agentVersions.rows, release row'' = release row'
  fresh : ∀ row' ∈ after.agentVersions.rows,
    (∃ row'' ∈ before.agentVersions.rows, release row'' = release row') ∨ release row' = release row

theorem writeClaim_ok {db written : Db} (done : flight.writeClaim claim db = some written) :
    written.agentVersions = db.agentVersions ∧ AddsAgent db written claim := by
  unfold Flight.writeClaim at done
  split at done
  · rename_i fresh
    obtain ⟨agents, adopted, rfl⟩ := Option.map_eq_some_iff.mp done
    have rows := (Table.adopt_eq_some adopted).2.1
    refine ⟨rfl, ?_, ?_, ?_⟩
    · intro agent stored
      exact ⟨agent, by rw [rows]; exact List.mem_append_left _ stored, rfl⟩
    · intro _
      exact ⟨claim.agent, by rw [rows]; simp, rfl⟩
    · intro agent stored
      rw [rows] at stored
      rcases List.mem_append.mp stored with old | new
      · exact .inl ⟨agent, old, rfl⟩
      · rw [List.mem_singleton.mp new]
        exact .inr ⟨fresh, rfl⟩
  · rename_i known
    cases done
    have kept : Steady db (setAgent db claim.agent.id fun row =>
        republished row flight.admission.manifest claim.organizationId) := setAgent_steady _ fun _ => rfl
    exact ⟨rfl, fun _ => kept.agents.forward, fun fresh => absurd fresh known, fun _ stored => .inl (kept.agents.backward stored)⟩

theorem Maintains.addsRelease {before after : Db} {agentVersions : Table AgentVersion} {row : AgentVersion}
    (adopted : before.agentVersions.adopt row = some agentVersions)
    (maintained : Maintains { before with agentVersions } after) : AddsRelease before after row := by
  have rows := (Table.adopt_eq_some adopted).2.1
  constructor
  · intro row' stored
    have present : row' ∈ agentVersions.rows := by rw [rows]; exact List.mem_append_left _ stored
    exact maintained.releases.forward present
  · intro row' stored
    obtain ⟨row'', stored', same⟩ := maintained.releases.backward stored
    change row'' ∈ agentVersions.rows at stored'
    rw [rows] at stored'
    rcases List.mem_append.mp stored' with old | new
    · exact .inl ⟨row'', old, same⟩
    · rw [List.mem_singleton.mp new] at same
      exact .inr same.symm

theorem commitPublish_ok (committed : commitPublish host system flight = some after) :
    ∃ claim versionId, flight.stage = .stored claim versionId ∧ after.files = system.files ∧
      after.flights = system.flights.delete (·.ticket == flight.ticket) ∧
      AddsAgent system.db after.db claim ∧
      AddsRelease system.db after.db (flight.versionRow host claim versionId) := by
  unfold commitPublish at committed
  split at committed
  · rename_i claim versionId staged
    simp only [Option.bind_eq_bind, Option.bind_eq_some_iff, Outcome.toOption_eq_some, Option.pure_def, Option.some.injEq,
      Prod.exists] at committed
    obtain ⟨written, wrote, agentVersions, adopted, finished, _, finishes, rfl⟩ := committed
    obtain ⟨sameVersions, agents⟩ := writeClaim_ok wrote
    have maintained := finish_ok finishes
    have sameAgents : finished.agents = written.agents := maintained.agents
    refine ⟨claim, versionId, staged, rfl, rfl, ?_, ?_⟩
    · unfold System.close
      refine ⟨?_, ?_, ?_⟩
      · rw [sameAgents]
        exact agents.kept
      · rw [sameAgents]
        exact agents.claimed
      · rw [sameAgents]
        exact agents.fresh
    · have adds := maintained.addsRelease adopted
      refine ⟨?_, ?_⟩
      · rw [← sameVersions]
        exact adds.kept
      · rw [← sameVersions]
        exact adds.fresh
  · cases committed

variable (sound : Sound host start system) (flying : flight ∈ system.flights.rows)
  (reaches : Reaches (Steps host) system after)

include sound flying reaches

theorem FlightSound.intact (staged : flight.stage = .stored claim versionId) (files : after.files = system.files) :
    Intact host start after flight.submission.namespaceName flight.submission.name
      (release (flight.versionRow host claim versionId)) := by
  have old := sound.flights flight flying
  have admitted := old.admitted
  exact {
    digest := by
      rw [files]
      exact ⟨flight.submission.archive, old.stored claim versionId staged, rfl⟩
    signed := admitted.digest
    verified := by
      have verified := admitted.verified
      rw [← admitted.digest] at verified
      exact verified
    fingerprint := admitted.fingerprint
    manifest := admitted.manifest
    published := ⟨flight.user, flight.submission, flight.admission, rfl, rfl, rfl, rfl, rfl, old.begun.later reaches⟩ }

theorem commitPublish_sound (committed : commitPublish host system flight = some after) : Sound host start after := by
  obtain ⟨claim, versionId, staged, sameFiles, flights, agents, releases⟩ := commitPublish_ok committed
  have claims : flight.stage.claim = some claim := by rw [staged]; rfl
  have reserves : flight.stage.reservation = some claim := by rw [staged]; rfl
  have claimed := (sound.flights flight flying).claimed claim claims
  have own : ∃ agent ∈ after.db.agents.rows, identity agent = identity claim.agent := by
    by_cases fresh : claim.fresh = true
    · exact agents.claimed fresh
    · obtain ⟨agent, stored, same⟩ := claimed.known (Bool.eq_false_iff.mpr fresh)
      obtain ⟨agent', stored', same'⟩ := agents.kept agent stored
      exact ⟨agent', stored', same'.trans same⟩
  constructor
  · intro row stored
    rcases releases.fresh row stored with ⟨row', stored', same⟩ | same
    · obtain ⟨agent, known, owns, intact⟩ := sound.versions row' stored'
      obtain ⟨agent', known', sameAgent⟩ := agents.kept agent known
      simp only [identity, Prod.mk.injEq] at sameAgent
      have sameId : row'.agentId = row.agentId := congrArg Release.agentId same
      refine ⟨agent', known', by rw [sameAgent.1, owns, sameId], ?_⟩
      rw [sameAgent.2.1, sameAgent.2.2, ← same]
      exact intact.later reaches (by rw [sameFiles])
    · obtain ⟨agent, known, sameAgent⟩ := own
      simp only [identity, Prod.mk.injEq] at sameAgent
      have sameId : row.agentId = claim.agent.id := congrArg Release.agentId same
      refine ⟨agent, known, by rw [sameAgent.1, sameId], ?_⟩
      rw [sameAgent.2.1, sameAgent.2.2, claimed.space, claimed.name, same]
      exact FlightSound.intact sound flying reaches staged sameFiles
  · intro other present
    rw [flights, Table.mem_delete] at present
    obtain ⟨flying', different⟩ := present
    obtain ⟨names, versions⟩ := locks_apart flying flying' (by simpa using different)
    have sound' := sound.flights other flying'
    exact {
      admitted := sound'.admitted
      begun := sound'.begun.later reaches
      claimed := by
        intro claim' claims'
        have claimed' := sound'.claimed claim' claims'
        refine ⟨claimed'.space, claimed'.name, ?_, ?_⟩
        · intro existing
          obtain ⟨agent, stored, same⟩ := claimed'.known existing
          obtain ⟨agent', stored', same'⟩ := agents.kept agent stored
          exact ⟨agent', stored', same'.trans same⟩
        · intro fresh' agent stored sameNames
          rcases agents.fresh agent stored with ⟨agent', stored', same⟩ | ⟨fresh, same⟩
          · simp only [identity, Prod.mk.injEq] at same
            apply claimed'.unknown fresh' agent' stored'
            rw [same.2.1, same.2.2]
            exact sameNames
          · simp only [identity, Prod.mk.injEq] at same
            -- both publishes would have flushed a package row of that name
            rw [Flight.nameLock_of_fresh claims fresh, Flight.nameLock_of_fresh claims' fresh', ← sameNames.1,
              ← sameNames.2, same.2.1, same.2.2, claimed.space, claimed.name, contend_self] at names
            cases names
      reserved := by
        intro claim' reserves' row stored taken
        rcases releases.fresh row stored with ⟨row', stored', same⟩ | same
        · simp only [release, Release.mk.injEq] at same
          apply sound'.reserved claim' reserves' row' stored'
          rw [same.2.1, same.2.2.1]
          exact taken
        · -- both publishes would have flushed a version row of that package
          have sameId : row.agentId = claim.agent.id := congrArg Release.agentId same
          have sameVersion : row.version = flight.submission.version := congrArg Release.version same
          rw [Flight.versionLock_of_reservation reserves, Flight.versionLock_of_reservation reserves', ← taken.1,
            ← taken.2, sameId, sameVersion, contend_self] at versions
          cases versions
      stored := by
        rw [sameFiles]
        exact sound'.stored }

end Committing

section Running

variable {host : PackageHost} {start system after : System}

def Kept (before after : System) : Prop :=
  ∀ row ∈ before.db.agentVersions.rows, ∀ agent ∈ before.db.agents.rows, agent.id = row.agentId →
    ∃ row' ∈ after.db.agentVersions.rows, release row' = release row ∧
      ∃ agent' ∈ after.db.agents.rows, identity agent' = identity agent ∧
        after.files.get agent.namespaceName agent.name row.version =
          before.files.get agent.namespaceName agent.name row.version

theorem Kept.refl (system : System) : Kept system system :=
  fun row stored agent known _ => ⟨row, stored, rfl, agent, known, rfl, rfl⟩

theorem Kept.trans {before middle : System} (first : Kept before middle) (second : Kept middle after) :
    Kept before after := by
  intro row stored agent known own
  obtain ⟨row', stored', same, agent', known', sameAgent, sameFile⟩ := first row stored agent known own
  have sameId : row'.agentId = row.agentId := congrArg Release.agentId same
  have sameVersion : row'.version = row.version := congrArg Release.version same
  have identities := sameAgent
  simp only [identity, Prod.mk.injEq] at identities
  obtain ⟨row'', stored'', same', agent'', known'', sameAgent', sameFile'⟩ :=
    second row' stored' agent' known' (by rw [identities.1, own, sameId])
  refine ⟨row'', stored'', same'.trans same, agent'', known'', sameAgent'.trans sameAgent, ?_⟩
  rw [← sameFile, ← identities.2.1, ← identities.2.2, ← sameVersion]
  exact sameFile'

theorem Steady.kept (steady : Steady system.db after.db) (files : after.files = system.files) : Kept system after := by
  intro row stored agent known _
  obtain ⟨row', stored', same⟩ := steady.releases.forward stored
  obtain ⟨agent', known', sameAgent⟩ := steady.agents.forward known
  exact ⟨row', stored', same, agent', known', sameAgent, by rw [files]⟩

theorem advance_kept {flight : Flight} {stage : Stage} {middle : System} (steady : Steady system.db middle.db)
    (files : middle.files = system.files) (advanced : middle.advance flight stage = some after) : Kept system after := by
  obtain ⟨sameDb, sameFiles, _⟩ := advance_ok advanced
  apply Steady.kept
  · rw [sameDb]
    exact steady
  · rw [sameFiles, files]

theorem placePublish_kept {flight : Flight} (placed : placePublish host system flight = some after) :
    Kept system after := by
  unfold placePublish at placed
  split at placed
  · simp only [Option.bind_eq_bind, Option.bind_eq_some_iff, Prod.exists] at placed
    obtain ⟨_, _, _, advanced⟩ := placed
    exact advance_kept (.refl _) rfl advanced
  · cases placed

theorem locatePublish_kept {flight : Flight} (located : locatePublish system flight = some after) :
    Kept system after := by
  unfold locatePublish at located
  split at located
  · split at located
    · have steady : Steady system.db system.drawAgent.db := ⟨.draw _, .refl _⟩
      exact advance_kept steady rfl located
    · exact advance_kept (.refl _) rfl located
  · cases located

theorem clearPublish_kept {flight : Flight} (cleared : clearPublish host system flight = some after) :
    Kept system after := by
  unfold clearPublish at cleared
  split at cleared
  · simp only [Option.bind_eq_bind, Option.bind_eq_some_iff] at cleared
    obtain ⟨_, _, _, _, advanced⟩ := cleared
    exact advance_kept (.refl _) rfl advanced
  · cases cleared

theorem reservePublish_kept {flight : Flight} (reserved : reservePublish system flight = some after) :
    Kept system after := by
  unfold reservePublish at reserved
  split at reserved
  · split at reserved
    · have steady : Steady system.db system.drawVersion.db := ⟨.refl _, .draw _⟩
      exact advance_kept steady rfl reserved
    · cases reserved
  · cases reserved

theorem storePublish_kept {flight : Flight} (sound : Sound host start system) (flying : flight ∈ system.flights.rows)
    (written : storePublish system flight = some after) : Kept system after := by
  obtain ⟨sameDb, kept⟩ := storePublish_keeps sound flying written
  intro row stored agent known own
  rw [sameDb]
  exact ⟨row, stored, rfl, agent, known, rfl, kept row stored agent known own⟩

theorem commitPublish_kept {flight : Flight} (committed : commitPublish host system flight = some after) :
    Kept system after := by
  obtain ⟨_, _, _, files, _, agents, releases⟩ := commitPublish_ok committed
  intro row stored agent known _
  obtain ⟨row', stored', same⟩ := releases.kept row stored
  obtain ⟨agent', known', sameAgent⟩ := agents.kept agent known
  exact ⟨row', stored', same, agent', known', sameAgent, by rw [files]⟩

theorem beginPublish_sound {user : User} {now : Time} {submission : Submission} (sound : Sound host start system)
    (reached : Reaches (Steps host) start system) (taken : Steps host system (.begin user now submission) after) :
    Sound host start after ∧ Kept system after := by
  have begins := taken
  unfold Steps step beginPublish at taken
  simp only [Option.bind_eq_bind, Option.bind_eq_some_iff, Outcome.toOption_eq_some, Option.pure_def, Option.some.injEq,
    Prod.exists] at taken
  obtain ⟨_, admission, admits, _, flights, inserted, rfl⟩ := taken
  obtain ⟨_, _, rows, _⟩ := Table.insert_eq_some.mp inserted
  obtain ⟨admitted, signer, _⟩ := admitSubmission_ok admits
  refine ⟨?_, (Steady.refl _).kept rfl⟩
  apply sound.steady (.snoc .refl begins) (.refl _) rfl
  intro flight present
  change flight ∈ flights.rows at present
  rw [rows] at present
  rcases List.mem_append.mp present with old | new
  · exact .inl old
  · right
    rw [List.mem_singleton.mp new]
    exact {
      admitted := admitted
      begun := ⟨system, _, reached, begins, .refl, signer⟩
      claimed := fun _ holds => by cases holds
      reserved := fun _ holds => by cases holds
      stored := fun _ _ holds => by cases holds }

theorem step_sound {label : Label} (sound : Sound host start system) (reached : Reaches (Steps host) start system)
    (taken : Steps host system label after) : Sound host start after ∧ Kept system after := by
  have reaches : Reaches (Steps host) system after := .snoc .refl taken
  cases label with
  | «begin» user now submission => exact beginPublish_sound sound reached taken
  | place ticket =>
    obtain ⟨flight, found, placed⟩ := Option.bind_eq_some_iff.mp taken
    have flying := (Table.byId_eq_some.mp found).1
    exact ⟨placePublish_sound sound flying reaches placed, placePublish_kept placed⟩
  | locate ticket =>
    obtain ⟨flight, found, located⟩ := Option.bind_eq_some_iff.mp taken
    have flying := (Table.byId_eq_some.mp found).1
    exact ⟨locatePublish_sound sound flying reaches located, locatePublish_kept located⟩
  | clear ticket =>
    obtain ⟨flight, found, cleared⟩ := Option.bind_eq_some_iff.mp taken
    have flying := (Table.byId_eq_some.mp found).1
    exact ⟨clearPublish_sound sound flying reaches cleared, clearPublish_kept cleared⟩
  | reserve ticket =>
    obtain ⟨flight, found, reserved⟩ := Option.bind_eq_some_iff.mp taken
    have flying := (Table.byId_eq_some.mp found).1
    exact ⟨reservePublish_sound sound flying reaches reserved, reservePublish_kept reserved⟩
  | store ticket =>
    obtain ⟨flight, found, written⟩ := Option.bind_eq_some_iff.mp taken
    have flying := (Table.byId_eq_some.mp found).1
    exact ⟨storePublish_sound sound flying reaches written, storePublish_kept sound flying written⟩
  | commit ticket =>
    obtain ⟨flight, found, committed⟩ := Option.bind_eq_some_iff.mp taken
    have flying := (Table.byId_eq_some.mp found).1
    exact ⟨commitPublish_sound sound flying reaches committed, commitPublish_kept committed⟩
  | abort ticket =>
    cases taken
    refine ⟨?_, (Steady.refl _).kept rfl⟩
    apply sound.steady reaches (.refl _) rfl
    intro flight present
    exact .inl (Table.mem_delete.mp present).1
  | operate actor now operation =>
    obtain ⟨db, performed, made⟩ := Option.bind_eq_some_iff.mp taken
    cases made
    have steady := perform_steady (Outcome.toOption_eq_some.mp performed)
    refine ⟨?_, steady.kept rfl⟩
    exact sound.steady reaches steady rfl fun _ present => .inl present

theorem reached_sound (initial : Sound host start start) (reached : Reaches (Steps host) start system) :
    Sound host start system :=
  reached.invariant (Sound host start) initial fun _ _ _ earlier sound taken => (step_sound sound earlier taken).1

theorem reached_kept (initial : Sound host start start) (reached : Reaches (Steps host) start system)
    (later : Reaches (Steps host) system after) : Kept system after := by
  have together : Reaches (Steps host) start after ∧ Kept system after := by
    apply later.invariant fun state => Reaches (Steps host) start state ∧ Kept system state
    · exact ⟨reached, .refl system⟩
    · intro before label next _ holds taken
      have sound := reached_sound initial holds.1
      exact ⟨holds.1.snoc taken, holds.2.trans (step_sound sound holds.1 taken).2⟩
  exact together.2

structure System.Fresh (system : System) : Prop where
  agents : system.db.agents.rows = []
  agentVersions : system.db.agentVersions.rows = []
  flights : system.flights.rows = []

theorem System.Fresh.sound (fresh : start.Fresh) : Sound host start start := by
  constructor
  · rw [fresh.agentVersions]
    simp
  · rw [fresh.flights]
    simp

/-- However publishes interleave, fail and are rolled back, every committed version is what its
    publisher signed with a good key, and stays so. -/
theorem published_versions_stay_intact (fresh : start.Fresh) (reached : Reaches (Steps host) start system) :
    (∀ row ∈ system.db.agentVersions.rows, ∃ agent ∈ system.db.agents.rows, agent.id = row.agentId ∧
      Intact host start system agent.namespaceName agent.name (release row)) ∧
    ∀ later, Reaches (Steps host) system later → Kept system later :=
  ⟨(reached_sound fresh.sound reached).versions, fun _ => reached_kept fresh.sound reached⟩

def opening : System := ⟨opened.db, opened.files, .empty⟩

def contested : List Label :=
  [.operate ⟨Organizations.founder, none⟩ 1 (.registerSigningKey founderKey.pem none none),
    .begin Organizations.founder 2 (firstBuild.submission "public" none),
    .begin Organizations.founder 3 (firstBuild.submission "public" none),
    .place 1, .place 2, .locate 1, .clear 1, .reserve 1, .store 1, .commit 1, .locate 2, .abort 2]

theorem published_versions_stay_intact_contested : ∃ system, contested.foldlM (step workshopHost) opening = some system ∧
    system.db.agentVersions.rows.map (·.version) = ["1.0.0"] ∧
    (∀ row ∈ system.db.agentVersions.rows, ∃ agent ∈ system.db.agents.rows, agent.id = row.agentId ∧
      Intact workshopHost opening system agent.namespaceName agent.name (release row)) ∧
    ∀ later, Reaches (Steps workshopHost) system later → Kept system later := by
  have runs : (contested.foldlM (step workshopHost) opening).map
      (fun system => system.db.agentVersions.rows.map (·.version)) = some ["1.0.0"] := by decide +kernel
  obtain ⟨system, ran, versions⟩ := Option.map_eq_some_iff.mp runs
  have fresh : opening.Fresh := ⟨by decide +kernel, by decide +kernel, rfl⟩
  exact ⟨system, ran, versions, published_versions_stay_intact fresh (reaches_foldlM ran)⟩

end Running

end Registry.Packages
