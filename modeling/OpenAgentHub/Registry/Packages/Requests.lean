import OpenAgentHub.Registry.Organizations.Requests
import OpenAgentHub.Registry.Packages.Managing
import OpenAgentHub.Registry.Packages.Reading

namespace Registry.Packages

open Relational

structure SamePackages (before after : Db) : Prop where
  agents : after.agents = before.agents
  agentVersions : after.agentVersions = before.agentVersions

/-- The requests besides publishing. What other modules do to the other tables is `elsewhere`. -/
inductive Operation where
  | setPackageVisibility (namespaceName name visibility : String) (slug : Option String)
  | reviewVersion (namespaceName name version action reason : String) (notes : Option String)
  | yankVersion (namespaceName name version : String) (yanked : Bool)
  | grantPackageAccess (namespaceName name : String) (username : Option String) (teamId : Option Nat)
  | revokePackageAccess (namespaceName name : String) (username : Option String) (teamId : Option Nat)
  | claimNamespace (name : String)
  | addNamespaceMaintainer (namespaceName username role : String)
  | registerSigningKey (pem : String) (label : Option String) (expiresAt : Option Time)
  | revokeSigningKey (keyId : Nat)
  | issueDownloadUrl (namespaceName name version : String)
  | triggerRescan (namespaceName name version : String)
  | scanVersionById (versionId : Nat)
  | flushDownloadCounts (counts : List (Nat × Nat))
  | elsewhere (write : Db → Db) (spares : ∀ db, SamePackages db (write db))

def perform (host : PackageHost) (now : Time) (store : Store) (actor : Subject) : Operation → Except Raised Db
  | .setPackageVisibility namespaceName name visibility slug =>
    (setPackageVisibility host now store.db actor namespaceName name visibility slug).map Prod.fst
  | .reviewVersion namespaceName name version action reason notes =>
    (reviewVersion host now store.db actor.user namespaceName name version action reason notes).map Prod.fst
  | .yankVersion namespaceName name version yanked =>
    (yankVersion host now store.db actor.user namespaceName name version yanked).map Prod.fst
  | .grantPackageAccess namespaceName name username teamId =>
    (grantPackageAccess host now store.db actor namespaceName name username teamId).map Prod.fst
  | .revokePackageAccess namespaceName name username teamId =>
    (revokePackageAccess host now store.db actor namespaceName name username teamId).map Prod.fst
  | .claimNamespace name => (claimNamespace host now store.db actor.user name).map Prod.fst
  | .addNamespaceMaintainer namespaceName username role =>
    (addNamespaceMaintainer host now store.db actor.user namespaceName username role).map Prod.fst
  | .registerSigningKey pem label expiresAt =>
    (registerSigningKey host now store.db actor.user pem label expiresAt).map Prod.fst
  | .revokeSigningKey keyId => (revokeSigningKey host now store.db actor.user keyId).map Prod.fst
  | .issueDownloadUrl namespaceName name version =>
    (issueDownloadUrl host now store.db namespaceName name version (some actor)).map Prod.fst
  | .triggerRescan namespaceName name version =>
    (triggerRescan host now store actor.user namespaceName name version).map Prod.fst
  | .scanVersionById versionId => (scanVersionById host store versionId).map Prod.fst
  | .flushDownloadCounts counts => .ok (flushDownloadCounts store.db counts)
  | .elsewhere write _ => .ok (write store.db)

inductive Call where
  | publishVersion (submission : Submission)
  | manage (operation : Operation)

structure Request where
  actor : Subject
  now : Time
  call : Call

/-- One request in its transaction: what is on the disk afterwards, and the state to commit or
    what it raised. -/
def handle (host : PackageHost) (store : Store) (request : Request) : Archives × Except Raised Db :=
  match request.call with
  | .publishVersion submission =>
    let (files, outcome) := publishVersion host request.now store request.actor.user submission
    (files, outcome.map Prod.fst)
  | .manage operation => (store.files, perform host request.now store request.actor operation)

/-- The state after a request; one that raises leaves the database as it was. -/
def serve (host : PackageHost) (store : Store) (request : Request) : Store :=
  match handle host store request with
  | (files, .ok db) => ⟨db, files⟩
  | (files, .error _) => ⟨store.db, files⟩

structure Fresh (store : Store) : Prop where
  agents : store.db.agents.rows = []
  agentVersions : store.db.agentVersions.rows = []

section Workshop

def bytesOf (lines : List (Nat × Nat)) : Bytes :=
  lines.flatMap fun (count, value) =>
    (List.range count).map fun index => UInt8.ofNat (value / 256 ^ (count - 1 - index))

structure PublicKey where
  pem : String
  der : Bytes
  digest : String
  fingerprint : String

def founderKey : PublicKey where
  pem := "-----BEGIN PUBLIC KEY-----\nMCowBQYDK2VwAyEAylLSLbFxC2Wu582+8z+wxeNVSyvueB44V0VhHF2CeGE=\n-----END PUBLIC KEY-----\n"
  der := bytesOf [
    (44, 0x302a300506032b6570032100ca52d22db1710b65aee7cdbef33fb0c5e3554b2bee781e385745611c5d827861)]
  digest := "239c68371f9901e7722a199d3a6878f6a21ef957f240a4a4e2955e1cdf845f05"
  fingerprint := "239c68371f9901e7"

def colleagueKey : PublicKey where
  pem := "-----BEGIN PUBLIC KEY-----\nMCowBQYDK2VwAyEAA7EZmbYPwGglIqEL+sBa+R3N3xQrcmpeKPR/FSA9SN4=\n-----END PUBLIC KEY-----\n"
  der := bytesOf [
    (44, 0x302a300506032b657003210003b11999b60fc0682522a10bfac05af91dcddf142b726a5e28f47f15203d48de)]
  digest := "5047f31f2250b099a7d26575d9e901937ba4399237d71766302af32805a9cfd9"
  fingerprint := "5047f31f2250b099"

structure Build where
  version : String
  key : PublicKey
  archive : Bytes
  signatureRaw : Bytes
  digest : String
  signature : String

def firstBuild : Build where
  version := "1.0.0"
  key := founderKey
  archive := bytesOf [
    (48, 0x1f8b0800000000000203edcebd4ec330100770cf7e0a3f416a4a215236c60edd100b6238399760c9be8bfc8154a1bc3b),
    (48, 0x972275e888040bfe0df6c977fedb302395ee0c31a85f63c5e3e170d9c5ed6ef77d7fadbfcffbfefe4119abfe40cd0592),
    (48, 0x3ca9fea708e427cce50553f64c83b9d3041107032ee2ae3007fd716d75b6b31a6a79e73498892b8d98f488d925bf94cb),
    (48, 0xc893d9ae743a78879425e6747cd6a952f15be667009a2bcc522e6749a155471e316469e5ba2c9c0a8e83790dec20bcad),
    (34, 0xda53c13481c36dc005bfad1ce5cb3224a1ebaa55d3344df3335f08dcfc1300080000)]
  signatureRaw := bytesOf [
    (48, 0x7b22736368656d6156657273696f6e223a312c226e616d65223a2261636d652f746f6f6c222c2276657273696f6e223a),
    (48, 0x22312e302e30222c22616c676f726974686d223a2265643235353139222c227075626c69634b6579223a222d2d2d2d2d),
    (48, 0x424547494e205055424c4943204b45592d2d2d2d2d5c6e4d436f77425159444b32567741794541796c4c534c62467843),
    (48, 0x3257753538322b387a2b7778654e56537976756542343456305668484632436547453d5c6e2d2d2d2d2d454e44205055),
    (48, 0x424c4943204b45592d2d2d2d2d5c6e222c227075626c69634b65794964223a2232333963363833373166393930316537),
    (48, 0x222c22736861323536223a22353635636631346264343964313738646165633366663137626332666632346466653634),
    (48, 0x61373933343164376138383830383061386130613265663539353762222c227369676e6174757265223a226968437461),
    (48, 0x354b713747705a3632564e6d314233534f664e336f394631346448412b50576e707652416144696f5035394e462f3344),
    (37, 0x5a5a4536457272666737575459443444582b36713479494a445a68444c694143513d3d227d)]
  digest := "565cf14bd49d178daec3ff17bc2ff24dfe64a79341d7a888080a8a0a2ef5957b"
  signature := "ihCta5Kq7GpZ62VNm1B3SOfN3o9F14dHA+PWnpvRAaDioP59NF/3DZZE6Errfg7WTYD4DX+6q4yIJDZhDLiACQ=="

def secondBuild : Build where
  version := "2.0.0"
  key := colleagueKey
  archive := bytesOf [
    (48, 0x1f8b0800000000000203edceb14e04211006606a9e8227d8c3f37493ed2cafb8ced8188b093bbb92c0b081c1e462f6dd),
    (48, 0x9d3d73169626dac857c084197e801989bb33c4a07e8d15f787c36517df77bbeffbaffaf3bcef6fef94b1ea0fd4c290e5),
    (48, 0x49f53f45203f61e127ccc5271acc8d268838187011779c52d06fd7d6beb39dd550f935e5c14ca9d288598f585cf60b5f),
    (48, 0x461ecc76a5d3c13ba42231a7e3a3ce95d86f99ef0168ae304bb99c2585561dd388a148abd4654999711ccc73480ec2cb),
    (35, 0xaa3d31e6091c6e032ef86d4d51be2c4312baae5a354dd3343ff3015469524f00080000)]
  signatureRaw := bytesOf [
    (48, 0x7b22736368656d6156657273696f6e223a312c226e616d65223a2261636d652f746f6f6c222c2276657273696f6e223a),
    (48, 0x22322e302e30222c22616c676f726974686d223a2265643235353139222c227075626c69634b6579223a222d2d2d2d2d),
    (48, 0x424547494e205055424c4943204b45592d2d2d2d2d5c6e4d436f77425159444b325677417945414137455a6d62595077),
    (48, 0x47676c4971454c2b7342612b52334e33785172636d70654b50522f46534139534e343d5c6e2d2d2d2d2d454e44205055),
    (48, 0x424c4943204b45592d2d2d2d2d5c6e222c227075626c69634b65794964223a2235303437663331663232353062303939),
    (48, 0x222c22736861323536223a22393866356534636531666632636534313233346336346639346132313263363566386564),
    (48, 0x63306265373531656461323666393136313537333433316162663738222c227369676e6174757265223a22743762616d),
    (48, 0x70713362514a5a39776838736e7031304753685034576c42566b5463696f61532b3376677239766d73682f324a615267),
    (37, 0x53554f4d6c4c4a32425952384e306b4e706e6f66646566707a59575870625743773d3d227d)]
  digest := "98f5e4ce1ff2ce41234c64f94a212c65f8edc0be751eda26f9161573431abf78"
  signature := "t7bampq3bQJZ9wh8snp10GShP4WlBVkTcioaS+3vgr9vmsh/2JaRgSUOMlLJ2BYR8N0kNpnofdefpzYWXpbWCw=="

namespace Build

def yaml (build : Build) : String :=
  "manifestVersion: 1\nname: acme/tool\nversion: " ++ build.version ++
    "\nauthor: founder\ndescription: A tool.\nlicense: MIT\nruntime: \x7blanguage: python\x7d\n" ++
    "models: \x7bsupported: [local]\x7d\ninterfaces: \x7bcli: \x7bcommand: run\x7d\x7d\n"

def manifest (build : Build) : Json :=
  .obj [("manifestVersion", .num 1), ("name", .str "acme/tool"), ("version", .str build.version),
    ("author", .str "founder"), ("description", .str "A tool."), ("license", .str "MIT"),
    ("runtime", .obj [("language", .str "python")]), ("models", .obj [("supported", .arr [.str "local"])]),
    ("interfaces", .obj [("cli", .obj [("command", .str "run")])])]

def signatureFile (build : Build) : SignatureFile :=
  ⟨1, "acme/tool", build.version, build.key.pem, build.key.fingerprint, build.digest, build.signature⟩

def submission (build : Build) (visibility : String) (slug : Option String) : Submission :=
  ⟨"acme", "tool", build.version, build.archive, build.signatureRaw, visibility, slug⟩

end Build

def builds : List Build := [firstBuild, secondBuild]

def workshopHost : PackageHost :=
  { plainHost with
    sha256Hex := fun data => match builds.find? fun build => build.archive = data with
      | some build => build.digest
      | none => (([founderKey, colleagueKey].find? fun key => key.der = data).map PublicKey.digest).getD ""
    derOfPem := fun pem => match [founderKey, colleagueKey].find? fun key => key.pem = pem with
      | some key => .ok key.der
      | none => .error "Unable to load PEM file"
    verifyEd25519 := fun pem signature payload =>
      if builds.any fun build => build.key.pem = pem ∧ build.signature = signature ∧
          signaturePayload "acme/tool" build.version build.digest = payload
        then .valid else .invalid
    parseSignatureFile := fun raw => match builds.find? fun build => build.signatureRaw = raw with
      | some build => .ok build.signatureFile
      | none => .error "Invalid JSON"
    openTar := fun archive => match builds.find? fun build => build.archive = archive with
      | some build => .ok [⟨"agent.yaml", .regular, 191, some build.yaml⟩]
      | none => .error ⟨.tarError, "not a gzip file"⟩
    parseYaml := fun text => match builds.find? fun build => build.yaml = text with
      | some build => .ok build.manifest
      | none => .error "could not find the expected ':'" }

def opened : Store where
  db := Organizations.serve Organizations.asciiHost (Organizations.emptyStore Organizations.signedUp)
    ⟨Organizations.colleague, 0, .createOrganization "rival" "Rival"⟩
  files := fun _ => none

def byFounder (now : Time) (call : Call) : Request := ⟨⟨Organizations.founder, none⟩, now, call⟩
def byColleague (now : Time) (call : Call) : Request := ⟨⟨Organizations.colleague, none⟩, now, call⟩

def workshop : Store :=
  [byFounder 1 (.manage (.registerSigningKey founderKey.pem none none)),
    byColleague 2 (.manage (.registerSigningKey colleagueKey.pem none none)),
    byFounder 3 (.publishVersion (firstBuild.submission "public" none)),
    byFounder 4 (.manage (.addNamespaceMaintainer "acme" "colleague" "maintainer"))].foldl (serve workshopHost) opened

end Workshop

end Registry.Packages
