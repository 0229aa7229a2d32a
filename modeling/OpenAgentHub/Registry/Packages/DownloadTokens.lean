import OpenAgentHub.Registry.Packages.SignedUrls

namespace Registry.Packages

structure TokenTarget.Stated (target : TokenTarget) (fields : List (String × PyJson)) (expires : Int) : Prop where
  kind : PyJson.field fields "k" = .str tokenKind
  namespaceName : PyJson.field fields "n" = .str target.namespaceName
  name : PyJson.field fields "a" = .str target.name
  version : PyJson.field fields "v" = .str target.version
  versionId : PyJson.field fields "i" = .int target.versionId
  digest : PyJson.field fields "d" = (target.digest.map PyJson.str).getD .none
  expiry : PyJson.field fields "e" = .int expires

/-- The token has the form `body.sig`, is signed, and states the target and an expiry that lies ahead. -/
def Genuine (host : PackageHost) (now : Time) (token : String) (target : TokenTarget) (expires : Int) : Prop :=
  ∃ body signature raw fields, token.toList = body ++ '.' :: signature ∧ '.' ∉ body ∧ unb64 body = some raw ∧
    signPayload host (Utf8.decodeReplace raw) = signature ∧
    host.loads (String.ofList (Utf8.decodeReplace raw)) = .ok (.dict fields) ∧
    target.Stated fields expires ∧ epoch now < expires

/-- Nothing is raised, and exactly a genuine token passes, with its expiry. -/
def RightlyVerified (host : PackageHost) (now : Time) (token : String) (target : TokenTarget) : Prop :=
  ∃ verdict, verifyDownloadToken host now token target = .ok verdict ∧
    ∀ expires, verdict = (true, expires) ↔ Genuine host now token target expires

/-- The comparisons hold of a version id or an expiry that is no integer of JSON: `true` and `1.0` are equal to `1`. -/
def TokenTarget.LooselyStated (target : TokenTarget) (now : Time) (fields : List (String × PyJson)) : Prop :=
  target.statedBy fields = true ∧ (∃ expires, (PyJson.field fields "e").asInt = some expires ∧ epoch now < expires) ∧
    ¬ ∃ versionId expires, PyJson.field fields "i" = .int versionId ∧ PyJson.field fields "e" = .int expires

/-- The signature is ASCII. What is signed is no JSON, or is an object that states nothing loosely. -/
def Regular (host : PackageHost) (now : Time) (token : String) (target : TokenTarget) : Prop :=
  ∀ body signature raw, token.toList = body ++ '.' :: signature → '.' ∉ body → unb64 body = some raw →
    isAscii signature = true ∧
    (signPayload host (Utf8.decodeReplace raw) = signature →
      host.loads (String.ofList (Utf8.decodeReplace raw)) = .error .malformed ∨
      ∃ fields, host.loads (String.ofList (Utf8.decodeReplace raw)) = .ok (.dict fields) ∧ ¬ target.LooselyStated now fields)

/-- `json.dumps` writes the value as ASCII, and `json.loads` reads back what it wrote. -/
structure PackageHost.WritesBack (host : PackageHost) (value : PyJson) : Prop where
  ascii : isAscii (host.dumps value).toList = true
  written : host.dumps value ≠ ""
  readBack : host.loads (host.dumps value) = .ok value

section Cutting

variable {separator char : Char} {text first rest : List Char}

theorem cut_separator : Semver.cut separator (separator :: rest) = ([], some rest) := by simp [Semver.cut]

theorem cut_other (other : char ≠ separator) :
    Semver.cut separator (char :: rest) = (char :: (Semver.cut separator rest).1, (Semver.cut separator rest).2) := by
  simp [Semver.cut, other]

theorem cut_iff : Semver.cut separator text = (first, some rest) ↔ text = first ++ separator :: rest ∧ separator ∉ first := by
  induction text generalizing first with
  | nil => simp [Semver.cut]
  | cons char others ih =>
    by_cases same : char = separator
    · subst same
      rw [cut_separator]
      cases first with
      | nil => simp
      | cons head tail =>
        simp only [Prod.mk.injEq, reduceCtorEq, false_and, List.cons_append, List.cons.injEq, List.mem_cons, not_or, false_iff]
        rintro ⟨⟨rfl, _⟩, different, _⟩
        exact different rfl
    · rw [cut_other same]
      cases first with
      | nil => simp [same]
      | cons head tail =>
        have further := @ih tail
        rw [Prod.ext_iff] at further
        simp only [Prod.mk.injEq, List.cons.injEq, List.cons_append, List.mem_cons, not_or]
        grind

theorem cut_none (uncut : Semver.cut separator text = (first, none)) : separator ∉ text := by
  induction text generalizing first with
  | nil => exact List.not_mem_nil
  | cons char others ih =>
    by_cases same : char = separator
    · subst same
      rw [cut_separator] at uncut
      cases uncut
    · rw [cut_other same] at uncut
      obtain ⟨rfl, rest⟩ := Prod.mk.inj uncut
      rw [List.mem_cons, not_or]
      exact ⟨Ne.symm same, ih (Prod.ext rfl rest)⟩

end Cutting

section Verifying

variable {host : PackageHost} {now : Time} {token : String} {target : TokenTarget} {fields : List (String × PyJson)}
  {expires : Int}

theorem isText_iff {text : String} {value : PyJson} : value.isText text = true ↔ value = .str text := by
  cases value <;> simp [PyJson.isText]

theorem isNumber_int {number : Int} {value : PyJson} (integral : ∃ stated, value = .int stated) :
    value.isNumber number = true ↔ value = .int number := by
  obtain ⟨stated, rfl⟩ := integral
  simp [PyJson.isNumber]

theorem stated_iff : target.Stated fields expires ↔
    target.statedBy fields = true ∧ (PyJson.field fields "e").asInt = some expires ∧
      ∃ versionId expires, PyJson.field fields "i" = .int versionId ∧ PyJson.field fields "e" = .int expires := by
  constructor
  · rintro ⟨kind, namespaceName, name, version, versionId, digest, expiry⟩
    refine ⟨?_, ?_, _, _, versionId, expiry⟩
    · unfold TokenTarget.statedBy
      rw [kind, namespaceName, name, version, versionId, digest]
      cases target.digest <;> simp [PyJson.isText, PyJson.isNumber]
    · rw [expiry]
      rfl
  · rintro ⟨stated, expiry, versionId, stating, isId, isExpiry⟩
    simp only [TokenTarget.statedBy, Bool.and_eq_true, isText_iff, isNumber_int ⟨versionId, isId⟩] at stated
    obtain ⟨⟨⟨⟨⟨kind, namespaceName⟩, name⟩, version⟩, versionId⟩, digest⟩ := stated
    refine ⟨kind, namespaceName, name, version, versionId, ?_, ?_⟩
    · cases expected : target.digest with
      | some digest' =>
        rw [expected] at digest
        exact isText_iff.mp digest
      | none =>
        rw [expected] at digest
        cases stating : PyJson.field fields "d" <;> simp_all
    · rw [isExpiry] at expiry ⊢
      rw [Option.some.inj expiry]

theorem judge_eq_true : target.judge now fields = (true, expires) ↔
    target.statedBy fields = true ∧ (PyJson.field fields "e").asInt = some expires ∧ epoch now < expires := by
  unfold TokenTarget.judge
  cases stated : target.statedBy fields with
  | false => simp
  | true =>
    simp only [Bool.true_eq_false, if_false, true_and]
    cases (PyJson.field fields "e").asInt with
    | none => simp
    | some stated =>
      by_cases past : stated ≤ epoch now
      · simp [past]
        intro; omega
      · simp [past]
        intro; omega

/-- The code's comparisons agree with the expected fields on what is not stated loosely. -/
theorem judge_rightly : (∀ expires, target.judge now fields = (true, expires) ↔ target.Stated fields expires ∧ epoch now < expires) ↔
    ¬ target.LooselyStated now fields := by
  simp only [judge_eq_true, stated_iff]
  unfold TokenTarget.LooselyStated
  constructor
  · rintro rightly ⟨stated, ⟨expires, expiry, ahead⟩, loosely⟩
    exact loosely ((rightly expires).mp ⟨stated, expiry, ahead⟩).1.2.2
  · intro strict expires
    constructor
    · rintro ⟨stated, expiry, ahead⟩
      have integral := not_not.mp fun loosely => strict ⟨stated, ⟨expires, expiry, ahead⟩, loosely⟩
      exact ⟨⟨stated, expiry, integral⟩, ahead⟩
    · rintro ⟨⟨stated, expiry, _⟩, ahead⟩
      exact ⟨stated, expiry, ahead⟩

section Form

variable {body signature : List Char} {raw : Bytes} (form : token.toList = body ++ '.' :: signature) (undotted : '.' ∉ body)

include form undotted

theorem tokenPayload_undecoded (undecoded : unb64 body = none) : tokenPayload host token = .ok none := by
  unfold tokenPayload
  simp only [cut_iff.mpr ⟨form, undotted⟩, undecoded]

theorem not_genuine_of_undecoded (undecoded : unb64 body = none) : ¬ Genuine host now token target expires := by
  rintro ⟨body', signature', raw, fields, form', undotted', decoded, _⟩
  have same := (cut_iff.mpr ⟨form, undotted⟩).symm.trans (cut_iff.mpr ⟨form', undotted'⟩)
  rw [Prod.mk.injEq] at same
  rw [← same.1, undecoded] at decoded
  cases decoded

variable (decoded : unb64 body = some raw)

include decoded

theorem tokenPayload_decoded : tokenPayload host token = signedFields host (Utf8.decodeReplace raw) signature := by
  unfold tokenPayload
  simp only [cut_iff.mpr ⟨form, undotted⟩, decoded]

theorem genuine_iff : Genuine host now token target expires ↔
    signPayload host (Utf8.decodeReplace raw) = signature ∧
    ∃ fields, host.loads (String.ofList (Utf8.decodeReplace raw)) = .ok (.dict fields) ∧
      target.Stated fields expires ∧ epoch now < expires := by
  constructor
  · rintro ⟨body', signature', raw', fields, form', undotted', decoded', signed, loaded, stated, ahead⟩
    have same := (cut_iff.mpr ⟨form, undotted⟩).symm.trans (cut_iff.mpr ⟨form', undotted'⟩)
    rw [Prod.mk.injEq, Option.some.injEq] at same
    obtain ⟨rfl, rfl⟩ := same
    rw [decoded, Option.some.injEq] at decoded'
    subst decoded'
    exact ⟨signed, fields, loaded, stated, ahead⟩
  · rintro ⟨signed, fields, loaded, stated, ahead⟩
    exact ⟨body, signature, raw, fields, form, undotted, decoded, signed, loaded, stated, ahead⟩

/-- With a token of the form, whose body decodes. -/
theorem rightlyVerified_decoded : RightlyVerified host now token target ↔
    isAscii signature = true ∧
    (signPayload host (Utf8.decodeReplace raw) = signature →
      host.loads (String.ofList (Utf8.decodeReplace raw)) = .error .malformed ∨
      ∃ fields, host.loads (String.ofList (Utf8.decodeReplace raw)) = .ok (.dict fields) ∧
        ¬ target.LooselyStated now fields) := by
  unfold RightlyVerified verifyDownloadToken
  simp only [signedFields, tokenPayload_decoded form undotted decoded, genuine_iff form undotted decoded]
  by_cases ascii : isAscii signature = false
  · simp [ascii]
  rw [Bool.not_eq_false] at ascii
  simp only [ascii, Bool.true_eq_false, if_false, true_and]
  by_cases signed : signPayload host (Utf8.decodeReplace raw) = signature
  · simp only [signed, ne_eq, not_true_eq_false, if_false, true_and, true_implies]
    cases loaded : host.loads (String.ofList (Utf8.decodeReplace raw)) with
    | error fault =>
      cases fault <;> simp
    | ok value =>
      cases value with
      | dict fields =>
        simp [← judge_rightly]
      | _ => simp
  · simp [signed]

end Form

/-- A token without the form, or whose body does not decode, is rejected as it should be. -/
theorem rightlyVerified_rejected (rejected : tokenPayload host token = .ok none)
    (spurious : ∀ expires, ¬ Genuine host now token target expires) : RightlyVerified host now token target := by
  refine ⟨(false, 0), ?_, ?_⟩
  · unfold verifyDownloadToken
    rw [rejected]
    rfl
  · intro expires
    exact iff_of_false nofun (spurious expires)

theorem rightlyVerified_iff : RightlyVerified host now token target ↔ Regular host now token target := by
  cases isCut : Semver.cut '.' token.toList with
  | mk body rest =>
    cases rest with
    | none =>
      have undotted := cut_none isCut
      have formless : ∀ first rest : List Char, token.toList ≠ first ++ '.' :: rest := by
        intro first rest form
        apply undotted
        rw [form]
        exact List.mem_append_right first List.mem_cons_self
      apply iff_of_true
      · refine rightlyVerified_rejected ?_ ?_
        · unfold tokenPayload
          simp only [isCut]
        · rintro expires ⟨first, rest, raw, fields, form, _⟩
          exact formless first rest form
      · intro first rest raw form
        exact absurd form (formless first rest)
    | some signature =>
      obtain ⟨form, undotted⟩ := cut_iff.mp isCut
      have same : ∀ first rest, token.toList = first ++ '.' :: rest → '.' ∉ first → body = first ∧ signature = rest := by
        intro first rest form' undotted'
        have cut := isCut.symm.trans (cut_iff.mpr ⟨form', undotted'⟩)
        simpa using cut
      cases decoded : unb64 body with
      | none =>
        apply iff_of_true
        · refine rightlyVerified_rejected (tokenPayload_undecoded form undotted decoded) ?_
          exact fun expires => not_genuine_of_undecoded form undotted decoded
        · intro first rest raw form' undotted' decoded'
          obtain ⟨rfl, rfl⟩ := same first rest form' undotted'
          rw [decoded] at decoded'
          cases decoded'
      | some raw =>
        rw [rightlyVerified_decoded form undotted decoded]
        constructor
        · intro regular first rest raw' form' undotted' decoded'
          obtain ⟨rfl, rfl⟩ := same first rest form' undotted'
          rw [decoded, Option.some.injEq] at decoded'
          subst decoded'
          exact regular
        · intro regular
          exact regular body signature raw form undotted decoded

section Issued

theorem isAscii_encode (bytes : Bytes) : isAscii (Base64.encode bytes) = true := by
  unfold isAscii
  rw [List.all_eq_true]
  intro char present
  exact decide_eq_true (Base64.encode_ascii present).1

variable {other : TokenTarget}

theorem stated_tokenFields : target.Stated (tokenFields target expires) expires := ⟨rfl, rfl, rfl, rfl, rfl, rfl, rfl⟩

theorem TokenTarget.Stated.unique {stated : Int} (first : target.Stated fields expires) (second : other.Stated fields stated) :
    other = target := by
  have namespaceName := PyJson.str.inj (first.namespaceName.symm.trans second.namespaceName)
  have name := PyJson.str.inj (first.name.symm.trans second.name)
  have version := PyJson.str.inj (first.version.symm.trans second.version)
  have versionId := Int.ofNat_inj.mp (PyJson.int.inj (first.versionId.symm.trans second.versionId))
  have digest := first.digest.symm.trans second.digest
  obtain ⟨_, _, _, _, digestOf⟩ := target
  obtain ⟨_, _, _, _, otherDigest⟩ := other
  cases digestOf <;> cases otherDigest <;> simp_all

theorem judge_tokenFields : other.judge now (tokenFields target expires) =
    if other = target ∧ epoch now < expires then (true, expires) else (false, 0) := by
  unfold TokenTarget.judge
  by_cases same : other = target
  · subst same
    rw [(stated_iff.mp stated_tokenFields).1]
    by_cases ahead : epoch now < expires
    · simp [tokenFields, PyJson.field, List.lookup_cons, PyJson.asInt, ahead]
    · simp [tokenFields, PyJson.field, List.lookup_cons, PyJson.asInt, ahead]
  · have different : other.statedBy (tokenFields target expires) = false := by
      by_contra stated
      rw [Bool.not_eq_false] at stated
      exact same (stated_tokenFields.unique (stated_iff.mpr ⟨stated, rfl, _, _, rfl, rfl⟩))
    simp [different, same]

/-- A token verifies for its own target until its expiry, and for no other target. -/
theorem verifyDownloadToken_issued (writes : host.WritesBack (.dict (tokenFields target expires))) :
    verifyDownloadToken host now (downloadToken host target expires) other =
      .ok (if other = target ∧ epoch now < expires then (true, expires) else (false, 0)) := by
  have undotted {bytes : Bytes} : '.' ∉ Base64.encode bytes := fun present => (Base64.encode_ascii present).2 rfl
  have written : Utf8.encode (host.dumps (.dict (tokenFields target expires))).toList ≠ [] := by
    have nonEmpty := List.exists_mem_of_ne_nil _ (mt String.toList_eq_nil_iff.mp writes.written)
    simpa [Utf8.encode] using nonEmpty
  have decoded : unb64 (Base64.encode (Utf8.encode (host.dumps (.dict (tokenFields target expires))).toList)) =
      some (Utf8.encode (host.dumps (.dict (tokenFields target expires))).toList) := by
    unfold unb64
    rw [if_neg, Base64.decode_encode]
    simp [Base64.encode_eq_nil, isAscii_encode, written]
  have payload := Utf8.decodeReplace_encode (host.dumps (.dict (tokenFields target expires))).toList
  have form : (downloadToken host target expires).toList = _ := String.toList_ofList
  have opened : tokenPayload host (downloadToken host target expires) = .ok (some (tokenFields target expires)) := by
    rw [tokenPayload_decoded form undotted decoded, payload, signedFields]
    simp only [signPayload, isAscii_encode, writes.readBack, String.ofList_toList, Bool.true_eq_false, if_false, ne_eq,
      not_true_eq_false]
  unfold verifyDownloadToken
  rw [opened, ← judge_tokenFields]
  rfl

end Issued

end Verifying

/-- Exactly the regular tokens are rightly verified, for every expected target and at every time, and an issued token verifies
    for its own target until its expiry and for no other target. -/
theorem download_tokens_iff (host : PackageHost) :
    (∀ now token target, RightlyVerified host now token target ↔ Regular host now token target) ∧
    (∀ issued ttlSeconds target, host.WritesBack (.dict (tokenFields target (epoch issued + max 1 ttlSeconds))) →
      ∀ now other, verifyDownloadToken host now (issueDownloadToken host issued target ttlSeconds) other =
        .ok (if other = target ∧ epoch now < epoch issued + max 1 ttlSeconds then (true, epoch issued + max 1 ttlSeconds)
          else (false, 0))) := by
  constructor
  · intro now token target
    exact rightlyVerified_iff
  · intro issued ttlSeconds target writes now other
    exact verifyDownloadToken_issued writes

def helloTarget : TokenTarget where
  namespaceName := "demo"
  name := "hello"
  version := "1.0.0"
  versionId := 7
  digest := some "e3b0c44298fc1c149afbf4c8996fb92427ae41e4649b934ca495991b7852b855"

def helloPayload : String :=
  "\x7b\"k\":\"ahb-dl\",\"n\":\"demo\",\"a\":\"hello\",\"v\":\"1.0.0\",\"i\":7," ++
    "\"d\":\"e3b0c44298fc1c149afbf4c8996fb92427ae41e4649b934ca495991b7852b855\",\"e\":1700000300\x7d"

def helloHost : PackageHost :=
  { plainHost with
    hmac := fun _ => [19, 241, 0, 91, 127, 52, 216, 50, 16, 8, 4, 126, 25, 220, 67, 230, 236, 81, 15, 252, 4, 233, 136, 123,
      124, 184, 143, 164, 118, 65, 135, 252]
    dumps := fun _ => helloPayload
    loads := fun text => if text = helloPayload then .ok (.dict (tokenFields helloTarget 1700000300)) else .error .malformed }

theorem download_tokens_hello :
    verifyDownloadToken helloHost (seconds 1700000299) (issueDownloadToken helloHost (seconds 1700000000) helloTarget 300) helloTarget =
      .ok (true, 1700000300) := by
  have expiry : epoch (seconds 1700000000) + max 1 300 = 1700000300 := by decide +kernel
  have writes : helloHost.WritesBack (.dict (tokenFields helloTarget (epoch (seconds 1700000000) + max 1 300))) := by
    rw [expiry]
    refine ⟨by decide +kernel, by decide +kernel, ?_⟩
    simp only [helloHost, if_true]
  have ahead : epoch (seconds 1700000299) < 1700000300 := by decide +kernel
  rw [(download_tokens_iff helloHost).2 _ 300 helloTarget writes, expiry, if_pos ⟨rfl, ahead⟩]

/-- A body of one byte, and a signature outside ASCII. -/
theorem foreign_signature_raises :
    verifyDownloadToken helloHost 0 "AA.é" helloTarget =
      .error ⟨.typeError, "comparing strings with non-ASCII characters is not supported"⟩ ∧
    ¬ RightlyVerified helloHost 0 "AA.é" helloTarget := by
  have raises : verifyDownloadToken helloHost 0 "AA.é" helloTarget =
      .error ⟨.typeError, "comparing strings with non-ASCII characters is not supported"⟩ := rfl
  refine ⟨raises, ?_⟩
  rintro ⟨verdict, verified, _⟩
  rw [raises] at verified
  cases verified

end Registry.Packages
