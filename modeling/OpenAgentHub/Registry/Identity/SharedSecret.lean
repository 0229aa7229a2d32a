import OpenAgentHub.Registry.Identity.OAuth

namespace Registry.Identity

open Relational Packages

/-- What the registry signs with its one secret: a state token, a download token, or a session of the command line,
    of which the signing input is given. -/
inductive Signing where
  | state (redirectUri : String) (made : Time)
  | download (target : TokenTarget) (expires : Int)
  | jwt (input : String)
  deriving DecidableEq

namespace Signing

variable (host : WebHost)

def text : Signing → String
  | .state redirectUri made => host.dumps (statePayload host made redirectUri)
  | .download target expires => host.dumps (.dict (tokenFields target expires))
  | .jwt input => input

def message (signing : Signing) : Bytes := Utf8.encode (signing.text host).toList

/-- The JSON library reads back what it has written, and a signing input is no JSON. -/
def Readable (signing : Signing) : Prop :=
  match signing with
  | .state redirectUri made => host.loads (signing.text host) = .ok (statePayload host made redirectUri) ∧
    host.loadsBytes (signing.message host) = .ok (statePayload host made redirectUri)
  | .download target expires => host.loads (signing.text host) = .ok (.dict (tokenFields target expires)) ∧
    host.loadsBytes (signing.message host) = .ok (.dict (tokenFields target expires))
  | .jwt _ => host.loads (signing.text host) = .error .malformed ∧ host.loadsBytes (signing.message host) = .error .malformed

end Signing

section Separation

variable {host : WebHost} {signed : List Signing} {now : Time} {token redirectUri : String} {target : TokenTarget}

/-- The token does not carry the HMAC of a message that was never signed. -/
def StateUnforged (host : WebHost) (signed : List Signing) (token : String) : Prop :=
  ∀ payload, signedState host token = some payload → ∃ signing ∈ signed, signing.message host = payload

def DownloadUnforged (host : WebHost) (signed : List Signing) (token : String) : Prop :=
  ∀ body signature raw, token.toList = body ++ '.' :: signature → '.' ∉ body → unb64 body = some raw →
    signPayload host.toPackageHost (Utf8.decodeReplace raw) = signature →
    ∃ signing ∈ signed, signing.message host = Utf8.encode (Utf8.decodeReplace raw)

theorem state_accepted (readable : ∀ signing ∈ signed, signing.Readable host) (unforged : StateUnforged host signed token)
    {fields : List (String × PyJson)} (verified : verifyStateToken host now token = some fields)
    (redirects : redirectOf host fields = some redirectUri) :
    ∃ made, .state redirectUri made ∈ signed ∧ epoch now ≤ epoch made + stateTtlSeconds := by
  obtain ⟨payload, expires, carries, loaded, stated, ahead⟩ := verifyStateToken_eq_some.mp verified
  obtain ⟨signing, isSigned, rfl⟩ := unforged payload carries
  have reads := readable signing isSigned
  cases signing with
  | state uri made =>
    have same := PyJson.dict.inj (Except.ok.inj (loaded.symm.trans reads.2))
    subst same
    have uriStated : PyJson.field (stateFields uri (stateNonce host made uri) (epoch made + stateTtlSeconds)) "r" = .str uri := rfl
    have expiryStated : PyJson.field (stateFields uri (stateNonce host made uri) (epoch made + stateTtlSeconds)) "e" =
      .int (epoch made + stateTtlSeconds) := rfl
    unfold redirectOf at redirects
    rw [uriStated] at redirects
    rw [expiryStated] at stated
    dsimp only at redirects
    split at redirects
    · cases redirects
      cases stated
      exact ⟨made, isSigned, ahead⟩
    · cases redirects
  | download target expires =>
    -- its fields name no redirection
    have same := PyJson.dict.inj (Except.ok.inj (loaded.symm.trans reads.2))
    subst same
    cases redirects
  | jwt input => cases loaded.symm.trans reads.2

theorem tokenPayload_ok {host : PackageHost} {fields : List (String × PyJson)} (opens : tokenPayload host token = .ok (some fields)) :
    ∃ body signature raw, token.toList = body ++ '.' :: signature ∧ '.' ∉ body ∧ unb64 body = some raw ∧
      signPayload host (Utf8.decodeReplace raw) = signature ∧
      host.loads (String.ofList (Utf8.decodeReplace raw)) = .ok (.dict fields) := by
  unfold tokenPayload at opens
  split at opens
  · cases opens
  · next body signature form =>
    obtain ⟨form, undotted⟩ := cut_iff.mp form
    split at opens
    · cases opens
    · next raw decoded =>
      refine ⟨body, signature, raw, form, undotted, decoded, ?_⟩
      unfold signedFields at opens
      split at opens
      · cases opens
      · split at opens
        · cases opens
        · next valid =>
          refine ⟨not_not.mp valid, ?_⟩
          split at opens
          · cases opens
          · cases opens
          · next loaded =>
            cases opens
            exact loaded
          · cases opens

theorem downloadUnforged_issued {expires : Int} (isSigned : .download target expires ∈ signed) :
    DownloadUnforged host signed (downloadToken host.toPackageHost target expires) := by
  intro body signature raw form undotted decoded _
  have issued : (downloadToken host.toPackageHost target expires).toList = _ := String.toList_ofList
  have same := (cut_iff.mpr ⟨issued, fun present => (Base64.encode_ascii present).2 rfl⟩).symm.trans (cut_iff.mpr ⟨form, undotted⟩)
  rw [Prod.mk.injEq] at same
  rw [← same.1] at decoded
  unfold unb64 at decoded
  split at decoded
  · cases decoded
  · rw [Base64.decode_encode, Option.some.injEq] at decoded
    subst decoded
    rw [Utf8.decodeReplace_encode]
    exact ⟨_, isSigned, rfl⟩

theorem download_accepted (readable : ∀ signing ∈ signed, signing.Readable host) (unforged : DownloadUnforged host signed token)
    {expires : Int} (verified : verifyDownloadToken host.toPackageHost now token target = .ok (true, expires)) :
    .download target expires ∈ signed ∧ epoch now < expires := by
  unfold verifyDownloadToken at verified
  obtain ⟨opened, opens, judged⟩ := Outcome.bind_eq_ok.mp verified
  cases opened with
  | none => cases judged
  | some fields =>
    have verdict : target.judge now fields = (true, expires) := Except.ok.inj judged
    obtain ⟨body, signature, raw, form, undotted, decoded, valid, loaded⟩ := tokenPayload_ok opens
    obtain ⟨signing, isSigned, same⟩ := unforged body signature raw form undotted decoded valid
    have text := congrArg Utf8.decodeReplace same
    unfold Signing.message at text
    rw [Utf8.decodeReplace_encode, Utf8.decodeReplace_encode] at text
    rw [← text, String.ofList_toList] at loaded
    have reads := readable signing isSigned
    cases signing with
    | state uri made =>
      -- its fields name no version, and the judgement fails
      have same := PyJson.dict.inj (Except.ok.inj (loaded.symm.trans reads.1))
      subst same
      cases verdict
    | download other stated =>
      have same := PyJson.dict.inj (Except.ok.inj (loaded.symm.trans reads.1))
      subst same
      rw [judge_tokenFields] at verdict
      split at verdict
      · next right =>
        obtain ⟨rfl, ahead⟩ := right
        cases verdict
        exact ⟨isSigned, ahead⟩
      · cases verdict
    | jwt input => cases loaded.symm.trans reads.1

end Separation

end Registry.Identity
