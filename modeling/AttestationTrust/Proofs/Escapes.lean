import AttestationTrust.Http
import AttestationTrust.Proofs.Signatures
/-!
# What no caller of a validation catches

A validation answers with an anchor, or says why the chain is not trusted; its callers turn both into answers of their
own.  There are checks that can end in neither way.  `Validator.Escapes` lists them: an item of a version that is not
read, a lookup that cannot be made, names, validities and self-signatures that cannot be told, and an anchor for which
the check of a link cannot be made, which is a matter of two certificates beside each other (`Link.Uncheckable`).  A
failure of this kind leaves through every caller, up to an answer that says nothing (`Validator.validate_or_escapes`).
-/
namespace AttestationTrust

open X509 (Certificate Fault PublicKey SaltedParameters)

/-! ## Names and self-signatures -/

namespace X509

/-- A salted signature whose mask or message has a hash that is not known. -/
def SaltedParameters.UnknownHashes (p : SaltedParameters) : Prop :=
  p.maskHash = .error .unsupportedAlgorithm ∨
    (∃ h, p.maskHash = .ok h) ∧ p.messageHash = .error .unsupportedAlgorithm

theorem SaltedParameters.maskHash_error_cases {p : SaltedParameters} {f : Fault} (h : p.maskHash = .error f) :
    f = .malformed ∨ f = .unsupportedAlgorithm := by
  unfold maskHash at h
  split at h
  · cases h
  · split at h
    · unfold hashName at h
      split at h
      · cases h
      · split at h
        · cases h
        · cases h
          exact .inr rfl
    · cases h
      exact .inl rfl

namespace PublicKey

theorem verifiesSalted_eq_error_iff {k : Rsa.Key} {p : SaltedParameters} {message signature : Bytes} {f : Fault} :
    verifiesSalted k (some p) message signature = .error f ↔
      p.maskHash = .error f ∨ (∃ h, p.maskHash = .ok h) ∧ p.messageHash = .error f := by
  change (p.maskHash >>= fun maskHash => p.messageHash >>= fun hash => Except.ok _) = .error f ↔ _
  simp [except_bind_eq_error_iff]

/-- A signature is of no use to a key, or it is a salted one whose hashes are not known. -/
theorem verifies_error_cases {k : PublicKey} {a : SignatureAlgorithm} {message signature : Bytes} {f : Fault}
    (h : k.verifies a message signature = .error f) : f = .malformed ∨ f = .wrongKind ∨
      f = .unsupportedAlgorithm ∧ ∃ r p, k = .rsa r ∧ a = .salted (some p) ∧ p.UnknownHashes := by
  unfold verifies at h
  split at h
  · cases h
    exact .inr (.inl rfl)
  · rename_i r o
    cases o with
    | none =>
      cases h
      exact .inl rfl
    | some p =>
      rcases verifiesSalted_eq_error_iff.1 h with hm | ⟨hm, hh⟩
      · rcases SaltedParameters.maskHash_error_cases hm with rfl | rfl
        · exact .inl rfl
        · exact .inr (.inr ⟨rfl, r, p, rfl, rfl, .inl hm⟩)
      · obtain ⟨rfl, -⟩ := SignatureAlgorithm.messageHash_eq_error_iff.1 hh
        exact .inr (.inr ⟨rfl, r, p, rfl, rfl, .inr ⟨hm, hh⟩⟩)
  · cases h
  · cases h
  · split at h
    · cases h
      exact .inl rfl
    · split at h
      · cases h
      · cases h
      · cases h
      · cases h
        exact .inl rfl
  · cases h
    exact .inl rfl

end PublicKey

namespace Certificate

variable {c : Certificate} {f : Fault}

/-- A certificate's issuer and its subject are one name. -/
def NamesItself (c : Certificate) : Prop :=
  (∃ issuer subject, c.issuer = .ok issuer ∧ c.subject = .ok subject ∧ Name.same issuer subject = true) ∧
    c.content.issuer = c.content.subject

/-- Whether a certificate signed itself cannot be told, and why. -/
inductive SelfUntold (c : Certificate) : Fault → Prop
  | issuer {f : Fault} (h : c.issuer = .error f) : SelfUntold c f
  | subject {issuer : Name} {f : Fault} (hi : c.issuer = .ok issuer) (h : c.subject = .error f) : SelfUntold c f
  | unknownKey (hn : c.NamesItself) (h : c.publicKey = .error .unsupportedAlgorithm) :
      SelfUntold c .unsupportedAlgorithm
  | unknownHashes {k : Rsa.Key} {p : SaltedParameters} (hn : c.NamesItself) (hk : c.publicKey = .ok (.rsa k))
      (ha : c.signatureAlgorithm = .salted (some p)) (h : p.UnknownHashes) : SelfUntold c .unsupportedAlgorithm

theorem signsItself_eq_error_iff : c.signsItself = .error f ↔ f = .unsupportedAlgorithm ∧
    (c.publicKey = .error .unsupportedAlgorithm ∨
      ∃ k p, c.publicKey = .ok (.rsa k) ∧ c.signatureAlgorithm = .salted (some p) ∧ p.UnknownHashes) := by
  unfold signsItself
  cases hk : c.publicKey with
  | error g =>
    rcases PublicKey.ofInfo_error_cases hk with rfl | rfl
    · simp [Except.bind]
    · simp [Except.bind, eq_comm]
  | ok k =>
    simp only [Except.bind]
    constructor
    · intro h
      split at h
      · cases h
      · cases h
      · rename_i hm hw
        rcases PublicKey.verifies_error_cases h with rfl | rfl | ⟨rfl, r, p, rfl, ha, hp⟩
        · exact absurd h hm
        · exact absurd h hw
        · exact ⟨rfl, .inr ⟨r, p, rfl, ha, hp⟩⟩
    · rintro ⟨rfl, h | ⟨r, p, hr, ha, hp⟩⟩
      · cases h
      · cases hr
        have hv : (PublicKey.rsa r).verifies c.signatureAlgorithm c.content.signed c.content.signature =
            .error .unsupportedAlgorithm := by
          rw [ha]
          exact PublicKey.verifiesSalted_eq_error_iff.2 hp
        rw [hv]

theorem isSelfSigned_eq_error_iff : c.isSelfSigned = .error f ↔ c.SelfUntold f := by
  simp only [isSelfSigned, except_bind_eq_error_iff]
  constructor
  · rintro (h | ⟨issuer, hi, h | ⟨subject, hs, h⟩⟩)
    · exact .issuer h
    · exact .subject hi h
    · split at h
      · cases h
      · rename_i hsame
        split at h
        · cases h
        · rename_i hcontent
          have hn : c.NamesItself := ⟨⟨issuer, subject, hi, hs, by simpa using hsame⟩, not_not.1 hcontent⟩
          obtain ⟨rfl, h | ⟨k, p, hk, ha, h⟩⟩ := signsItself_eq_error_iff.1 h
          · exact .unknownKey hn h
          · exact .unknownHashes hn hk ha h
  · have hself : c.NamesItself → c.signsItself = .error f → ∃ issuer, c.issuer = .ok issuer ∧
        (c.subject = .error f ∨ ∃ subject, c.subject = .ok subject ∧
          (if (!Name.same issuer subject) = true then .ok false
            else if c.content.issuer ≠ c.content.subject then .ok false else c.signsItself) = .error f) := by
      rintro ⟨⟨issuer, subject, hi, hs, hsame⟩, hcontent⟩ h
      refine ⟨issuer, hi, .inr ⟨subject, hs, ?_⟩⟩
      rw [if_neg (by simp [hsame]), if_neg (by simp [hcontent])]
      exact h
    intro h
    cases h with
    | issuer h => exact .inl h
    | subject hi h => exact .inr ⟨_, hi, .inl h⟩
    | unknownKey hn h => exact .inr (hself hn (signsItself_eq_error_iff.2 ⟨rfl, .inl h⟩))
    | unknownHashes hn hk ha h => exact .inr (hself hn (signsItself_eq_error_iff.2 ⟨rfl, .inr ⟨_, _, hk, ha, h⟩⟩))

end Certificate

end X509

/-! ## Anchors -/

namespace Attestation

/-- No model is stated, or the zero one: the anchors of the key count. -/
def IsByKey (att : Attestation) : Prop :=
  Aaguid.ofValue att.aaguid = .ok none ∨ Aaguid.ofValue att.aaguid = .ok (some Aaguid.zero)

/-- What is looked up for an attestation. -/
inductive Asks (att : Attestation) (leaf : Certificate) : Query → Prop
  | model {bs : Bytes} (h : Aaguid.ofValue att.aaguid = .ok (some bs)) (hz : bs ≠ Aaguid.zero) :
      Asks att leaf (.aaguid bs)
  | given (hk : att.IsByKey) (h : att.keyIdentifier.truthy = true) : Asks att leaf (.key att.keyIdentifier)
  | leaf {bs : Bytes} (hk : att.IsByKey) (ht : att.keyIdentifier.truthy = false) (h : leaf.keyIdentifier = .ok bs) :
      Asks att leaf (.key (.bytes bs))

/-- The identifiers have the kinds that callers are to give them, and no key is given. -/
def IsOrdinary (att : Attestation) : Prop :=
  (att.aaguid = .null ∨ (∃ s, att.aaguid = .text s) ∨ ∃ bs, att.aaguid = .bytes bs) ∧ att.keyIdentifier = .null

end Attestation

namespace Validator

variable {v : Validator} {members : List ChainMember} {att : Attestation} {leaf last : Certificate} {w : World}
variable {chain : List Certificate} {a : TrustAnchor}

/-- The anchors of a chain cannot be looked up, and why. -/
inductive Unsought (v : Validator) (att : Attestation) (leaf : Certificate) (w : World) : Failure → Prop
  | aaguid {f : Failure} (h : Aaguid.ofValue att.aaguid = .error f) : Unsought v att leaf w f
  /-- The first certificate has no key whose identifier could be looked up. -/
  | key {f : Fault} (hk : att.IsByKey) (ht : att.keyIdentifier.truthy = false) (h : leaf.publicKey = .error f) :
      Unsought v att leaf w (.x509 f)
  | repository {q : Query} {f : Failure} (hq : att.Asks leaf q) (h : (v.repository.find q w).1 = .error f) :
      Unsought v att leaf w f

theorem findAnchors_of_isByKey (hk : att.IsByKey) :
    v.findAnchors leaf att w = findAnchors.findByKey v att leaf w := by
  unfold findAnchors
  rw [Action.bind_apply, Action.ofExcept_apply]
  rcases hk with h | h
  · rw [h]
  · rw [h]
    exact congrFun (if_pos rfl) w

theorem findAnchors_of_asks {q : Query} (h : att.Asks leaf q) : v.findAnchors leaf att w = v.repository.find q w := by
  cases h with
  | model h hz =>
    unfold findAnchors
    rw [Action.bind_apply, Action.ofExcept_apply, h]
    exact congrFun (if_neg hz) w
  | given hk h =>
    rw [findAnchors_of_isByKey hk, findAnchors.findByKey, if_pos h]
    rfl
  | leaf hk ht h =>
    rw [findAnchors_of_isByKey hk, findAnchors.findByKey, if_neg (by simp [ht])]
    rw [Action.bind_apply, Action.ofX509_apply, h]
    rfl

theorem keyIdentifier_eq_error_iff {f : Fault} : leaf.keyIdentifier = .error f ↔ leaf.publicKey = .error f := by
  unfold Certificate.keyIdentifier
  cases leaf.publicKey <;> simp [Except.map]

theorem findAnchors_eq_error_iff {f : Failure} : (v.findAnchors leaf att w).1 = .error f ↔ v.Unsought att leaf w f := by
  constructor
  · intro h
    cases ha : Aaguid.ofValue att.aaguid with
    | error g =>
      unfold findAnchors at h
      rw [Action.bind_apply, Action.ofExcept_apply, ha] at h
      cases h
      exact .aaguid ha
    | ok wanted =>
      by_cases hk : att.IsByKey
      · cases ht : att.keyIdentifier.truthy with
        | true => exact .repository (.given hk ht) (by rwa [findAnchors_of_asks (.given hk ht)] at h)
        | false =>
          cases hl : leaf.keyIdentifier with
          | ok bs => exact .repository (.leaf hk ht hl) (by rwa [findAnchors_of_asks (.leaf hk ht hl)] at h)
          | error g =>
            rw [findAnchors_of_isByKey hk, findAnchors.findByKey, if_neg (by simp [ht]), Action.bind_apply,
              Action.ofX509_apply, hl] at h
            cases h
            exact .key hk ht (keyIdentifier_eq_error_iff.1 hl)
      · cases wanted with
        | none => exact absurd (.inl ha) hk
        | some bs =>
          have hz : bs ≠ Aaguid.zero := by
            rintro rfl
            exact hk (.inr ha)
          exact .repository (.model ha hz) (by rwa [findAnchors_of_asks (.model ha hz)] at h)
  · intro h
    cases h with
    | aaguid h =>
      unfold findAnchors
      rw [Action.bind_apply, Action.ofExcept_apply, h]
    | key hk ht h =>
      rw [findAnchors_of_isByKey hk, findAnchors.findByKey, if_neg (by simp [ht]), Action.bind_apply,
        Action.ofX509_apply, keyIdentifier_eq_error_iff.2 h]
      rfl
    | repository hq h => rwa [findAnchors_of_asks hq]

theorem Unsought.foreign {f : Failure} (h : v.Unsought att leaf w f) : f.Foreign := by
  cases h with
  | aaguid h => exact Aaguid.ofValue_foreign h
  | key hk ht h => simp [Failure.Foreign]
  | repository hq h => exact (Repository.within_find _ _).failsBy w _ h

/-- A fixed listing answers every lookup: only the key of the first certificate can be missing. -/
theorem unsought_fixed_iff {anchors : List TrustAnchor} {f : Failure} (hv : v.repository = .fixed anchors)
    (ho : att.IsOrdinary) : v.Unsought att leaf w f ↔ att.IsByKey ∧ ∃ g, leaf.publicKey = .error g ∧ f = .x509 g := by
  obtain ⟨haaguid, hkey⟩ := ho
  have ht : att.keyIdentifier.truthy = false := by
    rw [hkey]
    rfl
  constructor
  · intro h
    cases h with
    | aaguid h =>
      exfalso
      rcases haaguid with ha | ⟨s, ha⟩ | ⟨bs, ha⟩
      · rw [ha] at h
        cases h
      · rw [ha] at h
        cases h
      · rw [ha] at h
        cases h
    | key hk ht h => exact ⟨hk, _, h, rfl⟩
    | repository hq h =>
      exfalso
      rw [hv, Repository.find] at h
      cases hq with
      | model => cases h
      | given hk h' =>
        rw [ht] at h'
        cases h'
      | leaf => cases h
  · rintro ⟨hk, g, h, rfl⟩
    exact .key hk ht h

/-- Whether a chain leads to an anchor cannot be told, and why: a name has no text, or the first link that is not
signed cannot be checked. -/
inductive Untold (chain : List Certificate) (last : Certificate) (a : TrustAnchor) : Failure → Prop
  | issuer {f : Fault} (h : last.issuer = .error f) : Untold chain last a (.x509 f)
  | subject {issuer : X509.Name} {f : Fault} (hi : last.issuer = .ok issuer) (h : a.certificate.subject = .error f) :
      Untold chain last a (.x509 f)
  | link {before after : List Certificate} {child issuer : Certificate} {f : Failure} (hn : Names last a)
      (heq : chain ++ [a.certificate] = before ++ child :: issuer :: after)
      (hbefore : (before ++ [child]).IsChain Certificate.SignedBy) (h : Link.Uncheckable child issuer f) :
      Untold chain last a f

theorem unclear_iff_untold {f : Failure} : Unclear chain last a f ↔ Untold chain last a f := by
  have hsigned : Link.Signed = Certificate.SignedBy := by
    funext child issuer
    exact propext Link.signed_iff
  constructor
  · intro h
    cases h with
    | issuer h => exact .issuer h
    | subject hi h => exact .subject hi h
    | link hn h =>
      obtain ⟨before, child, issuer, after, heq, hbefore, h⟩ := h
      exact .link hn heq (hsigned ▸ hbefore) (Link.between_eq_failed_iff.1 h)
  · intro h
    cases h with
    | issuer h => exact .issuer h
    | subject hi h => exact .subject hi h
    | link hn heq hbefore h =>
      exact .link hn ⟨_, _, _, _, heq, hsigned ▸ hbefore, Link.between_eq_failed_iff.2 h⟩

/-- A check of a chain can neither be passed nor refuse it; the checks before it are passed. -/
inductive Escapes (v : Validator) (members : List ChainMember) (att : Attestation) (w : World) : Failure → Prop
  | unread {before after : List ChainMember} {bs : Bytes} {chain : List Certificate}
      (heq : members = before ++ .octets bs :: after) (hread : List.Forall₂ ChainMember.Reads before chain)
      (h : Certificate.load bs = .error (.x509 .unsupportedVersion)) : Escapes v members att w (.x509 .unsupportedVersion)
  | unsought {leaf : Certificate} {rest : List Certificate} {f : Failure}
      (hread : List.Forall₂ ChainMember.Reads members (leaf :: rest)) (h : v.Unsought att leaf w f) :
      Escapes v members att w f
  | unclear {chain : List Certificate} {last : Certificate} {anchors : List TrustAnchor} {f : Fault}
      (hr : Registered v members att w chain last anchors) (hp : v.fullChainProhibited = true)
      (hno : ¬ HoldsAnchor chain anchors) (h : last.SelfUntold f) : Escapes v members att w (.x509 f)
  | beyond {chain : List Certificate} {last : Certificate} {anchors : List TrustAnchor}
      (hr : Registered v members att w chain last anchors) (hs : v.StopsShort chain last anchors) (h : att.IsBeyond) :
      Escapes v members att w (.range .unworded)
  | untimely {chain : List Certificate} {last : Certificate} {anchors : List TrustAnchor} {t : Int}
      {before after : List Certificate} {c : Certificate} {f : Fault}
      (hr : Registered v members att w chain last anchors) (hs : v.StopsShort chain last anchors)
      (ht : att.JudgedAt w.clock t) (heq : chain = before ++ c :: after) (hbefore : ∀ b ∈ before, b.ValidAt t)
      (h : c.Untimely t (.x509 f)) : Escapes v members att w (.x509 f)
  | untold {chain : List Certificate} {last : Certificate} {before after : List TrustAnchor} {a : TrustAnchor}
      {t : Int} {f : Failure} (hp : Passed v members att w chain last (before ++ a :: after) t)
      (hbefore : ∀ b ∈ before, PassesBy chain last b) (h : Untold chain last a f) : Escapes v members att w f

theorem escapes_iff {f : Failure} : v.Escapes members att w f ↔ (v.validate members att w).1 = .error f ∧ f.Foreign := by
  constructor
  · intro h
    cases h with
    | unread heq hread h =>
      exact ⟨validate_fst_of_refused (.unread heq hread (.unsupported h)), by simp [Failure.Foreign]⟩
    | unsought hread h =>
      exact ⟨validate_fst_of_refused (.unsought hread (findAnchors_eq_error_iff.2 h)), h.foreign⟩
    | unclear hr hp hno h =>
      exact ⟨validate_fst_of_refused (.notShort hr hp (.unclear hno (Certificate.isSelfSigned_eq_error_iff.2 h))),
        by simp [Failure.Foreign]⟩
    | beyond hr hs h => exact ⟨validate_fst_of_refused (.beyond hr hs h), by simp [Failure.Foreign]⟩
    | untimely hr hs ht heq hbefore h =>
      exact ⟨validate_fst_of_refused (.untimely hr hs ht heq hbefore h), by simp [Failure.Foreign]⟩
    | untold hp hbefore h =>
      have hu := unclear_iff_untold.2 h
      exact ⟨validate_fst_of_refused (.unclear hp hbefore hu), hu.ne_chain⟩
  · rintro ⟨hv, hf⟩
    cases refused_of_validate_fst hv with
    | unread heq hread h =>
      cases h with
      | damaged h => exact absurd rfl (hf _)
      | unsupported h => exact .unread heq hread h
    | empty h => exact absurd rfl (hf _)
    | unsought hread h => exact .unsought hread (findAnchors_eq_error_iff.1 h)
    | unregistered hread h => exact absurd rfl (hf _)
    | notShort hr hp h =>
      cases h with
      | holds h => exact absurd rfl (hf _)
      | unclear hno h => exact .unclear hr hp hno (Certificate.isSelfSigned_eq_error_iff.1 h)
    | beyond hr hs h => exact .beyond hr hs h
    | untimely hr hs ht heq hbefore h =>
      cases h with
      | outside ho hs => exact absurd rfl (hf _)
      | unnamed ho hs' => exact .untimely hr hs ht heq hbefore (.unnamed ho hs')
      | undated hu => exact .untimely hr hs ht heq hbefore (.undated hu)
    | unverified hp h => exact absurd rfl (hf _)
    | unclear hp hbefore h => exact .untold hp hbefore (unclear_iff_untold.1 h)

/-! ## Callers -/

/-- What a caller of a validation comes to: it has an answer for an anchor and one for a refusal, and something else
comes of a check that escapes. -/
inductive ComesTo {β : Type} (v : Validator) (members : List ChainMember) (att : Attestation) (w : World)
    (accepted : TrustAnchor → β) (refused : ChainFault → β) (escaped : Failure → β) : β → Prop
  | accepted {a : TrustAnchor} (h : (v.validate members att w).1 = .ok a) :
      ComesTo v members att w accepted refused escaped (accepted a)
  | refused {g : ChainFault} (h : (v.validate members att w).1 = .error (.chain g)) :
      ComesTo v members att w accepted refused escaped (refused g)
  | escaped {f : Failure} (h : v.Escapes members att w f) : ComesTo v members att w accepted refused escaped (escaped f)

/-- A caller that goes by the outcome of the validation. -/
theorem comesTo_of_eq {β : Type} {accepted : TrustAnchor → β} {refused : ChainFault → β} {escaped : Failure → β}
    {b : β} (ha : ∀ a, (v.validate members att w).1 = .ok a → b = accepted a)
    (hr : ∀ g, (v.validate members att w).1 = .error (.chain g) → b = refused g)
    (he : ∀ f, (v.validate members att w).1 = .error f → f.Foreign → b = escaped f) :
    v.ComesTo members att w accepted refused escaped b := by
  cases hv : (v.validate members att w).1 with
  | ok a =>
    rw [ha a hv]
    exact .accepted hv
  | error f =>
    by_cases hf : f.Foreign
    · rw [he f hv hf]
      exact .escaped (escapes_iff.2 ⟨hv, hf⟩)
    · obtain ⟨g, hg⟩ := not_forall.1 hf
      rw [not_not] at hg
      subst hg
      rw [hr g hv]
      exact .refused hv

theorem validate_comesTo : v.ComesTo members att w .ok (fun g => .error (.chain g)) .error (v.validate members att w).1 :=
  comesTo_of_eq (fun _ h => h) (fun _ h => h) fun _ h _ => h

theorem isTrustworthy_fst : (v.isTrustworthy members att w).1 = match (v.validate members att w).1 with
    | .ok _ => .ok true
    | .error (.chain _) => .ok false
    | .error f => .error f := by
  unfold isTrustworthy
  rw [Action.bind_apply, Action.attempt_apply]
  dsimp only
  split <;> simp_all

theorem isTrustworthy_comesTo : v.ComesTo members att w (fun _ => .ok true) (fun _ => .ok false) .error
    (v.isTrustworthy members att w).1 := by
  refine comesTo_of_eq (fun a h => ?_) (fun g h => ?_) fun f h hf => ?_
  · rw [isTrustworthy_fst, h]
  · rw [isTrustworthy_fst, h]
  · cases f with
    | chain g => exact absurd rfl (hf g)
    | _ => rw [isTrustworthy_fst, h]

theorem lookUpAuthority_fst {aaguid : Value} (h : members ≠ []) : (lookUpAuthority (some v) members aaguid w).1 =
    match (v.validate members ⟨aaguid, .null, none⟩ w).1 with
    | .ok a => .ok (some a.certificate)
    | .error (.chain _) => .ok none
    | .error f => .error f := by
  unfold lookUpAuthority
  cases members with
  | nil => exact absurd rfl h
  | cons m ms =>
    dsimp only
    rw [Action.bind_apply, Action.attempt_apply]
    dsimp only
    split <;> simp_all [Action.bind_apply]

theorem lookUpAuthority_comesTo {aaguid : Value} (hne : members ≠ []) :
    v.ComesTo members ⟨aaguid, .null, none⟩ w (fun a => .ok (some a.certificate)) (fun _ => .ok none) .error
      (lookUpAuthority (some v) members aaguid w).1 := by
  refine comesTo_of_eq (fun a h => ?_) (fun g h => ?_) fun f h hf => ?_
  · rw [lookUpAuthority_fst hne, h]
  · rw [lookUpAuthority_fst hne, h]
  · cases f with
    | chain g => exact absurd rfl (hf g)
    | _ => rw [lookUpAuthority_fst hne, h]

/-- An anchor that is given has a name, which is that of the last certificate's issuer. -/
theorem exists_subjectText {a : TrustAnchor} (h : (v.validate members att w).1 = .ok a) :
    ∃ subject, a.certificate.subjectText = .ok subject := by
  obtain ⟨chain, last, t, before, after, hd⟩ := deserves_of_validate_fst h
  obtain ⟨issuer, subject, -, hs, -⟩ := hd.leads.1
  exact ⟨subject.text, by rw [Certificate.subjectText, hs]; rfl⟩

end Validator

namespace Http

variable [Json.Limits]

/-- A well-formed request for the validation of a chain. -/
structure Asks (r : Request) (q : Question) : Prop where
  routed : ∃ t, Target.ofText r.target = .ok t ∧ find r.method t.isSocket t.path = .route verifyRoute
  method : r.method ≠ "OPTIONS"
  question : (document r).map readQuestion = .ok (.ok q)

variable {s : Service} {r : Request} {q : Question} {v : Validator} {w : World}

omit [Json.Limits] in
/-- The validation that a request asks for, and what is answered for an anchor. -/
theorem validate_fst : (validate q v w).1 = match (v.validate (q.chain.map .octets) ⟨q.aaguid, .null, none⟩ w).1 with
    | .ok a => (a.certificate.subjectText.mapError .x509).map fun subject => answer 200 (trusted subject a)
    | .error (.chain g) => .ok (answer 200 (untrusted g))
    | .error f => .error f := by
  unfold validate
  rw [Action.bind_apply, Action.attempt_apply]
  dsimp only
  cases (v.validate (q.chain.map .octets) ⟨q.aaguid, .null, none⟩ w).1 with
  | ok a =>
    dsimp only
    rw [Action.bind_apply, Action.ofX509_apply]
    cases a.certificate.subjectText <;> rfl
  | error f => cases f <;> rfl

theorem document_eq_some_iff {d : Value} :
    document r = .ok (some d) ↔ isJson r.contentType = true ∧ Json.ofBytes r.body = .ok d := by
  unfold document
  cases isJson r.contentType <;> cases Json.ofBytes r.body with
  | ok u => simp
  | error e => cases e <;> simp

theorem run_verifyRoute : verifyRoute.run = verify := by rw [verifyRoute]

/-- What a route comes to is settled. -/
theorem handle_of_run {route : Route} {t : Target} {s' : Service} {x : Except Failure Response} {w' : World}
    (ht : Target.ofText r.target = .ok t) (hfind : find r.method t.isSocket t.path = .route route)
    (hm : r.method ≠ "OPTIONS") (hrun : route.run s r w = (.ok (s', x), w')) :
    handle s r w = settle r t (s', x) w' := by
  unfold handle
  rw [Action.bind_apply, Action.ofExcept_apply, ht]
  dsimp only
  rw [hfind]
  dsimp only
  rw [if_neg hm]
  exact Action.bind_of_ok _ hrun

/-- Where a validator is published, a request is settled by what the validation comes to. -/
theorem handle_of_asks (hv : s.validator = some v) (h : Asks r q) : ∃ response,
    (handle s r w).1 = .ok (s, response) ∧
      response.status = match (validate q v w).1 with
        | .ok answer => answer.status
        | .error _ => 500 := by
  obtain ⟨t, ht, hfind⟩ := h.routed
  have hverify : verifyRoute.run s r w = (.ok (s, (validate q v w).1), (validate q v w).2) := by
    rw [run_verifyRoute]
    unfold verify Service.ensure Service.arrive
    rw [h.question, hv]
    rfl
  rw [handle_of_run ht hfind h.method hverify]
  cases (validate q v w).1 with
  | ok response => exact ⟨response, rfl, rfl⟩
  | error f => exact ⟨⟨500, none⟩, rfl, rfl⟩

/-- The status of the answer: a validation that escapes is answered by what says nothing. -/
theorem handle_comesTo (hv : s.validator = some v) (h : Asks r q) : ∃ response, (handle s r w).1 = .ok (s, response) ∧
    v.ComesTo (q.chain.map .octets) ⟨q.aaguid, .null, none⟩ w (fun _ => 200) (fun _ => 200) (fun _ => 500)
      response.status := by
  obtain ⟨response, hhandle, hstatus⟩ := handle_of_asks (w := w) hv h
  refine ⟨response, hhandle, ?_⟩
  rw [hstatus, validate_fst]
  refine Validator.comesTo_of_eq (fun a h => ?_) (fun g h => ?_) fun f h hf => ?_
  · obtain ⟨subject, hs⟩ := Validator.exists_subjectText h
    rw [h]
    dsimp only
    rw [hs]
    rfl
  · rw [h]
    rfl
  · rw [h]
    cases f with
    | chain g => exact absurd rfl (hf g)
    | _ => rfl

end Http

namespace Validator

variable [Json.Limits] in
/-- **What a validation comes to**: an anchor, a reason not to trust the chain, or a failure of one of the checks
listed in `Escapes`, and of no other.  Its callers answer in the first two cases: with a truth value, with the
anchor's certificate or none, or with a status of 200; a check that escapes leaves through them too.  An anchor that
the chain deserves is given to it unless a check before escapes, whichever anchors the chain passes by before.  For a
fixed listing and identifiers of the kinds that are asked for, a lookup escapes only where the first certificate has no
key. -/
theorem validate_or_escapes (v : Validator) (members : List ChainMember) (att : Attestation) (w : World) :
    v.ComesTo members att w .ok (fun g => .error (.chain g)) .error (v.validate members att w).1 ∧
    v.ComesTo members att w (fun _ => .ok true) (fun _ => .ok false) .error (v.isTrustworthy members att w).1 ∧
    (∀ f, v.Escapes members att w f ↔ (v.validate members att w).1 = .error f ∧ f.Foreign) ∧
    (∀ chain last t before a after, v.Deserves members att w chain last t before a after →
      ((v.validate members att w).1 = .ok a ↔ ∀ f, ¬ v.Escapes members att w f)) ∧
    (∀ anchors leaf f, v.repository = .fixed anchors → att.IsOrdinary → (v.Unsought att leaf w f ↔
      att.IsByKey ∧ ∃ g, leaf.publicKey = .error g ∧ f = .x509 g)) ∧
    (∀ aaguid, members ≠ [] → v.ComesTo members ⟨aaguid, .null, none⟩ w (fun a => .ok (some a.certificate))
      (fun _ => .ok none) .error (lookUpAuthority (some v) members aaguid w).1) ∧
    ∀ s r q, s.validator = some v → Http.Asks r q → ∃ response, (Http.handle s r w).1 = .ok (s, response) ∧
      v.ComesTo (q.chain.map .octets) ⟨q.aaguid, .null, none⟩ w (fun _ => 200) (fun _ => 200) (fun _ => 500)
        response.status := by
  refine ⟨validate_comesTo, isTrustworthy_comesTo, fun f => escapes_iff, ?_, fun anchors leaf f => unsought_fixed_iff,
    fun aaguid => lookUpAuthority_comesTo, fun s r q => Http.handle_comesTo⟩
  intro chain last t before a after hd
  rcases hd.validate_fst_cases with ⟨hok, -⟩ | ⟨-, f, herror, hf⟩
  · refine ⟨fun _ f hf => ?_, fun _ => hok⟩
    rw [escapes_iff, hok] at hf
    cases hf.1
  · refine ⟨fun hok => ?_, fun hno => absurd (escapes_iff.2 ⟨herror, hf⟩) (hno f)⟩
    rw [herror] at hok
    cases hok

end Validator
end AttestationTrust
