import AttestationTrust.Proofs.Escapes
import AttestationTrust.Proofs.Registries
/-!
# What is looked up for an attestation

The anchors of a chain are found by one lookup, and what is looked up is settled by the attestation and by the key of
the first certificate before anything is asked of a registry (`Attestation.query`).  An attestation that states a model
other than the zero one has the anchors of that model.  The anchors of a key count where the model is absent or the
zero one, and also where what is stated stands for no model at all (`Attestation.IsIllegible`).  Whatever anchor a chain
is given is among the answers to that one lookup (`Registry.findAnchors_asks_once`).
-/
namespace AttestationTrust

open X509 (Certificate)

namespace Attestation

variable {att : Attestation} {leaf : Certificate} {q : Query} {f : Failure}

/-- What is stated of the model stands for these octets. -/
def Denotes (att : Attestation) (bs : Bytes) : Prop := Aaguid.ofValue att.aaguid = .ok (some bs)

/-- Something is stated of the model, and it stands for none. -/
def IsIllegible (att : Attestation) : Prop := att.aaguid ≠ .null ∧ Aaguid.ofValue att.aaguid = .ok none

/-- Nothing is looked up, and why: what is stated of the model is of no kind that has octets, or the key that counts in
its place is not there. -/
inductive Unasked (att : Attestation) (leaf : Certificate) : Failure → Prop
  | aaguid {f : Failure} (h : Aaguid.ofValue att.aaguid = .error f) : Unasked att leaf f
  | key {f : X509.Fault} (hk : att.IsByKey) (ht : att.keyIdentifier.truthy = false) (h : leaf.publicKey = .error f) :
      Unasked att leaf (.x509 f)

theorem isByKey_iff : att.IsByKey ↔ att.aaguid = .null ∨ att.Denotes Aaguid.zero ∨ att.IsIllegible := by
  unfold IsByKey Denotes IsIllegible
  by_cases hnull : att.aaguid = .null
  · simp [hnull, Aaguid.ofValue]
  · simp [hnull, or_comm]

theorem isIllegible_of_bytes {bs : Bytes} (h : att.aaguid = .bytes bs) :
    att.IsIllegible ↔ bs.length ≠ aaguidLength := by
  unfold IsIllegible
  simp [h, Aaguid.ofValue, Value.octets, Except.map]

theorem isIllegible_of_text {s : String} (h : att.aaguid = .text s) : att.IsIllegible ↔ Aaguid.ofText? s = none := by
  unfold IsIllegible
  simp [h, Aaguid.ofValue]

theorem query_of_isByKey (h : att.IsByKey) : att.query leaf = att.keyQuery leaf := by
  unfold query
  obtain h | h := h
  · rw [h]
    rfl
  · rw [h]
    show (if Aaguid.zero = Aaguid.zero then att.keyQuery leaf else .ok (.aaguid Aaguid.zero)) = _
    rw [if_pos rfl]

theorem Asks.query_eq (h : att.Asks leaf q) : att.query leaf = .ok q := by
  cases h with
  | model h hz =>
    unfold query
    rw [h]
    exact if_neg hz
  | given hk h => rw [query_of_isByKey hk, keyQuery, if_pos h]
  | leaf hk ht h =>
    rw [query_of_isByKey hk, keyQuery, if_neg (by simp [ht]), h]
    rfl

theorem Unasked.query_eq (h : att.Unasked leaf f) : att.query leaf = .error f := by
  cases h with
  | aaguid h =>
    unfold query
    rw [h]
    rfl
  | key hk ht h =>
    rw [query_of_isByKey hk, keyQuery, if_neg (by simp [ht]), Validator.keyIdentifier_eq_error_iff.2 h]
    rfl

theorem asks_or_unasked (att : Attestation) (leaf : Certificate) :
    (∃ q, att.Asks leaf q) ∨ ∃ f, att.Unasked leaf f := by
  cases ha : Aaguid.ofValue att.aaguid with
  | error f => exact .inr ⟨f, .aaguid ha⟩
  | ok wanted =>
    by_cases hk : att.IsByKey
    · cases ht : att.keyIdentifier.truthy with
      | true => exact .inl ⟨_, .given hk ht⟩
      | false =>
        cases hl : leaf.keyIdentifier with
        | ok bs => exact .inl ⟨_, .leaf hk ht hl⟩
        | error g => exact .inr ⟨_, .key hk ht (Validator.keyIdentifier_eq_error_iff.1 hl)⟩
    · cases wanted with
      | none => exact absurd (.inl ha) hk
      | some bs => exact .inl ⟨_, .model ha fun hz => hk (.inr (hz ▸ ha))⟩

theorem Asks.unique {q' : Query} (h : att.Asks leaf q) (h' : att.Asks leaf q') : q = q' := by
  have heq := h.query_eq.symm.trans h'.query_eq
  exact Except.ok.inj heq

/-- A key is looked up only where no model counts. -/
theorem Asks.isKey_iff (h : att.Asks leaf q) : (∃ v, q = .key v) ↔ att.IsByKey := by
  cases h with
  | model h hz =>
    refine iff_of_false nofun ?_
    rintro (hk | hk)
    · rw [h] at hk
      cases hk
    · rw [h] at hk
      cases hk
      exact hz rfl
  | given hk h => exact iff_of_true ⟨_, rfl⟩ hk
  | leaf hk ht h => exact iff_of_true ⟨_, rfl⟩ hk

theorem Asks.key_cases {v : Value} (h : att.Asks leaf (.key v)) :
    att.keyIdentifier.truthy = true ∧ v = att.keyIdentifier ∨
      att.keyIdentifier.truthy = false ∧ ∃ bs, leaf.keyIdentifier = .ok bs ∧ v = .bytes bs := by
  cases h with
  | given hk h => exact .inl ⟨h, rfl⟩
  | leaf hk ht h => exact .inr ⟨ht, _, h, rfl⟩

theorem Asks.eq_of_denotes {bs : Bytes} (h : att.Asks leaf q) (hbs : att.Denotes bs) (hz : bs ≠ Aaguid.zero) :
    q = .aaguid bs :=
  h.unique (.model hbs hz)

end Attestation

namespace Registry

variable {g : Registry} {att : Attestation} {leaf : Certificate} {members : List ChainMember} {w : World}

theorem findAnchors_of_asks {q : Query} (h : att.Asks leaf q) : g.findAnchors leaf att = g.find q := by
  rw [findAnchors_eq, h.query_eq]
  exact pure_bind _ _

theorem findAnchors_of_unasked {f : Failure} (h : att.Unasked leaf f) : g.findAnchors leaf att w = (.error f, w) := by
  rw [findAnchors_eq, h.query_eq]
  rfl

theorem mem_of_conclude {prohibited : Bool} {chain : List Certificate} {last : Certificate} {a : TrustAnchor}
    {anchors : List TrustAnchor} (h : (Validator.conclude prohibited att chain last anchors w).1 = .ok a) :
    a ∈ anchors := by
  have hjudge : ∀ v, ((do
      let instant ← Action.ofExcept (Validator.instantOf att.moment (← get).clock)
      Action.ofExcept (Validator.checkValidity instant chain)
      Validator.findIssuer chain last anchors : Action TrustAnchor) v).1 = .ok a → a ∈ anchors := by
    intro v hv
    obtain ⟨world, v, -, hv⟩ := Action.exists_of_bind_fst_eq_ok hv
    obtain ⟨instant, v, -, hv⟩ := Action.exists_of_bind_fst_eq_ok hv
    obtain ⟨_, v, -, hv⟩ := Action.exists_of_bind_fst_eq_ok hv
    cases Validator.findIssuer_eq_iff_search.1 hv with
    | reached heq hbefore ha =>
      rw [heq]
      exact List.mem_append_right _ List.mem_cons_self
  unfold Validator.conclude at h
  cases hempty : anchors.isEmpty with
  | true =>
    rw [hempty] at h
    cases h
  | false =>
    rw [hempty] at h
    cases prohibited with
    | false => exact hjudge w h
    | true =>
      obtain ⟨holds, v, -, h⟩ := Action.exists_of_bind_fst_eq_ok h
      cases holds with
      | true => cases h
      | false => exact hjudge v h

/-- A chain is given an anchor that the lookup has answered. -/
theorem exists_asks_of_validate {prohibited : Bool} {a : TrustAnchor}
    (h : (g.validate prohibited members att w).1 = .ok a) : ∃ leaf rest q anchors,
      List.Forall₂ ChainMember.Reads members (leaf :: rest) ∧ att.Asks leaf q ∧ (g.find q w).1 = .ok anchors ∧
        a ∈ anchors := by
  obtain ⟨chain, v, hread, h⟩ := Action.exists_of_bind_fst_eq_ok h
  rw [Action.ofExcept_apply, Prod.mk.injEq] at hread
  obtain ⟨hread, rfl⟩ := hread
  cases chain with
  | nil => cases h
  | cons leaf rest =>
    obtain ⟨anchors, v, hfound, h⟩ := Action.exists_of_bind_fst_eq_ok h
    obtain ⟨q, hq⟩ | ⟨f, hf⟩ := att.asks_or_unasked leaf
    · rw [findAnchors_of_asks hq] at hfound
      refine ⟨leaf, rest, q, anchors, ChainMember.loadAll_eq_ok_iff.1 hread, hq, ?_, mem_of_conclude h⟩
      rw [hfound]
    · rw [findAnchors_of_unasked hf] at hfound
      cases hfound

/-- **Anchors are found by one lookup**, whatever they are looked up in, or by none where an attestation comes to
nothing that can be looked up.  A key is looked up exactly where the model is absent, is the zero one, or is stated by
octets or a text that stand for no model; then it is the key that is given, or else that of the first certificate.  Any
other model is looked up itself.  A chain is given no anchor but one of those that this lookup answers. -/
theorem findAnchors_asks_once (att : Attestation) :
    (∀ leaf, (∃ q, att.Asks leaf q) ∨ ∃ f, att.Unasked leaf f) ∧
    (∀ leaf q, att.Asks leaf q → (∀ g : Registry, g.findAnchors leaf att = g.find q) ∧
      (∀ v : Validator, v.findAnchors leaf att = v.repository.find q) ∧
      ((∃ v, q = .key v) ↔ att.aaguid = .null ∨ att.Denotes Aaguid.zero ∨ att.IsIllegible) ∧
      (∀ v, q = .key v → att.keyIdentifier.truthy = true ∧ v = att.keyIdentifier ∨
        att.keyIdentifier.truthy = false ∧ ∃ bs, leaf.keyIdentifier = .ok bs ∧ v = .bytes bs) ∧
      ∀ bs, att.Denotes bs → bs ≠ Aaguid.zero → q = .aaguid bs) ∧
    (∀ leaf f, att.Unasked leaf f → (∀ (g : Registry) w, g.findAnchors leaf att w = (.error f, w)) ∧
      ∀ (v : Validator) w, v.findAnchors leaf att w = (.error f, w)) ∧
    (∀ bs, att.aaguid = .bytes bs → (att.IsIllegible ↔ bs.length ≠ aaguidLength)) ∧
    (∀ s, att.aaguid = .text s → (att.IsIllegible ↔ Aaguid.ofText? s = none)) ∧
    (∀ (g : Registry) prohibited members w a, (g.validate prohibited members att w).1 = .ok a → ∃ leaf rest q anchors,
      List.Forall₂ ChainMember.Reads members (leaf :: rest) ∧ att.Asks leaf q ∧ (g.find q w).1 = .ok anchors ∧
        a ∈ anchors) ∧
    ∀ (v : Validator) members w a, (v.validate members att w).1 = .ok a → ∃ leaf rest q anchors,
      List.Forall₂ ChainMember.Reads members (leaf :: rest) ∧ att.Asks leaf q ∧ (v.repository.find q w).1 = .ok anchors ∧
        a ∈ anchors := by
  refine ⟨att.asks_or_unasked, fun leaf q hq => ?_, fun leaf f hf => ?_, ?_, ?_, ?_, ?_⟩
  · refine ⟨fun g => findAnchors_of_asks hq, fun v => ?_, ?_, ?_, fun bs => hq.eq_of_denotes⟩
    · rw [← findAnchors_ofRepository, findAnchors_of_asks hq]
      rfl
    · rw [hq.isKey_iff, Attestation.isByKey_iff]
    · rintro v rfl
      exact hq.key_cases
  · refine ⟨fun g w => findAnchors_of_unasked hf, fun v w => ?_⟩
    rw [← findAnchors_ofRepository, findAnchors_of_unasked hf]
  · exact fun bs => Attestation.isIllegible_of_bytes
  · exact fun s => Attestation.isIllegible_of_text
  · exact fun g prohibited members w a => exists_asks_of_validate
  · intro v members w a h
    rw [← validate_ofRepository] at h
    exact exists_asks_of_validate h

end Registry
end AttestationTrust
