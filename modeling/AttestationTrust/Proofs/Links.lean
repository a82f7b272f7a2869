import Mathlib.Data.List.Chain
import AttestationTrust.Proofs.Action
import AttestationTrust.Validator
/-!
# Chains member by member

How a chain is read and how its links are checked, without the recursions that do it: a chain reads when each of its
members does (`ChainMember.loadAll_eq_ok_iff`), and otherwise fails at the first that does not; its links hold when
every certificate is signed by the key of the next one (`Link.ofChain_eq_verified_iff`), and otherwise the first that
is not decides (`Link.ofChain_eq_iff_of_ne`).
-/
namespace AttestationTrust

open X509 (Certificate Fault)

namespace ChainMember

/-- A member of a chain reads as a certificate. -/
def Reads : ChainMember → Certificate → Prop
  | .certificate c, d => c = d
  | .octets bs, d => Certificate.load bs = .ok d

/-- A member of a chain does not read, and why. -/
inductive Unread (position : Nat) : ChainMember → Failure → Prop
  | damaged {bs : Bytes} {f : CertificateFault} (h : Certificate.load bs = .error (.certificate f)) :
      Unread position (.octets bs) (.chain (.badMember position f))
  /-- The version is not one that is read: this is no fault of a chain. -/
  | unsupported {bs : Bytes} (h : Certificate.load bs = .error (.x509 .unsupportedVersion)) :
      Unread position (.octets bs) (.x509 .unsupportedVersion)

end ChainMember

namespace X509

theorem require_eq_error {b : Bool} {f g : Fault} (h : require b f = .error g) : g = f := by
  unfold require at h
  split at h
  · cases h
  · cases h
    rfl

namespace Certificate

theorem read_error_cases {der : Bytes} {f : Fault} (h : Content.read der = .error f) :
    f = .malformed ∨ f = .unsupportedVersion := by
  rcases except_bind_eq_error_iff.1 h with h | ⟨⟨version, algorithm, content⟩, -, h⟩
  · cases hr : (Der.Reader.within Der.sequence Content.reader).all der with
    | none =>
      rw [hr] at h
      cases h
      exact .inl rfl
    | some r =>
      rw [hr] at h
      cases h
  · rcases except_bind_eq_error_iff.1 h with h | ⟨_, -, h⟩
    · exact .inr (require_eq_error h)
    · rcases except_bind_eq_error_iff.1 h with h | ⟨_, -, h⟩
      · exact .inl (require_eq_error h)
      · cases h

theorem ofDer_error_cases {der : Bytes} {f : Fault} (h : ofDer der = .error f) :
    f = .malformed ∨ f = .unsupportedVersion := by
  unfold ofDer at h
  split at h
  · cases h
  · rename_i g hg
    cases h
    exact read_error_cases hg

theorem ofDerOrFault_error_cases {der : Bytes} {f : Failure} (h : ofDerOrFault der = .error f) :
    f = .certificate .unparsable ∨ f = .x509 .unsupportedVersion := by
  unfold ofDerOrFault at h
  split at h
  · cases h
  · cases h
    exact .inl rfl
  · rename_i g hne hg
    cases h
    rcases ofDer_error_cases hg with rfl | rfl
    · exact absurd rfl hne
    · exact .inr rfl

/-- A document that does not load is at fault as a certificate, or of a version that is not read. -/
theorem load_error_cases {bs : Bytes} {f : Failure} (h : load bs = .error f) :
    (∃ g, f = .certificate g) ∨ f = .x509 .unsupportedVersion := by
  have hder : ∀ der, ofDerOrFault der = .error f → (∃ g, f = .certificate g) ∨ f = .x509 .unsupportedVersion :=
    fun der hd => (ofDerOrFault_error_cases hd).imp (fun hf => ⟨_, hf⟩) id
  unfold load at h
  split at h
  · cases h
    exact .inl ⟨_, rfl⟩
  · split at h
    · split at h
      · exact hder _ h
      · cases h
        exact .inl ⟨_, rfl⟩
    · exact hder _ h

end Certificate
end X509

namespace ChainMember

theorem load_eq_ok_iff {position : Nat} {m : ChainMember} {c : Certificate} :
    m.load position = .ok c ↔ m.Reads c := by
  cases m with
  | certificate d => simp [load, Reads]
  | octets bs =>
    simp only [load, Reads]
    split
    · rename_i f hf
      simp [hf]
    · rfl

theorem load_eq_error_iff {position : Nat} {m : ChainMember} {f : Failure} :
    m.load position = .error f ↔ m.Unread position f := by
  cases m with
  | certificate d =>
    constructor
    · intro h
      cases h
    · rintro ⟨⟩
  | octets bs =>
    constructor
    · intro h
      simp only [load] at h
      split at h
      · rename_i g hg
        cases h
        exact .damaged hg
      · rename_i hne
        rcases Certificate.load_error_cases h with ⟨g, rfl⟩ | rfl
        · exact absurd h (hne g)
        · exact .unsupported h
    · rintro (h | h)
      · simp [load, h]
      · simp [load, h]

theorem loadAll_eq_ok_iff {members : List ChainMember} {chain : List Certificate} {position : Nat} :
    loadAll position members = .ok chain ↔ List.Forall₂ Reads members chain := by
  induction members generalizing position chain with
  | nil => simp [loadAll, eq_comm]
  | cons m ms ih =>
    simp only [loadAll, except_bind_eq_ok_iff, load_eq_ok_iff, ih]
    constructor
    · rintro ⟨c, hc, cs, hcs, h⟩
      cases h
      exact .cons hc hcs
    · rintro (_ | ⟨hc, hcs⟩)
      exact ⟨_, hc, _, hcs, rfl⟩

/-- A chain fails to read at the first member that does. -/
theorem loadAll_eq_error_iff {members : List ChainMember} {f : Failure} {position : Nat} :
    loadAll position members = .error f ↔
      ∃ before m after chain, members = before ++ m :: after ∧ List.Forall₂ Reads before chain ∧
        m.Unread (position + before.length) f := by
  induction members generalizing position with
  | nil => simp [loadAll]
  | cons m ms ih =>
    simp only [loadAll, except_bind_eq_error_iff, load_eq_error_iff, load_eq_ok_iff, ih]
    constructor
    · rintro (h | ⟨c, hc, ⟨before, n, after, chain, rfl, hread, hn⟩ | ⟨cs, -, h⟩⟩)
      · exact ⟨[], m, ms, [], rfl, .nil, h⟩
      · refine ⟨m :: before, n, after, c :: chain, rfl, .cons hc hread, ?_⟩
        rwa [List.length_cons, Nat.add_comm before.length, ← Nat.add_assoc]
      · cases h
    · rintro ⟨before, n, after, chain, h, hread, hn⟩
      cases hread with
      | nil =>
        cases h
        exact .inl hn
      | @cons k c before chain hc hread =>
        cases h
        refine .inr ⟨c, hc, .inl ⟨before, n, after, chain, rfl, hread, ?_⟩⟩
        rwa [Nat.add_assoc, Nat.add_comm 1]

end ChainMember

namespace Link

/-- The first certificate is signed by the key of the second. -/
def Signed (child issuer : Certificate) : Prop := between child issuer = .verified

/-- The first link of a chain that is not signed is as given. -/
def EndsAs (l : Link) (chain : List Certificate) : Prop :=
  ∃ before child issuer after, chain = before ++ child :: issuer :: after ∧
    (before ++ [child]).IsChain Signed ∧ between child issuer = l

theorem ofChain_cons_cons_of_signed {child issuer : Certificate} (rest : List Certificate)
    (h : Signed child issuer) : ofChain (child :: issuer :: rest) = ofChain (issuer :: rest) := by
  rw [ofChain, show between child issuer = .verified from h]

theorem ofChain_cons_cons_of_not_signed {child issuer : Certificate} (rest : List Certificate)
    (h : ¬ Signed child issuer) : ofChain (child :: issuer :: rest) = between child issuer := by
  rw [ofChain]
  split
  · exact absurd ‹_› h
  · rfl

theorem ofChain_eq_verified_iff : ∀ {chain : List Certificate}, ofChain chain = .verified ↔ chain.IsChain Signed
  | [] => by simp [ofChain]
  | [_] => by simp [ofChain]
  | child :: issuer :: rest => by
    rw [List.isChain_cons_cons]
    by_cases h : Signed child issuer
    · rw [ofChain_cons_cons_of_signed rest h, ofChain_eq_verified_iff]
      simp [h]
    · rw [ofChain_cons_cons_of_not_signed rest h]
      simp only [h, false_and, iff_false]
      exact h

/-- The first link that is not signed decides. -/
theorem ofChain_eq_iff_of_ne {l : Link} (hl : l ≠ .verified) :
    ∀ {chain : List Certificate}, ofChain chain = l ↔ EndsAs l chain
  | [] => by simp [ofChain, EndsAs, Ne.symm hl]
  | [_] => by
    simp only [ofChain, EndsAs, Ne.symm hl, false_iff]
    rintro ⟨before, child, issuer, after, h, -⟩
    have := congrArg List.length h
    simp only [List.length_cons, List.length_nil, List.length_append] at this
    omega
  | c :: d :: rest => by
    by_cases h : Signed c d
    · rw [ofChain_cons_cons_of_signed rest h, ofChain_eq_iff_of_ne hl]
      constructor
      · rintro ⟨before, child, issuer, after, heq, hchain, hbetween⟩
        refine ⟨c :: before, child, issuer, after, by rw [heq]; rfl, ?_, hbetween⟩
        cases before with
        | nil =>
          cases heq
          simp [h]
        | cons b before =>
          cases heq
          exact List.isChain_cons_cons.2 ⟨h, hchain⟩
      · rintro ⟨before, child, issuer, after, heq, hchain, hbetween⟩
        cases before with
        | nil =>
          cases heq
          exact absurd (hbetween.symm.trans h) hl
        | cons b before =>
          rw [List.cons_append, List.cons.injEq] at heq
          exact ⟨before, child, issuer, after, heq.2, (List.isChain_cons.1 hchain).2, hbetween⟩
    · rw [ofChain_cons_cons_of_not_signed rest h]
      constructor
      · exact fun hb => ⟨[], c, d, rest, rfl, List.isChain_singleton _, hb⟩
      · rintro ⟨before, child, issuer, after, heq, hchain, hbetween⟩
        cases before with
        | nil =>
          cases heq
          exact hbetween
        | cons b before =>
          -- the first link of all is not signed, so it cannot stand before another one
          exfalso
          cases before with
          | nil =>
            cases heq
            exact h (List.isChain_cons_cons.1 hchain).1
          | cons b' before =>
            cases heq
            exact h (List.isChain_cons_cons.1 hchain).1

/-- A check that cannot be made is no fault of the chain. -/
theorem between_failed_ne_chain {child issuer : Certificate} {f : Failure} (h : between child issuer = .failed f)
    (g : ChainFault) : f ≠ .chain g := by
  rintro rfl
  have hhash : ∀ check, ofHash child check ≠ .failed (.chain g) := by
    intro check hf
    unfold ofHash at hf
    split at hf
    · split at hf <;> cases hf
    · cases hf
    · cases hf
    · cases hf
  unfold between at h
  split at h
  · exact hhash _ h
  · exact hhash _ h
  · cases h
  · cases h
  · cases h

end Link
end AttestationTrust
