import AttestationTrust.Proofs.Action
import AttestationTrust.Validator
/-!
# When a chain is valid

Both ends of a certificate's validity belong to it, and what is compared are instants: a moment is the same whatever
the offset of the clock it was read from (`Attestation.JudgedAt`).  A chain is valid when each of its certificates is;
otherwise the first that is not refuses it (`Validator.checkValidity_eq_error_iff`).
-/
namespace AttestationTrust

open X509 (Certificate Fault)

namespace X509.Certificate

/-- Both ends of the validity belong to it. -/
def ValidAt (c : Certificate) (t : Int) : Prop :=
  ∃ first last, c.content.notBefore = some first ∧ c.content.notAfter = some last ∧ first ≤ t ∧ t ≤ last

def OutsideAt (c : Certificate) (t : Int) : Prop :=
  ∃ first, c.content.notBefore = some first ∧ (t < first ∨ ∃ last, c.content.notAfter = some last ∧ last < t)

/-- An end of the validity is needed and lies before the calendar. -/
def UndatedAt (c : Certificate) (t : Int) : Prop :=
  c.content.notBefore = none ∨ ∃ first, c.content.notBefore = some first ∧ first ≤ t ∧ c.content.notAfter = none

/-- What refuses a chain for the validity of one of its certificates. -/
inductive Untimely (c : Certificate) (t : Int) : Failure → Prop
  | outside {subject : String} (h : c.OutsideAt t) (hs : c.subjectText = .ok subject) :
      Untimely c t (.chain (.notValidAt subject (Moment.ofInstant t).text))
  | unnamed {f : Fault} (h : c.OutsideAt t) (hs : c.subjectText = .error f) : Untimely c t (.x509 f)
  | undated (h : c.UndatedAt t) : Untimely c t (.x509 .malformed)

theorem isValidAt_eq_ok_true_iff {c : Certificate} {t : Int} : c.isValidAt t = .ok true ↔ c.ValidAt t := by
  cases hb : c.content.notBefore with
  | none => simp [isValidAt, ValidAt, hb, orMalformed, bind, Except.bind]
  | some first =>
    cases ha : c.content.notAfter with
    | none => by_cases ht : t < first <;> simp [isValidAt, ValidAt, hb, ha, orMalformed, bind, Except.bind, ht]
    | some last =>
      by_cases ht : t < first
      · simp [isValidAt, ValidAt, hb, ha, orMalformed, bind, Except.bind, ht, Int.not_le.2 ht]
      · simp [isValidAt, ValidAt, hb, ha, orMalformed, bind, Except.bind, ht, Int.not_lt.1 ht]

theorem isValidAt_eq_ok_false_iff {c : Certificate} {t : Int} : c.isValidAt t = .ok false ↔ c.OutsideAt t := by
  cases hb : c.content.notBefore with
  | none => simp [isValidAt, OutsideAt, hb, orMalformed, bind, Except.bind]
  | some first =>
    cases ha : c.content.notAfter with
    | none => by_cases ht : t < first <;> simp [isValidAt, OutsideAt, hb, ha, orMalformed, bind, Except.bind, ht]
    | some last => by_cases ht : t < first <;> simp [isValidAt, OutsideAt, hb, ha, orMalformed, bind, Except.bind, ht]

theorem isValidAt_eq_error_iff {c : Certificate} {t : Int} {f : Fault} :
    c.isValidAt t = .error f ↔ f = .malformed ∧ c.UndatedAt t := by
  cases hb : c.content.notBefore with
  | none => simp [isValidAt, UndatedAt, hb, orMalformed, bind, Except.bind, eq_comm]
  | some first =>
    cases ha : c.content.notAfter with
    | none =>
      by_cases ht : t < first
      · simp [isValidAt, UndatedAt, hb, ha, orMalformed, bind, Except.bind, ht]
      · simp [isValidAt, UndatedAt, hb, ha, orMalformed, bind, Except.bind, ht, Int.not_lt.1 ht, eq_comm]
    | some last => by_cases ht : t < first <;> simp [isValidAt, UndatedAt, hb, ha, orMalformed, bind, Except.bind, ht]

end X509.Certificate

namespace Attestation

/-- The instant at which a chain is judged: that of the moment given, whatever the offset of its clock, and else that
of the clock. -/
def JudgedAt (att : Attestation) (clock t : Int) : Prop :=
  match att.moment with
  | none => t = clock
  | some m => t = m.wall - m.offset ∧ 0 ≤ t ∧ t < Moment.horizon

/-- The moment given lies outside the calendar in universal time. -/
def IsBeyond (att : Attestation) : Prop :=
  ∃ m, att.moment = some m ∧ (m.wall - m.offset < 0 ∨ Moment.horizon ≤ m.wall - m.offset)

end Attestation

namespace Validator

theorem instantOf_eq_ok_iff {att : Attestation} {clock t : Int} :
    instantOf att.moment clock = .ok t ↔ att.JudgedAt clock t := by
  unfold instantOf Attestation.JudgedAt
  cases att.moment with
  | none => simp [eq_comm]
  | some m =>
    simp only [Moment.instant?]
    split
    · rename_i u hu
      split at hu
      · cases hu
        simp only [Except.ok.injEq]
        constructor
        · rintro rfl
          exact ⟨rfl, ‹_›⟩
        · exact fun h => h.1.symm
      · cases hu
    · rename_i hu
      split at hu
      · cases hu
      · rename_i hout
        constructor
        · intro h
          cases h
        · rintro ⟨rfl, h⟩
          exact absurd h hout

theorem instantOf_eq_error_iff {att : Attestation} {clock : Int} {f : Failure} :
    instantOf att.moment clock = .error f ↔ f = .range .unworded ∧ att.IsBeyond := by
  unfold instantOf Attestation.IsBeyond
  cases att.moment with
  | none => simp
  | some m =>
    simp only [Moment.instant?]
    split
    · rename_i u hu
      split at hu
      · rename_i hin
        constructor
        · intro h
          cases h
        · rintro ⟨-, m', hm, hout⟩
          cases hm
          omega
      · cases hu
    · rename_i hu
      split at hu
      · cases hu
      · rename_i hout
        constructor
        · intro h
          cases h
          exact ⟨rfl, m, rfl, by omega⟩
        · rintro ⟨rfl, -⟩
          rfl

theorem checkValidity_eq_ok_iff {t : Int} {u : Unit} : ∀ {chain : List Certificate},
    checkValidity t chain = .ok u ↔ ∀ c ∈ chain, c.ValidAt t
  | [] => by simp [checkValidity]
  | c :: cs => by
    simp only [checkValidity, except_bind_eq_ok_iff, mapError_eq_ok_iff, List.forall_mem_cons]
    constructor
    · rintro ⟨valid, hv, h⟩
      cases valid with
      | true => exact ⟨Certificate.isValidAt_eq_ok_true_iff.1 hv, checkValidity_eq_ok_iff.1 h⟩
      | false =>
        obtain ⟨_, -, h⟩ := except_bind_eq_ok_iff.1 h
        cases h
    · rintro ⟨hv, hrest⟩
      exact ⟨true, Certificate.isValidAt_eq_ok_true_iff.2 hv, checkValidity_eq_ok_iff.2 hrest⟩

theorem checkValidity_cons_eq_error_iff {t : Int} {f : Failure} (c : Certificate) (cs : List Certificate) :
    checkValidity t (c :: cs) = .error f ↔ c.Untimely t f ∨ c.ValidAt t ∧ checkValidity t cs = .error f := by
  have hhead : c.Untimely t f ↔ (∃ g, c.isValidAt t = .error g ∧ f = .x509 g) ∨ c.isValidAt t = .ok false ∧
      ((∃ g, c.subjectText = .error g ∧ f = .x509 g) ∨
        ∃ subject, c.subjectText = .ok subject ∧ f = .chain (.notValidAt subject (Moment.ofInstant t).text)) := by
    simp only [Certificate.isValidAt_eq_ok_false_iff, Certificate.isValidAt_eq_error_iff]
    constructor
    · rintro (⟨ho, hs⟩ | ⟨ho, hs⟩ | hu)
      · exact .inr ⟨ho, .inr ⟨_, hs, rfl⟩⟩
      · exact .inr ⟨ho, .inl ⟨_, hs, rfl⟩⟩
      · exact .inl ⟨_, ⟨rfl, hu⟩, rfl⟩
    · rintro (⟨g, ⟨rfl, hu⟩, rfl⟩ | ⟨ho, ⟨g, hs, rfl⟩ | ⟨subject, hs, rfl⟩⟩)
      · exact .undated hu
      · exact .unnamed ho hs
      · exact .outside ho hs
  rw [hhead, ← Certificate.isValidAt_eq_ok_true_iff, checkValidity]
  cases hv : c.isValidAt t with
  | error g => simp [bind, Except.bind, eq_comm]
  | ok valid =>
    cases valid with
    | true => simp [bind, Except.bind]
    | false => cases hs : c.subjectText <;> simp [bind, Except.bind, eq_comm]

/-- The first certificate that is not valid decides. -/
theorem checkValidity_eq_error_iff {t : Int} {f : Failure} {chain : List Certificate} :
    checkValidity t chain = .error f ↔
      ∃ before c after, chain = before ++ c :: after ∧ (∀ b ∈ before, b.ValidAt t) ∧ c.Untimely t f :=
  iff_exists_first (R := fun l => checkValidity t l = .error f) (by simp [checkValidity])
    checkValidity_cons_eq_error_iff chain

end Validator
end AttestationTrust
