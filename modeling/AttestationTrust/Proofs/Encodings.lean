import Mathlib.Data.List.Forall2
import AttestationTrust.Proofs.Armour
import AttestationTrust.Proofs.Links
/-!
# Certificates survive their encodings

A certificate is handed over as an object, as its octets or as an armoured document.  Which of the last two it is, is
found by looking for the mark of an armoured document anywhere in the octets, and a certificate may hold that mark in a
name or an extension.  Its armoured document always reads as the certificate; its octets do exactly when the mark is not
in them, and where it is they read as nothing (`Certificate.exists_marked_unread`) or as another, shorter certificate.
A chain is therefore validated alike in whatever form its certificates come, as long as no marked one comes as its
octets (`Validator.validate_survives_encoding`).
-/
namespace AttestationTrust

open X509 (Certificate)

namespace X509
namespace Certificate

/-- A certificate as an armoured document. -/
def armoured (c : Certificate) : Bytes := Pem.render "CERTIFICATE" c.der

/-- A certificate that holds the mark of an armoured document among its octets. -/
def Marked (c : Certificate) : Prop := mark <:+: c.der

variable {c d : Certificate}

theorem der_ne_nil : c.der ≠ [] := by
  intro h
  have hread := c.read_der
  rw [h] at hread
  cases hread

theorem contains_mark_iff {bs : Bytes} : Bytes.contains mark bs = true ↔ mark <:+: bs := Bytes.cutAt_isSome_iff

theorem ofDerOrFault_eq_ok_iff {der : Bytes} : ofDerOrFault der = .ok c ↔ c.der = der := by
  unfold ofDerOrFault
  constructor
  · intro h
    split at h
    · next hread =>
      cases h
      exact der_of_ofDer hread
    · cases h
    · cases h
  · rintro rfl
    rw [ofDer_der]

theorem load_of_marked {bs : Bytes} (h : mark <:+: bs) : load bs =
    match Pem.find? labels bs with
    | some der => ofDerOrFault der
    | none => .error (.certificate .unparsable) := by
  have hne : bs ≠ [] := by
    rintro rfl
    exact absurd h (by decide)
  cases hfind : Pem.find? labels bs with
  | none => rw [load, if_neg hne, if_pos (contains_mark_iff.2 h), hfind]
  | some der => rw [load, if_neg hne, if_pos (contains_mark_iff.2 h), hfind]

theorem isLabel_certificate : Pem.IsLabel (Bytes.ofText "CERTIFICATE") := ⟨by decide, by decide, by decide⟩

theorem mark_infix_armoured : mark <:+: c.armoured := by
  have hmark : mark = Pem.openMark ++ Bytes.ofText "CERTIFICATE" ++ Pem.dashes := by decide
  rw [hmark, armoured, Pem.render_eq]
  exact (List.prefix_append _ _).isInfix

theorem load_armoured : load c.armoured = .ok c := by
  have hfind : Pem.find? labels c.armoured = some c.der := Pem.find?_render isLabel_certificate (by decide) c.der
  rw [load_of_marked mark_infix_armoured, hfind]
  exact ofDerOrFault_eq_ok_iff.2 rfl

/-- Whatever a marked certificate reads as is a certificate that it holds within. -/
theorem length_lt_of_load_marked (hmark : c.Marked) (h : load c.der = .ok d) : d.der.length < c.der.length := by
  rw [load_of_marked hmark] at h
  split at h
  · next hfind =>
    rw [ofDerOrFault_eq_ok_iff.1 h]
    exact Pem.length_lt_of_find? hfind
  · cases h

theorem load_der_iff : load c.der = .ok c ↔ ¬ c.Marked := by
  constructor
  · intro h hmark
    exact Nat.lt_irrefl _ (length_lt_of_load_marked hmark h)
  · intro hmark
    exact load_der c der_ne_nil (Bool.eq_false_iff.2 fun h => hmark (contains_mark_iff.1 h))

/-- The octets of a certificate whose subject is named after the mark. -/
def markedOctets : Bytes :=
  Bytes.ofNat 208
    0x3081cd308180020101300506032b65703000301e170d3236303130313030303030305a170d3430303130313030303030305a30263124302206035504030c1b2d2d2d2d2d424547494e2043455254494649434154452d2d2d2d2d302a300506032b6570032100750d9435fc9d35b2b60c89b477d2896f7d66201eb30b9790f5076977007030dd300506032b6570034100ec93d2387056af7c97ab0db9ceb8e86ad8d4bdf850b8116a639de020673444df18caf98b10147a515daae063cae711206748f04ba7f198e6538a057e379b4c00

theorem exists_marked_unread : ∃ c : Certificate, c.Marked ∧ load c.der = .error (.certificate .unparsable) := by
  have hread : (ofDer markedOctets).toOption.isSome = true := by decide +kernel
  have hmark : Bytes.contains mark markedOctets = true := by decide +kernel
  have hfind : Pem.find? labels markedOctets = none := by decide +kernel
  cases hder : ofDer markedOctets with
  | error f =>
    rw [hder] at hread
    cases hread
  | ok c =>
    have hc : c.der = markedOctets := der_of_ofDer hder
    have hmarked : c.Marked := by
      rw [Marked, hc]
      exact contains_mark_iff.1 hmark
    refine ⟨c, hmarked, ?_⟩
    rw [load_of_marked hmarked, hc, hfind]

end Certificate
end X509

namespace ChainMember

/-- The forms in which a certificate can be handed over. -/
inductive Form where
  | object
  | der
  | armoured
  deriving DecidableEq, Repr

namespace Form

def present : Form → Certificate → ChainMember
  | .object, c => .certificate c
  | .der, c => .octets c.der
  | .armoured, c => .octets c.armoured

/-- Only octets that hold the mark are not taken for what they are. -/
def Survives (form : Form) (c : Certificate) : Prop := form = .der → ¬ c.Marked

theorem reads_present_iff {form : Form} {c : Certificate} : (form.present c).Reads c ↔ form.Survives c := by
  cases form with
  | object => simp [present, Reads, Survives]
  | der => simp [present, Reads, Survives, Certificate.load_der_iff]
  | armoured => simp [present, Reads, Survives, Certificate.load_armoured]

end Form

theorem loadAll_present_iff {chain : List (Form × Certificate)} {position : Nat} :
    loadAll position (chain.map fun m => m.1.present m.2) = .ok (chain.map (·.2)) ↔
      ∀ m ∈ chain, m.1.Survives m.2 := by
  rw [loadAll_eq_ok_iff, List.forall₂_map_left_iff, List.forall₂_map_right_iff, List.forall₂_same]
  exact forall₂_congr fun _ _ => Form.reads_present_iff

theorem loadAll_certificate (chain : List Certificate) (position : Nat) :
    loadAll position (chain.map .certificate) = .ok chain := by
  rw [loadAll_eq_ok_iff, List.forall₂_map_left_iff, List.forall₂_same]
  exact fun _ _ => rfl

end ChainMember

namespace Validator

open ChainMember (Form)

/-- Nothing of a chain counts but what it reads as. -/
theorem validate_congr {members others : List ChainMember}
    (h : ChainMember.loadAll 1 members = ChainMember.loadAll 1 others) (v : Validator) (att : Attestation) :
    v.validate members att = v.validate others att := by
  unfold validate
  rw [h]

/-- **A certificate survives its encodings, unless it holds the mark of an armoured document.**  Its armoured document
reads as the certificate.  Its octets do exactly when the mark is not in them; if it is, whatever certificate they read
as is a shorter one.  A chain whose certificates come as objects, octets or armoured documents reads as those
certificates exactly when none of the marked ones comes as its octets, and it is then validated as the objects are. -/
theorem validate_survives_encoding (c : Certificate) (chain : List (Form × Certificate)) (v : Validator)
    (att : Attestation) :
    Certificate.load c.armoured = .ok c ∧
    (Certificate.load c.der = .ok c ↔ ¬ c.Marked) ∧
    (∀ d, c.Marked → Certificate.load c.der = .ok d → d.der.length < c.der.length) ∧
    (ChainMember.loadAll 1 (chain.map fun m => m.1.present m.2) = .ok (chain.map (·.2)) ↔
      ∀ m ∈ chain, m.1.Survives m.2) ∧
    ((∀ m ∈ chain, m.1.Survives m.2) →
      v.validate (chain.map fun m => m.1.present m.2) att = v.validate ((chain.map (·.2)).map .certificate) att) := by
  refine ⟨Certificate.load_armoured, Certificate.load_der_iff, fun d => Certificate.length_lt_of_load_marked,
    ChainMember.loadAll_present_iff, fun hsurvives => ?_⟩
  have hread : ChainMember.loadAll 1 (chain.map fun m => m.1.present m.2) = .ok (chain.map (·.2)) :=
    ChainMember.loadAll_present_iff.2 hsurvives
  exact validate_congr (hread.trans (ChainMember.loadAll_certificate _ 1).symm) v att

end Validator
end AttestationTrust
