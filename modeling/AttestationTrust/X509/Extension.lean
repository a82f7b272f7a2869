import AttestationTrust.X509.Admission
import AttestationTrust.X509.Constraint
import AttestationTrust.X509.DistributionPoint
import AttestationTrust.X509.Reference
import AttestationTrust.X509.Transparency
/-!
# Extensions

An extension is a kind and a value, and an extension that a reader must not overlook says that it is critical.
`Extension.checks` are the kinds whose values are read; `Extension.checkAll` asks that no kind comes twice and
that every value can be read.
-/
namespace AttestationTrust
namespace X509

structure Extension where
  kind : Der.Oid
  critical : Bool
  value : Bytes
  deriving DecidableEq, Repr

namespace Extension

/-- A critical extension says so; one that is not says nothing. -/
def reader : Der.Reader Extension := do
  let kind ← Der.Reader.oid
  let critical ← Der.Reader.optional Der.boolean
  if critical.any fun e => Der.booleanOf e.content != some true then failure
  let value ← Der.Reader.tagged Der.octetString
  pure ⟨kind, critical.isSome, value.content⟩

def listOf (bs : Bytes) : Option (List Extension) := Der.listOf (fun e => e.value Der.sequence reader.all) bs

/-- The extensions in an element of their own. -/
def optionalList (tag : Nat) : Der.Reader (List Extension) := do
  let extensions ← Der.Reader.optionalValue tag (Der.only fun e => e.value Der.sequence listOf)
  pure (extensions.getD [])

/-- A value that only says that the extension is there. -/
def checkNull (bs : Bytes) : Except Fault Unit :=
  (orMalformed (Der.only (fun e => if e.isNull then some () else none) bs))

def ocspNoCheck : Der.Oid := [1, 3, 6, 1, 5, 5, 7, 48, 1, 5]

/-- The numbers of the handshake extensions that a server may promise, of which it promises one. -/
def featureKind : Der.Oid := [1, 3, 6, 1, 5, 5, 7, 1, 24]
def features : List Nat := [5, 17]
def featureBound : Nat := 65536

def checkFeatures (bs : Bytes) : Except Fault Unit := do
  let numbers ← orMalformed (Der.only (fun e =>
    e.value Der.sequence (Der.listOf fun n => n.value Der.integer (Der.naturalBelow featureBound))) bs)
  require (numbers.all features.contains) .unknownTag
  require (!numbers.isEmpty) .wrongKind

/-- The template that a certificate was made from, and its version. -/
def templateKind : Der.Oid := [1, 3, 6, 1, 4, 1, 311, 21, 7]
def versionBound : Nat := 4294967296

def templateReader : Der.Reader Unit := do
  let _ ← Der.Reader.oid
  let _ ← Der.Reader.optionalValue Der.integer (Der.naturalBelow versionBound)
  let _ ← Der.Reader.optionalValue Der.integer (Der.naturalBelow versionBound)

def checkTemplate (bs : Bytes) : Except Fault Unit :=
  orMalformed ((Der.Reader.within Der.sequence templateReader).all bs)

/-- The outcome of a reader without what it has read. -/
def read {α : Type} (f : Bytes → Except Fault α) (bs : Bytes) : Except Fault Unit := (f bs).map fun _ => ()

/-- How the values of the known kinds are checked; a value of another kind may be anything. -/
def checks : List (Der.Oid × (Bytes → Except Fault Unit)) :=
  AlternativeNames.kinds.map (·, read AlternativeNames.ofValue) ++
  AccessDescription.kinds.map (·, read AccessDescription.listOfValue) ++ [
  (BasicConstraints.kind, read BasicConstraints.ofValue), (KeyUsage.kind, read KeyUsage.ofValue),
  (KeyPurposes.kind, read KeyPurposes.ofValue), (UsagePeriod.kind, read UsagePeriod.ofValue),
  (NameConstraints.kind, read NameConstraints.ofValue), (PolicyConstraints.kind, read PolicyConstraints.ofValue),
  (AnyPolicyLimit.kind, read AnyPolicyLimit.ofValue), (SubjectKeyIdentifier.kind, read SubjectKeyIdentifier.ofValue),
  (AuthorityKeyIdentifier.kind, read AuthorityKeyIdentifier.ofValue), (Policy.kind, read Policy.listOfValue),
  (DistributionPoint.kind, read DistributionPoint.listOfValue),
  (DistributionPoint.freshestKind, read DistributionPoint.listOfValue), (Admissions.kind, read Admissions.ofValue),
  (LogStamp.kind, read LogStamp.listOfValue), (LogStamp.draftKind, checkNull), (ocspNoCheck, checkNull),
  (featureKind, checkFeatures), (templateKind, checkTemplate)]

def check (e : Extension) : Except Fault Unit :=
  match checks.lookup e.kind with
  | some f => f e.value
  | none => .ok ()

def checkAll (es : List Extension) : Except Fault Unit := do
  require ((es.map (·.kind)).Nodup) .duplicateExtension
  es.forM check

/-- Where the extensions pass their check, a kind stands for one of them at most. -/
theorem eq_of_kind_eq {es : List Extension} {e e' : Extension} (h : checkAll es = .ok ()) (he : e ∈ es) (he' : e' ∈ es)
    (hkind : e.kind = e'.kind) : e = e' := by
  have hnodup : (es.map (·.kind)).Nodup := by
    by_cases hn : (es.map (·.kind)).Nodup
    · exact hn
    · simp [checkAll, require, hn, bind, Except.bind] at h
  clear h
  induction es with
  | nil => cases he
  | cons first es ih =>
    rw [List.map_cons, List.nodup_cons] at hnodup
    obtain ⟨hfirst, hnodup⟩ := hnodup
    have hother : ∀ other ∈ es, first.kind ≠ other.kind := fun other hmem heq =>
      hfirst (heq ▸ List.mem_map_of_mem hmem)
    rcases List.mem_cons.1 he with rfl | hmem
    · rcases List.mem_cons.1 he' with rfl | hmem'
      · rfl
      · exact absurd hkind (hother e' hmem')
    · rcases List.mem_cons.1 he' with rfl | hmem'
      · exact absurd hkind.symm (hother e hmem)
      · exact ih hmem hmem' hnodup

end Extension
end X509
end AttestationTrust
