import AttestationTrust.X509.Extension
import AttestationTrust.X509.PublicKey
/-!
# Certificates

`Certificate.Content.read` takes a certificate's octets apart; a `Certificate` is octets together with the
content that they read as, so two certificates are equal exactly when their octets are
(`Certificate.eq_of_der_eq`), and the octets of a certificate read as that certificate again
(`Certificate.ofDer_der`).  A name, the key and the extensions are decoded only when they are asked for: a
certificate may be read although one of them is of no use.
-/
namespace AttestationTrust
namespace X509

structure Certificate.Content where
  serial : Int
  issuer : NameEncoding
  subject : NameEncoding
  /-- The ends of the validity. -/
  notBefore : Time
  notAfter : Time
  keyInfo : PublicKeyInfo
  extensions : List Extension
  /-- The octets under the signature. -/
  signed : Bytes
  /-- The algorithm that the signed octets name, and with them the signature. -/
  algorithm : AlgorithmIdentifier
  signature : Bytes
  deriving DecidableEq, Repr

namespace Certificate.Content

def validity : Der.Reader (Time × Time) := do
  let first ← Der.Reader.ofOption (Time.ofElement (← Der.Reader.element))
  let last ← Der.Reader.ofOption (Time.ofElement (← Der.Reader.element))
  pure (first, last)

/-- The version counts from zero, and zero itself is not written. -/
def version : Der.Reader Nat := do
  let v ← Der.Reader.withinOptional (Der.explicitTag 0) (Der.Reader.value Der.integer (Der.naturalBelow 256))
  match v with
  | none => pure 0
  | some n => if n = 0 then failure else pure n

/-- The content of the signed octets, beside the version. -/
def signedReader (signed signature : Bytes) : Der.Reader (Nat × Certificate.Content) := do
  let version ← version
  let serial ← Der.Reader.value Der.integer Der.integerOf
  let algorithm ← Der.Reader.ofOption (AlgorithmIdentifier.ofElement (← Der.Reader.element))
  let issuer ← Der.Reader.ofOption (NameEncoding.ofElement (← Der.Reader.element))
  let (notBefore, notAfter) ← Der.Reader.within Der.sequence validity
  let subject ← Der.Reader.ofOption (NameEncoding.ofElement (← Der.Reader.element))
  let keyInfo ← Der.Reader.ofOption (PublicKeyInfo.ofElement (← Der.Reader.element))
  let _ ← Der.Reader.optionalValue (Der.implicitTag 1) Der.bitsOf
  let _ ← Der.Reader.optionalValue (Der.implicitTag 2) Der.bitsOf
  let extensions ← Extension.optionalList (Der.explicitTag 3)
  pure (version, ⟨serial, issuer, subject, notBefore, notAfter, keyInfo, extensions, signed, algorithm, signature⟩)

/-- The content beside the version and the algorithm that stands with the signature. -/
def reader : Der.Reader (Nat × AlgorithmIdentifier × Certificate.Content) := do
  let signed ← Der.Reader.tagged Der.sequence
  let algorithm ← Der.Reader.ofOption (AlgorithmIdentifier.ofElement (← Der.Reader.element))
  let (_, signature) ← Der.Reader.value Der.bitString Der.bitsOf
  let (version, content) ← Der.Reader.ofOption ((signedReader signed.raw signature).all signed.content)
  pure (version, algorithm, content)

/-- The content of a certificate of the first or the third version, in which both algorithms are the same. -/
def read (der : Bytes) : Except Fault Certificate.Content := do
  let (version, algorithm, content) ← orMalformed ((Der.Reader.within Der.sequence reader).all der)
  require (version = 0 || version = 2) .unsupportedVersion
  require (algorithm.raw == content.algorithm.raw) .malformed
  .ok content

end Certificate.Content

structure Certificate where
  der : Bytes
  content : Certificate.Content
  read_der : Certificate.Content.read der = .ok content

namespace Certificate

theorem eq_of_der_eq {c d : Certificate} (h : c.der = d.der) : c = d := by
  obtain ⟨der, content, hc⟩ := c
  obtain ⟨der', content', hd⟩ := d
  obtain rfl : der = der' := h
  have := hc.symm.trans hd
  simp only [Except.ok.injEq] at this
  subst this
  rfl

instance : DecidableEq Certificate := fun c d =>
  if h : c.der = d.der then isTrue (eq_of_der_eq h) else isFalse fun hcd => h (hcd ▸ rfl)

def ofDer (der : Bytes) : Except Fault Certificate :=
  match h : Content.read der with
  | .ok content => .ok ⟨der, content, h⟩
  | .error f => .error f

theorem ofDer_der (c : Certificate) : ofDer c.der = .ok c := by
  unfold ofDer
  split
  · next content h => exact congrArg Except.ok (eq_of_der_eq rfl)
  · next f h => rw [c.read_der] at h; cases h

theorem der_of_ofDer {der : Bytes} {c : Certificate} (h : ofDer der = .ok c) : c.der = der := by
  unfold ofDer at h
  split at h
  · cases h; rfl
  · cases h

def subject (c : Certificate) : Except Fault Name := c.content.subject.decode
def issuer (c : Certificate) : Except Fault Name := c.content.issuer.decode

def signatureAlgorithm (c : Certificate) : SignatureAlgorithm := .ofIdentifier c.content.algorithm

/-- The subject as a message writes it. -/
def subjectText (c : Certificate) : Except Fault String := c.subject.map Name.text
def issuerText (c : Certificate) : Except Fault String := c.issuer.map Name.text

/-- The serial number in hexadecimal digits. -/
def serialText (c : Certificate) : String :=
  (if c.content.serial < 0 then "-" else "") ++ Hex.ofNat c.content.serial.natAbs

def fingerprint (c : Certificate) : Bytes := Hash.sha256.digest c.der

def publicKey (c : Certificate) : Except Fault PublicKey := PublicKey.ofInfo c.content.keyInfo

/-- The digest that identifies the certificate's key. -/
def keyIdentifier (c : Certificate) : Except Fault Bytes :=
  c.publicKey.map fun k => k.identifier c.content.keyInfo

/-- The hash that the certificate is signed over, if its signature has one. -/
def signatureHash (c : Certificate) : Except Fault (Option Hash) := c.signatureAlgorithm.hash

/-- Both ends of the validity belong to it.  An end before the calendar is of no use, if it is needed. -/
def isValidAt (c : Certificate) (instant : Int) : Except Fault Bool := do
  if instant < (← orMalformed c.content.notBefore) then .ok false
  else .ok (instant ≤ (← orMalformed c.content.notAfter))

/-- The extensions, no two of a kind and all of a form that their kind asks for. -/
def extensions (c : Certificate) : Except Fault (List Extension) := do
  Extension.checkAll c.content.extensions
  .ok c.content.extensions

/-- The locations of the issuer's revocation list, in the order in which they are named. -/
def crlUrls (c : Certificate) : Except Fault (List String) := do
  let extensions ← c.extensions
  match extensions.find? fun e => e.kind == DistributionPoint.kind with
  | none => .ok []
  | some e => (DistributionPoint.listOfValue e.value).map fun points => points.flatMap (·.urls)

/-- A location is named by a point of the extension that is for it; there is one at most. -/
theorem mem_crlUrls_iff {c : Certificate} {urls : List String} {url : String} (h : c.crlUrls = .ok urls) :
    url ∈ urls ↔ ∃ e ∈ c.content.extensions, e.kind = DistributionPoint.kind ∧
      ∃ points, DistributionPoint.listOfValue e.value = .ok points ∧ ∃ p ∈ points, url ∈ p.urls := by
  unfold crlUrls extensions at h
  cases hcheck : Extension.checkAll c.content.extensions with
  | error f =>
    rw [hcheck] at h
    cases h
  | ok =>
    rw [hcheck] at h
    simp only [bind, Except.bind] at h
    split at h
    · next hnone =>
      cases h
      simp only [List.find?_eq_none, beq_iff_eq] at hnone
      refine iff_of_false List.not_mem_nil ?_
      rintro ⟨e, he, hkind, -⟩
      exact hnone e he hkind
    · next e hfind =>
      have he := List.mem_of_find?_eq_some hfind
      have hkind : e.kind = DistributionPoint.kind := by simpa using List.find?_some hfind
      cases hpoints : DistributionPoint.listOfValue e.value with
      | error f =>
        rw [hpoints] at h
        cases h
      | ok points =>
        rw [hpoints] at h
        cases h
        rw [List.mem_flatMap]
        constructor
        · exact fun hurl => ⟨e, he, hkind, points, hpoints, hurl⟩
        · rintro ⟨e', he', hkind', points', hpoints', hurl⟩
          obtain rfl := Extension.eq_of_kind_eq hcheck he he' (hkind.trans hkind'.symm)
          cases hpoints.symm.trans hpoints'
          exact hurl
/-- Whether the certificate's own key verifies its signature; a signature that cannot be one of the key's is not. -/
def signsItself (c : Certificate) : Except Fault Bool :=
  match c.publicKey.bind fun k => k.verifies c.signatureAlgorithm c.content.signed c.content.signature with
  | .error .malformed => .ok false
  | .error .wrongKind => .ok false
  | r => r

/-- Whether issuer and subject are the same name and the certificate's own key verifies its signature. -/
def isSelfSigned (c : Certificate) : Except Fault Bool := do
  let issuer ← c.issuer
  let subject ← c.subject
  if !Name.same issuer subject then .ok false
  else if c.content.issuer ≠ c.content.subject then .ok false
  else c.signsItself

end Certificate
end X509
end AttestationTrust
