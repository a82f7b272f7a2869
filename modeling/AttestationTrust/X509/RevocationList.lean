import AttestationTrust.X509.Certificate
/-!
# Revocation lists

A list of serial numbers under its issuer's signature.  `RevocationList.isSignedBy` asks that the key verifies
the list; a key that signs nothing cannot be asked.
-/
namespace AttestationTrust
namespace X509

structure RevocationList where
  serials : List Nat
  signed : Bytes
  /-- The algorithm that the signed octets name, and with them the signature. -/
  algorithm : AlgorithmIdentifier
  signature : Bytes
  deriving DecidableEq, Repr

namespace RevocationList

/-- The serial number of a revoked certificate. -/
def entryReader : Der.Reader Nat := do
  let serial ← Der.Reader.natural
  let _ ← Der.Reader.ofOption (Time.ofElement (← Der.Reader.element))
  let _ ← Der.Reader.optionalValue Der.sequence Extension.listOf
  pure serial

def isTime (tag : Nat) : Bool := tag == Der.utcTime || tag == Der.generalizedTime

/-- The time of the next list, if there is one. -/
def optionalTime : Der.Reader Unit := do
  match Der.readTag (← get) with
  | some (tag, _) =>
    if isTime tag then
      let _ ← Der.Reader.ofOption (Time.ofElement (← Der.Reader.element))
  | none => pure ()

/-- The list in the signed octets, beside its version if it has one; the entries may be missing altogether. -/
def signedReader (signed signature : Bytes) : Der.Reader (Option Nat × RevocationList) := do
  let version ← Der.Reader.optionalValue Der.integer (Der.naturalBelow 256)
  let algorithm ← Der.Reader.ofOption (AlgorithmIdentifier.ofElement (← Der.Reader.element))
  let _ ← Der.Reader.ofOption (NameEncoding.ofElement (← Der.Reader.element))
  let _ ← Der.Reader.ofOption (Time.ofElement (← Der.Reader.element))
  optionalTime
  let serials ← Der.Reader.optionalValue Der.sequence (Der.listOf fun e => e.value Der.sequence entryReader.all)
  let _ ← Extension.optionalList (Der.explicitTag 0)
  pure (version, ⟨serials.getD [], signed, algorithm, signature⟩)

def reader : Der.Reader (Option Nat × AlgorithmIdentifier × RevocationList) := do
  let signed ← Der.Reader.tagged Der.sequence
  let algorithm ← Der.Reader.ofOption (AlgorithmIdentifier.ofElement (← Der.Reader.element))
  let (_, signature) ← Der.Reader.value Der.bitString Der.bitsOf
  let (version, crl) ← Der.Reader.ofOption ((signedReader signed.raw signature).all signed.content)
  pure (version, algorithm, crl)

/-- The second version, counted from zero, is the only one that is written; both algorithms are the same. -/
def ofDer (der : Bytes) : Except Fault RevocationList := do
  let (version, algorithm, crl) ← orMalformed ((Der.Reader.within Der.sequence reader).all der)
  require (version.all (· == 1)) .unsupportedVersion
  require (algorithm.raw == crl.algorithm.raw) .malformed
  .ok crl

/-- Whether the key verifies the list; only a key that signs nothing is a fault. -/
def isSignedBy (crl : RevocationList) (k : PublicKey) : Except Fault Bool :=
  match k.verifies (.ofIdentifier crl.algorithm) crl.signed crl.signature with
  | .error .wrongKind => .error .wrongKind
  | .error _ => .ok false
  | .ok b => .ok b

def lists (crl : RevocationList) (serial : Nat) : Bool := crl.serials.contains serial

end RevocationList
end X509
end AttestationTrust
