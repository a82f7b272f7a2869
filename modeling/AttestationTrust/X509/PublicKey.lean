import AttestationTrust.X509.Algorithm
import AttestationTrust.Signature.Dsa
import AttestationTrust.Signature.Ed448
import AttestationTrust.Signature.Rsa
/-!
# Public keys

The key of a certificate is an algorithm identifier and a bit string.  `PublicKey.ofInfo` is the key itself, or
why there is none.  `PublicKey.verifies` checks a signature by the algorithm that its identifier names, which
has to be one for keys of this type.
-/
namespace AttestationTrust
namespace X509

structure PublicKeyInfo where
  algorithm : AlgorithmIdentifier
  bits : Bytes
  deriving DecidableEq, Repr

inductive PublicKey where
  | rsa (k : Rsa.Key)
  | ec (k : Ecdsa.Key)
  | dsa (k : Dsa.Key)
  | ed25519 (k : Bytes)
  | ed448 (k : Bytes)
  /-- A key for the agreement on a secret, which signs nothing. -/
  | agreement (bits : Bytes)
  deriving DecidableEq, Repr

namespace PublicKeyInfo

def reader : Der.Reader PublicKeyInfo := do
  let algorithm ← Der.Reader.ofOption (AlgorithmIdentifier.ofElement (← Der.Reader.element))
  let (_, bits) ← Der.Reader.value Der.bitString Der.bitsOf
  pure ⟨algorithm, bits⟩

def ofElement (e : Der.Element) : Option PublicKeyInfo := e.value Der.sequence reader.all

end PublicKeyInfo

namespace PublicKey

def curves : List (Der.Oid × Ecdsa.Curve) := [
  ([1, 2, 840, 10045, 3, 1, 7], Ecdsa.p256), ([1, 3, 132, 0, 34], Ecdsa.p384), ([1, 3, 132, 0, 35], Ecdsa.p521),
  ([1, 3, 132, 0, 10], Ecdsa.secp256k1), ([1, 2, 840, 10045, 3, 1, 1], Ecdsa.p192), ([1, 3, 132, 0, 33], Ecdsa.p224),
  ([1, 3, 36, 3, 3, 2, 8, 1, 1, 7], Ecdsa.brainpool256), ([1, 3, 36, 3, 3, 2, 8, 1, 1, 11], Ecdsa.brainpool384),
  ([1, 3, 36, 3, 3, 2, 8, 1, 1, 13], Ecdsa.brainpool512)]

/-- The curves that may also be given by their numbers. -/
def curvesInFull : List Ecdsa.Curve := [Ecdsa.p256, Ecdsa.p384, Ecdsa.p521]

def primeField : Der.Oid := [1, 2, 840, 10045, 1, 1]

def fieldReader : Der.Reader Nat := do
  if (← Der.Reader.oid) = primeField then Der.Reader.natural else failure

/-- The two coefficients, and the seed that they may come from. -/
def coefficientsReader : Der.Reader (Nat × Nat) := do
  let a ← Der.Reader.tagged Der.octetString
  let b ← Der.Reader.tagged Der.octetString
  let _ ← Der.Reader.optionalValue Der.bitString Der.bitsOf
  pure (Bytes.toNat a.content, Bytes.toNat b.content)

/-- A curve by its field, coefficients, base point and order. -/
def curveReader : Der.Reader Ecdsa.Curve := do
  let _ ← Der.Reader.value Der.integer (Der.naturalBelow 256)
  let prime ← Der.Reader.within Der.sequence fieldReader
  let (a, b) ← Der.Reader.within Der.sequence coefficientsReader
  let base ← Der.Reader.tagged Der.octetString
  let order ← Der.Reader.natural
  let _ ← Der.Reader.optionalValue Der.integer Der.naturalOf
  let isMeant := fun (c : Ecdsa.Curve) =>
    c.prime == prime && c.a == a && c.b == b && c.order == order && base.content == (c.base.encoded)
  Der.Reader.ofOption (curvesInFull.find? isMeant)

def curveOf (e : Der.Element) : Option Ecdsa.Curve :=
  if e.tag = Der.sequence then curveReader.all e.content
  else (e.value Der.objectIdentifier Der.oidOf).bind fun kind => curves.lookup kind

def rsaNumbers : Der.Reader Rsa.Key := do
  let modulus ← Der.Reader.natural
  let exponent ← Der.Reader.natural
  pure ⟨modulus, exponent⟩

def dsaNumbers : Der.Reader (Nat × Nat × Nat) := do
  let prime ← Der.Reader.natural
  let order ← Der.Reader.natural
  let generator ← Der.Reader.natural
  pure (prime, order, generator)

def ofRsaBits (bits : Bytes) : Except Fault PublicKey := do
  let k ← orMalformed ((Der.Reader.within Der.sequence rsaNumbers).all bits)
  require k.isSound .malformed
  .ok (.rsa k)

def ofEcBits (parameters : Option Der.Element) (bits : Bytes) : Except Fault PublicKey :=
  match parameters.bind curveOf with
  | none => .error .unsupportedAlgorithm
  | some c => (orMalformed (Ecdsa.Key.ofBytes? c bits)).map .ec

def ofDsaBits (parameters : Option Der.Element) (bits : Bytes) : Except Fault PublicKey := do
  let (prime, order, generator) ← orMalformed (parameters.bind fun e => e.value Der.sequence dsaNumbers.all)
  let value ← orMalformed (Der.Reader.natural.all bits)
  .ok (.dsa ⟨prime, order, generator, value⟩)

/-- A key that is its octets, of which there is a fixed number. -/
def ofOctets (length : Nat) (make : Bytes → PublicKey) (bits : Bytes) : Except Fault PublicKey :=
  if bits.length = length then .ok (make bits) else .error .malformed

def ofInfo (i : PublicKeyInfo) : Except Fault PublicKey :=
  let kind := i.algorithm.algorithm
  if kind = rsaKind ∨ kind = saltedKind then ofRsaBits i.bits
  else if kind = ecKind then ofEcBits i.algorithm.parameters i.bits
  else if kind = dsaKind then ofDsaBits i.algorithm.parameters i.bits
  else if kind = ed25519Kind then ofOctets 32 .ed25519 i.bits
  else if kind = ed448Kind then ofOctets 57 .ed448 i.bits
  else if kind = x25519Kind then ofOctets 32 .agreement i.bits
  else if kind = x448Kind then ofOctets 56 .agreement i.bits
  else if kind = agreementKind ∨ kind = wideAgreementKind then
    (orMalformed (Der.Reader.natural.all i.bits)).map fun _ => .agreement i.bits
  else .error .unsupportedAlgorithm

/-- The digest that identifies a key: over the bits that carry it, a point in its uncompressed form. -/
def identifier (k : PublicKey) (i : PublicKeyInfo) : Bytes :=
  Hash.sha1.digest (match k with
    | .ec k => k.encoded
    | _ => i.bits)

/-- A salted signature, whose mask and hash have to be known. -/
def verifiesSalted (k : Rsa.Key) (p : Option SaltedParameters) (message signature : Bytes) : Except Fault Bool := do
  let p ← orMalformed p
  let maskHash ← p.maskHash
  let hash ← p.messageHash
  .ok (Rsa.verifyPss k hash maskHash (.exactly p.saltLength) message signature)

/-- Whether a signature is one of the key's.  A key that signs nothing is of the wrong kind, and an algorithm for
keys of another type, or over a hash of no account, is of no use. -/
def verifies (k : PublicKey) (a : SignatureAlgorithm) (message signature : Bytes) : Except Fault Bool :=
  match k, a with
  | .agreement _, _ => .error .wrongKind
  | .rsa k, .salted p => verifiesSalted k p message signature
  | .ed25519 k, .ed25519 => .ok (Ed25519.verify k message signature)
  | .ed448 k, .ed448 => .ok (Ed448.verify k message signature)
  | k, .hashed s h =>
    if !h.isCurrent then .error .malformed
    else
      match k, s with
      | .rsa k, .rsa => .ok (Rsa.verify k h message signature)
      | .ec k, .ecdsa => .ok (Ecdsa.verify k h message signature)
      | .dsa k, .dsa => .ok (Dsa.verify k h message signature)
      | _, _ => .error .malformed
  | _, _ => .error .malformed

end PublicKey
end X509
end AttestationTrust
