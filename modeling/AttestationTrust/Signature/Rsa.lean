import AttestationTrust.Digest.Hash
import AttestationTrust.Signature.Modular
/-!
# RSA signatures

A signature is a number below the modulus and no wider than the modulus, and its power by the public exponent holds a
padded digest.  The padding is either fixed (`Rsa.verify`) or made with a salt and a mask (`Rsa.verifyPss`).
-/
namespace AttestationTrust
namespace Rsa

structure Key where
  modulus : Nat
  exponent : Nat
  deriving DecidableEq, Repr

def bitLength (n : Nat) : Nat := if n = 0 then 0 else Nat.log2 n + 1

/-- The modulus is not trivial, and the exponent is an odd number from three on and below it. -/
def Key.isSound (k : Key) : Bool :=
  3 ≤ k.modulus && 3 ≤ k.exponent && k.exponent < k.modulus && k.exponent % 2 == 1

/-- The number of octets of the modulus. -/
def Key.width (k : Key) : Nat := (bitLength k.modulus + 7) / 8

/-- The widest modulus in bits, the widest that goes with any exponent, and the widest exponent of the others. -/
def widest : Nat := 16384
def widestFree : Nat := 3072
def widestExponent : Nat := 64

def Key.isUsable (k : Key) : Bool :=
  bitLength k.modulus ≤ widest && (bitLength k.modulus ≤ widestFree || bitLength k.exponent ≤ widestExponent)

/-- The padded digest inside a signature. -/
def Key.opened (k : Key) (signature : Bytes) : Option Nat :=
  let s := Bytes.toNat signature
  if k.isUsable ∧ signature.length ≤ k.width ∧ s < k.modulus then some (Modular.pow k.modulus s k.exponent)
  else none

/-- The octets that name a hash algorithm before its digest. -/
def digestHeader : Hash → Bytes
  | .md5 => [0x30, 0x20, 0x30, 0x0c, 0x06, 0x08, 0x2a, 0x86, 0x48, 0x86, 0xf7, 0x0d, 0x02, 0x05, 0x05, 0x00,
      0x04, 0x10]
  | .sha1 => [0x30, 0x21, 0x30, 0x09, 0x06, 0x05, 0x2b, 0x0e, 0x03, 0x02, 0x1a, 0x05, 0x00, 0x04, 0x14]
  | .sha224 => header 0x2d 0x04 0x1c
  | .sha256 => header 0x31 0x01 0x20
  | .sha384 => header 0x41 0x02 0x30
  | .sha512 => header 0x51 0x03 0x40
  | .sha3_224 => header 0x2d 0x07 0x1c
  | .sha3_256 => header 0x31 0x08 0x20
  | .sha3_384 => header 0x41 0x09 0x30
  | .sha3_512 => header 0x51 0x0a 0x40
where
  header (length arc digestLength : UInt8) : Bytes :=
    [0x30, length, 0x30, 0x0d, 0x06, 0x09, 0x60, 0x86, 0x48, 0x01, 0x65, 0x03, 0x04, 0x02, arc, 0x05, 0x00,
      0x04, digestLength]

/-- The fixed padding: a marker, ones, a zero, and the named digest. -/
def paddedDigest (h : Hash) (width : Nat) (message : Bytes) : Option Bytes :=
  let named := digestHeader h ++ h.digest message
  if width < named.length + 11 then none
  else some (0x00 :: 0x01 :: (List.replicate (width - named.length - 3) 0xFF ++ 0x00 :: named))

/-- With the fixed padding a signature is exactly as wide as the modulus. -/
def verify (k : Key) (h : Hash) (message signature : Bytes) : Bool :=
  signature.length == k.width && match k.opened signature, paddedDigest h k.width message with
  | some n, some padded => n == Bytes.toNat padded
  | _, _ => false

/-- As many octets as are asked for, from digests of the seed and a counter. -/
def mask (h : Hash) (seed : Bytes) (length : Nat) : Bytes :=
  ((List.range ((length + h.length - 1) / h.length)).flatMap fun i =>
    h.digest (seed ++ Bytes.ofNat 4 i)).take length

/-- The salt may have any length, or has a given one. -/
inductive SaltLength where
  | any
  | exactly (n : Nat)
  deriving DecidableEq, Repr

def SaltLength.admits : SaltLength → Nat → Bool
  | .any, _ => true
  | .exactly n, length => length == n

/-- The salt behind zeros and a one. -/
def saltOf (block : Bytes) : Option Bytes :=
  match block.dropWhile (· == 0) with
  | 0x01 :: salt => some salt
  | _ => none

/-- Zeros, a one and the salt stand behind the mask; the digest of the salted digest is the seed. -/
def verifyPss (k : Key) (h maskHash : Hash) (length : SaltLength) (message signature : Bytes) : Bool :=
  match k.opened signature with
  | none => false
  | some n =>
    let bits := bitLength k.modulus - 1
    let width := (bits + 7) / 8
    if Nat.pow 256 width ≤ n ∨ width < h.length + 2 then false
    else
      let em := Bytes.ofNat width n
      let masked := em.take (width - h.length - 1)
      let seed := (em.drop (width - h.length - 1)).take h.length
      let limit := Nat.pow 2 (8 - (8 * width - bits))
      let block := match (masked.zip (mask maskHash seed masked.length)).map fun (a, b) => a ^^^ b with
        | [] => []
        | b :: rest => UInt8.ofNat (b.toNat % limit) :: rest
      match saltOf block with
      | none => false
      | some salt =>
        em.getLast? == some 0xBC && (masked.headD 0).toNat < limit && length.admits salt.length &&
          seed == h.digest (List.replicate 8 0 ++ h.digest message ++ salt)

end Rsa
end AttestationTrust
