import AttestationTrust.Digest.Md5
import AttestationTrust.Digest.Sha3
/-!
# Hash algorithms

The digests that a signature may be made over.
-/
namespace AttestationTrust

inductive Hash where
  | md5
  | sha1
  | sha224
  | sha256
  | sha384
  | sha512
  | sha3_224
  | sha3_256
  | sha3_384
  | sha3_512
  deriving DecidableEq, Repr

namespace Hash

def digest : Hash → Bytes → Bytes
  | .md5 => Digest.md5
  | .sha1 => Digest.sha1
  | .sha224 => Digest.sha224
  | .sha256 => Digest.sha256
  | .sha384 => Digest.sha384
  | .sha512 => Digest.sha512
  | .sha3_224 => Digest.sha3 28
  | .sha3_256 => Digest.sha3 32
  | .sha3_384 => Digest.sha3 48
  | .sha3_512 => Digest.sha3 64

/-- The number of octets of a digest. -/
def length : Hash → Nat
  | .md5 => 16
  | .sha1 => 20
  | .sha224 => 28
  | .sha256 => 32
  | .sha384 => 48
  | .sha512 => 64
  | .sha3_224 => 28
  | .sha3_256 => 32
  | .sha3_384 => 48
  | .sha3_512 => 64

/-- Whether a new signature may be made over the digest. -/
def isCurrent (h : Hash) : Bool := h != .md5 && h != .sha1

end Hash
end AttestationTrust
