import AttestationTrust.Signature.Ecdsa
/-!
# DSA signatures

A key is a power of a generator modulo a prime, and the generator has a smaller prime order.  A signature is a
pair of numbers below that order in distinguished encoding.
-/
namespace AttestationTrust
namespace Dsa

structure Key where
  prime : Nat
  order : Nat
  generator : Nat
  value : Nat
  deriving DecidableEq, Repr

/-- The widths in bits that an order may have. -/
def orderWidths : List Nat := [160, 224, 256]

/-- The widest prime, in bits. -/
def widest : Nat := 10000

def Key.isUsable (k : Key) : Bool :=
  orderWidths.contains (Ecdsa.bitLength k.order) && Ecdsa.bitLength k.prime ≤ widest

/-- As many leading octets of a digest as the order has. -/
def truncated (k : Key) (digest : Bytes) : Nat := Bytes.toNat (digest.take (Ecdsa.bitLength k.order / 8))

def verify (k : Key) (h : Hash) (message signature : Bytes) : Bool :=
  match Ecdsa.signatureOf signature with
  | none => false
  | some (r, s) =>
    if !k.isUsable || r = 0 || s = 0 || k.order ≤ r || k.order ≤ s then false
    else
      let w := Modular.inverse k.order s
      let u1 := truncated k (h.digest message) * w % k.order
      let u2 := r * w % k.order
      Modular.pow k.prime k.generator u1 * Modular.pow k.prime k.value u2 % k.prime % k.order == r

end Dsa
end AttestationTrust
