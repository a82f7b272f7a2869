import AttestationTrust.Digest.Hash
import AttestationTrust.Signature.Modular
/-!
# Edwards curve signatures

The curve `-x ^ 2 + y ^ 2 = 1 + d * x ^ 2 * y ^ 2` over the field of `2 ^ 255 - 19`.  A point is written as its
second coordinate and the parity of the first.  A signature is a point and a number below the order.
-/
namespace AttestationTrust
namespace Ed25519

def prime : Nat := Nat.pow 2 255 - 19
def order : Nat := Nat.pow 2 252 + 27742317777372353535851937790883648493

def quotient (a b : Nat) : Nat := a * Modular.inverse prime b % prime

def d : Nat := quotient (prime - 121665) 121666

/-- A square root of minus one. -/
def rootOfMinusOne : Nat := Modular.pow prime 2 ((prime - 1) / 4)

structure Point where
  x : Nat
  y : Nat
  z : Nat
  t : Nat

def Point.neutral : Point := ⟨0, 1, 1, 0⟩

def add (p q : Point) : Point :=
  let a := Modular.sub prime p.y p.x * Modular.sub prime q.y q.x % prime
  let b := (p.y + p.x) * (q.y + q.x) % prime
  let c := 2 * p.t * q.t % prime * d % prime
  let e := 2 * p.z * q.z % prime
  let f := Modular.sub prime b a
  let g := Modular.sub prime e c
  let h := (e + c) % prime
  let i := (b + a) % prime
  ⟨f * g % prime, h * i % prime, g * h % prime, f * i % prime⟩

def multiply (k : Nat) (q : Point) : Point :=
  if k = 0 then .neutral
  else
    let rest := multiply (k / 2) (add q q)
    if k % 2 = 1 then add q rest else rest
termination_by k

def littleEndian (bs : Bytes) : Nat := Bytes.toNat bs.reverse

/-- The first coordinate of a parity, for a second coordinate on the curve. -/
def recoverX (y parity : Nat) : Option Nat :=
  let square := quotient (Modular.sub prime (y * y) 1) ((d * (y * y % prime) + 1) % prime)
  let root := Modular.pow prime square ((prime + 3) / 8)
  let root := if root * root % prime = square then root else root * rootOfMinusOne % prime
  if root * root % prime ≠ square then none
  else if root = 0 ∧ parity = 1 then none
  else some (if root % 2 = parity then root else prime - root)

def decodePoint (bs : Bytes) : Option Point :=
  if bs.length ≠ 32 then none
  else
    let n := littleEndian bs
    let y := n % Nat.pow 2 255
    if prime ≤ y then none
    else (recoverX y (n / Nat.pow 2 255)).map fun x => ⟨x, y, 1, x * y % prime⟩

def base : Point :=
  let y := quotient 4 5
  let x := (recoverX y 0).getD 0
  ⟨x, y, 1, x * y % prime⟩

def same (p q : Point) : Bool :=
  p.x * q.z % prime == q.x * p.z % prime && p.y * q.z % prime == q.y * p.z % prime

def verify (key message signature : Bytes) : Bool :=
  if signature.length ≠ 64 then false
  else
    let r := signature.take 32
    let s := littleEndian (signature.drop 32)
    match decodePoint key, decodePoint r with
    | some a, some rp =>
      if order ≤ s then false
      else
        let h := littleEndian (Digest.sha512 (r ++ key ++ message)) % order
        same (multiply s base) (add rp (multiply h a))
    | _, _ => false

end Ed25519
end AttestationTrust
