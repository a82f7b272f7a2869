import AttestationTrust.Digest.Sha3
import AttestationTrust.Signature.Ed25519
/-!
# Edwards curve signatures of the wider curve

The curve `x ^ 2 + y ^ 2 = 1 + d * x ^ 2 * y ^ 2` over the field of `2 ^ 448 - 2 ^ 224 - 1`, with points in
projective coordinates.  A point is written as its second coordinate and, in an octet of its own, the parity of
the first.
-/
namespace AttestationTrust
namespace Ed448

def prime : Nat := Nat.pow 2 448 - Nat.pow 2 224 - 1
def order : Nat := Nat.pow 2 446 - 13818066809895115352007386748515426880336692474882178609894547503885
def d : Nat := prime - 39081

/-- The number of octets of a point, and of each half of a signature. -/
def width : Nat := 57

structure Point where
  x : Nat
  y : Nat
  z : Nat

def Point.neutral : Point := ⟨0, 1, 1⟩

def add (p q : Point) : Point :=
  let a := p.z * q.z % prime
  let b := a * a % prime
  let c := p.x * q.x % prime
  let e := p.y * q.y % prime
  let product := d * (c * e % prime) % prime
  let f := Modular.sub prime b product
  let g := (b + product) % prime
  let cross := Modular.sub prime ((p.x + p.y) * (q.x + q.y)) (c + e)
  ⟨a * f % prime * cross % prime, a * g % prime * Modular.sub prime e c % prime, f * g % prime⟩

def multiply (k : Nat) (q : Point) : Point :=
  if k = 0 then .neutral
  else
    let rest := multiply (k / 2) (add q q)
    if k % 2 = 1 then add q rest else rest
termination_by k

/-- The first coordinate of a parity, for a second coordinate on the curve. -/
def recoverX (y parity : Nat) : Option Nat :=
  let yy := y * y % prime
  let square := Modular.sub prime yy 1 * Modular.inverse prime (Modular.sub prime (d * yy) 1) % prime
  let root := Modular.root prime square
  if root * root % prime ≠ square then none
  else if root = 0 ∧ parity = 1 then none
  else some (if root % 2 = parity then root else prime - root)

def decodePoint (bs : Bytes) : Option Point :=
  let n := Ed25519.littleEndian bs
  let y := n % Nat.pow 2 455
  if bs.length ≠ width ∨ prime ≤ y then none
  else (recoverX y (n / Nat.pow 2 455)).map fun x => ⟨x, y, 1⟩

def base : Point where
  x := 224580040295924300187604334099896036246789641632564134246125461686950415467406032909029192869357953282578032075146446173674602635247710
  y := 298819210078481492676017930443930673437544040154080242095928241372331506189835876003536878655418784733982303233503462500531545062832660
  z := 1

def same (p q : Point) : Bool :=
  p.x * q.z % prime == q.x * p.z % prime && p.y * q.z % prime == q.y * p.z % prime

/-- What the digest of a signature starts with, without a context. -/
def domain : Bytes := Bytes.ofText "SigEd448" ++ [0, 0]

def verify (key message signature : Bytes) : Bool :=
  if signature.length ≠ 2 * width then false
  else
    let r := signature.take width
    let s := Ed25519.littleEndian (signature.drop width)
    match decodePoint key, decodePoint r with
    | some a, some rp =>
      if order ≤ s then false
      else
        let h := Ed25519.littleEndian (Digest.shake256 (2 * width) (domain ++ r ++ key ++ message)) % order
        same (multiply s base) (add rp (multiply h a))
    | _, _ => false

end Ed448
end AttestationTrust
