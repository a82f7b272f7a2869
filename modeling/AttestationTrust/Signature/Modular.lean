/-!
# Arithmetic modulo a number

`Modular.pow` squares and multiplies, so that it takes as many steps as the exponent has binary digits;
`pow_eq` says that it is the power.  `Modular.root` is a square root modulo a prime of a number that has one.
-/
namespace AttestationTrust
namespace Modular

def pow (m : Nat) (b e : Nat) : Nat :=
  if e = 0 then 1 % m
  else
    let half := pow m (b * b % m) (e / 2)
    if e % 2 = 1 then half * b % m else half
termination_by e

theorem pow_eq (m b e : Nat) : pow m b e = Nat.pow b e % m := by
  show pow m b e = b ^ e % m
  induction e using Nat.strongRecOn generalizing b with
  | _ e ih =>
    rw [pow]
    split
    · next h => simp [h]
    · next h =>
      rw [ih (e / 2) (by omega)]
      have hsq : (b * b % m) ^ (e / 2) % m = b ^ (2 * (e / 2)) % m := by
        rw [← Nat.pow_mod, ← Nat.pow_two, ← Nat.pow_mul]
      split
      · next ho =>
        have he : e = 2 * (e / 2) + 1 := by omega
        rw [hsq, Nat.mod_mul_mod]
        conv => rhs; rw [he, Nat.pow_succ]
      · next ho =>
        have he : e = 2 * (e / 2) := by omega
        rw [hsq, ← he]

def sub (m a b : Nat) : Nat := (a + (m - b % m)) % m

/-- The inverse modulo a prime. -/
def inverse (p a : Nat) : Nat := pow p a (p - 2)

/-- The odd part of a number, and how often two divides it. -/
def oddPart : (fuel : Nat) → Nat → Nat × Nat
  | 0, n => (n, 0)
  | fuel + 1, n =>
    if n % 2 = 0 then
      let (q, s) := oddPart fuel (n / 2)
      (q, s + 1)
    else (n, 0)

/-- The least number from `candidate` on that is no square modulo `p`. -/
def nonResidue (p : Nat) : (fuel candidate : Nat) → Nat
  | 0, candidate => candidate
  | fuel + 1, candidate =>
    if pow p candidate ((p - 1) / 2) = p - 1 then candidate else nonResidue p fuel (candidate + 1)

/-- How often a number has to be squared to become one. -/
def squarings (p : Nat) : (fuel : Nat) → Nat → Nat
  | 0, _ => 0
  | fuel + 1, t => if t = 1 then 0 else squarings p fuel (t * t % p) + 1

/-- A number squared `n` times. -/
def squared (p : Nat) : (n : Nat) → Nat → Nat
  | 0, a => a
  | n + 1, a => squared p n (a * a % p)

/-- Mends the root `r` of `a * t` until `t` is one; `c` has an order of two to the `m`. -/
def mendRoot (p : Nat) : (fuel m c t r : Nat) → Nat
  | 0, _, _, _, r => r
  | fuel + 1, m, c, t, r =>
    if t = 1 then r
    else
      let i := squarings p m t
      let b := squared p (m - i - 1) c
      let c := b * b % p
      mendRoot p fuel i c (t * c % p) (r * b % p)

/-- A number whose square is `a` modulo the odd prime `p`, if there is one; otherwise some number. -/
def root (p a : Nat) : Nat :=
  let (q, s) := oddPart p.log2 (p - 1)
  let r := pow p a ((q + 1) / 2)
  if s = 1 then r
  else mendRoot p s s (pow p (nonResidue p 128 2) q) (pow p a q) r

end Modular
end AttestationTrust
