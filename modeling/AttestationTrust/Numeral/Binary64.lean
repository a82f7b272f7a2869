/-!
# Binary floating point of 64 bits

A number is its bit pattern, and every operation is exact arithmetic on integers followed by one rounding to
the nearest pattern, ties to even (`Binary64.ofRatio`).  Nothing here depends on the floating point of the
machine, so equality of numbers is equality of patterns and the order is that of the exact values.
-/
namespace AttestationTrust

structure Binary64 where
  bits : UInt64
  deriving DecidableEq, Repr

/-- The quotient rounded to the nearest integer, a half to the even neighbour. -/
def roundHalfEven (num den : Nat) : Nat :=
  let q := num / den
  let r := num % den
  if 2 * r < den then q
  else if den < 2 * r then q + 1
  else if q % 2 = 0 then q else q + 1

namespace Binary64

def fractionBits : Nat := Nat.pow 2 52
def signBit : Nat := Nat.pow 2 63
def topMagnitude : Nat := 2047 * fractionBits

def magnitude (x : Binary64) : Nat := x.bits.toNat % signBit
def isNegative (x : Binary64) : Bool := signBit ≤ x.bits.toNat
def isNaN (x : Binary64) : Bool := topMagnitude < x.magnitude
def isInfinite (x : Binary64) : Bool := x.magnitude == topMagnitude
def isFinite (x : Binary64) : Bool := x.magnitude < topMagnitude
def isZero (x : Binary64) : Bool := x.magnitude == 0

/-- Above zero: neither zero nor negative nor undefined. -/
def isPositive (x : Binary64) : Bool := !x.isNegative && !x.isNaN && !x.isZero

def ofMagnitude (negative : Bool) (m : Nat) : Binary64 :=
  ⟨UInt64.ofNat (if negative then signBit + m else m)⟩

def zero : Binary64 := ⟨0⟩
def infinity : Binary64 := ofMagnitude false topMagnitude
def nan : Binary64 := ofMagnitude false (topMagnitude + Nat.pow 2 51)

/-- A finite number is `significand * 2 ^ exponent`, up to its sign. -/
def significand (x : Binary64) : Nat :=
  if x.magnitude / fractionBits = 0 then x.magnitude else fractionBits + x.magnitude % fractionBits

def exponent (x : Binary64) : Int :=
  (if x.magnitude / fractionBits = 0 then 1 else (x.magnitude / fractionBits : Int)) - 1075

/-- The size of a finite number as a quotient. -/
def numerator (x : Binary64) : Nat := x.significand * Nat.pow 2 x.exponent.toNat
def denominator (x : Binary64) : Nat := Nat.pow 2 (-x.exponent).toNat

/-- The exponent of the greatest power of two that a positive quotient reaches. -/
def floorLog2 (num den : Nat) : Int :=
  let d : Int := (Nat.log2 num : Int) - Nat.log2 den
  if den * Nat.pow 2 d.toNat ≤ num * Nat.pow 2 (-d).toNat then d else d - 1

/-- The nearest number to a quotient; from halfway past the greatest finite number on, infinity. -/
def ofRatio (negative : Bool) (num den : Nat) : Binary64 :=
  if num = 0 then ofMagnitude negative 0
  else
    let q := max (floorLog2 num den - 52) (-1074)
    let m := roundHalfEven (num * Nat.pow 2 (-q).toNat) (den * Nat.pow 2 q.toNat)
    let size := (q + 1074).toNat * fractionBits + m
    ofMagnitude negative (if topMagnitude ≤ size then topMagnitude else size)

/-- The nearest number to an integer, if there is a finite one. -/
def ofInt? (i : Int) : Option Binary64 :=
  let x := ofRatio (i < 0) i.natAbs 1
  if x.isFinite then some x else none

/-- The nearest number to `digits * 10 ^ e`. -/
def ofDecimal (negative : Bool) (digits : Nat) (e : Int) : Binary64 :=
  if digits = 0 then ofMagnitude negative 0
  else
    let top := e + (Nat.toDigits 10 digits).length
    if 400 < top then ofMagnitude negative topMagnitude
    else if top < -400 then ofMagnitude negative 0
    else ofRatio negative (digits * Nat.pow 10 e.toNat) (Nat.pow 10 (-e).toNat)

/-- A finite number cut to an integer, toward zero. -/
def truncate (x : Binary64) : Int :=
  let n : Int := x.numerator / x.denominator
  if x.isNegative then -n else n

/-- The signed numerator over `denominator`. -/
def signedNumerator (x : Binary64) : Int := if x.isNegative then -(x.numerator : Int) else x.numerator

/-- The order of the values: an undefined number is below and above nothing. -/
def lt (x y : Binary64) : Bool :=
  if x.isNaN || y.isNaN then false
  else if x.isInfinite then x.isNegative && !(y.isInfinite && y.isNegative)
  else if y.isInfinite then !y.isNegative
  else x.signedNumerator * y.denominator < y.signedNumerator * x.denominator

def max (x y : Binary64) : Binary64 := if x.lt y then y else x

/-- The product with, and the quotient by, a positive integer. -/
def scale (x : Binary64) (num den : Nat) : Binary64 :=
  if x.isFinite then ofRatio x.isNegative (x.numerator * num) (x.denominator * den) else x

/-- A finite number rounded to an integer, a half to the even neighbour. -/
def round (x : Binary64) : Int :=
  let n : Int := roundHalfEven x.numerator x.denominator
  if x.isNegative then -n else n

/-- Sixteen hexadecimal digits, the most significant first. -/
def ofHexDigits (ds : List Nat) : Binary64 := ⟨UInt64.ofNat (ds.foldl (fun n d => n * 16 + d) 0)⟩

end Binary64
end AttestationTrust
