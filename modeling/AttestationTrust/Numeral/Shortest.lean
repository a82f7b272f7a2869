import AttestationTrust.Numeral.Binary64
/-!
# The shortest decimal of a number

The digits written are the fewest that read back as the same number, and of those the nearest to it.  They are
found on the grids of one, two, … seventeen digits: the first grid one of whose two points beside the number
reads back wins (`Binary64.shortest`).  `Binary64.text` places the point: positional from `0.0001` up to
below `10 ^ 16`, scientific elsewhere.
-/
namespace AttestationTrust
namespace Binary64

/-- How often `num` must be multiplied by ten to reach `den`. -/
def decimalDeficit (den : Nat) : (fuel num : Nat) → Nat
  | 0, _ => 0
  | fuel + 1, num => if den ≤ num then 0 else decimalDeficit den fuel (num * 10) + 1

/-- The exponent of the greatest power of ten that a positive quotient reaches. -/
def floorLog10 (num den : Nat) : Int :=
  if den ≤ num then (Nat.toDigits 10 (num / den)).length - 1
  else -(decimalDeficit den 400 num : Int)

/-- The two points of the grid of step `10 ^ e` beside a quotient. -/
def gridPoints (num den : Nat) (e : Int) : List Nat :=
  let below := num * Nat.pow 10 (-e).toNat / (den * Nat.pow 10 e.toNat)
  [below, below + 1]

/-- The distance of a grid point from the quotient, times a factor that depends on the grid alone. -/
def gridDistance (num den : Nat) (e : Int) (point : Nat) : Nat :=
  let here := point * (den * Nat.pow 10 e.toNat)
  let there := num * Nat.pow 10 (-e).toNat
  (here - there) + (there - here)

/-- Of the grid points that read back, the nearest; of two as near, the even one. -/
def bestPoint (x : Binary64) (e : Int) : Option Nat :=
  let num := x.numerator
  let den := x.denominator
  match (gridPoints num den e).filter fun p => (ofDecimal false p e).magnitude == x.magnitude with
  | [] => none
  | [p] => some p
  | p :: q :: _ =>
    let dp := gridDistance num den e p
    let dq := gridDistance num den e q
    some (if dp < dq then p else if dq < dp then q else if p % 2 = 0 then p else q)

/-- Digits and exponent on the coarsest grid that has a point which reads back. -/
def searchGrids (x : Binary64) (top : Int) : (left : Nat) → (count : Nat) → Nat × Int
  | 0, _ => (0, 0)
  | left + 1, count =>
    let e := top - count + 1
    match bestPoint x e with
    | some p => (p, e)
    | none => searchGrids x top left (count + 1)

/-- The shortest decimal of a finite number above or below zero, as digits and exponent of ten. -/
def shortest (x : Binary64) : Nat × Int :=
  searchGrids x (floorLog10 x.numerator x.denominator) 17 1

/-- Where positional notation ends, below and above, as the place of the point. -/
def positionalPlaces : Int × Int := (-3, 16)

def trimZeros (ds : List Char) : List Char := (ds.reverse.dropWhile (· == '0')).reverse

/-- The digits with the point `place` digits after their start. -/
def placePoint (ds : List Char) (place : Int) : List Char :=
  if place ≤ 0 then '0' :: '.' :: (List.replicate (-place).toNat '0' ++ ds)
  else if ds.length ≤ place.toNat then ds ++ List.replicate (place.toNat - ds.length) '0' ++ ['.', '0']
  else ds.take place.toNat ++ '.' :: ds.drop place.toNat

def exponentText (e : Int) : List Char :=
  let ds := Nat.toDigits 10 e.natAbs
  'e' :: (if e < 0 then '-' else '+') :: (List.replicate (2 - ds.length) '0' ++ ds)

def scientific (ds : List Char) (place : Int) : List Char :=
  (match ds with
    | [] => []
    | [d] => [d]
    | d :: rest => d :: '.' :: rest) ++ exponentText (place - 1)

def sizeText (x : Binary64) : List Char :=
  if x.isZero then ['0', '.', '0']
  else
    let (digits, e) := shortest x
    let all := Nat.toDigits 10 digits
    let place : Int := all.length + e
    let ds := trimZeros all
    if positionalPlaces.1 ≤ place ∧ place ≤ positionalPlaces.2 then placePoint ds place
    else scientific ds place

/-- The text of a number. -/
def text (x : Binary64) : String :=
  if x.isNaN then "nan"
  else
    let size := if x.isInfinite then ['i', 'n', 'f'] else sizeText x
    String.ofList (if x.isNegative then '-' :: size else size)

end Binary64
end AttestationTrust
