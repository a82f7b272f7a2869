/-!
# Byte strings

A byte string is a list of octets, so that every reader in this library can be stated by recursion on what is
left to read.  The operations are the big-endian number of a byte string (`Bytes.toNat`, `Bytes.ofNat`), the
search for a marker (`Bytes.contains`, `Bytes.cutAt`) and the two cuts at a separator (`Bytes.splitOn`,
`Bytes.splitLast`).
-/
namespace AttestationTrust

abbrev Bytes := List UInt8

namespace Bytes

/-- The octets of a text in UTF-8. -/
def ofText (s : String) : Bytes := s.toUTF8.data.toList

/-- The number whose base-256 digits are the octets, most significant first. -/
def toNat (bs : Bytes) : Nat := bs.foldl (fun n b => n * 256 + b.toNat) 0

/-- The last `width` base-256 digits of a number, most significant first. -/
def ofNat : (width : Nat) → Nat → Bytes
  | 0, _ => []
  | w + 1, n => ofNat w (n / 256) ++ [UInt8.ofNat (n % 256)]

/-- What follows the first occurrence of `marker`, beside what precedes it. -/
def cutAt (marker : Bytes) : Bytes → Option (Bytes × Bytes)
  | [] => if marker = [] then some ([], []) else none
  | b :: bs =>
    if marker.isPrefixOf (b :: bs) then some ([], (b :: bs).drop marker.length)
    else (cutAt marker bs).map fun (before, after) => (b :: before, after)

def contains (marker bs : Bytes) : Bool := (cutAt marker bs).isSome

/-- The segments between the separators: one more than there are separators. -/
def splitOn (sep : UInt8) : Bytes → List Bytes
  | [] => [[]]
  | b :: bs =>
    if b = sep then [] :: splitOn sep bs
    else match splitOn sep bs with
      | [] => [[b]]
      | seg :: segs => (b :: seg) :: segs

/-- The two sides of the last separator. -/
def splitLast (sep : UInt8) : Bytes → Option (Bytes × Bytes)
  | [] => none
  | b :: bs =>
    match splitLast sep bs with
    | some (before, after) => some (b :: before, after)
    | none => if b = sep then some ([], bs) else none

/-- Space and the five control characters that ASCII counts as white space. -/
def isSpace (b : UInt8) : Bool := b == 32 || (9 ≤ b && b ≤ 13)

/-- A byte string without the white space at its two ends. -/
def trim (bs : Bytes) : Bytes := ((bs.dropWhile isSpace).reverse.dropWhile isSpace).reverse

end Bytes
end AttestationTrust
