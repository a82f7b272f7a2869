import AttestationTrust.Bytes
/-!
# UTF-8 and its companions

`Utf8.decode` reads a byte string as UTF-8 and refuses what is not well formed: a stray or missing trailing
octet, an overlong form, a surrogate, a code point above the last.  A document may also come in UTF-16 or
UTF-32; `Encoding.detect` finds the encoding from the first octets, knowing that the first character of a
document is ASCII.  The detected encodings let a lone surrogate pass.  It is no character, so one of the last
2048 code points of the second private plane stands in for it (`standIn`); `surrogateOf?` finds it again.
-/
namespace AttestationTrust
namespace Text

def isSurrogate (n : Nat) : Bool := 0xD800 ≤ n && n ≤ 0xDFFF

/-- The code point that stands in for the first surrogate. -/
def firstStandIn : Nat := 0x10F800

def standIn (surrogate : Nat) : Char := Char.ofNat (firstStandIn + (surrogate - 0xD800))

/-- The surrogate that a character stands in for. -/
def surrogateOf? (c : Char) : Option Nat :=
  if firstStandIn ≤ c.toNat then some (c.toNat - firstStandIn + 0xD800) else none

/-- The character of a code point. -/
def scalar (n : Nat) : Char := if isSurrogate n then standIn n else Char.ofNat n

def isTail (b : UInt8) : Bool := 0x80 ≤ b && b ≤ 0xBF

namespace Utf8

/-- Two trailing octets after a leading one, as long as the form is the shortest. -/
def three (lenient : Bool) (a b c : UInt8) : Option Char :=
  let n := (a.toNat - 0xE0) * 4096 + (b.toNat - 0x80) * 64 + (c.toNat - 0x80)
  if isTail b && isTail c && 0x800 ≤ n && (lenient || !isSurrogate n) then some (scalar n) else none

def four (a b c d : UInt8) : Option Char :=
  let n := (a.toNat - 0xF0) * 262144 + (b.toNat - 0x80) * 4096 + (c.toNat - 0x80) * 64 + (d.toNat - 0x80)
  if isTail b && isTail c && isTail d && 0x10000 ≤ n && n ≤ 0x10FFFF then some (scalar n) else none

def read (lenient : Bool) : Bytes → Option (List Char)
  | [] => some []
  | a :: rest =>
    if a < 0x80 then (read lenient rest).map (Char.ofNat a.toNat :: ·)
    else if a < 0xC2 then none
    else if a < 0xE0 then
      match rest with
      | b :: rest =>
        if isTail b then
          (read lenient rest).map (scalar ((a.toNat - 0xC0) * 64 + (b.toNat - 0x80)) :: ·)
        else none
      | _ => none
    else if a < 0xF0 then
      match rest with
      | b :: c :: rest => (three lenient a b c).bind fun ch => (read lenient rest).map (ch :: ·)
      | _ => none
    else if a < 0xF5 then
      match rest with
      | b :: c :: d :: rest => (four a b c d).bind fun ch => (read lenient rest).map (ch :: ·)
      | _ => none
    else none

def decode (bs : Bytes) : Option String := (read false bs).map String.ofList

end Utf8

/-- The order of the octets of a unit. -/
inductive Endian where
  | big
  | little
  deriving DecidableEq, Repr

/-- Joins the pairs of surrogates of a sequence of 16-bit units. -/
def joinUnits : List Nat → List Char
  | [] => []
  | [u] => [scalar u]
  | u :: v :: rest =>
    if 0xD800 ≤ u ∧ u ≤ 0xDBFF ∧ 0xDC00 ≤ v ∧ v ≤ 0xDFFF then
      scalar (0x10000 + (u - 0xD800) * 1024 + (v - 0xDC00)) :: joinUnits rest
    else scalar u :: joinUnits (v :: rest)

def units16 (e : Endian) : Bytes → Option (List Nat)
  | [] => some []
  | a :: b :: rest =>
    let u := match e with
      | .big => a.toNat * 256 + b.toNat
      | .little => b.toNat * 256 + a.toNat
    (units16 e rest).map (u :: ·)
  | [_] => none

/-- Whether no surrogate of a sequence of units stands alone. -/
def isPaired : List Nat → Bool
  | [] => true
  | [u] => !isSurrogate u
  | u :: v :: rest =>
    if 0xD800 ≤ u ∧ u ≤ 0xDBFF ∧ 0xDC00 ≤ v ∧ v ≤ 0xDFFF then isPaired rest
    else !isSurrogate u && isPaired (v :: rest)

/-- A 16-bit text of which no surrogate stands alone. -/
def decode16? (e : Endian) (bs : Bytes) : Option String := do
  let units ← units16 e bs
  if isPaired units then some (String.ofList (joinUnits units)) else none

def units32 (e : Endian) : Bytes → Option (List Nat)
  | [] => some []
  | a :: b :: c :: d :: rest =>
    let u := match e with
      | .big => Bytes.toNat [a, b, c, d]
      | .little => Bytes.toNat [d, c, b, a]
    if u ≤ 0x10FFFF then (units32 e rest).map (u :: ·) else none
  | _ => none

inductive Encoding where
  | utf8
  | utf8Marked
  | utf16 (e : Endian)
  | utf16Marked (e : Endian)
  | utf32 (e : Endian)
  | utf32Marked (e : Endian)
  deriving DecidableEq, Repr

namespace Encoding

/-- The encoding of a document, from its byte order mark or from where its first octets are zero. -/
def detect (bs : Bytes) : Encoding :=
  if [0x00, 0x00, 0xFE, 0xFF].isPrefixOf bs then .utf32Marked .big
  else if [0xFF, 0xFE, 0x00, 0x00].isPrefixOf bs then .utf32Marked .little
  else if [0xFE, 0xFF].isPrefixOf bs then .utf16Marked .big
  else if [0xFF, 0xFE].isPrefixOf bs then .utf16Marked .little
  else if [0xEF, 0xBB, 0xBF].isPrefixOf bs then .utf8Marked
  else match bs with
    | a :: b :: c :: d :: _ =>
      if a = 0 then (if b = 0 then .utf32 .big else .utf16 .big)
      else if b = 0 then (if c = 0 ∧ d = 0 then .utf32 .little else .utf16 .little)
      else .utf8
    | [a, b] => if a = 0 then .utf16 .big else if b = 0 then .utf16 .little else .utf8
    | _ => .utf8

/-- A byte string in an encoding; the byte order mark is not part of the text. -/
def decode (bs : Bytes) : Encoding → Option (List Char)
  | .utf8 => Utf8.read true bs
  | .utf8Marked => Utf8.read true (bs.drop 3)
  | .utf16 e => (units16 e bs).map joinUnits
  | .utf16Marked e => (units16 e (bs.drop 2)).map joinUnits
  | .utf32 e => (units32 e bs).map (·.map scalar)
  | .utf32Marked e => (units32 e (bs.drop 4)).map (·.map scalar)

end Encoding
end Text
end AttestationTrust
