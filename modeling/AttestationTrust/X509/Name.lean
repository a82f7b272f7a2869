import AttestationTrust.Der
import AttestationTrust.Hex
import AttestationTrust.Text.Quoted
import AttestationTrust.Text.Utf8
import AttestationTrust.X509.Fault
/-!
# Distinguished names

A name is a list of relative names, each a set of attributes.  What a certificate holds is the encoded form
(`NameEncoding`); `NameEncoding.decode` is the name it stands for, in which the encoding of a text no longer
matters, or why it stands for none.  Two names are the same when their relative names are, as sets (`Name.same`).
-/
namespace AttestationTrust
namespace X509

/-- An attribute as it is encoded: its kind, and the tag and octets of its value. -/
structure AttributeEncoding where
  kind : Der.Oid
  tag : Nat
  value : Bytes
  deriving DecidableEq, Repr

abbrev NameEncoding := List (List AttributeEncoding)

inductive AttributeValue where
  | text (s : String)
  | bits (bs : Bytes)
  deriving DecidableEq, Repr

structure Attribute where
  kind : Der.Oid
  value : AttributeValue
  deriving DecidableEq, Repr

abbrev Name := List (List Attribute)

namespace AttributeEncoding

/-- The tags of values that are read as UTF-8. -/
def plainTags : List Nat := [0x04, 0x0C, 0x12, 0x13, 0x14, 0x16, 0x17, 0x18, 0x1A]

/-- The only kind of attribute whose value is a string of bits. -/
def uniqueIdentifier : Der.Oid := [2, 5, 4, 45]

def isPrintableOctet (b : UInt8) : Bool :=
  (48 ≤ b && b ≤ 57) || (65 ≤ b && b ≤ 90) || (97 ≤ b && b ≤ 122) ||
    [32, 39, 40, 41, 43, 44, 45, 46, 47, 58, 61, 63].contains b

/-- Three kinds of text are checked when the certificate is read; the others only when they are decoded. -/
def isWellFormed (a : AttributeEncoding) : Bool :=
  if a.tag = Der.printableString then a.value.all isPrintableOctet
  else if a.tag = Der.bmpString then (Text.decode16? .big a.value).isSome
  else if a.tag = Der.universalString then
    ((Text.units32 .big a.value).map fun us => us.all fun u => !Text.isSurrogate u).getD false
  else true

def text? (a : AttributeEncoding) : Option String :=
  if a.tag = Der.bmpString then Text.decode16? .big a.value
  else if a.tag = Der.universalString then
    (Text.units32 .big a.value).map fun us => String.ofList (us.map Text.scalar)
  else Text.Utf8.decode a.value

def textTags : List Nat := [Der.bmpString, Der.universalString] ++ plainTags

/-- A string of bits keeps the octet that counts its unused bits. -/
def decode (a : AttributeEncoding) : Except Fault Attribute :=
  if Der.longTag ≤ a.tag then .error .malformed
  else if a.tag = Der.bitString then
    if a.kind = uniqueIdentifier then .ok ⟨a.kind, .bits a.value⟩ else .error .wrongKind
  else if textTags.contains a.tag then (orMalformed a.text?).map fun s => ⟨a.kind, .text s⟩
  else .error .unknownTag

end AttributeEncoding

namespace NameEncoding

def attributeReader : Der.Reader AttributeEncoding :=
  Der.Reader.within Der.sequence do
    let kind ← Der.Reader.oid
    let e ← Der.Reader.element
    let a : AttributeEncoding := ⟨kind, e.tag, e.content⟩
    if a.isWellFormed then pure a else failure

/-- Whether the elements of a set stand in ascending order. -/
def isAscending : List Bytes → Bool
  | a :: b :: rest => !(decide (b.map UInt8.toNat < a.map UInt8.toNat)) && isAscending (b :: rest)
  | _ => true

/-- The attributes of a relative name, in ascending order. -/
def relative (bs : Bytes) : Option (List AttributeEncoding) := do
  let items ← Der.elements bs
  if isAscending (items.map (·.raw)) then items.mapM fun i => attributeReader.all i.raw else none

def ofElement (e : Der.Element) : Option NameEncoding :=
  e.value Der.sequence (Der.listOf fun r => r.value Der.set relative)

/-- A relative name has an attribute, and none twice. -/
def decodeRelative (attributes : List AttributeEncoding) : Except Fault (List Attribute) := do
  let decoded ← attributes.mapM (·.decode)
  require (decoded ≠ [] ∧ decoded.Nodup) .malformed
  .ok decoded

def decode (n : NameEncoding) : Except Fault Name := n.mapM decodeRelative

end NameEncoding

namespace Name

/-- The attribute kinds that have a short name. -/
def shortNames : List (Der.Oid × String) := [
  ([2, 5, 4, 3], "CN"), ([2, 5, 4, 7], "L"), ([2, 5, 4, 8], "ST"), ([2, 5, 4, 10], "O"), ([2, 5, 4, 11], "OU"),
  ([2, 5, 4, 6], "C"), ([2, 5, 4, 9], "STREET"), ([0, 9, 2342, 19200300, 100, 1, 25], "DC"),
  ([0, 9, 2342, 19200300, 100, 1, 1], "UID")]

def kindText (kind : Der.Oid) : String := (shortNames.lookup kind).getD (Der.oidText kind)

def escapeChar (c : Char) : List Char :=
  if c == Text.backslash || c == Text.doubleQuote || c == '+' || c == ',' || c == ';' || c == '<' || c == '>' then
    [Text.backslash, c]
  else if c.toNat = 0 then [Text.backslash, '0', '0']
  else [c]

/-- The last space of a value is escaped. -/
def escapeEnd (cs : List Char) : List Char :=
  match cs.reverse with
  | ' ' :: before => before.reverse ++ [Text.backslash, ' ']
  | _ => cs

/-- A first space that is not the last, and a first number sign, are escaped. -/
def escapeStart : List Char → List Char
  | '#' :: rest => Text.backslash :: '#' :: rest
  | ' ' :: c :: rest => Text.backslash :: ' ' :: c :: rest
  | cs => cs

def valueText : AttributeValue → String
  | .text s => String.ofList (escapeEnd (escapeStart (s.toList.flatMap escapeChar)))
  | .bits [] => ""
  | .bits bs => "#" ++ Hex.text bs

def attributeText (a : Attribute) : String := kindText a.kind ++ "=" ++ valueText a.value

/-- The last relative name comes first. -/
def text (n : Name) : String :=
  ",".intercalate (n.reverse.map fun attributes => "+".intercalate (attributes.map attributeText))

def sameRelative (xs ys : List Attribute) : Bool := xs.all ys.contains && ys.all xs.contains

def same : Name → Name → Bool
  | [], [] => true
  | x :: xs, y :: ys => sameRelative x y && same xs ys
  | _, _ => false

end Name
end X509
end AttestationTrust
