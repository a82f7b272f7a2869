import AttestationTrust.Bytes
/-!
# Distinguished encoding

An element is a tag, a length and as many octets of content.  Lengths and integers take their shortest form
only, and no length is left open.  A `Der.Reader` takes elements off the front of a byte string;
`Der.Reader.all` asks that it takes everything.
-/
namespace AttestationTrust
namespace Der

structure Element where
  /-- The octet that opens the element; a tag number beyond 30 stands above it. -/
  tag : Nat
  content : Bytes
  /-- The whole element as it was read. -/
  raw : Bytes
  deriving DecidableEq, Repr, Inhabited

/-- A number in base 128, all digits but the last with the high bit set, and what follows it. -/
def readBase128 (value : Nat) : Bytes → Option (Nat × Bytes)
  | [] => none
  | b :: rest =>
    if b < 0x80 then some (value * 128 + b.toNat, rest)
    else readBase128 (value * 128 + (b.toNat - 128)) rest

/-- The first digit is not zero. -/
def readMinimal128 : Bytes → Option (Nat × Bytes)
  | 0x80 :: _ => none
  | bs => readBase128 0 bs

/-- A tag number takes no more than 32 bits. -/
def tagBound : Nat := 4294967296

def readTag : Bytes → Option (Nat × Bytes)
  | [] => none
  | b :: rest =>
    if b % 32 = 31 then
      match readMinimal128 rest with
      | some (n, rest) => if 31 ≤ n ∧ n < tagBound then some (n * 256 + b.toNat, rest) else none
      | none => none
    else some (b.toNat, rest)

/-- A length below 128 is its own octet; a longer one says how many octets it takes. -/
def readLength : Bytes → Option (Nat × Bytes)
  | [] => none
  | b :: rest =>
    if b < 0x80 then some (b.toNat, rest)
    else
      let width := b.toNat - 0x80
      if width = 0 ∨ 4 < width ∨ rest.length < width then none
      else
        let n := Bytes.toNat (rest.take width)
        if n < 0x80 ∨ n < Nat.pow 256 (width - 1) then none else some (n, rest.drop width)

def readElement (bs : Bytes) : Option (Element × Bytes) := do
  let (tag, rest) ← readTag bs
  let (length, rest) ← readLength rest
  if rest.length < length then none
  else
    let after := rest.drop length
    some (⟨tag, rest.take length, bs.take (bs.length - after.length)⟩, after)

/-- The tags that this library looks for. -/
def boolean : Nat := 0x01
def integer : Nat := 0x02
def bitString : Nat := 0x03
def octetString : Nat := 0x04
def null : Nat := 0x05
def objectIdentifier : Nat := 0x06
def utf8String : Nat := 0x0C
def printableString : Nat := 0x13
def asciiString : Nat := 0x16
def utcTime : Nat := 0x17
def generalizedTime : Nat := 0x18
def visibleString : Nat := 0x1A
def universalString : Nat := 0x1C
def bmpString : Nat := 0x1E
def sequence : Nat := 0x30
def set : Nat := 0x31

/-- A tag whose meaning the context gives: around other elements, or around octets. -/
def explicitTag (n : Nat) : Nat := 0xA0 + n
def implicitTag (n : Nat) : Nat := 0x80 + n

def Element.isNull (e : Element) : Bool := e.tag = null && e.content.isEmpty

/-- From here on, a tag has taken more than one octet. -/
def longTag : Nat := 256

abbrev Reader (α : Type) := StateT Bytes Option α

namespace Reader

variable {α : Type}

/-- The reader applied to a byte string of which nothing may be left. -/
def all (r : Reader α) (bs : Bytes) : Option α :=
  match r.run bs with
  | some (a, []) => some a
  | _ => none

def element : Reader Element := fun bs => readElement bs

/-- The next element, which has to carry a tag. -/
def tagged (tag : Nat) : Reader Element := do
  let e ← element
  if e.tag = tag then pure e else failure

/-- The next element if it carries a tag. -/
def optional (tag : Nat) : Reader (Option Element) := fun bs =>
  match readTag bs with
  | some (t, _) => if t = tag then (readElement bs).map fun (e, rest) => (some e, rest) else some (none, bs)
  | none => some (none, bs)

/-- The content of the next element, read to its end. -/
def within (tag : Nat) (r : Reader α) : Reader α := do
  let e ← tagged tag
  match r.all e.content with
  | some a => pure a
  | none => failure

def ofOption : Option α → Reader α
  | some a => pure a
  | none => failure

/-- What the content of the next element stands for. -/
def value (tag : Nat) (f : Bytes → Option α) : Reader α := do
  ofOption (f (← tagged tag).content)

/-- What the content of the next element stands for, if it carries the tag. -/
def optionalValue (tag : Nat) (f : Bytes → Option α) : Reader (Option α) := do
  match ← optional tag with
  | none => pure none
  | some e => some <$> ofOption (f e.content)

def withinOptional (tag : Nat) (r : Reader α) : Reader (Option α) := optionalValue tag r.all

def elementsFrom : (fuel : Nat) → Bytes → Option (List Element)
  | _, [] => some []
  | 0, _ => none
  | fuel + 1, bs => do
    let (e, rest) ← readElement bs
    (elementsFrom fuel rest).map (e :: ·)

end Reader

/-- The elements that a content consists of. -/
def elements (bs : Bytes) : Option (List Element) := Reader.elementsFrom bs.length bs

/-- What the elements of a content stand for. -/
def listOf {α : Type} (f : Element → Option α) (bs : Bytes) : Option (List α) :=
  (elements bs).bind fun es => es.mapM f

/-- What the only element of a content stands for. -/
def only {α : Type} (f : Element → Option α) (bs : Bytes) : Option α := (Reader.element.all bs).bind f

/-- What the content of an element with a tag stands for. -/
def Element.value {α : Type} (e : Element) (tag : Nat) (f : Bytes → Option α) : Option α :=
  if e.tag = tag then f e.content else none

/-- The shortest two's complement form. -/
def isMinimalInteger : Bytes → Bool
  | [] => false
  | [_] => true
  | a :: b :: _ => !((a == 0 && b < 0x80) || (a == 0xFF && 0x80 ≤ b))

def integerOf (bs : Bytes) : Option Int :=
  if isMinimalInteger bs then
    let n : Int := Bytes.toNat bs
    some (if bs.headD 0 < 0x80 then n else n - Nat.pow 256 bs.length)
  else none

def naturalOf (bs : Bytes) : Option Nat :=
  (integerOf bs).bind fun i => if 0 ≤ i then some i.toNat else none

def naturalBelow (bound : Nat) (bs : Bytes) : Option Nat :=
  (naturalOf bs).bind fun n => if n < bound then some n else none

def booleanOf : Bytes → Option Bool
  | [0x00] => some false
  | [0xFF] => some true
  | _ => none

/-- The octets of a bit string; the bits that are not used are zero. -/
def bitsOf : Bytes → Option (Nat × Bytes)
  | [] => none
  | unused :: bs =>
    match bs.getLast? with
    | none => if unused = 0 then some (0, []) else none
    | some final => if unused < 8 ∧ final.toNat % Nat.pow 2 unused.toNat = 0 then some (unused.toNat, bs) else none

abbrev Oid := List Nat

/-- The most octets that an object identifier takes, and the bound on each of its numbers. -/
def oidLength : Nat := 63
def arcBound : Nat := Nat.pow 2 128

def arcsFrom : (fuel : Nat) → Bytes → Option (List Nat)
  | _, [] => some []
  | 0, _ => none
  | fuel + 1, bs => do
    let (n, rest) ← readMinimal128 bs
    if n < arcBound then (arcsFrom fuel rest).map (n :: ·) else none

/-- The first number of an object identifier stands for its first two arcs. -/
def oidOf (bs : Bytes) : Option Oid := do
  if oidLength < bs.length then none
  match ← arcsFrom bs.length bs with
  | [] => none
  | n :: arcs =>
    if n < 40 then some (0 :: n :: arcs)
    else if n < 80 then some (1 :: (n - 40) :: arcs)
    else some (2 :: (n - 80) :: arcs)

def oidText (o : Oid) : String := ".".intercalate (o.map toString)

namespace Reader

def oid : Reader Oid := value objectIdentifier oidOf
def natural : Reader Nat := value integer naturalOf

end Reader
end Der
end AttestationTrust
