import AttestationTrust.Bytes
/-!
# Base64

Four characters carry three octets, over the standard alphabet or the one that is safe in a URL.  Two readers
share the alphabet.  The lenient one (`Base64.decode`) passes over foreign characters and stops at the first
`=` that completes a quad; the strict one (`Base64.decodeStrict`) refuses foreign characters, padding before
its place and anything after it.  `decodeUrl` is the lenient reader, with `-` and `_`
for `+` and `/`.
-/
namespace AttestationTrust
namespace Base64

inductive Alphabet where
  | standard
  | urlSafe
  deriving DecidableEq, Repr

def pad : UInt8 := 61

/-- The character of a six-bit value. -/
def Alphabet.character (a : Alphabet) (v : Nat) : UInt8 :=
  if v < 26 then UInt8.ofNat (65 + v)
  else if v < 52 then UInt8.ofNat (71 + v)
  else if v < 62 then UInt8.ofNat (v - 4)
  else match a with
    | .standard => if v = 62 then 43 else 47
    | .urlSafe => if v = 62 then 45 else 95

/-- The six-bit value of a character of the standard alphabet. -/
def valueOf (c : UInt8) : Option Nat :=
  if 65 ≤ c ∧ c ≤ 90 then some (c.toNat - 65)
  else if 97 ≤ c ∧ c ≤ 122 then some (c.toNat - 71)
  else if 48 ≤ c ∧ c ≤ 57 then some (c.toNat + 4)
  else if c = 43 then some 62
  else if c = 47 then some 63
  else none

/-- Three octets into four values, two into three, one into two. -/
def encodeWith (a : Alphabet) (padded : Bool) : Bytes → Bytes
  | x :: y :: z :: rest =>
    let n := x.toNat * 65536 + y.toNat * 256 + z.toNat
    a.character (n / 262144) :: a.character (n / 4096 % 64) :: a.character (n / 64 % 64) ::
      a.character (n % 64) :: encodeWith a padded rest
  | [x, y] =>
    let n := x.toNat * 1024 + y.toNat * 4
    [a.character (n / 4096), a.character (n / 64 % 64), a.character (n % 64)] ++
      if padded then [pad] else []
  | [x] =>
    let n := x.toNat * 16
    [a.character (n / 64), a.character (n % 64)] ++ if padded then [pad, pad] else []
  | [] => []

/-- The standard rendering, with its padding. -/
def encode (bs : Bytes) : Bytes := encodeWith .standard true bs

def text (bs : Bytes) : String := String.ofList ((encode bs).map fun b => Char.ofNat b.toNat)

/-- The octets that two or three values of an unfinished quad have settled. -/
def settled : List Nat → Bytes
  | [a, b] => [UInt8.ofNat (a * 4 + b / 16)]
  | [a, b, c] => [UInt8.ofNat (a * 4 + b / 16), UInt8.ofNat (b % 16 * 16 + c / 4)]
  | _ => []

def quad (a b c d : Nat) : Bytes :=
  [UInt8.ofNat (a * 4 + b / 16), UInt8.ofNat (b % 16 * 16 + c / 4), UInt8.ofNat (c % 4 * 64 + d)]

/-- The lenient reader: `vs` are the values of the quad being read and `pads` the `=` seen in a row since its
last value. -/
def readLenient (vs : List Nat) (pads : Nat) : Bytes → Option Bytes
  | [] => if vs = [] then some [] else none
  | c :: rest =>
    if c = pad then
      if 2 ≤ vs.length then
        if 4 ≤ vs.length + (pads + 1) then some (settled vs) else readLenient vs (pads + 1) rest
      else readLenient vs pads rest
    else match valueOf c with
      | none => readLenient vs pads rest
      | some v =>
        match vs with
        | [x, y, z] => (readLenient [] 0 rest).map (quad x y z v ++ ·)
        | _ => readLenient (vs ++ [v]) 0 rest

/-- Foreign characters are passed over; ending inside a quad is refused. -/
def decode (cs : Bytes) : Option Bytes := readLenient [] 0 cs

/-- The strict reader: `padding` says whether an `=` has been seen. -/
def readStrict (vs : List Nat) (pads : Nat) (padding : Bool) : Bytes → Option Bytes
  | [] => if vs = [] then some [] else none
  | c :: rest =>
    if c = pad then
      if 2 ≤ vs.length then
        if 4 ≤ vs.length + (pads + 1) then (if rest = [] then some (settled vs) else none)
        else readStrict vs (pads + 1) true rest
      else readStrict vs pads true rest
    else match valueOf c with
      | none => none
      | some v =>
        if padding then none
        else match vs with
          | [x, y, z] => (readStrict [] 0 false rest).map (quad x y z v ++ ·)
          | _ => readStrict (vs ++ [v]) 0 false rest

def decodeStrict : Bytes → Option Bytes
  | [] => some []
  | c :: rest => if c = pad then none else readStrict [] 0 false (c :: rest)

/-- The URL-safe characters become the standard ones; the standard ones are still read. -/
def standardise (c : UInt8) : UInt8 := if c = 45 then 43 else if c = 95 then 47 else c

def decodeUrl (cs : Bytes) : Option Bytes := decode (cs.map standardise)

/-- As many `=` as bring the length to a multiple of four. -/
def padding (cs : Bytes) : Bytes := List.replicate ((4 - cs.length % 4) % 4) pad

/-- A segment that may lack its padding. -/
def decodeSegment (cs : Bytes) : Option Bytes := decodeUrl (cs ++ padding cs)

/-- The octets of a text, unless it leaves ASCII. -/
def asciiOf (s : String) : Option Bytes :=
  if s.toList.all (·.toNat < 128) then some (s.toList.map fun c => UInt8.ofNat c.toNat) else none

/-- The lenient reader on text. -/
def ofText? (s : String) : Option Bytes := (asciiOf s).bind decode

theorem valueOf_character : ∀ v < 64, valueOf (Alphabet.standard.character v) = some v := by decide

end Base64
end AttestationTrust
