import AttestationTrust.Value
import AttestationTrust.Text.Utf8
/-!
# Reading JSON

A document is one value between blanks.  An integer is written without point and exponent and may have any
number of digits up to the greatest that is read; the words for the numbers that are not finite are read as
such.  A text holds no control character, and a pair of escaped surrogates is one character.  Of a key that
occurs more than once the last value counts.  Lists and objects stand inside each other up to a depth that the
environment sets (`Json.Limits`), and the first that stands deeper ends the reading (`Json.Fault.tooDeep`).

Every step of the reader returns what is left to read, so the fuel of `Json.parse` is the length of the text:
each nested value takes a character at least.
-/
namespace AttestationTrust
namespace Json

/-- Why a document is not read. -/
inductive Fault where
  | invalid
  | tooDeep
  deriving DecidableEq, Repr

def orInvalid {α : Type} : Option α → Except Fault α
  | some a => .ok a
  | none => .error .invalid

/-- What the environment sets for the reader: how many lists and objects may stand inside each other, one at least.
Where the depth comes from is not modelled, so what is said of documents is said at every depth. -/
class Limits where
  depth : Nat
  depth_pos : 0 < depth

namespace Limits

/-- The depth that is left to the program where it is run. -/
scoped instance usual : Limits := ⟨985, by decide⟩

end Limits

def isBlank (c : Char) : Bool := c == ' ' || c == '\t' || c == '\n' || c == '\r'

def skipBlanks (cs : List Char) : List Char := cs.dropWhile isBlank

/-- Four hexadecimal digits. -/
def unit (a b c d : Char) : Option Nat := do
  let a ← Hex.valueOf a
  let b ← Hex.valueOf b
  let c ← Hex.valueOf c
  let d ← Hex.valueOf d
  some (a * 4096 + b * 256 + c * 16 + d)

/-- The character behind a backslash that is not an escaped unit. -/
def escaped (c : Char) : Option Char :=
  if c == Text.doubleQuote || c == Text.backslash || c == '/' then some c
  else if c == 'b' then some (Char.ofNat 8)
  else if c == 'f' then some (Char.ofNat 12)
  else if c == 'n' then some '\n'
  else if c == 'r' then some '\r'
  else if c == 't' then some '\t'
  else none

def isLead (u : Nat) : Bool := 0xD800 ≤ u && u ≤ 0xDBFF
def isTrail (u : Nat) : Bool := 0xDC00 ≤ u && u ≤ 0xDFFF

/-- The rest of a text after its opening quote: its characters and what follows the closing quote.  `lead` is
an escaped leading surrogate that waits for its partner. -/
def readText (lead : Option Nat) : List Char → Option (List Char × List Char)
  | [] => none
  | c :: rest =>
    let held : List Char := match lead with
      | some u => [Text.scalar u]
      | none => []
    if c == Text.doubleQuote then some (held, rest)
    else if c == Text.backslash then
      match rest with
      | 'u' :: a :: b :: d :: e :: rest =>
        match unit a b d e with
        | none => none
        | some u =>
          match lead with
          | some l =>
            if isTrail u then
              (readText none rest).map fun (cs, r) =>
                (Text.scalar (0x10000 + (l - 0xD800) * 1024 + (u - 0xDC00)) :: cs, r)
            else if isLead u then (readText (some u) rest).map fun (cs, r) => (Text.scalar l :: cs, r)
            else (readText none rest).map fun (cs, r) => (Text.scalar l :: Text.scalar u :: cs, r)
          | none =>
            if isLead u then readText (some u) rest
            else (readText none rest).map fun (cs, r) => (Text.scalar u :: cs, r)
      | d :: rest =>
        match escaped d with
        | none => none
        | some ch => (readText none rest).map fun (cs, r) => (held ++ ch :: cs, r)
      | [] => none
    else if c.toNat < 0x20 then none
    else (readText none rest).map fun (cs, r) => (held ++ c :: cs, r)

def isDigit (c : Char) : Bool := '0' ≤ c && c ≤ '9'

/-- The digits before the point: a zero alone, or digits that start with another. -/
def readWhole : List Char → Option (List Char × List Char)
  | '0' :: rest => some (['0'], rest)
  | c :: rest =>
    if isDigit c then some (c :: rest.takeWhile isDigit, rest.dropWhile isDigit) else none
  | [] => none

/-- A point with a digit behind it; anything else belongs to what follows the number. -/
def readPlaces : List Char → List Char × List Char
  | '.' :: rest =>
    match rest.takeWhile isDigit with
    | [] => ([], '.' :: rest)
    | ds => (ds, rest.dropWhile isDigit)
  | cs => ([], cs)

def readPower (cs : List Char) : Option (Int × List Char) :=
  match cs with
  | [] => none
  | c :: rest =>
    if c == 'e' || c == 'E' then
      let (negative, ds) := Numeral.splitSign rest
      match ds.takeWhile isDigit with
      | [] => none
      | digits =>
        let n : Int := Numeral.digitsValue digits
        some (if negative then -n else n, ds.dropWhile isDigit)
    else none

/-- A number after its sign. -/
def readSize (negative : Bool) (cs : List Char) : Option (Value × List Char) := do
  let (whole, rest) ← readWhole cs
  let (places, rest) := readPlaces rest
  match places, readPower rest with
  | [], none =>
    if Numeral.maxDigits < whole.length then none
    else
      let n : Int := Numeral.digitsValue whole
      some (.int (if negative then -n else n), rest)
  | _, power =>
    let (e, rest) := power.getD (0, rest)
    some (.float (Binary64.ofDecimal negative (Numeral.digitsValue (whole ++ places)) (e - places.length)), rest)

/-- The words a document may hold. -/
def words : List (List Char × Value) := [
  ("null".toList, .null), ("true".toList, .bool true), ("false".toList, .bool false),
  ("NaN".toList, .float Binary64.nan), ("Infinity".toList, .float Binary64.infinity),
  ("-Infinity".toList, .float (Binary64.ofMagnitude true Binary64.topMagnitude))]

def readWord (cs : List Char) : Option (Value × List Char) :=
  (words.find? fun w => w.1.isPrefixOf cs).map fun w => (w.2, cs.drop w.1.length)

def readScalar (cs : List Char) : Option (Value × List Char) :=
  match readWord cs with
  | some r => some r
  | none =>
    match cs with
    | '-' :: rest => readSize true rest
    | _ => readSize false cs

def readKey : List Char → Option (String × List Char)
  | c :: rest =>
    if c == Text.doubleQuote then (readText none rest).map fun (cs, r) => (String.ofList cs, r) else none
  | [] => none

mutual

/-- A value that starts at once; `room` is how many lists and objects may still be opened. -/
def readValue : (fuel room : Nat) → List Char → Except Fault (Value × List Char)
  | 0, _, _ => .error .invalid
  | _, _, [] => .error .invalid
  | fuel + 1, room, c :: rest =>
    if c == Text.doubleQuote then
      (orInvalid (readText none rest)).map fun (cs, r) => (.text (String.ofList cs), r)
    else if c == '[' || c == '\x7b' then
      match room with
      | 0 => .error .tooDeep
      | room + 1 =>
        match c, skipBlanks rest with
        | '[', ']' :: after => .ok (.list [], after)
        | '[', inner => (readItems fuel room inner).map fun (xs, r) => (.list xs, r)
        | _, '\x7d' :: after => .ok (.map [], after)
        | _, inner => (readFields fuel room inner).map fun (fs, r) => (.map (Value.ofPairs fs), r)
    else orInvalid (readScalar (c :: rest))

/-- The items of a list up to its closing bracket. -/
def readItems : (fuel room : Nat) → List Char → Except Fault (List Value × List Char)
  | 0, _, _ => .error .invalid
  | fuel + 1, room, cs => do
    let (x, rest) ← readValue fuel room cs
    match skipBlanks rest with
    | ',' :: rest => (readItems fuel room (skipBlanks rest)).map fun (xs, r) => (x :: xs, r)
    | ']' :: rest => .ok ([x], rest)
    | _ => .error .invalid

/-- The fields of an object up to its closing brace. -/
def readFields : (fuel room : Nat) → List Char → Except Fault (Value.Fields × List Char)
  | 0, _, _ => .error .invalid
  | fuel + 1, room, cs => do
    let (key, rest) ← orInvalid (readKey cs)
    match skipBlanks rest with
    | ':' :: rest =>
      let (v, rest) ← readValue fuel room (skipBlanks rest)
      match skipBlanks rest with
      | ',' :: rest => (readFields fuel room (skipBlanks rest)).map fun (fs, r) => ((key, v) :: fs, r)
      | '\x7d' :: rest => .ok ([(key, v)], rest)
      | _ => .error .invalid
    | _ => .error .invalid

end

variable [Limits]

/-- The value of a document, if the whole text is one. -/
def parse (cs : List Char) : Except Fault Value := do
  let (v, rest) ← readValue (2 * cs.length + 2) Limits.depth (skipBlanks cs)
  if skipBlanks rest = [] then .ok v else .error .invalid

/-- A byte string in any of the encodings that a document may come in. -/
def ofBytes (bs : Bytes) : Except Fault Value := do
  parse (← orInvalid ((Text.Encoding.detect bs).decode bs))

/-- A byte string in UTF-8 alone. -/
def ofUtf8 (bs : Bytes) : Except Fault Value := do
  parse (← orInvalid (Text.Utf8.decode bs)).toList

end Json
end AttestationTrust
