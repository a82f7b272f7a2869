import AttestationTrust.Numeral.Binary64
import AttestationTrust.Text.Blank
import AttestationTrust.Text.DecimalDigit
/-!
# Numbers in text

An integer is an optional sign and decimal digits of any script, with single underscores between digits and
blanks around the whole; more than 4300 digits are refused.  A floating point number adds a point, an exponent
and the words for infinity and for the undefined number.
-/
namespace AttestationTrust
namespace Numeral

/-- The greatest number of digits an integer is read from. -/
def maxDigits : Nat := 4300

/-- Digits with single underscores between them: their value and their number. -/
def readDigits (afterDigit : Bool) (value count : Nat) : List Char → Option (Nat × Nat)
  | [] => if afterDigit then some (value, count) else none
  | c :: rest =>
    if c = '_' then (if afterDigit then readDigits false value count rest else none)
    else match Text.digitValue c with
      | some d => readDigits true (value * 10 + d) (count + 1) rest
      | none => none

def readNatural (cs : List Char) : Option Nat :=
  match readDigits false 0 0 cs with
  | some (value, count) => if count ≤ maxDigits then some value else none
  | none => none

/-- An optional sign and what follows it. -/
def splitSign : List Char → Bool × List Char
  | '-' :: rest => (true, rest)
  | '+' :: rest => (false, rest)
  | cs => (false, cs)

def readInteger (s : String) : Option Int :=
  let (negative, digits) := splitSign (Text.trimList s.toList)
  (readNatural digits).map fun n => if negative then -(n : Int) else n

/-- The number of digits that a text begins with, with single underscores between them. -/
def leadingDigits (afterDigit : Bool) (count : Nat) : List Char → Option Nat
  | [] => if afterDigit then some count else none
  | c :: rest =>
    if c = '_' then (if afterDigit then leadingDigits false count rest else none)
    else match Text.digitValue c with
      | some _ => leadingDigits true (count + 1) rest
      | none => if afterDigit then some count else none

/-- Whether a text begins with more digits than an integer is read from. -/
def isOverlong (s : String) : Bool :=
  match leadingDigits false 0 (splitSign (Text.trimList s.toList)).2 with
  | some count => maxDigits < count
  | none => false

def isAsciiDigit (c : Char) : Bool := '0' ≤ c && c ≤ '9'

/-- Digits of every script become the ASCII ones. -/
def plainDigit (c : Char) : Char :=
  match Text.digitValue c with
  | some d => Char.ofNat (48 + d)
  | none => c

/-- Removes the underscores, each of which must stand between two digits. -/
def dropUnderscores (previous : Char) : List Char → Option (List Char)
  | [] => if previous = '_' then none else some []
  | c :: rest =>
    if c = '_' then (if isAsciiDigit previous then dropUnderscores c rest else none)
    else if previous = '_' && !isAsciiDigit c then none
    else (dropUnderscores c rest).map (c :: ·)

def digitsValue (ds : List Char) : Nat := ds.foldl (fun n d => n * 10 + (d.toNat - 48)) 0

/-- The exponent after its letter: nothing, or a signed number up to the end. -/
def readExponent : List Char → Option Int
  | [] => some 0
  | c :: rest =>
    if c = 'e' ∨ c = 'E' then
      let (negative, ds) := splitSign rest
      if ds ≠ [] ∧ ds.all isAsciiDigit then
        some (if negative then -(digitsValue ds : Int) else digitsValue ds)
      else none
    else none

/-- Digits, a point with more digits, an exponent; one digit at least stands beside the point. -/
def readDecimal (negative : Bool) (cs : List Char) : Option Binary64 :=
  let whole := cs.takeWhile isAsciiDigit
  let rest := cs.dropWhile isAsciiDigit
  let (places, rest) := match rest with
    | '.' :: after => (after.takeWhile isAsciiDigit, after.dropWhile isAsciiDigit)
    | _ => ([], rest)
  if whole = [] ∧ places = [] then none
  else (readExponent rest).map fun e =>
    Binary64.ofDecimal negative (digitsValue (whole ++ places)) (e - places.length)

def readFloat (s : String) : Option Binary64 := do
  let cs ← dropUnderscores ' ' ((Text.trimList s.toList).map plainDigit)
  let (negative, size) := splitSign cs
  let word := String.ofList (size.map Text.lowerChar)
  if word = "inf" ∨ word = "infinity" then
    some (Binary64.ofMagnitude negative Binary64.topMagnitude)
  else if word = "nan" then
    some (Binary64.ofMagnitude negative Binary64.nan.magnitude)
  else readDecimal negative size

/-- The digits of an integer, behind a minus sign if it is negative. -/
def integerText (i : Int) : String := toString i

end Numeral
end AttestationTrust
