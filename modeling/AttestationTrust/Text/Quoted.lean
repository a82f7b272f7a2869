import AttestationTrust.Bytes
import AttestationTrust.Hex
import AttestationTrust.Text.Printable
import AttestationTrust.Text.Utf8
/-!
# Quoted text

How a text or a byte string is written inside a message: between single quotes, or between double quotes if it
holds a single quote and no double quote, with a backslash before what would end it and an escape for what is
not printable.
-/
namespace AttestationTrust
namespace Text

def singleQuote : Char := Char.ofNat 39
def doubleQuote : Char := Char.ofNat 34
def backslash : Char := Char.ofNat 92

def hexPadded (width n : Nat) : List Char :=
  let ds := Nat.toDigits 16 n
  List.replicate (width - ds.length) '0' ++ ds

def chooseQuote (hasSingle hasDouble : Bool) : Char :=
  if hasSingle && !hasDouble then doubleQuote else singleQuote

def escapeChar (quote c : Char) : List Char :=
  if c == quote || c == backslash then [backslash, c]
  else if c == '\n' then [backslash, 'n']
  else if c == '\r' then [backslash, 'r']
  else if c == '\t' then [backslash, 't']
  else if isPrintable c then [c]
  else if c.toNat < 0x100 then backslash :: 'x' :: hexPadded 2 c.toNat
  else if c.toNat < 0x10000 then backslash :: 'u' :: hexPadded 4 c.toNat
  else
    match surrogateOf? c with
    | some u => backslash :: 'u' :: hexPadded 4 u
    | none => backslash :: 'U' :: hexPadded 8 c.toNat

/-- A text as a message quotes it. -/
def quoted (s : String) : String :=
  let q := chooseQuote (s.toList.contains singleQuote) (s.toList.contains doubleQuote)
  String.ofList (q :: s.toList.flatMap (escapeChar q) ++ [q])

def escapeByte (quote : Char) (b : UInt8) : List Char :=
  let c := Char.ofNat b.toNat
  if c == quote || c == backslash then [backslash, c]
  else if c == '\n' then [backslash, 'n']
  else if c == '\r' then [backslash, 'r']
  else if c == '\t' then [backslash, 't']
  else if 32 ≤ b && b < 127 then [c]
  else backslash :: 'x' :: hexPadded 2 b.toNat

/-- A byte string as a message quotes it, behind the letter that marks one. -/
def quotedBytes (bs : Bytes) : String :=
  let q := chooseQuote (bs.any (· == 39)) (bs.any (· == 34))
  String.ofList ('b' :: q :: bs.flatMap (escapeByte q) ++ [q])

end Text
end AttestationTrust
