import AttestationTrust.Base64
import AttestationTrust.Text.Blank
import AttestationTrust.Text.Utf8
/-!
# Armoured documents

An armoured document is base64 between a mark that opens it and one that closes it, both with its label; white
space in it does not count.  A mark is looked for from left to right, and an octet that breaks a match starts no
new one (`Pem.cutAt`).  A byte string may hold several, with anything between them; one that is damaged spoils
them all (`Pem.blocks`).
-/
namespace AttestationTrust
namespace Pem

structure Block where
  label : Bytes
  content : Bytes
  deriving DecidableEq, Repr

def openMark : Bytes := Bytes.ofText "-----BEGIN "
def closeMark : Bytes := Bytes.ofText "-----END "
def dashes : Bytes := Bytes.ofText "-----"

def isBlank (b : UInt8) : Bool := b == 32 || b == 9 || b == 10 || b == 13

/-- The longest line of a rendered body. -/
def lineLength : Nat := 64

/-- A line end before every further line; `room` is what is left of the line. -/
def wrap : (room : Nat) → Bytes → Bytes
  | _, [] => []
  | 0, c :: rest => 10 :: c :: wrap (lineLength - 1) rest
  | room + 1, c :: rest => c :: wrap room rest

/-- The armoured document of some content under a label. -/
def render (label : String) (content : Bytes) : Bytes :=
  openMark ++ Bytes.ofText label ++ dashes ++ 10 :: wrap lineLength (Base64.encode content) ++
    10 :: closeMark ++ Bytes.ofText label ++ dashes ++ [10]

/-- How many octets are read up to the end of a marker, of which `wanted` is still to come. -/
def endOfMatch (marker wanted : Bytes) (read : Nat) : Bytes → Option Nat
  | [] => none
  | b :: rest =>
    match wanted with
    | [] => none
    | w :: more =>
      if b ≠ w then endOfMatch marker marker (read + 1) rest
      else if more = [] then some (read + 1)
      else endOfMatch marker more (read + 1) rest

/-- What follows a marker, beside what precedes it. -/
def cutAt (marker bs : Bytes) : Option (Bytes × Bytes) :=
  (endOfMatch marker marker 0 bs).map fun n => (bs.take (n - marker.length), bs.drop n)

/-- The headers of a body stand before its first empty line; each has a name and a colon. -/
def splitHeaders (body : Bytes) : Bytes × Bytes :=
  match cutAt [10, 10] body with
  | some parts => parts
  | none => (cutAt [13, 10, 13, 10] body).getD ([], body)

/-- Whether a text has a header in each of its lines; an empty text has no lines. -/
def areHeaders (headers : Bytes) : Bool :=
  (Text.Utf8.decode headers).isSome && (headers = [] || (Bytes.splitOn 10 headers).all fun l => l.any (· == 58))

/-- A text without its white space. -/
def withoutSpace (data : Bytes) : Option Bytes :=
  (Text.Utf8.decode data).bind fun s => Base64.asciiOf (String.ofList (s.toList.filter fun c => !Text.isSpace c))

/-- Base64 whose last character has no bit to spare. -/
def readCanonical (cs : Bytes) : Option Bytes :=
  (Base64.decodeStrict cs).bind fun bs => if Base64.encode bs = cs then some bs else none

def block (label closing body : Bytes) : Option Block := do
  let (headers, data) := splitHeaders body
  let content ← readCanonical (← withoutSpace data)
  if label ≠ [] ∧ closing = label ∧ (Text.Utf8.decode label).isSome ∧ areHeaders headers then
    some ⟨label, content⟩
  else none

def blocksFrom : (fuel : Nat) → Bytes → Option (List Block)
  | 0, _ => some []
  | fuel + 1, bs =>
    match cutAt openMark bs with
    | none => some []
    | some (_, bs) =>
      match cutAt dashes bs with
      | none => some []
      | some (label, bs) =>
        match cutAt closeMark (bs.dropWhile isBlank) with
        | none => some []
        | some (body, bs) =>
          match cutAt dashes bs with
          | none => some []
          | some (closing, rest) => do
            let b ← block label closing body
            (blocksFrom fuel rest).map (b :: ·)

/-- All the blocks of a byte string; one that is not closed is passed over. -/
def blocks (bs : Bytes) : Option (List Block) := blocksFrom bs.length bs

/-- The first block under one of some labels. -/
def find? (labels : List String) (bs : Bytes) : Option Bytes := do
  let found ← (← blocks bs).find? fun b => (labels.map Bytes.ofText).contains b.label
  some found.content

end Pem
end AttestationTrust
