import AttestationTrust.Text.Blank
/-!
# Locations

A location is split into its scheme, its authority, the part between two slashes and the next slash, question
mark or number sign, its path and its query (`Url.split?`); the fragment is dropped.  The split is refused when
the authority has brackets that are not balanced or hold no address, or a character that normalisation would
turn into a delimiter.
-/
namespace AttestationTrust

structure Url where
  scheme : String
  authority : String
  path : String
  query : String
  deriving DecidableEq, Repr

namespace Url

/-- Controls and spaces before a location do not belong to it. -/
def isLeading (c : Char) : Bool := c.toNat ≤ 0x20

/-- Tabs and line ends do not belong to a location wherever they stand. -/
def isRemoved (c : Char) : Bool := c == '\t' || c == '\n' || c == '\r'

def isLetter (c : Char) : Bool := ('a' ≤ c && c ≤ 'z') || ('A' ≤ c && c ≤ 'Z')
def isDigit (c : Char) : Bool := '0' ≤ c && c ≤ '9'
def isSchemeChar (c : Char) : Bool := isLetter c || isDigit c || c == '+' || c == '-' || c == '.'

/-- The two sides of the first occurrence of a character. -/
def cut (c : Char) (cs : List Char) : Option (List Char × List Char) :=
  match cs.dropWhile (· != c) with
  | [] => none
  | _ :: after => some (cs.takeWhile (· != c), after)

/-- The scheme in lower case and what follows its colon; without a scheme all is left as it is. -/
def splitScheme (cs : List Char) : List Char × List Char :=
  match cut ':' cs with
  | some (c :: word, after) =>
    if isLetter c && word.all isSchemeChar then ((c :: word).map Text.lowerChar, after) else ([], cs)
  | _ => ([], cs)

def endsAuthority (c : Char) : Bool := c == '/' || c == '?' || c == '#'

def isHex (c : Char) : Bool := isDigit c || ('a' ≤ c && c ≤ 'f') || ('A' ≤ c && c ≤ 'F')

/-- A number from 0 to 255 without leading zeros. -/
def isByteText (ds : List Char) : Bool :=
  ds.length ≠ 0 && ds.length ≤ 3 && ds.all isDigit && (ds.length == 1 || ds.headD '0' != '0') &&
    ds.foldl (fun n d => n * 10 + (d.toNat - 48)) 0 ≤ 255

def isDotted (cs : List Char) : Bool :=
  let parts := cs.splitOn '.'
  parts.length == 4 && parts.all isByteText

def isGroup (cs : List Char) : Bool := cs.length ≠ 0 && cs.length ≤ 4 && cs.all isHex

/-- The groups of an address; a dotted end counts as two. -/
def groups (cs : List Char) : Option (List (List Char)) :=
  let parts := cs.splitOn ':'
  match parts.getLast? with
  | some final =>
    if parts.length < 3 then none
    else if final.contains '.' then
      if isDotted final then some (parts.dropLast ++ [['0'], ['0']]) else none
    else some parts
  | none => none

/-- Eight groups, or fewer around one run of zeros that is left out. -/
def areGroups (parts : List (List Char)) : Bool :=
  let inner := parts.tail.dropLast
  let blanks := inner.filter (·.isEmpty)
  if 9 < parts.length ∨ 1 < blanks.length then false
  else if blanks.length = 1 then
    let before := inner.takeWhile fun g => !g.isEmpty
    let after := (inner.dropWhile fun g => !g.isEmpty).tail
    let first := parts.headD []
    let final := parts.getLastD []
    let startOk := if first.isEmpty then before.isEmpty else isGroup first && before.all isGroup
    let endOk := if final.isEmpty then after.isEmpty else isGroup final && after.all isGroup
    let count := (if first.isEmpty then 0 else before.length + 1) + (if final.isEmpty then 0 else after.length + 1)
    startOk && endOk && count < 8
  else parts.length == 8 && parts.all isGroup

/-- An address of eight groups, with a zone behind a percent sign or without one. -/
def isAddress (cs : List Char) : Bool :=
  let (address, zoneOk) := match cut '%' cs with
    | some (address, zone) => (address, !zone.isEmpty && !zone.contains '%')
    | none => (cs, true)
  zoneOk && ((groups address).map areGroups).getD false

/-- An address of a later version: the letter, hexadecimal digits, a point and something behind it. -/
def isLaterAddress (rest : List Char) : Bool :=
  match cut '.' rest with
  | some (digits, after) =>
    !digits.isEmpty && digits.all isHex && !after.isEmpty && after.all (· != '\n')
  | none => false

def isBracketedHost : List Char → Bool
  | 'v' :: rest => isLaterAddress rest
  | cs => isAddress cs

/-- What follows the last at sign. -/
def hostAndPort (cs : List Char) : List Char := (cs.reverse.takeWhile (· != '@')).reverse

/-- The host and the port of an authority; brackets around the host do not belong to it. -/
def hostParts (authority : List Char) : List Char × List Char :=
  let hp := hostAndPort authority
  match cut '[' hp with
  | some (_, inside) =>
    let (host, after) := (cut ']' inside).getD (inside, [])
    (host, ((cut ':' after).map (·.2)).getD [])
  | none => (cut ':' hp).getD (hp, [])

/-- Brackets come in pairs and hold an address, before which nothing stands and after which only a port number. -/
def areBracketsSound (authority : List Char) : Bool :=
  let hasOpen := authority.contains '['
  let hasClose := authority.contains ']'
  if hasOpen != hasClose then false
  else if !hasOpen then true
  else
    let hp := hostAndPort authority
    match cut '[' hp with
    | some (before, inside) =>
      match cut ']' inside with
      | some (host, []) => before.isEmpty && isBracketedHost host
      | some (host, c :: _) => before.isEmpty && c == ':' && isBracketedHost host
      | none => before.isEmpty && isBracketedHost inside
    | none => isBracketedHost (hp.takeWhile (· != ':'))

/-- The characters whose compatibility form holds a delimiter. -/
def disguisedDelimiters : List Nat := [
  0x2047, 0x2048, 0x2049, 0x2100, 0x2101, 0x2105, 0x2106, 0x2A74, 0xFE13, 0xFE16, 0xFE55, 0xFE56, 0xFE5F, 0xFE6B,
  0xFF03, 0xFF0F, 0xFF1A, 0xFF1F, 0xFF20]

/-- The path and the query of what follows the authority. -/
def splitPath (cs : List Char) : List Char × List Char :=
  let cs := cs.takeWhile (· != '#')
  (cut '?' cs).getD (cs, [])

def split? (s : String) : Option Url :=
  let cs := (s.toList.dropWhile isLeading).filter fun c => !isRemoved c
  let (scheme, rest) := splitScheme cs
  let (authority, rest) := match rest with
    | '/' :: '/' :: rest =>
      let authority := rest.takeWhile fun c => !endsAuthority c
      (authority, rest.drop authority.length)
    | _ => ([], rest)
  let (path, query) := splitPath rest
  if areBracketsSound authority && authority.all fun c => !disguisedDelimiters.contains c.toNat then
    some ⟨String.ofList scheme, String.ofList authority, String.ofList path, String.ofList query⟩
  else none

/-- Whether the location is one of a web server. -/
def isWeb (u : Url) : Bool := (u.scheme == "http" || u.scheme == "https") && u.authority != ""

end Url
end AttestationTrust
