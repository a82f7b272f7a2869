import AttestationTrust.Failure
import AttestationTrust.Url
/-!
# Targets of requests

A request may name its target by a path alone or by a whole location.  The path that counts is the path of that
location, split off twice and with its escapes decoded; slashes before it count as one (`Target.ofText`).
-/
namespace AttestationTrust
namespace Http

structure Target where
  /-- Starts with one slash. -/
  path : List Char
  /-- Whether the location is one of a socket and not of a page. -/
  isSocket : Bool
  deriving DecidableEq, Repr

namespace Target

/-- Escaped octets are read; one that is no ASCII stands for a character that no path of the service has. -/
def decode : List Char → List Char
  | [] => []
  | '%' :: a :: b :: rest =>
    match Hex.valueOf a, Hex.valueOf b with
    | some h, some l => (if h < 8 then Char.ofNat (h * 16 + l) else Char.ofNat 0xFFFD) :: decode rest
    | _, _ => '%' :: decode (a :: b :: rest)
  | c :: rest => c :: decode rest

/-- A label of a host name has one to 63 characters; the last may be empty. -/
def areLabelsSound (host : List Char) : Bool :=
  let labels := host.splitOn '.'
  labels.all (·.length < 64) && labels.dropLast.all fun l => !l.isEmpty

def maxPort : Nat := 65535

def isPort (cs : List Char) : Bool :=
  cs.all Url.isDigit && cs.foldl (fun n c => n * 10 + (c.toNat - 48)) 0 ≤ maxPort

/-- The host of a location has a name, and its port is a number that ports have. -/
def checkAuthority (authority : List Char) : Except Failure Unit :=
  let (host, port) := Url.hostParts authority
  if host.all (fun c => c.toNat < 0x80) && !areLabelsSound host then .error (.foreign "UnicodeError" "")
  else if isPort port then .ok () else .error (.value .unworded)

/-- The parts of a location, put together again: a host alone in lower case. -/
def joined (u : Url) : List Char :=
  let (host, port) := Url.hostParts u.authority.toList
  let isAlone := port.isEmpty && !u.authority.toList.contains '@'
  let authority := if isAlone then host.map Text.lowerChar else u.authority.toList
  let start := if u.authority = "" then [] else '/' :: '/' :: authority
  if u.scheme = "" then start ++ u.path.toList else u.scheme.toList ++ ':' :: start ++ u.path.toList

def split (s : String) : Except Failure Url :=
  match Url.split? s with
  | some u => .ok u
  | none => .error (.value .unworded)

def socketSchemes : List String := ["ws", "wss"]

def ofText (s : String) : Except Failure Target := do
  let location ← split s
  checkAuthority location.authority.toList
  let within ← split (location.path ++ (if location.query = "" then "" else "?" ++ location.query))
  let innermost ← split within.path
  checkAuthority innermost.authority.toList
  .ok ⟨'/' :: (decode (joined innermost)).dropWhile (· == '/'), socketSchemes.contains location.scheme⟩

/-- The path with each pair of slashes made one. -/
def mergeSlashes : List Char → List Char
  | '/' :: '/' :: rest => '/' :: mergeSlashes rest
  | c :: rest => c :: mergeSlashes rest
  | [] => []

end Target
end Http
end AttestationTrust
