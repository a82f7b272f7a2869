import AttestationTrust.Der
import AttestationTrust.X509.Fault
/-!
# Transparency

The stamps of the logs that a certificate was entered in.  A stamp and every part of it that varies in length
stand behind two octets of length.
-/
namespace AttestationTrust
namespace X509

structure LogStamp where
  log : Bytes
  /-- Milliseconds since 1970. -/
  moment : Nat
  extensions : Bytes
  hash : Nat
  algorithm : Nat
  signature : Bytes
  deriving DecidableEq, Repr

namespace LogStamp

/-- The extension of a certificate with stamps, and of the draft that was stamped. -/
def kind : Der.Oid := [1, 3, 6, 1, 4, 1, 11129, 2, 4, 2]
def draftKind : Der.Oid := [1, 3, 6, 1, 4, 1, 11129, 2, 4, 3]

def taken (n : Nat) : Der.Reader Bytes := fun bs =>
  if bs.length < n then none else some (bs.take n, bs.drop n)

def octet : Der.Reader Nat := Bytes.toNat <$> taken 1

def counted : Der.Reader Bytes := do taken (Bytes.toNat (← taken 2))

def logWidth : Nat := 32
def momentWidth : Nat := 8

/-- The numbers of the hash algorithms, and those of the signature algorithms. -/
def isHash (n : Nat) : Bool := 1 ≤ n && n ≤ 6
def isAlgorithm (n : Nat) : Bool := n ≤ 3

/-- The version comes first, and only the one that is zero is known. -/
def reader : Der.Reader LogStamp := do
  if (← octet) ≠ 0 then failure
  let log ← taken logWidth
  let moment ← taken momentWidth
  let extensions ← counted
  let hash ← octet
  let algorithm ← octet
  let signature ← counted
  if isHash hash && isAlgorithm algorithm then
    pure ⟨log, Bytes.toNat moment, extensions, hash, algorithm, signature⟩
  else failure

/-- A stamp from the front of its octets; what stands behind it is left alone. -/
def ofBytes (bs : Bytes) : Option LogStamp := (reader.run bs).map (·.1)

def listFrom : (fuel : Nat) → Bytes → Option (List LogStamp)
  | _, [] => some []
  | 0, _ => none
  | fuel + 1, bs => do
    let (stamp, rest) ← counted.run bs
    let stamp ← ofBytes stamp
    (listFrom fuel rest).map (stamp :: ·)

def listOf (bs : Bytes) : Option (List LogStamp) := do
  let (stamps, _) ← counted.run bs
  listFrom stamps.length stamps

def listOfValue (bs : Bytes) : Except Fault (List LogStamp) :=
  orMalformed (Der.only (fun e => e.value Der.octetString listOf) bs)

end LogStamp
end X509
end AttestationTrust
