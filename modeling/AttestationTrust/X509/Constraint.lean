import AttestationTrust.X509.GeneralName
import AttestationTrust.X509.Time
/-!
# Constraints

The extensions that limit what a certificate, its key and the certificates below it are good for.  Each is read
from the value of the extension; parts that contradict each other are malformed.
-/
namespace AttestationTrust
namespace X509

/-- The bound on the counts in an extension. -/
def countBound : Nat := 18446744073709551616

/-- Whether a certificate may sign others, and how many may follow it. -/
structure BasicConstraints where
  isAuthority : Bool
  pathLength : Option Nat
  deriving DecidableEq, Repr

namespace BasicConstraints

def kind : Der.Oid := [2, 5, 29, 19]

/-- An authority says so; another certificate says nothing. -/
def reader : Der.Reader BasicConstraints := do
  let authority ← Der.Reader.optional Der.boolean
  if authority.any fun e => Der.booleanOf e.content != some true then failure
  let pathLength ← Der.Reader.optionalValue Der.integer (Der.naturalBelow countBound)
  pure ⟨authority.isSome, pathLength⟩

/-- Only what an authority signs has a length. -/
def ofValue (bs : Bytes) : Except Fault BasicConstraints := do
  let c ← orMalformed ((Der.Reader.within Der.sequence reader).all bs)
  require (c.isAuthority || c.pathLength.isNone) .malformed
  .ok c

end BasicConstraints

/-- What a key is for, as a string of bits. -/
structure KeyUsage where
  bits : Bytes
  deriving DecidableEq, Repr

namespace KeyUsage

def kind : Der.Oid := [2, 5, 29, 15]

/-- The first bit is the highest of the first octet. -/
def has (u : KeyUsage) (n : Nat) : Bool := ((u.bits.getD (n / 8) 0).toNat / Nat.pow 2 (7 - n % 8)) % 2 == 1

def agreement : Nat := 4
def onlyEnciphers : Nat := 7
def onlyDeciphers : Nat := 8

/-- Only an agreement has one of the two restrictions. -/
def ofValue (bs : Bytes) : Except Fault KeyUsage := do
  let (_, bits) ← orMalformed (Der.only (fun e => e.value Der.bitString Der.bitsOf) bs)
  let u : KeyUsage := ⟨bits⟩
  require (u.has agreement || !(u.has onlyEnciphers || u.has onlyDeciphers)) .malformed
  .ok u

end KeyUsage

/-- The purposes of a key, of which there is at least one. -/
structure KeyPurposes where
  purposes : List Der.Oid
  deriving DecidableEq, Repr

namespace KeyPurposes

def kind : Der.Oid := [2, 5, 29, 37]

def ofValue (bs : Bytes) : Except Fault KeyPurposes := do
  let purposes ← orMalformed
    (Der.only (fun e => e.value Der.sequence (Der.listOf fun p => p.value Der.objectIdentifier Der.oidOf)) bs)
  require (!purposes.isEmpty) .malformed
  .ok ⟨purposes⟩

end KeyPurposes

/-- When a private key is in use. -/
structure UsagePeriod where
  first : Option Time
  last : Option Time
  deriving DecidableEq, Repr

namespace UsagePeriod

def kind : Der.Oid := [2, 5, 29, 16]

def reader : Der.Reader UsagePeriod := do
  let first ← Der.Reader.optionalValue (Der.implicitTag 0) Time.ofGeneralized
  let last ← Der.Reader.optionalValue (Der.implicitTag 1) Time.ofGeneralized
  pure ⟨first, last⟩

/-- Some end is given, no end lies before the calendar, and they stand in order. -/
def isCoherent (p : UsagePeriod) : Bool :=
  match p.first, p.last with
  | none, none => false
  | some (some _), none => true
  | none, some (some _) => true
  | some (some a), some (some b) => a ≤ b
  | _, _ => false

def ofValue (bs : Bytes) : Except Fault UsagePeriod := do
  let p ← orMalformed ((Der.Reader.within Der.sequence reader).all bs)
  require p.isCoherent .malformed
  .ok p

end UsagePeriod

/-- The names that certificates below may and may not have. -/
structure NameConstraints where
  permitted : Option (List GeneralName)
  excluded : Option (List GeneralName)
  deriving DecidableEq, Repr

namespace NameConstraints

def kind : Der.Oid := [2, 5, 29, 30]

/-- A name and the depths below it; the least depth is zero if none is written. -/
def subtreeReader : Der.Reader GeneralName := do
  let name ← Der.Reader.ofOption (GeneralName.ofElement (← Der.Reader.element))
  let least ← Der.Reader.optionalValue (Der.implicitTag 0) (Der.naturalBelow countBound)
  let _ ← Der.Reader.optionalValue (Der.implicitTag 1) (Der.naturalBelow countBound)
  if least = some 0 then failure else pure name

def subtrees (bs : Bytes) : Option (List GeneralName) :=
  Der.listOf (fun e => e.value Der.sequence subtreeReader.all) bs

def reader : Der.Reader NameConstraints := do
  let permitted ← Der.Reader.optionalValue (Der.explicitTag 0) subtrees
  let excluded ← Der.Reader.optionalValue (Der.explicitTag 1) subtrees
  pure ⟨permitted, excluded⟩

/-- An address stands for a network. -/
def isNotHost : GeneralName → Bool
  | .address bs => !GeneralName.isHost bs
  | _ => true

/-- A host stands for all below it, without a wild card. -/
def hasNoWildcard : GeneralName → Bool
  | .host s => !s.toList.contains '*'
  | _ => true

def checkTree (names : List GeneralName) : Except Fault Unit := do
  require (!names.isEmpty) .malformed
  require (names.all isNotHost) .wrongKind
  require (names.all hasNoWildcard) .malformed

/-- All names have a use, and some are permitted or excluded. -/
def ofValue (bs : Bytes) : Except Fault NameConstraints := do
  let c ← orMalformed ((Der.Reader.within Der.sequence reader).all bs)
  c.permitted.forM GeneralName.checkAll
  c.excluded.forM GeneralName.checkAll
  c.permitted.forM checkTree
  c.excluded.forM checkTree
  require (c.permitted.isSome || c.excluded.isSome) .malformed
  .ok c

end NameConstraints

/-- After how many certificates policies have to be named, and may no longer be mapped. -/
structure PolicyConstraints where
  explicitAfter : Option Nat
  unmappedAfter : Option Nat
  deriving DecidableEq, Repr

namespace PolicyConstraints

def kind : Der.Oid := [2, 5, 29, 36]

def reader : Der.Reader PolicyConstraints := do
  let explicitAfter ← Der.Reader.optionalValue (Der.implicitTag 0) (Der.naturalBelow countBound)
  let unmappedAfter ← Der.Reader.optionalValue (Der.implicitTag 1) (Der.naturalBelow countBound)
  pure ⟨explicitAfter, unmappedAfter⟩

/-- One of the two is given. -/
def ofValue (bs : Bytes) : Except Fault PolicyConstraints := do
  let c ← orMalformed ((Der.Reader.within Der.sequence reader).all bs)
  require (c.explicitAfter.isSome || c.unmappedAfter.isSome) .malformed
  .ok c

end PolicyConstraints

/-- After how many certificates the policy that stands for all no longer does. -/
structure AnyPolicyLimit where
  after : Nat
  deriving DecidableEq, Repr

namespace AnyPolicyLimit

def kind : Der.Oid := [2, 5, 29, 54]

def ofValue (bs : Bytes) : Except Fault AnyPolicyLimit := (orMalformed (Der.Reader.natural.all bs)).map (⟨·⟩)

end AnyPolicyLimit
end X509
end AttestationTrust
