/-!
# Faults of certificates

Why a part of a certificate cannot be used.  A form that is not read is `Fault.malformed`; the others stand for
parts that are read and have no use.
-/
namespace AttestationTrust
namespace X509

inductive Fault where
  | malformed
  | unsupportedVersion
  | unsupportedAlgorithm
  | duplicateExtension
  /-- A part whose kind does not belong where it stands. -/
  | wrongKind
  /-- A tag or a number that stands for nothing. -/
  | unknownTag
  /-- A general name of a kind that is not read. -/
  | unsupportedName
  deriving DecidableEq, Repr

def orMalformed {α : Type} : Option α → Except Fault α
  | some a => .ok a
  | none => .error .malformed

def require (b : Bool) (f : Fault) : Except Fault Unit := if b then .ok () else .error f

end X509
end AttestationTrust
