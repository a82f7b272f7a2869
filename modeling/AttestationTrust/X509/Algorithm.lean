import AttestationTrust.Der
import AttestationTrust.Digest.Hash
import AttestationTrust.X509.Fault
/-!
# Algorithm identifiers

An identifier names an algorithm and carries its parameters, whose form the name decides (`ParameterForm`); an
identifier with parameters of another form is not read.  `SignatureAlgorithm.ofIdentifier` is the signature
algorithm that an identifier stands for.
-/
namespace AttestationTrust
namespace X509

/-- What may stand behind the name of an algorithm. -/
inductive ParameterForm where
  | absent
  | absentOrNull
  /-- A curve by its name or in full, or null. -/
  | curve
  /-- As many numbers as are needed, and others behind them. -/
  | numbers (needed optional : Nat)
  | octets (length : Nat)
  /-- Hash, mask and salt, or nothing. -/
  | salted
  /-- One element or none. -/
  | anything
  deriving DecidableEq, Repr

structure AlgorithmIdentifier where
  algorithm : Der.Oid
  parameters : Option Der.Element
  /-- The whole identifier as it was read: two identifiers are the same when these are. -/
  raw : Bytes
  deriving DecidableEq, Repr

def rsaArcs : Der.Oid := [1, 2, 840, 113549, 1, 1]
def ecdsaArcs : Der.Oid := [1, 2, 840, 10045, 4, 3]
def nistArcs : Der.Oid := [2, 16, 840, 1, 101, 3, 4]
def edwardsArcs : Der.Oid := [1, 3, 101]

/-- The names of keys; an RSA key may also go by the name of the salted signatures. -/
def rsaKind : Der.Oid := rsaArcs ++ [1]
def ecKind : Der.Oid := [1, 2, 840, 10045, 2, 1]
def dsaKind : Der.Oid := [1, 2, 840, 10040, 4, 1]
def agreementKind : Der.Oid := [1, 2, 840, 113549, 1, 3, 1]
def wideAgreementKind : Der.Oid := [1, 2, 840, 10046, 2, 1]
def x25519Kind : Der.Oid := edwardsArcs ++ [110]
def x448Kind : Der.Oid := edwardsArcs ++ [111]
def ed25519Kind : Der.Oid := edwardsArcs ++ [112]
def ed448Kind : Der.Oid := edwardsArcs ++ [113]
def saltedKind : Der.Oid := rsaArcs ++ [10]
def maskKind : Der.Oid := rsaArcs ++ [8]

/-- The names of the hash algorithms that a salted signature may be made over. -/
def hashKinds : List (Der.Oid × Hash) := [
  ([1, 3, 14, 3, 2, 26], .sha1), (nistArcs ++ [2, 4], .sha224), (nistArcs ++ [2, 1], .sha256),
  (nistArcs ++ [2, 2], .sha384), (nistArcs ++ [2, 3], .sha512), (nistArcs ++ [2, 7], .sha3_224),
  (nistArcs ++ [2, 8], .sha3_256), (nistArcs ++ [2, 9], .sha3_384), (nistArcs ++ [2, 10], .sha3_512)]

inductive SignatureScheme where
  | rsa
  | ecdsa
  | dsa
  deriving DecidableEq, Repr

/-- The names of signatures that name their hash. -/
def signatureKinds : List (Der.Oid × SignatureScheme × Hash) := [
  (rsaArcs ++ [4], .rsa, .md5), (rsaArcs ++ [5], .rsa, .sha1), ([1, 3, 14, 3, 2, 29], .rsa, .sha1),
  (rsaArcs ++ [14], .rsa, .sha224), (rsaArcs ++ [11], .rsa, .sha256), (rsaArcs ++ [12], .rsa, .sha384),
  (rsaArcs ++ [13], .rsa, .sha512), (nistArcs ++ [3, 13], .rsa, .sha3_224), (nistArcs ++ [3, 14], .rsa, .sha3_256),
  (nistArcs ++ [3, 15], .rsa, .sha3_384), (nistArcs ++ [3, 16], .rsa, .sha3_512),
  ([1, 2, 840, 10045, 4, 1], .ecdsa, .sha1), (ecdsaArcs ++ [1], .ecdsa, .sha224), (ecdsaArcs ++ [2], .ecdsa, .sha256),
  (ecdsaArcs ++ [3], .ecdsa, .sha384), (ecdsaArcs ++ [4], .ecdsa, .sha512), (nistArcs ++ [3, 9], .ecdsa, .sha3_224),
  (nistArcs ++ [3, 10], .ecdsa, .sha3_256), (nistArcs ++ [3, 11], .ecdsa, .sha3_384),
  (nistArcs ++ [3, 12], .ecdsa, .sha3_512), ([1, 2, 840, 10040, 4, 3], .dsa, .sha1), (nistArcs ++ [3, 1], .dsa, .sha224),
  (nistArcs ++ [3, 2], .dsa, .sha256), (nistArcs ++ [3, 3], .dsa, .sha384), (nistArcs ++ [3, 4], .dsa, .sha512)]

/-- Signatures that have no hash of their own and that nothing here verifies. -/
def hashlessKinds : List Der.Oid := [
  [1, 2, 643, 2, 2, 3], [1, 2, 643, 7, 1, 1, 3, 2], [1, 2, 643, 7, 1, 1, 3, 3]]

namespace ParameterForm

/-- The forms of keys, ciphers and keyed digests. -/
def namedForms : List (Der.Oid × ParameterForm) := [
  (rsaKind, .absentOrNull), (ecKind, .curve), (dsaKind, .numbers 3 0), (agreementKind, .numbers 2 1),
  (wideAgreementKind, .numbers 3 2), (x25519Kind, .absent), (x448Kind, .absent), (ed25519Kind, .absent),
  (ed448Kind, .absent), (saltedKind, .salted), (nistArcs ++ [1, 2], .octets 16), (nistArcs ++ [1, 22], .octets 16),
  (nistArcs ++ [1, 42], .octets 16), ([1, 2, 840, 113549, 3, 7], .octets 8),
  ([1, 2, 840, 113549, 2, 7], .absentOrNull), ([1, 2, 840, 113549, 2, 8], .absentOrNull),
  ([1, 2, 840, 113549, 2, 9], .absentOrNull), ([1, 2, 840, 113549, 2, 10], .absentOrNull),
  ([1, 2, 840, 113549, 2, 11], .absentOrNull)]

/-- Signatures over a hash of no account may carry anything; of the others only those of RSA may carry a null. -/
def ofSignature : SignatureScheme × Hash → ParameterForm
  | (.rsa, .md5) => .anything
  | (.rsa, _) => .absentOrNull
  | (_, .sha1) => .anything
  | (_, _) => .absent

def ofAlgorithm (algorithm : Der.Oid) : ParameterForm :=
  match namedForms.lookup algorithm, signatureKinds.lookup algorithm, hashKinds.lookup algorithm with
  | some f, _, _ => f
  | none, some s, _ => ofSignature s
  | none, none, some _ => .absentOrNull
  | none, none, none => .anything

def isNumber (e : Der.Element) : Bool := (e.value Der.integer Der.naturalOf).isSome

/-- Whether the parts of a sequence are the numbers that are asked for; the last of the others may be a sequence. -/
def areNumbers (needed optional : Nat) (parts : List Der.Element) : Bool :=
  let rest := parts.drop needed
  let numbers := rest.takeWhile isNumber
  needed ≤ parts.length && (parts.take needed).all isNumber &&
    match optional with
    | 0 => rest.isEmpty
    | 1 => rest.length ≤ 1 && numbers.length == rest.length
    | _ => numbers.length ≤ 1 && (rest.drop numbers.length).length ≤ 1 &&
      (rest.drop numbers.length).all fun e => e.tag = Der.sequence

/-- Whether parameters have a form, their own identifiers apart. -/
def accepts (form : ParameterForm) (parameters : Option Der.Element) : Bool :=
  match form, parameters with
  | .absent, p => p.isNone
  | .absentOrNull, p => p.all Der.Element.isNull
  | .curve, some e => (e.value Der.objectIdentifier Der.oidOf).isSome || e.tag = Der.sequence || e.isNull
  | .numbers needed optional, some e =>
    match e.value Der.sequence Der.elements with
    | some parts => areNumbers needed optional parts
    | none => false
  | .octets length, some e => e.tag = Der.octetString && e.content.length = length
  | .salted, p => p.all fun e => e.tag = Der.sequence
  | .anything, _ => true
  | _, none => false

end ParameterForm

namespace AlgorithmIdentifier

def body : Der.Reader (Der.Oid × Option Der.Element) := do
  let algorithm ← Der.Reader.oid
  if (← get) = [] then pure (algorithm, none)
  else
    let e ← Der.Reader.element
    pure (algorithm, some e)

/-- An identifier whose parameters may have any form. -/
def shapeOf (e : Der.Element) : Option AlgorithmIdentifier :=
  (e.value Der.sequence body.all).map fun (algorithm, parameters) => ⟨algorithm, parameters, e.raw⟩

/-- The digest that is meant where no hash is named. -/
def isDefaultHash (a : AlgorithmIdentifier) : Bool :=
  hashKinds.lookup a.algorithm == some .sha1 && (a.parameters.map Der.Element.isNull).getD false

def hash? (a : AlgorithmIdentifier) : Option Hash := hashKinds.lookup a.algorithm

end AlgorithmIdentifier

/-- How a salted signature is made; a part that is not named has a default. -/
structure SaltedParameters where
  hash : Option AlgorithmIdentifier
  /-- How the mask is generated, and the hash that it is generated with. -/
  mask : Option (Der.Oid × AlgorithmIdentifier)
  saltLength : Nat
  deriving DecidableEq, Repr

namespace SaltedParameters

/-- The length of the salt if none is named, and the bound on one that is. -/
def defaultLength : Nat := 20
def lengthBound : Nat := 65536

/-- A default is not written out. -/
def hashOf (e : Der.Element) : Option AlgorithmIdentifier :=
  (AlgorithmIdentifier.shapeOf e).filter fun a => !a.isDefaultHash

def maskReader : Der.Reader (Der.Oid × AlgorithmIdentifier) := do
  let kind ← Der.Reader.oid
  let hash ← Der.Reader.ofOption (AlgorithmIdentifier.shapeOf (← Der.Reader.element))
  if kind = maskKind ∧ hash.isDefaultHash then failure else pure (kind, hash)

def lengthOf (bs : Bytes) : Option Nat := (Der.naturalBelow lengthBound bs).filter fun n => n ≠ defaultLength

/-- The last part is a number that stands for nothing. -/
def reader : Der.Reader SaltedParameters := do
  let hash ← Der.Reader.optionalValue (Der.explicitTag 0) (Der.only hashOf)
  let mask ← Der.Reader.optionalValue (Der.explicitTag 1) (Der.only fun e => e.value Der.sequence maskReader.all)
  let salt ← Der.Reader.optionalValue (Der.explicitTag 2) (Der.only fun e => e.value Der.integer lengthOf)
  let _ ← Der.Reader.optionalValue (Der.explicitTag 3)
    (Der.only fun e => e.value Der.integer (Der.naturalBelow 256))
  pure ⟨hash, mask, salt.getD defaultLength⟩

def ofElement (e : Der.Element) : Option SaltedParameters := e.value Der.sequence reader.all

/-- The identifiers inside. -/
def identifiers (p : SaltedParameters) : List AlgorithmIdentifier := p.hash.toList ++ p.mask.toList.map (·.2)

def hashName (a : Option AlgorithmIdentifier) : Except Fault Hash :=
  match a with
  | none => .ok .sha1
  | some a =>
    match a.hash? with
    | some h => .ok h
    | none => .error .unsupportedAlgorithm

/-- The hash of the message, if it is known. -/
def messageHash (p : SaltedParameters) : Except Fault Hash := hashName p.hash

/-- The mask is generated by digests of a counter, or not at all. -/
def maskHash (p : SaltedParameters) : Except Fault Hash :=
  match p.mask with
  | none => .ok .sha1
  | some (kind, a) => if kind = maskKind then hashName (some a) else .error .malformed

end SaltedParameters

namespace AlgorithmIdentifier

/-- Whether the parameters have the form that the algorithm asks for, and so have those inside them. -/
def isWellFormed : (fuel : Nat) → AlgorithmIdentifier → Bool
  | 0, _ => false
  | fuel + 1, a =>
    let form := ParameterForm.ofAlgorithm a.algorithm
    form.accepts a.parameters &&
      match form, a.parameters with
      | .salted, some e =>
        match SaltedParameters.ofElement e with
        | some p => p.identifiers.all (isWellFormed fuel)
        | none => false
      | _, _ => true

def ofElement (e : Der.Element) : Option AlgorithmIdentifier :=
  (shapeOf e).filter (isWellFormed (e.content.length + 1))

end AlgorithmIdentifier

inductive SignatureAlgorithm where
  | hashed (s : SignatureScheme) (h : Hash)
  /-- The parameters may be missing, and then there is nothing to verify with. -/
  | salted (p : Option SaltedParameters)
  | ed25519
  | ed448
  /-- A known algorithm without a hash of its own, with which nothing here verifies. -/
  | hashless
  | unknown
  deriving DecidableEq, Repr

namespace SignatureAlgorithm

def ofIdentifier (a : AlgorithmIdentifier) : SignatureAlgorithm :=
  match signatureKinds.lookup a.algorithm with
  | some (s, h) => .hashed s h
  | none =>
    if a.algorithm = saltedKind then .salted (a.parameters.bind SaltedParameters.ofElement)
    else if a.algorithm = ed25519Kind then .ed25519
    else if a.algorithm = ed448Kind then .ed448
    else if hashlessKinds.contains a.algorithm then .hashless
    else .unknown

/-- The hash that a signature is made over, if it has one. -/
def hash : SignatureAlgorithm → Except Fault (Option Hash)
  | .hashed _ h => .ok (some h)
  | .salted (some p) => p.messageHash.map some
  | .salted none => .error .malformed
  | .ed25519 => .ok none
  | .ed448 => .ok none
  | .hashless => .ok none
  | .unknown => .error .unsupportedAlgorithm

end SignatureAlgorithm
end X509
end AttestationTrust
