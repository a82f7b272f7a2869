import AttestationTrust.X509.GeneralName
/-!
# References

The extensions that point to something else: to a key, to the certificate of the issuer, or to where more is to
be had about the issuer or the subject.
-/
namespace AttestationTrust
namespace X509

/-- The identifier of a certificate's own key. -/
structure SubjectKeyIdentifier where
  identifier : Bytes
  deriving DecidableEq, Repr

namespace SubjectKeyIdentifier

def kind : Der.Oid := [2, 5, 29, 14]

def ofValue (bs : Bytes) : Except Fault SubjectKeyIdentifier :=
  orMalformed ((Der.Reader.value Der.octetString fun id => some ⟨id⟩).all bs)

end SubjectKeyIdentifier

/-- The identifier of the issuer's key, and the issuer's certificate by its own issuer and its number. -/
structure AuthorityKeyIdentifier where
  identifier : Option Bytes
  issuer : Option (List GeneralName)
  serial : Option Nat
  deriving DecidableEq, Repr

namespace AuthorityKeyIdentifier

def kind : Der.Oid := [2, 5, 29, 35]

def reader : Der.Reader AuthorityKeyIdentifier := do
  let identifier ← Der.Reader.optional (Der.implicitTag 0)
  let issuer ← Der.Reader.optionalValue (Der.explicitTag 1) GeneralName.listOf
  let serial ← Der.Reader.optionalValue (Der.implicitTag 2) Der.naturalOf
  pure ⟨identifier.map (·.content), issuer, serial⟩

/-- Issuer and number stand together. -/
def ofValue (bs : Bytes) : Except Fault AuthorityKeyIdentifier := do
  let a ← orMalformed ((Der.Reader.within Der.sequence reader).all bs)
  a.issuer.forM GeneralName.checkAll
  require (a.issuer.isSome == a.serial.isSome) .malformed
  .ok a

end AuthorityKeyIdentifier

/-- A way to get at something, and the place. -/
structure AccessDescription where
  method : Der.Oid
  place : GeneralName
  deriving DecidableEq, Repr

namespace AccessDescription

/-- Access to information on the issuer, and on the subject. -/
def kinds : List Der.Oid := [[1, 3, 6, 1, 5, 5, 7, 1, 1], [1, 3, 6, 1, 5, 5, 7, 1, 11]]

def reader : Der.Reader AccessDescription := do
  let method ← Der.Reader.oid
  let place ← Der.Reader.ofOption (GeneralName.ofElement (← Der.Reader.element))
  pure ⟨method, place⟩

def listOfValue (bs : Bytes) : Except Fault (List AccessDescription) := do
  let ds ← orMalformed
    (Der.only (fun e => e.value Der.sequence (Der.listOf fun d => d.value Der.sequence reader.all)) bs)
  GeneralName.checkAll (ds.map (·.place))
  .ok ds

end AccessDescription
end X509
end AttestationTrust
