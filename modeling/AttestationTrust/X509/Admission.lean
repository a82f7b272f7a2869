import AttestationTrust.X509.GeneralName
import AttestationTrust.X509.Policy
/-!
# Admissions

The professions that a subject is admitted to, and by whom.
-/
namespace AttestationTrust
namespace X509

/-- Who names a profession. -/
structure NamingAuthority where
  kind : Option Der.Oid
  location : Option String
  text : Option String
  deriving DecidableEq, Repr

structure Profession where
  authority : Option NamingAuthority
  names : List String
  kinds : List Der.Oid
  deriving DecidableEq, Repr

structure Admission where
  authority : Option GeneralName
  namingAuthority : Option NamingAuthority
  professions : List Profession
  deriving DecidableEq, Repr

structure Admissions where
  authority : Option GeneralName
  admissions : List Admission
  deriving DecidableEq, Repr

namespace NamingAuthority

def reader : Der.Reader NamingAuthority := do
  let kind ← Der.Reader.optionalValue Der.objectIdentifier Der.oidOf
  let location ← Der.Reader.optional Der.asciiString
  let location ← location.mapM fun e => Der.Reader.ofOption (DisplayText.ofElement e)
  if (← get) = [] then pure ⟨kind, location, none⟩
  else
    let text ← Der.Reader.ofOption (DisplayText.ofElement (← Der.Reader.element))
    pure ⟨kind, location, some text⟩

def ofContent (bs : Bytes) : Option NamingAuthority := (Der.Reader.within Der.sequence reader).all bs

end NamingAuthority

namespace Profession

def registrationReader : Der.Reader Unit := do
  match ← Der.Reader.optional Der.printableString with
  | none => pure ()
  | some e => if !e.content.all AttributeEncoding.isPrintableOctet then failure

/-- A registration number and further information are read and left alone. -/
def reader : Der.Reader Profession := do
  let authority ← Der.Reader.optionalValue (Der.explicitTag 0) NamingAuthority.ofContent
  let names ← Der.Reader.value Der.sequence (Der.listOf DisplayText.ofElement)
  let kinds ← Der.Reader.optionalValue Der.sequence (Der.listOf fun k => k.value Der.objectIdentifier Der.oidOf)
  registrationReader
  let _ ← Der.Reader.optional Der.octetString
  pure ⟨authority, names, kinds.getD []⟩

end Profession

namespace Admission

def reader : Der.Reader Admission := do
  let authority ← Der.Reader.optionalValue (Der.explicitTag 0) (Der.only GeneralName.ofElement)
  let namingAuthority ← Der.Reader.optionalValue (Der.explicitTag 1) NamingAuthority.ofContent
  let professions ← Der.Reader.value Der.sequence (Der.listOf fun p => p.value Der.sequence Profession.reader.all)
  pure ⟨authority, namingAuthority, professions⟩

end Admission

namespace Admissions

def kind : Der.Oid := [1, 3, 36, 8, 3, 3]

/-- The next element if it is a general name. -/
def optionalName : Der.Reader (Option GeneralName) := do
  match Der.readTag (← get) with
  | some (tag, _) =>
    if (GeneralName.readers.lookup tag).isSome then
      some <$> Der.Reader.ofOption (GeneralName.ofElement (← Der.Reader.element))
    else pure none
  | none => pure none

def reader : Der.Reader Admissions := do
  let authority ← optionalName
  let admissions ← Der.Reader.value Der.sequence (Der.listOf fun a => a.value Der.sequence Admission.reader.all)
  pure ⟨authority, admissions⟩

def ofValue (bs : Bytes) : Except Fault Admissions := do
  let a ← orMalformed ((Der.Reader.within Der.sequence reader).all bs)
  a.authority.forM GeneralName.check
  a.admissions.forM fun x => x.authority.forM GeneralName.check
  .ok a

end Admissions
end X509
end AttestationTrust
