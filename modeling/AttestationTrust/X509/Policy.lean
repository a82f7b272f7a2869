import AttestationTrust.Der
import AttestationTrust.Text.Utf8
import AttestationTrust.X509.Fault
/-!
# Certificate policies

The policies that a certificate is issued under, each with qualifiers: the location of a statement, or a notice
for the user.  The kind of a qualifier and its form have to agree.
-/
namespace AttestationTrust
namespace X509

namespace DisplayText

def isAscii (bs : Bytes) : Bool := bs.all (· < 0x80)
def isVisible (bs : Bytes) : Bool := bs.all fun b => 0x20 ≤ b && b ≤ 0x7E

/-- A text for display, in one of four encodings. -/
def ofElement (e : Der.Element) : Option String :=
  if e.tag = Der.asciiString then (if isAscii e.content then Text.Utf8.decode e.content else none)
  else if e.tag = Der.utf8String then Text.Utf8.decode e.content
  else if e.tag = Der.visibleString then (if isVisible e.content then Text.Utf8.decode e.content else none)
  else if e.tag = Der.bmpString then Text.decode16? .big e.content
  else none

end DisplayText

/-- A notice that is kept somewhere, by the numbers that an organization gives it. -/
structure NoticeReference where
  organization : String
  numbers : List Nat
  deriving DecidableEq, Repr

structure UserNotice where
  reference : Option NoticeReference
  text : Option String
  deriving DecidableEq, Repr

inductive PolicyQualifier where
  | statement (location : String)
  | notice (n : UserNotice)
  deriving DecidableEq, Repr

structure Policy where
  policy : Der.Oid
  qualifiers : List PolicyQualifier
  deriving DecidableEq, Repr

namespace UserNotice

def referenceReader : Der.Reader NoticeReference := do
  let organization ← Der.Reader.ofOption (DisplayText.ofElement (← Der.Reader.element))
  let numbers ← Der.Reader.value Der.sequence (Der.listOf fun n => n.value Der.integer Der.naturalOf)
  pure ⟨organization, numbers⟩

def reader : Der.Reader UserNotice := do
  let reference ← Der.Reader.withinOptional Der.sequence referenceReader
  if (← get) = [] then pure ⟨reference, none⟩
  else
    let text ← Der.Reader.ofOption (DisplayText.ofElement (← Der.Reader.element))
    pure ⟨reference, some text⟩

end UserNotice

namespace PolicyQualifier

def statementKind : Der.Oid := [1, 3, 6, 1, 5, 5, 7, 2, 1]
def noticeKind : Der.Oid := [1, 3, 6, 1, 5, 5, 7, 2, 2]

def reader : Der.Reader PolicyQualifier := do
  let kind ← Der.Reader.oid
  if kind = statementKind then
    let location ← Der.Reader.tagged Der.asciiString
    .statement <$> Der.Reader.ofOption (DisplayText.ofElement location)
  else if kind = noticeKind then .notice <$> Der.Reader.within Der.sequence UserNotice.reader
  else failure

end PolicyQualifier

namespace Policy

def kind : Der.Oid := [2, 5, 29, 32]

def reader : Der.Reader Policy := do
  let policy ← Der.Reader.oid
  let qualifiers ← Der.Reader.optionalValue Der.sequence
    (Der.listOf fun q => q.value Der.sequence PolicyQualifier.reader.all)
  pure ⟨policy, qualifiers.getD []⟩

def listOfValue (bs : Bytes) : Except Fault (List Policy) :=
  orMalformed (Der.only (fun e => e.value Der.sequence (Der.listOf fun p => p.value Der.sequence reader.all)) bs)

end Policy
end X509
end AttestationTrust
