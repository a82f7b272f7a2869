import AttestationTrust.X509.GeneralName
/-!
# Distribution points

Where a certificate says that its issuer's revocation list is to be had: a list of points, each with a full
name of several general names, or a name relative to the issuer's, or the list's own issuer.  Only the names
that are locations count (`DistributionPoint.urls`).
-/
namespace AttestationTrust
namespace X509

inductive DistributionPoint.Name where
  | full (names : List GeneralName)
  | relative (attributes : List AttributeEncoding)
  deriving DecidableEq, Repr

structure DistributionPoint where
  name : Option DistributionPoint.Name
  issuer : List GeneralName
  deriving DecidableEq, Repr

namespace DistributionPoint

/-- The points of the whole list, and those of its changes. -/
def kind : Der.Oid := [2, 5, 29, 31]
def freshestKind : Der.Oid := [2, 5, 29, 46]

namespace Name

def ofElement (e : Der.Element) : Option Name :=
  if e.tag = Der.explicitTag 0 then (GeneralName.listOf e.content).map .full
  else if e.tag = Der.explicitTag 1 then (NameEncoding.relative e.content).map .relative
  else none

def check : Name → Except Fault Unit
  | .full names => GeneralName.checkAll names
  | .relative attributes => (NameEncoding.decodeRelative attributes).map fun _ => ()

def isEmpty : Name → Bool
  | .full names => names.isEmpty
  | .relative _ => false

/-- The names of a full name. -/
def names : Name → List GeneralName
  | .full names => names
  | .relative _ => []

end Name

/-- The reasons that a list covers are read and left alone. -/
def reader : Der.Reader DistributionPoint := do
  let name ← Der.Reader.optionalValue (Der.explicitTag 0) (Der.only Name.ofElement)
  let _ ← Der.Reader.optionalValue (Der.implicitTag 1) Der.bitsOf
  let issuer ← Der.Reader.optionalValue (Der.explicitTag 2) GeneralName.listOf
  pure ⟨name, issuer.getD []⟩

/-- A point has a name or an issuer. -/
def check (p : DistributionPoint) : Except Fault Unit := do
  p.name.forM Name.check
  GeneralName.checkAll p.issuer
  require (!(p.name.all Name.isEmpty && p.issuer.isEmpty)) .malformed

def ofElement (e : Der.Element) : Option DistributionPoint := e.value Der.sequence reader.all

/-- The points of an extension's value. -/
def listOfValue (value : Bytes) : Except Fault (List DistributionPoint) := do
  let points ← orMalformed (Der.only (fun e => e.value Der.sequence (Der.listOf ofElement)) value)
  points.forM check
  .ok points

def urls (p : DistributionPoint) : List String :=
  ((p.name.map Name.names).getD []).filterMap GeneralName.location?

theorem mem_urls_iff {p : DistributionPoint} {url : String} :
    url ∈ p.urls ↔ ∃ names, p.name = some (.full names) ∧ GeneralName.location url ∈ names := by
  have hlocation : ∀ n : GeneralName, n.location? = some url ↔ n = .location url := by
    intro n
    cases n <;> simp [GeneralName.location?]
  obtain ⟨name, issuer⟩ := p
  rcases name with _ | (names | attributes) <;> simp [urls, Name.names, hlocation]

end DistributionPoint
end X509
end AttestationTrust
