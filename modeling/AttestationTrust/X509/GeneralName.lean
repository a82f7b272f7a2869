import AttestationTrust.X509.Name
/-!
# General names

A name of one of several kinds, told apart by their tags.  A list of general names is read as a whole;
`GeneralName.check` says whether a name that was read has a use.
-/
namespace AttestationTrust
namespace X509

inductive GeneralName where
  | other (kind : Der.Oid)
  | mail (s : String)
  | host (s : String)
  | location (s : String)
  | directory (n : NameEncoding)
  | address (bs : Bytes)
  | registered (kind : Der.Oid)
  /-- A name of a kind that is known and not read. -/
  | unread
  deriving DecidableEq, Repr

namespace GeneralName

/-- A kind, and a value of any form in an element of its own. -/
def otherReader : Der.Reader GeneralName := do
  let kind ← Der.Reader.oid
  let _ ← Der.Reader.within (Der.explicitTag 0) Der.Reader.element
  pure (.other kind)

/-- How the contents of the tags are read. -/
def readers : List (Nat × (Bytes → Option GeneralName)) := [
  (Der.explicitTag 0, otherReader.all), (Der.implicitTag 1, fun bs => (Text.Utf8.decode bs).map .mail),
  (Der.implicitTag 2, fun bs => (Text.Utf8.decode bs).map .host), (Der.explicitTag 3, fun _ => some .unread),
  (Der.explicitTag 4, fun bs => (Der.only NameEncoding.ofElement bs).map .directory),
  (Der.explicitTag 5, fun _ => some .unread), (Der.implicitTag 6, fun bs => (Text.Utf8.decode bs).map .location),
  (Der.implicitTag 7, fun bs => some (.address bs)), (Der.implicitTag 8, fun bs => (Der.oidOf bs).map .registered)]

def ofElement (e : Der.Element) : Option GeneralName := (readers.lookup e.tag).bind fun r => r e.content

/-- Whether the bits of a mask are ones and behind them zeros. -/
def isMask (mask : Nat) (bits : Nat) : Bool :=
  (List.range (bits + 1)).any fun n => mask = Nat.pow 2 bits - Nat.pow 2 n

def isHost (bs : Bytes) : Bool := bs.length == 4 || bs.length == 16

/-- An address and a mask of its length that leaves nothing of the address over. -/
def isNetwork (bs : Bytes) : Bool :=
  let width := bs.length / 2
  let mask := Bytes.toNat (bs.drop width)
  (bs.length == 8 || bs.length == 32) && isMask mask (8 * width) &&
    Bytes.toNat (bs.take width) % (Nat.pow 2 (8 * width) - mask) == 0

/-- Why a name has no use. -/
def check : GeneralName → Except Fault Unit
  | .directory n => n.decode.map fun _ => ()
  | .address bs => require (isHost bs || isNetwork bs) .malformed
  | .unread => .error .unsupportedName
  | _ => .ok ()

def checkAll (names : List GeneralName) : Except Fault Unit := names.forM check

def listOf (bs : Bytes) : Option (List GeneralName) := Der.listOf ofElement bs

/-- The text of a location. -/
def location? : GeneralName → Option String
  | .location s => some s
  | _ => none

end GeneralName

/-- The other names of a subject or an issuer, of which there is at least one. -/
structure AlternativeNames where
  names : List GeneralName
  deriving DecidableEq, Repr

namespace AlternativeNames

def kinds : List Der.Oid := [[2, 5, 29, 17], [2, 5, 29, 18]]

def ofValue (bs : Bytes) : Except Fault AlternativeNames := do
  let names ← orMalformed (Der.only (fun e => e.value Der.sequence GeneralName.listOf) bs)
  require (!names.isEmpty) .malformed
  GeneralName.checkAll names
  .ok ⟨names⟩

end AlternativeNames
end X509
end AttestationTrust
