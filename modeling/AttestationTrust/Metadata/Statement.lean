import AttestationTrust.Json.Reader
import AttestationTrust.Metadata.Schema
/-!
# Metadata statements

A statement describes an authenticator model and lists the roots of its attestation certificates.  A document
may hold a statement as it is, or nested in an entry of a BLOB, and may lack fields that a statement needs;
`Statement.normalise` brings it into the form that the schema reads.
-/
namespace AttestationTrust
namespace Metadata

/-- What anchors are looked up in, as a source states it: a value of another kind than expected is kept. -/
structure Listing where
  aaguid : Value
  keyIdentifiers : Value
  roots : Value
  deriving Repr, Inhabited

structure Statement where
  description : String
  authenticatorVersion : Value
  schema : Value
  /-- Versions of the protocol; one that is `null` in the document is none. -/
  upv : List (Option (Value × Value))
  attestationTypes : List String
  keyProtection : List String
  aaid : Option String
  aaguid : Option Bytes
  keyIdentifiers : Option (List Bytes)
  roots : List Bytes
  deriving Repr, Inhabited

namespace Statement

def listing (s : Statement) : Listing where
  aaguid := (s.aaguid.map Value.bytes).getD .null
  keyIdentifiers := (s.keyIdentifiers.map fun ks => Value.list (ks.map Value.bytes)).getD .null
  roots := .list (s.roots.map .bytes)

def textOf : Option Value → Option String
  | some (.text s) => some s
  | _ => none

def bytesOf : Option Value → Option Bytes
  | some (.bytes bs) => some bs
  | _ => none

def listOf : Option Value → List Value
  | some (.list xs) => xs
  | _ => []

def texts (v : Option Value) : List String := (listOf v).filterMap Value.text?
def octets (v : Option Value) : List Bytes := (listOf v).filterMap fun x => bytesOf (some x)

def versionOf : Value → Option (Value × Value)
  | .map fields => some ((Value.field? "major" fields).getD .null, (Value.field? "minor" fields).getD .null)
  | _ => none

/-- The statement in fields that the schema has read. -/
def ofRead (fields : Value.Fields) : Statement :=
  let get := fun (key : String) => Value.field? key fields
  { description := (textOf (get "description")).getD ""
    authenticatorVersion := (get "authenticatorVersion").getD .null
    schema := (get "schema").getD .null
    upv := (listOf (get "upv")).map versionOf
    attestationTypes := texts (get "attestationTypes")
    keyProtection := texts (get "keyProtection")
    aaid := textOf (get "aaid")
    aaguid := bytesOf (get "aaguid")
    keyIdentifiers := (get "attestationCertificateKeyIdentifiers").map fun v => octets (some v)
    roots := octets (get "attestationRootCertificates") }

def ofFields (fields : Value.Fields) : Except ShapeFault Statement := do
  match ← statementShape.read (.map fields) with
  | .map read => .ok (ofRead read)
  | _ => .error .invalid

/-- The fields that have to be lists. -/
def listKeys : List String := [
  "upv", "attestationTypes", "userVerificationDetails", "keyProtection", "matcherProtection", "attachmentHint",
  "tcDisplay", "attestationRootCertificates"]

/-- The fields that have to be integers, with their defaults. -/
def integerKeys : List (String × Int) := [("authenticatorVersion", 0), ("schema", 3)]

/-- The identifiers that may stand on the entry around a statement. -/
def identifierKeys : List String := ["aaguid", "aaid", "attestationCertificateKeyIdentifiers"]

mutual

/-- A value inside a list or an object as JSON carries it, if it can. -/
def carried : Value → Option Value
  | .bytes _ => none
  | .int n => if (Nat.toDigits 10 n.natAbs).length ≤ Numeral.maxDigits then some (.int n) else none
  | .float x => some (.float (if x.isNaN then Binary64.nan else x))
  | .list xs => (carriedAll xs).map .list
  | .tuple xs => (carriedAll xs).map .list
  | .map fields => (carriedFields fields).map .map
  | v => some v

def carriedAll : List Value → Option (List Value)
  | [] => some []
  | x :: xs => do
    let y ← carried x
    let ys ← carriedAll xs
    some (y :: ys)

def carriedFields : List (String × Value) → Option (List (String × Value))
  | [] => some []
  | (k, v) :: rest => do
    let w ← carried v
    let more ← carriedFields rest
    some ((k, w) :: more)

end

/-- A copy of a value: a number or a text is itself, a list or an object is what JSON carries of it, and a
value that JSON cannot carry is `null`.  No value is too deep to be copied here.  The program writes a value out and
reads it again, and both take from the room that `Json.Limits` sets for reading: of a value at the last depth that can
be read there is no copy, and that failure, which no caller expects, is not modelled. -/
def copy : Value → Value
  | .int n => .int n
  | .float x => .float x
  | v => (carried v).getD .null

def isText : Option Value → Bool
  | some (.text _) => true
  | _ => false

def isInteger : Option Value → Bool
  | some (.int _) => true
  | some (.bool _) => true
  | _ => false

def isList : Option Value → Bool
  | some (.list _) => true
  | _ => false

/-- The fields of the object that is the statement. -/
def source (raw : Value.Fields) : Value.Fields :=
  match Value.field? "metadataStatement" raw with
  | some (.map nested) => nested
  | _ => raw

def isNested (raw : Value.Fields) : Bool :=
  match Value.field? "metadataStatement" raw with
  | some (.map _) => true
  | _ => false

/-- Copies of the fields that are not `null`. -/
def kept (fields : Value.Fields) : Value.Fields :=
  fields.filterMap fun f => (copy f.2).present?.map fun v => (f.1, v)

/-- An identifier that the statement lacks is taken from the entry. -/
def fillFrom (entry : Value.Fields) (statement : Value.Fields) (key : String) : Value.Fields :=
  if (Value.field? key statement).isSome then statement
  else
    match (Value.field? key entry).bind Value.present? with
    | some v => Value.setField key (copy v) statement
    | none => statement

def withDefault (ok : Option Value → Bool) (default : Value) (fields : Value.Fields) (key : String) : Value.Fields :=
  if ok (Value.field? key fields) then fields else Value.setField key default fields

def normaliseFields (raw : Value.Fields) : Value.Fields :=
  let fields := kept (source raw)
  let fields := if isNested raw then identifierKeys.foldl (fillFrom raw) fields else fields
  let fields := withDefault isText (.text "") fields "description"
  let fields := integerKeys.foldl (fun fs k => withDefault isInteger (.int k.2) fs k.1) fields
  listKeys.foldl (withDefault isList (.list [])) fields

/-- The form that the schema reads; only an object has one. -/
def normalise : Value → Except Failure Value.Fields
  | .map raw => .ok (normaliseFields raw)
  | _ => .error (.statement .notObject)

/-- A fault of the schema is a fault of the statement, apart from the two that callers have to see. -/
def shapeFailure (source : String) : ShapeFault → Failure
  | .invalid => .statement (.invalid source)
  | f => f.failure

variable [Json.Limits] in
/-- The statement in a document; `source` is what messages call the document. -/
def parse (source : String) (bs : Bytes) : Except Failure Statement :=
  match Json.ofUtf8 bs with
  | .error .invalid => .error (.statement (.notJson source))
  | .error .tooDeep => .error .tooDeep
  | .ok raw => do
    let fields ← normalise raw
    (ofFields fields).mapError (shapeFailure source)

end Statement
end Metadata
end AttestationTrust
