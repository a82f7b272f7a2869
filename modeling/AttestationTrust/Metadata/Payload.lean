import AttestationTrust.Metadata.Statement
/-!
# BLOB payloads

A payload has a number, the date of the next one, and an entry for each authenticator model.  The reports of an
entry say how far the model is trusted: the latest counts, and an entry whose latest report withdraws trust is
not trusted (`Entry.isTrusted?`).
-/
namespace AttestationTrust
namespace Metadata

structure StatusReport where
  status : Option String
  effectiveDate : Value
  deriving Repr, Inhabited

/-- An entry as a source states it. -/
structure Entry where
  aaguid : Value
  keyIdentifiers : Value
  reports : List StatusReport
  statement : Option Listing
  deriving Repr, Inhabited

structure Payload where
  number : Value
  nextUpdate : Date
  entries : List Entry
  deriving Repr, Inhabited

namespace StatusReport

/-- A report that is `null` says nothing. -/
def ofRead : Value → StatusReport
  | .map fields =>
    ⟨Statement.textOf (Value.field? "status" fields), (Value.field? "effectiveDate" fields).getD .null⟩
  | _ => ⟨none, .null⟩

/-- The statuses that withdraw trust from a model. -/
def withdrawing : List String := [
  "REVOKED", "USER_KEY_REMOTE_COMPROMISE", "USER_KEY_PHYSICAL_COMPROMISE", "ATTESTATION_KEY_COMPROMISE",
  "USER_VERIFICATION_BYPASS"]

def withdraws (r : StatusReport) : Bool := (r.status.map withdrawing.contains).getD false

/-- The report of the latest date; of several the first.  Dates that have no order are refused. -/
def latestOf : (best : StatusReport) → List StatusReport → Option StatusReport
  | best, [] => some best
  | best, r :: rs =>
    match Value.less? best.effectiveDate r.effectiveDate with
    | none => none
    | some true => latestOf r rs
    | some false => latestOf best rs

/-- Among dated reports the latest; without a date the last one listed. -/
def latest? (first : StatusReport) (rest : List StatusReport) : Option StatusReport :=
  match (first :: rest).filter fun r => r.effectiveDate.truthy with
  | [] => some ((first :: rest).getLast (by simp))
  | r :: rs => latestOf r rs

end StatusReport

namespace Entry

def ofRead : Value → Entry
  | .map fields =>
    let get := fun (key : String) => (Value.field? key fields).getD .null
    { aaguid := get "aaguid"
      keyIdentifiers := get "attestationCertificateKeyIdentifiers"
      reports := (Statement.listOf (Value.field? "statusReports" fields)).map StatusReport.ofRead
      statement := match Value.field? "metadataStatement" fields with
        | some (.map s) => some (Statement.ofRead s).listing
        | _ => none }
  | _ => ⟨.null, .null, [], none⟩

/-- Whether the latest report leaves the model trusted; none if the dates cannot be compared. -/
def isTrusted? (e : Entry) : Except Failure Bool :=
  match e.reports with
  | [] => .ok true
  | r :: rs =>
    match StatusReport.latest? r rs with
    | some latest => .ok (!latest.withdraws)
    | none => .error (.kind .unworded)

end Entry

namespace Payload

/-- The payload in fields that the schema has read. -/
def ofRead (fields : Value.Fields) : Payload where
  number := (Value.field? "no" fields).getD .null
  nextUpdate := match Value.field? "nextUpdate" fields with
    | some (.int day) => ⟨day⟩
    | _ => ⟨0⟩
  entries := (Statement.listOf (Value.field? "entries" fields)).map Entry.ofRead

/-- The payload of a document; the document `null` has none. -/
def ofValue (v : Value) : Except ShapeFault (Option Payload) := do
  match ← payloadShape.read v with
  | .map read => .ok (some (ofRead read))
  | _ => .ok none

end Payload
end Metadata
end AttestationTrust
