import AttestationTrust.Base64
import AttestationTrust.Json.Reader
import AttestationTrust.World
import AttestationTrust.X509.Document
/-!
# Revocation checks

The certificates that signed a BLOB stand in its header, the signer first.  Each is checked against a list of
its issuer: the next certificate, or the root for the last.  A certificate that names no location passes; for
one that does, the first list that its issuer signed decides, and when there is none the check fails.
-/
namespace AttestationTrust
namespace Revocation

open X509 (Certificate RevocationList)

variable [Json.Limits]

def topic : String := "mds_trust.revocation"

/-- The first segment of a BLOB. -/
def headerSegment (blob : Bytes) : Bytes := (Bytes.trim blob).takeWhile (· != 46)

def header (blob : Bytes) : Except Failure Value :=
  match (Base64.decodeSegment (headerSegment blob)).map Json.ofUtf8 with
  | some (.ok v) => .ok v
  | some (.error .tooDeep) => .error .tooDeep
  | _ => .error (.revocation .headerNotJson)

/-- The items of the header's chain, if it has any. -/
def chainItems : Value → Option (List Value)
  | .map fields =>
    match Value.field? "x5c" fields with
    | some (.list (x :: xs)) => some (x :: xs)
    | _ => none
  | _ => none

/-- The certificate in an item of the chain. -/
def itemCertificate (position : Nat) (item : Value) : Except Failure Certificate :=
  match item.text?.bind Base64.ofText? with
  | none => .error (.revocation (.undecodable position))
  | some der =>
    match Certificate.ofDer der with
    | .ok c => .ok c
    | .error .malformed => .error (.revocation (.undecodable position))
    | .error f => .error (.x509 f)

def itemCertificates : (position : Nat) → List Value → Except Failure (List Certificate)
  | _, [] => .ok []
  | position, item :: items => do
    let c ← itemCertificate position item
    let rest ← itemCertificates (position + 1) items
    .ok (c :: rest)

/-- The certificates in the header of a BLOB, in order. -/
def signingChain (blob : Bytes) : Except Failure (List Certificate) := do
  match chainItems (← header blob) with
  | none => .error (.revocation .noChain)
  | some items => itemCertificates 1 items

/-- A download that failed and a list that does not parse leave the other locations to be tried; anything else
ends the check. -/
def listFault : Failure → Option ListFault
  | .download f => some (.download f)
  | f => if f.isValueFault then some .unparsable else none

/-- The list that a location serves. -/
def obtain (url : String) (timeout : Timeout) : Action RevocationList := do
  let bs ← Action.fetch url timeout
  Action.ofX509 (RevocationList.load bs)

/-- Whether a list holds the serial number of a certificate, which has to be a natural number. -/
def listed (crl : RevocationList) (c : Certificate) : Except Failure Bool :=
  if c.content.serial < 0 then .error (.x509 .malformed) else .ok (crl.lists c.content.serial.toNat)

/-- Tries the locations in turn; `last` is why the one before was of no use. -/
def checkUrls (c issuer : Certificate) (timeout : Timeout) : (last : ListFault) → List String → Action Unit
  | last, [] => do
    let subject ← Action.ofX509 c.subjectText
    throw (.revocation (.noUsableList subject last))
  | _, url :: urls => do
    match ← Action.attempt (obtain url timeout) with
    | .error f =>
      match listFault f with
      | none => throw f
      | some reason =>
        Action.log .warning topic ("Unable to obtain CRL from " ++ url ++ ": " ++ f.shown)
        checkUrls c issuer timeout reason urls
    | .ok crl =>
      let key ← Action.ofX509 issuer.publicKey
      if !(← Action.ofX509 (crl.isSignedBy key)) then
        Action.log .warning topic (ListFault.unsignedMessage url)
        checkUrls c issuer timeout (.unsigned url) urls
      else if ← Action.ofExcept (listed crl c) then
        let subject ← Action.ofX509 c.subjectText
        throw (.revocation (.revoked subject c))

def checkCertificate (c issuer : Certificate) (timeout : Timeout) : Action Unit := do
  match ← Action.ofX509 c.crlUrls with
  | [] =>
    let subject ← Action.ofX509 c.subjectText
    Action.log .debug topic ("No CRL distribution points for " ++ subject ++ "; skipping revocation check.")
  | url :: urls => checkUrls c issuer timeout .unparsable (url :: urls)

/-- Each certificate beside its issuer, the last beside the root. -/
def withIssuers (root : Certificate) : List Certificate → List (Certificate × Certificate)
  | [] => []
  | [c] => [(c, root)]
  | c :: d :: rest => (c, d) :: withIssuers root (d :: rest)

/-- Every certificate of the chain but the root itself. -/
def checkBlob (blob : Bytes) (root : Certificate) (timeout : Timeout) : Action Unit := do
  let chain ← Action.ofExcept (signingChain blob)
  (withIssuers root (chain.filter (· ≠ root))).forM fun (c, issuer) => checkCertificate c issuer timeout

end Revocation
end AttestationTrust
