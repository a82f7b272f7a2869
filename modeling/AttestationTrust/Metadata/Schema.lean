import AttestationTrust.Base64
import AttestationTrust.Calendar.Date
import AttestationTrust.Failure
/-!
# Schemas of metadata documents

A metadata document arrives as a JSON value and is read by a schema.  A `Shape` says what a value is read as:
most shapes convert what they can, so a number reads as a text and a text of digits as a number.  A record takes
its fields in the order of the schema, passes over unknown ones, and counts a field that is `null` as absent.
`Shape.read` answers with the converted value; dates become the number of their day.
-/
namespace AttestationTrust
namespace Metadata

/-- Why a value does not have a shape. -/
inductive ShapeFault where
  | invalid
  | noSuchPart
  | infinite
  | tooLarge
  deriving DecidableEq, Repr

def ShapeFault.failure : ShapeFault → Failure
  | .invalid => .value .unworded
  | .noSuchPart => .noSuchPart
  | .infinite => .range .unworded
  | .tooLarge => .range .integerTooLarge

inductive Shape where
  | text
  | integer
  | number
  | truth
  | base64
  | hex
  | aaguid
  | date
  | choice (names : List String)
  | object
  | texts
  | listOf (item : Shape)
  | record (fields : List (String × Bool × Shape))

namespace Shape

/-- The items that a value consists of: a text has characters, an object has keys. -/
def items : Value → Option (List Value)
  | .list xs => some xs
  | .tuple xs => some xs
  | .text s => some (s.toList.map fun c => .text (String.ofList [c]))
  | .map fields => some (fields.map fun f => .text f.1)
  | .bytes bs => some (bs.map fun b => .int b.toNat)
  | _ => none

def readInteger : Value → Except ShapeFault Value
  | .int n => .ok (.int n)
  | .bool b => .ok (.bool b)
  | .text s =>
    match Numeral.readInteger s with
    | some n => .ok (.int n)
    | none => .error .invalid
  | .float x =>
    if x.isNaN then .error .invalid else if x.isInfinite then .error .infinite else .ok (.int x.truncate)
  | _ => .error .invalid

def readNumber : Value → Except ShapeFault Value
  | .float x => .ok (.float x)
  | .bool b => .ok (.float (Binary64.ofRatio false (if b then 1 else 0) 1))
  | .int n =>
    match Binary64.ofInt? n with
    | some x => .ok (.float x)
    | none => .error .tooLarge
  | .text s =>
    match Numeral.readFloat s with
    | some x => .ok (.float x)
    | none => .error .invalid
  | _ => .error .invalid

def orInvalid : Option Value → Except ShapeFault Value
  | some v => .ok v
  | none => .error .invalid

/-- Sixteen octets in hexadecimal digits, with hyphens anywhere. -/
def readAaguid : Value → Except ShapeFault Value
  | .text s =>
    match Hex.decode (s.toList.filter (· != '-')) with
    | some bs => if bs.length = 16 then .ok (.bytes bs) else .error .invalid
    | none => .error .invalid
  | _ => .error .noSuchPart

def readHex (v : Value) : Except ShapeFault Value :=
  orInvalid (v.text?.bind fun s => (Hex.decode s.toList).map .bytes)

def readBase64 (v : Value) : Except ShapeFault Value :=
  orInvalid (v.text?.bind fun s => (Base64.ofText? s).map .bytes)

def readDate (v : Value) : Except ShapeFault Value :=
  orInvalid (v.text?.bind fun s => (Date.ofText? s).map fun d => .int d.day)

/-- A name that is not among the choices is no value at all. -/
def readChoice (names : List String) : Value → Except ShapeFault Value
  | .text s => .ok (if names.contains s then .text s else .null)
  | _ => .ok .null

def readTexts : Value → Except ShapeFault Value
  | .map fields => .ok (.map (fields.map fun f => (f.1, .text f.2.asText)))
  | _ => .error .invalid

def readObject : Value → Except ShapeFault Value
  | .map fields => .ok (.map fields)
  | _ => .error .invalid

/-- Whether every field that is required has been read. -/
def isComplete (rules : List (String × Bool × Shape)) (found : Value.Fields) : Bool :=
  rules.all fun r => !r.2.1 || (Value.field? r.1 found).isSome

mutual

def read : Shape → Value → Except ShapeFault Value
  | .text, v => .ok (.text v.asText)
  | .integer, v => readInteger v
  | .number, v => readNumber v
  | .truth, v => .ok (.bool v.truthy)
  | .base64, v => readBase64 v
  | .hex, v => readHex v
  | .aaguid, v => readAaguid v
  | .date, v => readDate v
  | .choice names, v => readChoice names v
  | .object, v => readObject v
  | .texts, v => readTexts v
  | .listOf item, v =>
    match items v with
    | some xs => (xs.mapM (read item)).map .list
    | none => .error .invalid
  | .record rules, v =>
    match v with
    | .null => .ok .null
    | .map fields => do
      let found ← readFields rules fields
      if isComplete rules found then .ok (.map found) else .error .invalid
    | _ => .error .invalid

/-- The fields that are there, in the order of the schema. -/
def readFields : List (String × Bool × Shape) → Value.Fields → Except ShapeFault Value.Fields
  | [], _ => .ok []
  | (key, _, shape) :: rules, fields =>
    match (Value.field? key fields).bind Value.present? with
    | none => readFields rules fields
    | some v => do
      let w ← read shape v
      let rest ← readFields rules fields
      .ok ((key, w) :: rest)

end

end Shape

open Shape

def needed (key : String) (s : Shape) : String × Bool × Shape := (key, true, s)
def optional (key : String) (s : Shape) : String × Bool × Shape := (key, false, s)

def versionRange : Shape := .record [needed "major" .integer, needed "minor" .integer]

def codeAccuracy : Shape := .record [
  needed "base" .integer, needed "minLength" .integer, optional "maxRetries" .integer,
  optional "blockSlowdown" .integer]

def biometricAccuracy : Shape := .record [
  optional "selfAttestedFRR" .number, optional "selfAttestedFAR" .number, optional "iAPARThreshold" .number,
  optional "maxTemplates" .integer, optional "maxRetries" .integer, optional "blockSlowdown" .integer]

def patternAccuracy : Shape := .record [
  needed "minComplexity" .integer, optional "maxRetries" .integer, optional "blockSlowdown" .integer]

def verificationMethod : Shape := .record [
  optional "userVerificationMethod" .text, optional "caDesc" codeAccuracy, optional "baDesc" biometricAccuracy,
  optional "paDesc" patternAccuracy]

def paletteEntry : Shape := .record [needed "r" .integer, needed "g" .integer, needed "b" .integer]

def displayImage : Shape := .record [
  needed "width" .integer, needed "height" .integer, needed "bitDepth" .integer, needed "colorType" .integer,
  needed "compression" .integer, needed "filter" .integer, needed "interlace" .integer,
  optional "plte" (.listOf paletteEntry)]

def anonymousAnchor : Shape := .record [
  needed "X" .text, needed "Y" .text, needed "c" .text, needed "sx" .text, needed "sy" .text,
  needed "G1Curve" .text]

def supportedExtension : Shape := .record [
  needed "fail_if_unknown" .truth, needed "id" .text, optional "tag" .integer, optional "data" .text]

def statementShape : Shape := .record [
  needed "description" .text, needed "authenticatorVersion" .integer, needed "schema" .integer,
  needed "upv" (.listOf versionRange), needed "attestationTypes" (.listOf .text),
  needed "userVerificationDetails" (.listOf (.listOf verificationMethod)),
  needed "keyProtection" (.listOf .text), needed "matcherProtection" (.listOf .text),
  needed "attachmentHint" (.listOf .text), needed "tcDisplay" (.listOf .text),
  needed "attestationRootCertificates" (.listOf .base64),
  optional "legalHeader" .text, optional "aaid" .text, optional "aaguid" .aaguid,
  optional "attestationCertificateKeyIdentifiers" (.listOf .hex), optional "friendlyNames" .texts,
  optional "alternativeDescriptions" .texts, optional "protocolFamily" .text,
  optional "authenticationAlgorithms" (.listOf .text), optional "publicKeyAlgAndEncodings" (.listOf .text),
  optional "isKeyRestricted" .truth, optional "isFreshUserVerificationRequired" .truth,
  optional "cryptoStrength" .integer, optional "operatingEnv" .text, optional "tcDisplayContentType" .text,
  optional "tcDisplayPNGCharacteristics" (.listOf displayImage),
  optional "ecdaaTrustAnchors" (.listOf anonymousAnchor), optional "icon" .text, optional "iconDark" .text,
  optional "providerLogoLight" .text, optional "providerLogoDark" .text,
  optional "supportedExtensions" (.listOf supportedExtension), optional "authenticatorGetInfo" .object]

def statusNames : List String := [
  "NOT_FIDO_CERTIFIED", "FIDO_CERTIFIED", "USER_VERIFICATION_BYPASS", "ATTESTATION_KEY_COMPROMISE",
  "USER_KEY_REMOTE_COMPROMISE", "USER_KEY_PHYSICAL_COMPROMISE", "UPDATE_AVAILABLE", "RETIRED", "REVOKED",
  "SELF_ASSERTION_SUBMITTED", "FIDO_CERTIFIED_L1", "FIDO_CERTIFIED_L1plus", "FIDO_CERTIFIED_L2",
  "FIDO_CERTIFIED_L2plus", "FIDO_CERTIFIED_L3", "FIDO_CERTIFIED_L3plus", "FIPS140_CERTIFIED_L1",
  "FIPS140_CERTIFIED_L2", "FIPS140_CERTIFIED_L3", "FIPS140_CERTIFIED_L4"]

def statusReportShape : Shape := .record [
  needed "status" (.choice statusNames), optional "effectiveDate" .date, optional "authenticatorVersion" .integer,
  optional "certificate" .base64, optional "batchCertificate" .base64, optional "url" .text,
  optional "certificationDescriptor" .text, optional "certificateNumber" .text,
  optional "certificationPolicyVersion" .text, optional "certificationProfiles" (.listOf .text),
  optional "certificationRequirementsVersion" .text, optional "sunsetDate" .date, optional "fipsRevision" .integer,
  optional "fipsPhysicalSecurityLevel" .integer]

def biometricReportShape : Shape := .record [
  needed "certLevel" .integer, needed "modality" .text, needed "effectiveDate" .integer,
  needed "certificationDescriptor" .text, needed "certificateNumber" .text,
  needed "certificationPolicyVersion" .text, needed "certificationRequirementsVersion" .text]

def entryShape : Shape := .record [
  needed "statusReports" (.listOf statusReportShape), needed "timeOfLastStatusChange" .date,
  optional "aaid" .text, optional "aaguid" .aaguid,
  optional "attestationCertificateKeyIdentifiers" (.listOf .hex), optional "metadataStatement" statementShape,
  optional "biometricStatusReports" (.listOf biometricReportShape), optional "rogueListURL" .text,
  optional "rogueListHash" .hex]

def payloadShape : Shape := .record [
  needed "legalHeader" .text, needed "no" .integer, needed "nextUpdate" .date,
  needed "entries" (.listOf entryShape)]

end Metadata
end AttestationTrust
