import AttestationTrust.Base64
import AttestationTrust.Metadata.Payload
import AttestationTrust.Validator
/-!
# Metadata BLOBs

A BLOB is three segments with points between them: a header, a payload and a signature over both as they were
received.  The header names the algorithm and carries the chain of certificates; the chain has to lead to the
root, and the key of its first certificate has to verify the signature (`Blob.accept`).
-/
namespace AttestationTrust
namespace Blob

open X509 (Certificate PublicKey)
open Metadata (Payload)

variable [Json.Limits]

structure Signed where
  header : Value.Fields
  payload : Value
  /-- The octets under the signature. -/
  message : Bytes
  signature : Bytes

/-- The segment of a JSON document. -/
def document? (segment : Bytes) : Option Value :=
  (Base64.decodeSegment segment).bind fun bs => (Json.ofBytes bs).toOption

def split? (blob : Bytes) : Option Signed := do
  let (message, signature) ← Bytes.splitLast 46 blob
  match Bytes.splitOn 46 message with
  | [header, payload] =>
    let header ← document? header
    let payload ← document? payload
    match header with
    | .map fields => some ⟨fields, payload, message, ← Base64.decodeSegment signature⟩
    | _ => none
  | _ => none

/-- The certificates of the header; a header without the field has none. -/
def chain? (header : Value.Fields) : Option (List Certificate) := do
  let items ← Metadata.Shape.items ((Value.field? "x5c" header).getD (.list []))
  items.mapM fun item => do
    let der ← item.text?.bind Base64.ofText?
    (Certificate.ofDer der).toOption

/-- The curve and the hash of a name; the later names say both. -/
def curves : List (String × Ecdsa.Curve × Hash) := [
  ("ES256", Ecdsa.p256, .sha256), ("ES384", Ecdsa.p384, .sha384), ("ES512", Ecdsa.p521, .sha512),
  ("ES256K", Ecdsa.secp256k1, .sha256), ("ESP256", Ecdsa.p256, .sha256), ("ESP384", Ecdsa.p384, .sha384),
  ("ESP512", Ecdsa.p521, .sha512)]

/-- Whether the key verifies a signature by the algorithm of a name. -/
def verifies (algorithm : String) (key : PublicKey) (message signature : Bytes) : Bool :=
  match algorithm, key with
  | "RS256", .rsa k => Rsa.verify k .sha256 message signature
  | "PS256", .rsa k => Rsa.verifyPss k .sha256 .sha256 .any message signature
  | "RS1", .rsa k => Rsa.verify k .sha1 message signature
  | "EdDSA", .ed25519 k => Ed25519.verify k message signature
  | "Ed25519", .ed25519 k => Ed25519.verify k message signature
  | "Ed448", .ed448 k => Ed448.verify k message signature
  | name, .ec k =>
    match curves.lookup name with
    | some (c, h) => k.curve == c && Ecdsa.verify k h message signature
    | none => false
  | _, _ => false

def leadsTo (root : Certificate) (chain : List Certificate) : Bool :=
  match Link.ofChain (chain ++ [root]) with
  | .verified => true
  | _ => false

def isSignedBy (s : Signed) (signer : Certificate) : Bool :=
  match Value.field? "alg" s.header, signer.publicKey with
  | some (.text algorithm), .ok key => verifies algorithm key s.message s.signature
  | _, _ => false

/-- The payload of a BLOB that the root vouches for.  A payload that is `null` is accepted as none. -/
def accept (root : Certificate) (blob : Bytes) : Option (Option Payload) := do
  let s ← split? blob
  let chain ← chain? s.header
  if leadsTo root chain ∧ isSignedBy s (chain.headD root) then (Payload.ofValue s.payload).toOption else none

end Blob
end AttestationTrust
