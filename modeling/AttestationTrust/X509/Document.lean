import AttestationTrust.Failure
import AttestationTrust.FileTree
import AttestationTrust.Pem
import AttestationTrust.X509.RevocationList
/-!
# Certificates and revocation lists as documents

Either comes in its distinguished encoding or in an armoured document; the mark that opens an armoured one
decides.  `Certificate.load_der`: the octets of a certificate load as that certificate, unless they hold the
mark themselves.
-/
namespace AttestationTrust
namespace X509

namespace Certificate

def mark : Bytes := Bytes.ofText "-----BEGIN CERTIFICATE-----"

def labels : List String := ["CERTIFICATE", "X509 CERTIFICATE"]

/-- A form that is not read is a fault of the document; a version that is not supported is one of its own. -/
def ofDerOrFault (der : Bytes) : Except Failure Certificate :=
  match ofDer der with
  | .ok c => .ok c
  | .error .malformed => .error (.certificate .unparsable)
  | .error f => .error (.x509 f)

def load (bs : Bytes) : Except Failure Certificate :=
  if bs = [] then .error (.certificate .empty)
  else if Bytes.contains mark bs then
    match Pem.find? labels bs with
    | some der => ofDerOrFault der
    | none => .error (.certificate .unparsable)
  else ofDerOrFault bs

theorem load_der (c : Certificate) (hne : c.der ≠ []) (h : Bytes.contains mark c.der = false) :
    load c.der = .ok c := by
  simp [load, hne, h, ofDerOrFault, ofDer_der]

/-- The certificate in a file. -/
def loadFile (files : FileTree) (path : String) : Except Failure Certificate :=
  if path = "" then .error (.certificate .noPath)
  else if !files.isFile path then .error (.certificate (.noFile path))
  else
    match files.read? path with
    | none => .error (.certificate (.unreadable path))
    | some bs => load bs

end Certificate

namespace RevocationList

def mark : Bytes := Bytes.ofText "-----BEGIN X509 CRL-----"

def load (bs : Bytes) : Except Fault RevocationList :=
  if Bytes.contains mark bs then
    match Pem.find? ["X509 CRL"] bs with
    | some der => ofDer der
    | none => .error .malformed
  else ofDer bs

end RevocationList
end X509
end AttestationTrust
