import AttestationTrust.Value
import AttestationTrust.X509.Certificate
/-!
# Failures

Every way in which an operation can fail, by cause.  `Failure.message?` is the wording; a failure without one
of its own is shown inside a message as `Failure.unworded`.  The groups are what callers distinguish: a root
certificate that is not there, a download, a revocation check, a BLOB, a statement, a chain that is not trusted,
the service as a whole, and, below them, a value that does not fit.
-/
namespace AttestationTrust

/-- Why a certificate was not loaded: its source first, then its form. -/
inductive CertificateFault where
  | noPath
  | noFile (path : String)
  | unreadable (path : String)
  | empty
  | unparsable
  deriving DecidableEq, Repr

inductive DownloadFault where
  /-- A failure that the transport words itself. -/
  | reported (text : String) (status : Option Int) (retryAfter : Option String)
  | noResponse (url : String)
  | badStatus (url : String) (status : Option Int)
  | httpError (url : String) (status : Int) (retryAfter : Option String)
  | unreachable (url : String) (reason : Option String)
  | unverifiedServer (url : String) (reason : String)
  deriving DecidableEq, Repr

/-- Why the last of several revocation lists was of no use. -/
inductive ListFault where
  | download (f : DownloadFault)
  | unparsable
  | unsigned (url : String)
  deriving DecidableEq, Repr

inductive RevocationFault where
  | headerNotJson
  | noChain
  | undecodable (position : Nat)
  | noUsableList (subject : String) (last : ListFault)
  | revoked (subject : String) (c : X509.Certificate)
  deriving DecidableEq

inductive BlobFault where
  | unverified (url : String)
  | notLoaded (url : String)
  deriving DecidableEq, Repr

inductive StatementFault where
  | notObject
  | notJson (source : String)
  | invalid (source : String)
  deriving DecidableEq, Repr

/-- Why a chain is not trusted. -/
inductive ChainFault where
  | noAnchor
  | badMember (position : Nat) (cause : CertificateFault)
  | empty
  | holdsRoot
  | notValidAt (subject moment : String)
  | unverified
  deriving DecidableEq, Repr

/-- A value of the right kind that does not fit. -/
inductive ValueFault where
  | endpointNotText (kind : String)
  | endpointInvalid (url : String)
  | timeoutNotPositive
  | tooFewSources
  | notBase64
  | noScheme (url : String)
  | notInteger (text : String)
  /-- A fault that the transport words itself. -/
  | reported (text : String)
  | unworded
  deriving DecidableEq, Repr

/-- A value of the wrong kind. -/
inductive KindFault where
  | localStatements (shown : String)
  | unworded
  deriving DecidableEq, Repr

inductive RangeFault where
  /-- An integer beyond the floating point numbers. -/
  | integerTooLarge
  | unworded
  deriving DecidableEq, Repr

inductive Failure where
  | certificate (f : CertificateFault)
  | download (f : DownloadFault)
  | revocation (f : RevocationFault)
  | blob (f : BlobFault)
  | statement (f : StatementFault)
  | chain (f : ChainFault)
  | service (cause : CertificateFault)
  | value (f : ValueFault)
  | kind (f : KindFault)
  | range (f : RangeFault)
  | x509 (f : X509.Fault)
  /-- A part was asked of a value that has none. -/
  | noSuchPart
  /-- A signature without a hash was to be checked with a key that needs one. -/
  | noHash
  /-- Lists and objects stand inside each other too deep to be followed. -/
  | tooDeep
  | unreadable
  /-- A failure of another kind that the transport brought up. -/
  | foreign (kind text : String)
  deriving DecidableEq

/-- Stands where a message would repeat the words of a failure that has none of its own. -/
def Failure.unworded : String := "<cause>"

namespace CertificateFault

/-- Whether the file is at fault and not what it holds. -/
def isSource : CertificateFault → Bool
  | .noPath => true
  | .noFile _ => true
  | .unreadable _ => true
  | .empty => false
  | .unparsable => false

def message : CertificateFault → String
  | .noPath => "No MDS root certificate path is configured."
  | .noFile path => "MDS root certificate file not found: " ++ path
  | .unreadable path => "Unable to read MDS root certificate from " ++ path ++ ": " ++ Failure.unworded
  | .empty => "Certificate data is empty."
  | .unparsable => "Unable to parse X.509 certificate: " ++ Failure.unworded

end CertificateFault

namespace DownloadFault

def statusText : Option Int → String
  | some n => toString n
  | none => "None"

def message : DownloadFault → String
  | .reported text _ _ => text
  | .noResponse url => "no response for " ++ url
  | .badStatus url status => "Unexpected response status " ++ statusText status ++ " from " ++ url ++ "."
  | .httpError url status _ => "Failed to download " ++ url ++ " (HTTP " ++ toString status ++ ")."
  | .unreachable url (some reason) => "Failed to reach " ++ url ++ ": " ++ reason
  | .unreachable url none => "Failed to reach " ++ url ++ "."
  | .unverifiedServer url reason =>
    "Failed to verify the TLS certificate for " ++ url ++ " (" ++ reason ++ ")."

def status : DownloadFault → Option Int
  | .reported _ status _ => status
  | .badStatus _ status => status
  | .httpError _ status _ => some status
  | _ => none

def retryAfter : DownloadFault → Option String
  | .reported _ _ retryAfter => retryAfter
  | .httpError _ _ retryAfter => retryAfter
  | _ => none

end DownloadFault

/-- A list that its issuer did not sign is a revocation failure with words of its own. -/
def ListFault.unsignedMessage (url : String) : String := "CRL from " ++ url ++ " is not signed by the issuer."

namespace RevocationFault

def message : RevocationFault → String
  | .headerNotJson => "Metadata BLOB header is not valid JSON."
  | .noChain => "Metadata BLOB header does not carry an x5c chain."
  | .undecodable position => "x5c certificate " ++ toString position ++ " could not be decoded."
  | .noUsableList subject _ => "No usable CRL for " ++ subject ++ "."
  | .revoked subject c => "Certificate " ++ subject ++ " (serial " ++ c.serialText ++ ") has been revoked."

end RevocationFault

def BlobFault.message : BlobFault → String
  | .unverified url => "Failed to verify metadata BLOB from " ++ url ++ ": " ++ Failure.unworded
  | .notLoaded url => "Metadata BLOB from " ++ url ++ " has not been loaded."

def StatementFault.message : StatementFault → String
  | .notObject => "Metadata statement must be a JSON object."
  | .notJson source => source ++ " is not valid JSON: " ++ Failure.unworded
  | .invalid source => source ++ " is not a valid metadata statement: " ++ Failure.unworded

def ChainFault.message : ChainFault → String
  | .noAnchor => "No trust anchor is registered for this authenticator."
  | .badMember position cause =>
    "Attestation certificate " ++ toString position ++ " is not valid: " ++ cause.message
  | .empty => "Attestation certificate chain is empty."
  | .holdsRoot => "Attestation chain must not contain its root."
  | .notValidAt subject moment => "Certificate " ++ subject ++ " is not valid at " ++ moment ++ "."
  | .unverified => "Attestation chain does not verify against any registered trust anchor."

/-- The most of a text that a message about a number shows. -/
def ValueFault.shownLength : Nat := 200

def ValueFault.message? : ValueFault → Option String
  | .endpointNotText kind => some ("MDS endpoint must be a string, not " ++ kind ++ ".")
  | .endpointInvalid url => some ("Invalid MDS endpoint URL: " ++ Text.quoted url)
  | .timeoutNotPositive => some "Fetch timeout must be positive."
  | .tooFewSources => some "An aggregating repository needs at least two sources."
  | .notBase64 => some "Certificates must be base64 encoded strings."
  | .noScheme url => some ("unknown url type: " ++ Text.quoted url)
  | .notInteger text =>
    some ("invalid literal for int() with base 10: " ++
      String.ofList ((Text.quoted text).toList.take shownLength))
  | .reported text => some text
  | .unworded => none

def KindFault.message? : KindFault → Option String
  | .localStatements shown => some ("Unexpected local statements value: " ++ shown)
  | .unworded => none

def RangeFault.message? : RangeFault → Option String
  | .integerTooLarge => some "int too large to convert to float"
  | .unworded => none

namespace Failure

def serviceMessage : String := "Exception in reading the FIDO2 mds root certificate"

def message? : Failure → Option String
  | .certificate f => some f.message
  | .download f => some f.message
  | .revocation f => some f.message
  | .blob f => some f.message
  | .statement f => some f.message
  | .chain f => some f.message
  | .service _ => some serviceMessage
  | .value f => f.message?
  | .kind f => f.message?
  | .range f => f.message?
  | .foreign _ text => some text
  | .x509 _ => none
  | .noSuchPart => none
  | .noHash => none
  | .tooDeep => none
  | .unreadable => none

/-- The failure as a message shows it inside another. -/
def shown (f : Failure) : String := f.message?.getD unworded

/-- The kinds of foreign failure that count as a value that does not fit. -/
def foreignValueKinds : List String := ["ValueError", "UnicodeError"]

/-- Whether a value did not fit: a form that is not read is one of them, and so is a damaged statement. -/
def isValueFault : Failure → Bool
  | .value _ => true
  | .statement _ => true
  | .x509 .malformed => true
  | .foreign word _ => foreignValueKinds.contains word
  | _ => false

end Failure
end AttestationTrust
