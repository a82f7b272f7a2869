import AttestationTrust.Anchor
import AttestationTrust.Base64
import AttestationTrust.Blob
import AttestationTrust.Bundle
import AttestationTrust.Bytes
import AttestationTrust.Calendar.Date
import AttestationTrust.Calendar.Moment
import AttestationTrust.Calendar.Span
import AttestationTrust.CommandLine
import AttestationTrust.Der
import AttestationTrust.Digest.Hash
import AttestationTrust.Digest.Md5
import AttestationTrust.Digest.Sha1
import AttestationTrust.Digest.Sha2
import AttestationTrust.Digest.Sha3
import AttestationTrust.Download
import AttestationTrust.Endpoints
import AttestationTrust.Failure
import AttestationTrust.FileTree
import AttestationTrust.Hex
import AttestationTrust.Http
import AttestationTrust.Http.Target
import AttestationTrust.Json.Reader
import AttestationTrust.Main
import AttestationTrust.Metadata.Local
import AttestationTrust.Metadata.Payload
import AttestationTrust.Metadata.Schema
import AttestationTrust.Metadata.Statement
import AttestationTrust.Numeral.Binary64
import AttestationTrust.Numeral.Reader
import AttestationTrust.Numeral.Shortest
import AttestationTrust.Pem
import AttestationTrust.Provider
import AttestationTrust.Revocation
import AttestationTrust.Schedule
import AttestationTrust.Server
import AttestationTrust.Service
import AttestationTrust.Settings
import AttestationTrust.Signature.Dsa
import AttestationTrust.Signature.Ecdsa
import AttestationTrust.Signature.Ed25519
import AttestationTrust.Signature.Ed448
import AttestationTrust.Signature.Modular
import AttestationTrust.Signature.Rsa
import AttestationTrust.Text.Blank
import AttestationTrust.Text.DecimalDigit
import AttestationTrust.Text.Printable
import AttestationTrust.Text.Quoted
import AttestationTrust.Text.Utf8
import AttestationTrust.Url
import AttestationTrust.Validator
import AttestationTrust.Value
import AttestationTrust.World
import AttestationTrust.X509.Admission
import AttestationTrust.X509.Algorithm
import AttestationTrust.X509.Certificate
import AttestationTrust.X509.Constraint
import AttestationTrust.X509.DistributionPoint
import AttestationTrust.X509.Document
import AttestationTrust.X509.Extension
import AttestationTrust.X509.Fault
import AttestationTrust.X509.GeneralName
import AttestationTrust.X509.Name
import AttestationTrust.X509.Policy
import AttestationTrust.X509.PublicKey
import AttestationTrust.X509.Reference
import AttestationTrust.X509.RevocationList
import AttestationTrust.X509.Time
import AttestationTrust.X509.Transparency
import AttestationTrust.Proofs.Action
import AttestationTrust.Proofs.Exchange
import AttestationTrust.Proofs.Clearance
import AttestationTrust.Proofs.Signers
import AttestationTrust.Proofs.Documents
import AttestationTrust.Proofs.Header
import AttestationTrust.Proofs.Refresh
import AttestationTrust.Proofs.Fetching
import AttestationTrust.Proofs.Lookup
import AttestationTrust.Proofs.Links
import AttestationTrust.Proofs.Verdict
import AttestationTrust.Proofs.Signatures
import AttestationTrust.Proofs.Escapes
import AttestationTrust.Proofs.Providers
import AttestationTrust.Proofs.Run
import AttestationTrust.Proofs.Publication
import AttestationTrust.Proofs.Callers
import AttestationTrust.Proofs.Settling
import AttestationTrust.Proofs.Outcome
import AttestationTrust.Proofs.Survivors
import AttestationTrust.Proofs.Payloads
import AttestationTrust.Proofs.Anchors
import AttestationTrust.Proofs.Provenance
import AttestationTrust.Proofs.Agreement
import AttestationTrust.Proofs.Visits
import AttestationTrust.Proofs.Observation
import AttestationTrust.Proofs.Pool
import AttestationTrust.Proofs.Isolation
import AttestationTrust.Proofs.Sharing
import AttestationTrust.Proofs.Workers
import AttestationTrust.Proofs.Registries
import AttestationTrust.Proofs.Aggregates
import AttestationTrust.Proofs.Downloads
import AttestationTrust.Proofs.Quads
import AttestationTrust.Proofs.Armour
import AttestationTrust.Proofs.Encodings
import AttestationTrust.Proofs.Selection
import AttestationTrust.Proofs.Withdrawals
import AttestationTrust.Proofs.Directories
import AttestationTrust.Proofs.Faults
import AttestationTrust.Proofs.StatementFiles
import AttestationTrust.Proofs.Fields
import AttestationTrust.Proofs.Memo
import AttestationTrust.Proofs.Rounding
import AttestationTrust.Proofs.JsonValues
import AttestationTrust.Proofs.NormalForm
import AttestationTrust.Proofs.Renderings
import AttestationTrust.Proofs.Refusals
import AttestationTrust.Proofs.Blanks
import AttestationTrust.Proofs.Components
import AttestationTrust.Proofs.Locations
import AttestationTrust.Proofs.Dueness
import AttestationTrust.Proofs.Spellings
import AttestationTrust.Proofs.Decimals
import AttestationTrust.Proofs.Timeouts
