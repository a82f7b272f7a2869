import AttestationTrust.Blob
import AttestationTrust.Revocation
import AttestationTrust.Url
/-!
# BLOB providers

A provider is bound to one location and a root.  Construction only checks its arguments; `Provider.refresh`
fetches the BLOB, verifies it, checks the revocation of its signers, and only then replaces the payload.  Of
several locations those whose provider can be made and refreshed are kept, in order (`Provider.buildAll`).
-/
namespace AttestationTrust

open X509 (Certificate)
open Metadata (Payload)

variable [Json.Limits]

structure Provider where
  url : String
  root : Certificate
  timeout : Timeout
  revocationCheck : Bool
  /-- Universal time of the last refresh, in microseconds. -/
  lastRefreshed : Option Int
  payload : Option Payload

namespace Provider

def topic : String := "mds_trust.blob"

/-- A number above zero as a timeout; one that is undefined passes too. -/
def timeoutOf : Value → Except Failure Timeout
  | .float x => if Binary64.zero.lt x || x.isNaN then .ok (.float x) else .error (.value .timeoutNotPositive)
  | .int n => if 0 < n then .ok (.integer n) else .error (.value .timeoutNotPositive)
  | .bool true => .ok (.integer 1)
  | .bool false => .error (.value .timeoutNotPositive)
  | _ => .error (.kind .unworded)

/-- The location of an endpoint: that of a web server. -/
def checkUrl : Value → Except Failure String
  | .text url =>
    match Url.split? url with
    | none => .error (.value .unworded)
    | some u => if u.isWeb then .ok url else .error (.value (.endpointInvalid url))
  | v => .error (.value (.endpointNotText v.kindName))

def make (url : Value) (root : Certificate) (timeout : Value) : Except Failure Provider := do
  let url ← checkUrl url
  let timeout ← timeoutOf timeout
  .ok ⟨url, root, timeout, true, none, none⟩

def text (p : Provider) : String := "MetadataBlobProvider(" ++ Text.quoted p.url ++ ")"

/-- The payload that the location serves, once it has been verified and its signers are not revoked. -/
def obtain (p : Provider) : Action (Option Payload) := do
  let blob ← Action.fetch p.url p.timeout
  match Blob.accept p.root blob with
  | none => throw (.blob (.unverified p.url))
  | some payload =>
    if p.revocationCheck then Revocation.checkBlob blob p.root p.timeout
    pure payload

def loadedText (p : Provider) (payload : Payload) : String :=
  "Loaded metadata BLOB no. " ++ payload.number.asText ++ " from " ++ p.url ++ " (" ++
    toString payload.entries.length ++ " entries)."

/-- The provider after a refresh, and the payload or why there is none.  A BLOB without a payload is a failure
that takes effect: the provider is left without a payload. -/
def refresh (p : Provider) : Action (Provider × Except Failure Payload) := do
  match ← Action.attempt p.obtain with
  | .error f => pure (p, .error f)
  | .ok payload =>
    let refreshed := { p with payload := payload, lastRefreshed := some (← get).clock }
    match payload with
    | none => pure (refreshed, .error .noSuchPart)
    | some m =>
      Action.log .info topic (p.loadedText m)
      pure (refreshed, .ok m)

/-- The payload of the last refresh. -/
def metadata (p : Provider) : Except Failure Payload :=
  match p.payload with
  | some m => .ok m
  | none => .error (.blob (.notLoaded p.url))

def nextUpdate (p : Provider) : Option Date := p.payload.map (·.nextUpdate)

/-- Whether a payload is missing, or the date has come on which the next one is due. -/
def isStale (p : Provider) (now : Moment) : Except Failure Bool :=
  match p.nextUpdate with
  | none => .ok true
  | some due =>
    match now.instant? with
    | some t => .ok (due.day ≤ (Moment.dateOfInstant t).day)
    | none => .error (.range .unworded)

def source (p : Provider) : BlobSource := ⟨p.url, p.payload.map (·.entries)⟩

/-- How a provider is made for a location. -/
abbrev Factory := String → Except Failure Provider

def dropped (stage url : String) (f : Failure) : String :=
  "Exception in " ++ stage ++ " url based MDS blob provider for " ++ url ++ ". Dropping the provider. Reason: " ++
    f.shown

/-- The refreshed provider of one location, if it comes to that. -/
def build (factory : Factory) (revocationCheck : Bool) (url : String) : Action (Option Provider) := do
  match factory url with
  | .error f =>
    Action.log .error topic (dropped "constructing" url f)
    pure none
  | .ok p =>
    match ← refresh { p with revocationCheck := revocationCheck } with
    | (p, .ok _) => pure (some p)
    | (_, .error f) =>
      Action.log .error topic (dropped "refreshing" url f)
      pure none

def buildEach (factory : Factory) (revocationCheck : Bool) : List String → Action (List Provider)
  | [] => pure []
  | url :: urls => do
    let here ← build factory revocationCheck url
    let rest ← buildEach factory revocationCheck urls
    pure (here.toList ++ rest)

/-- The providers of the locations that are of use. -/
def buildAll (factory : Factory) (revocationCheck : Bool) (urls : List String) : Action (List Provider) := do
  if !revocationCheck then
    Action.log .warning topic "Revocation checking of metadata BLOB signing certificates is disabled."
  buildEach factory revocationCheck urls

/-- The number of workers that share the locations: none when one after another will do. -/
def poolSize (workers : Int) (urls : List String) : Option Int :=
  if 1 < workers ∧ 1 < urls.length then some (min workers urls.length) else none

end Provider
end AttestationTrust
