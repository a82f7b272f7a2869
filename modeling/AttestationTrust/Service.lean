import AttestationTrust.Endpoints
import AttestationTrust.Provider
/-!
# The metadata service

A run of the service loads the root certificate, builds a provider for each endpoint, adds the local statements
and publishes a validator over all of them (`Service.run`).  A run that finds no source of trust ends without
touching what an earlier one has published.  A caller that needs the validator starts a run only if none is
published and no other run has been started since it asked (`Service.settle`).

A run builds its providers one after another.  Workers may share them instead, as many as the settings ask for
(`Settings.readWorkers`, `Provider.poolSize`): in which order their requests are made is then open, so such a run is a
relation (`Service.RunsBy`).
-/
namespace AttestationTrust

open X509 (Certificate)
open Metadata (LocalStatements)

variable [Json.Limits]

/-- How far the last run has come. -/
inductive Stage where
  | notStarted
  | loadingRoot
  | buildingProviders
  | buildingRepository
  | ready
  | aborted
  | failed
  deriving DecidableEq, Repr

def Stage.text : Stage → String
  | .notStarted => "not_started"
  | .loadingRoot => "loading_root"
  | .buildingProviders => "building_providers"
  | .buildingRepository => "building_repository"
  | .ready => "ready"
  | .aborted => "aborted"
  | .failed => "failed"

structure Service where
  settings : Settings
  resolver : Resolver
  stage : Stage
  lastAttempt : Option Int
  /-- Universal time at which a run last became ready, in microseconds. -/
  lastSuccess : Option Int
  lastError : Option String
  /-- The providers that the validator looks anchors up in. -/
  providers : List Provider
  /-- The number of statements that it looks them up in beside those. -/
  localStatements : Nat
  validator : Option Validator
  /-- The number of runs that have been started. -/
  attempts : Nat

namespace Service

def topic : String := "mds_trust.service"

def new (settings : Settings) (resolver : Resolver) : Service :=
  ⟨settings, resolver, .notStarted, none, none, none, [], 0, none, 0⟩

/-- The service and what an operation on it came to. -/
abbrev Outcome (α : Type) := Service × Except Failure α

def start (s : Service) (clock : Int) : Service :=
  { s with attempts := s.attempts + 1, lastAttempt := some clock, lastError := none, stage := .loadingRoot }

def providerFactory (root : Certificate) (timeout : Binary64) : Provider.Factory := fun url =>
  Provider.make (.text url) root (.float timeout)

/-- The providers of the endpoints under the current settings. -/
def buildProviders (settings : Settings) (root : Certificate) (endpoints : List String) :
    Action (List Provider) := do
  let timeout ← Action.ofExcept settings.readTimeout
  Provider.buildAll (providerFactory root timeout) (settings.readFlag Setting.revocationCheck.key true) endpoints

/-- The repository over the providers, if there is one. -/
def blobRepository : List Provider → Option Repository
  | [] => none
  | providers => some (.blobs (providers.map Provider.source) true)

def localText : LocalStatements → String
  | .absent _ => "no local statements"
  | .present f => toString f.size ++ " local statements"

def readyText (providers : List Provider) (found : LocalStatements) : String :=
  "Attestation trust validator ready (" ++ toString providers.length ++ " MDS BLOB providers, " ++
    localText found ++ ")."

/-- Publishes the validator over the sources that were found, or ends the run when there are none. -/
def publish (s : Service) (providers : List Provider) (found : LocalStatements) : Action (Outcome Stage) := do
  match Repository.combine (blobRepository providers) found with
  | none =>
    Action.log .debug topic ("No MDS endpoints or local metadata statements are available. " ++
      "Hence aborting the current initialization.")
    pure ({ s with stage := .aborted }, .ok .aborted)
  | some repository =>
    let s := { s with
      providers := providers
      localStatements := found.count
      validator := some ⟨repository, true⟩
      stage := .ready
      lastSuccess := some (← get).clock }
    Action.log .info topic (readyText providers found)
    pure (s, .ok .ready)

/-- The part of a run that follows the providers. -/
def addStatements (s : Service) (providers : List Provider) : Action (Outcome Stage) := do
  let s := { s with stage := .buildingRepository }
  match ← Action.attempt (LocalStatements.load (s.settings.readPath Setting.statements.key)) with
  | .error f => pure (s, .error f)
  | .ok found => publish s providers found

def logAll (records : List LogRecord) : Action Unit := modify fun w => { w with log := w.log ++ records }

/-- The endpoints, resolved now or earlier. -/
def resolveEndpoints (s : Service) : Action (Service × List String) := do
  let ((endpoints, warnings), resolver) := s.resolver.resolve s.settings
  logAll warnings
  pure ({ s with resolver := resolver }, endpoints)

/-- The part of a run that follows the building of its providers, which may have failed. -/
def conclude (s : Service) (endpoints : List String) : Except Failure (List Provider) → Action (Outcome Stage)
  | .error f => pure (s, .error f)
  | .ok providers =>
    if !endpoints.isEmpty && providers.isEmpty then do
      Action.log .debug topic ("Ended up in an empty url based metadata BLOB providers list. " ++
        "Hence aborting the current initialization.")
      pure ({ s with stage := .aborted }, .ok .aborted)
    else addStatements s providers

/-- The part of a run that follows the root certificate. -/
def runWith (s : Service) (root : Certificate) : Action (Outcome Stage) := do
  let (s, endpoints) ← resolveEndpoints { s with stage := .buildingProviders }
  conclude s endpoints (← Action.attempt (buildProviders s.settings root endpoints))

/-- What a run does once it has started.  Without the root certificate it fails; any other failure ends it where
it is. -/
def proceed (s : Service) : Action (Outcome Stage) := do
  match Certificate.loadFile (← get).files (s.settings.readPath Setting.rootCertificate.key) with
  | .ok root => runWith s root
  | .error (.certificate f) =>
    Action.log .error topic (Failure.serviceMessage ++ ": " ++ f.message)
    pure ({ s with stage := .failed, lastError := some f.message }, .error (.service f))
  | .error f => pure (s, .error f)

/-- A whole run. -/
def run (s : Service) : Action (Outcome Stage) := do
  proceed (s.start (← get).clock)

/-- What a caller finds when it asks for the validator: the one that is published, or the number of runs so far. -/
def arrive (s : Service) : Validator ⊕ Nat :=
  match s.validator with
  | some v => .inl v
  | none => .inr s.attempts

/-- Whether a caller whose turn has come finds its answer there: a validator, or a run that was started since it
asked. -/
def isAnswered (s : Service) (seen : Nat) : Bool := s.validator.isSome || s.attempts != seen

/-- What a caller makes of the end of a run of its own. -/
def answerOf : Outcome Stage → Action (Outcome (Option Validator))
  | (s, .ok _) => pure (s, .ok s.validator)
  | (s, .error (.service _)) => do
    Action.log .warning topic "Metadata service initialisation failed; validator unavailable."
    pure (s, .ok none)
  | (s, .error f) => pure (s, .error f)

/-- What a caller does when its turn has come. -/
def settle (s : Service) (seen : Nat) : Action (Outcome (Option Validator)) := do
  if s.isAnswered seen then pure (s, .ok s.validator) else answerOf (← run s)

/-- The validator, after a run if there was none. -/
def ensure (s : Service) : Action (Outcome (Option Validator)) :=
  match s.arrive with
  | .inl v => pure (s, .ok (some v))
  | .inr seen => settle s seen

/-- The first provider that is stale decides. -/
def anyStale (now : Moment) : List Provider → Except Failure Bool
  | [] => .ok false
  | p :: ps => do if ← p.isStale now then .ok true else anyStale now ps

/-- Whether a run is due: nothing is published, or a provider is stale. -/
def needsRefresh (s : Service) (now : Moment) : Except Failure Bool :=
  match s.validator with
  | none => .ok true
  | some _ => anyStale now s.providers

def timeValue : Option Int → Value
  | some t => .text (Moment.ofInstant t).text
  | none => .null

def providerStatus (p : Provider) : Value := .map [
  ("url", .text p.url), ("revocationCheckEnabled", .bool p.revocationCheck),
  ("lastRefreshed", timeValue p.lastRefreshed),
  ("nextUpdate", (p.nextUpdate.map fun d => Value.text d.text).getD .null)]

/-- A report of the service as it stands.  Asking for it resolves the endpoints. -/
def status (s : Service) : Action (Service × Value.Fields) := do
  let (s, endpoints) ← resolveEndpoints s
  pure (s, [
    ("state", .text s.stage.text), ("validatorAvailable", .bool s.validator.isSome),
    ("endpoints", .list (endpoints.map .text)), ("providers", .list (s.providers.map providerStatus)),
    ("localStatements", .int s.localStatements),
    ("lastAttempt", timeValue s.lastAttempt), ("lastSuccess", timeValue s.lastSuccess),
    ("lastError", (s.lastError.map Value.text).getD .null)])

end Service
end AttestationTrust
