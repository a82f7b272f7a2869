import AttestationTrust.Failure
/-!
# Settings

The settings are a mapping from keys to values of any kind, so each reader says what it makes of a value that
has the wrong one.  The environment contributes the settings whose variables are set to something that can be
read (`Settings.ofEnvironment`).
-/
namespace AttestationTrust

inductive Setting where
  | rootCertificate
  | endpoints
  | statements
  | revocationCheck
  | fetchTimeout
  | fetchWorkers
  | initializeOnStart
  | refreshRoute
  deriving DecidableEq, Repr

namespace Setting

def key : Setting → String
  | .rootCertificate => "MDS_ROOT_CERTIFICATE_PATH"
  | .endpoints => "MDS_ENDPOINTS"
  | .statements => "MDS_METADATA_STATEMENTS_DIR"
  | .revocationCheck => "MDS_REVOCATION_CHECK_ENABLED"
  | .fetchTimeout => "MDS_FETCH_TIMEOUT"
  | .fetchWorkers => "MDS_FETCH_WORKERS"
  | .initializeOnStart => "MDS_INITIALIZE_ON_START"
  | .refreshRoute => "MDS_REFRESH_ROUTE_ENABLED"

/-- The variable of the environment that a setting is read from. -/
def environmentName : Setting → String
  | .rootCertificate => "FIDO_SERVER_MDS_ROOT_CERTIFICATE"
  | .endpoints => "FIDO_SERVER_MDS_ENDPOINTS"
  | .statements => "FIDO_SERVER_METADATA_STATEMENTS"
  | .revocationCheck => "FIDO_SERVER_MDS_REVOCATION_CHECK"
  | .fetchTimeout => "FIDO_SERVER_MDS_FETCH_TIMEOUT"
  | .fetchWorkers => "FIDO_SERVER_MDS_FETCH_WORKERS"
  | .initializeOnStart => "FIDO_SERVER_MDS_INITIALIZE_ON_START"
  | .refreshRoute => "FIDO_SERVER_MDS_REFRESH_ROUTE"

end Setting

abbrev Settings := Value.Fields

abbrev Environment := List (String × String)

namespace Settings

def defaultTimeout : Binary64 := Binary64.ofRatio false 30 1
def defaultWorkers : Nat := 4

/-- The settings before anything has been configured. -/
def initial : Settings := [
  (Setting.rootCertificate.key, .text ""), (Setting.endpoints.key, .null), (Setting.statements.key, .text ""),
  (Setting.revocationCheck.key, .bool true), (Setting.fetchTimeout.key, .float defaultTimeout),
  (Setting.fetchWorkers.key, .int defaultWorkers), (Setting.initializeOnStart.key, .bool false),
  (Setting.refreshRoute.key, .bool false)]

/-- A key that is not set has the value `null`. -/
def get (s : Settings) (key : String) : Value := (Value.field? key s).getD .null

def update (s : Settings) (changes : Value.Fields) : Settings :=
  changes.foldl (fun s c => Value.setField c.1 c.2 s) s

/-- The words that switch a flag off. -/
def offWords : List String := ["", "0", "false", "off", "no"]

def flagOfText (s : String) : Bool := !offWords.contains (Text.lower (Text.trim s))

/-- A text without its blanks, or the empty text. -/
def readPath (s : Settings) (key : String) : String :=
  match s.get key with
  | .text path => Text.trim path
  | _ => ""

def readFlag (s : Settings) (key : String) (default : Bool) : Bool :=
  match s.get key with
  | .bool b => b
  | .text t => flagOfText t
  | _ => default

/-- A number above zero; an integer has to be in the range of the floating point numbers. -/
def readTimeout (s : Settings) : Except Failure Binary64 :=
  match s.get Setting.fetchTimeout.key with
  | .int n =>
    if 0 < n then
      match Binary64.ofInt? n with
      | some x => .ok x
      | none => .error (.range .integerTooLarge)
    else .ok defaultTimeout
  | .float x => .ok (if x.isPositive then x else defaultTimeout)
  | _ => .ok defaultTimeout

def readWorkers (s : Settings) : Nat :=
  match s.get Setting.fetchWorkers.key with
  | .int n => if 0 < n then n.toNat else defaultWorkers
  | _ => defaultWorkers

def isSeparator (c : Char) : Bool := c == ',' || c == ';' || c == '\n'

/-- The pieces between the separators, without their blanks, of which the empty ones are left out. -/
def components (raw : String) : List String :=
  ((raw.toList.splitOnP isSeparator).map fun cs => String.ofList (Text.trimList cs)).filter fun c => c != ""

/-- One endpoint alone is kept as a text, several as a list. -/
def endpointsOfText (raw : String) : Option Value :=
  match components raw with
  | [] => none
  | [c] => some (.text c)
  | cs => some (.list (cs.map .text))

def timeoutOfText (raw : String) : Option Value :=
  (Numeral.readFloat raw).bind fun x => if x.isPositive then some (.float x) else none

def workersOfText (raw : String) : Option Value :=
  (Numeral.readInteger raw).bind fun n => if 0 < n then some (.int n) else none

/-- What a setting is made from the text of its variable. -/
def ofText (setting : Setting) (raw : String) : Option Value :=
  match setting with
  | .rootCertificate => some (.text raw)
  | .statements => some (.text raw)
  | .endpoints => endpointsOfText raw
  | .revocationCheck => some (.bool (flagOfText raw))
  | .initializeOnStart => some (.bool (flagOfText raw))
  | .refreshRoute => some (.bool (flagOfText raw))
  | .fetchTimeout => timeoutOfText raw
  | .fetchWorkers => workersOfText raw

def environmentOrder : List Setting := [
  .rootCertificate, .statements, .endpoints, .revocationCheck, .initializeOnStart, .refreshRoute, .fetchTimeout,
  .fetchWorkers]

def ofEnvironment (env : Environment) : Settings :=
  environmentOrder.filterMap fun setting =>
    ((env.lookup setting.environmentName).bind (ofText setting)).map fun v => (setting.key, v)

end Settings
end AttestationTrust
