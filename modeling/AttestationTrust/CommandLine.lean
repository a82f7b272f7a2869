import AttestationTrust.Schedule
/-!
# The command line

Options may be shortened as long as one long option alone begins so, and a value may stand behind an equals
sign.  A flag of one letter may be followed by others, also behind an equals sign.  `CommandLine.parse` reads
the arguments and `CommandLine.run` makes one run of the service, or looks after it until a signal comes.
-/
namespace AttestationTrust
namespace CommandLine

variable [Json.Limits]

def topic : String := "mds_trust.run"

inductive Flag where
  | help
  | noRevocationCheck
  | watch
  | verbose
  deriving DecidableEq, Repr

inductive Field where
  | rootCertificate
  | endpoint
  | statements
  deriving DecidableEq, Repr

inductive Switch where
  | flag (f : Flag)
  | field (f : Field)
  deriving DecidableEq, Repr

def switches : List (String × Switch) := [
  ("-h", .flag .help), ("--help", .flag .help), ("--root-certificate", .field .rootCertificate),
  ("--endpoint", .field .endpoint), ("--statements", .field .statements),
  ("--no-revocation-check", .flag .noRevocationCheck), ("--watch", .flag .watch), ("-v", .flag .verbose),
  ("--verbose", .flag .verbose)]

/-- A value behind an equals sign that is two dashes counts as no text: an endpoint is then an empty list. -/
structure Options where
  rootCertificate : String
  endpoints : List Value
  statements : String
  noRevocationCheck : Bool
  watch : Bool
  verbose : Bool
  deriving Repr

def Options.none : Options := ⟨"", [], "", false, false, false⟩

/-- What stands in an argument behind the name of a switch: a value behind an equals sign, or more letters. -/
inductive Attached where
  | nothing
  | value (cs : List Char)
  | letters (cs : List Char)
  deriving DecidableEq, Repr

/-- What an argument can be: a value, something that is nothing, or a switch. -/
inductive Argument where
  | value (text : String)
  | stray
  | switch (s : Switch) (attached : Attached)
  deriving DecidableEq, Repr

def splitEquals (cs : List Char) : Option (List Char × List Char) :=
  match cs.dropWhile (· != '=') with
  | [] => Option.none
  | _ :: after => some (cs.takeWhile (· != '='), after)

def find? (name : List Char) : Option Switch := switches.lookup (String.ofList name)

/-- The text without the line feed at its end. -/
def withoutLineEnd (cs : List Char) : List Char := if cs.getLast? = some '\n' then cs.dropLast else cs

/-- A minus sign and digits, with a point before the last of them or without one. -/
def isNumeral : List Char → Bool
  | '-' :: rest =>
    let isDigit := fun c => (Text.digitValue c).isSome
    let whole := rest.takeWhile isDigit
    match rest.drop whole.length with
    | [] => !whole.isEmpty
    | '.' :: places => !places.isEmpty && places.all isDigit
    | _ => false
  | _ => false

/-- A numeral below zero, which may end in one line feed. -/
def isNegativeNumber (cs : List Char) : Bool := isNumeral (withoutLineEnd cs)

/-- What stands behind a name and an equals sign: more letters if the name has one dash. -/
def Attached.behind (name after : List Char) : Attached :=
  if ['-', '-'].isPrefixOf name then .value after else .letters after

/-- The switches that an argument may stand for, with what is attached to each. -/
def candidates (cs : List Char) : List Argument :=
  match cs with
  | '-' :: '-' :: _ =>
    let (name, attached) := match splitEquals cs with
      | some (name, after) => (name, Attached.value after)
      | Option.none => (cs, Attached.nothing)
    (switches.filter fun s => name.isPrefixOf s.1.toList).map fun s => .switch s.2 attached
  | _ => (switches.filter fun s => s.1.toList == cs.take 2).map fun s => .switch s.2 (.letters (cs.drop 2))

/-- What an argument is; none if it may stand for several switches. -/
def classify (cs : List Char) : Option Argument :=
  let text := String.ofList cs
  match cs with
  | '-' :: _ :: _ =>
    match find? cs with
    | some s => some (.switch s .nothing)
    | Option.none =>
      match (splitEquals cs).bind fun (name, after) => (find? name).map fun s => (s, Attached.behind name after) with
      | some (s, attached) => some (.switch s attached)
      | Option.none =>
        match candidates cs with
        | [a] => some a
        | [] => if isNegativeNumber cs || cs.contains ' ' then some (.value text) else some .stray
        | _ => Option.none
  | _ => some (.value text)

/-- Behind two dashes nothing is a switch, and nothing is asked for either. -/
def classifyAll : List String → Option (List Argument)
  | [] => some []
  | "--" :: rest => some (.stray :: rest.map .value)
  | a :: rest => do
    let first ← classify a.toList
    (classifyAll rest).map (first :: ·)

def Options.set (o : Options) (v : String) : Field → Options
  | .rootCertificate => { o with rootCertificate := v }
  | .endpoint => { o with endpoints := o.endpoints ++ [.text v] }
  | .statements => { o with statements := v }

/-- Sets a field to a value that is no text. -/
def Options.clear (o : Options) : Field → Options
  | .rootCertificate => { o with rootCertificate := "" }
  | .endpoint => { o with endpoints := o.endpoints ++ [.list []] }
  | .statements => { o with statements := "" }

/-- Sets a field to what stands behind its equals sign. -/
def Options.setAttached (o : Options) (v : List Char) (f : Field) : Options :=
  if v = ['-', '-'] then o.clear f else o.set (String.ofList v) f

def Options.raise (o : Options) : Flag → Options
  | .help => o
  | .noRevocationCheck => { o with noRevocationCheck := true }
  | .watch => { o with watch := true }
  | .verbose => { o with verbose := true }

/-- The flags that attached letters stand for; none if one of them is no flag. -/
def cluster (letters : List Char) : Option (List Flag) :=
  letters.mapM fun c => match find? ['-', c] with
    | some (.flag f) => some f
    | _ => Option.none

inductive Parsed where
  | exit (code : Nat)
  | options (o : Options)
  deriving Repr

/-- The exit code of arguments that are refused. -/
def refused : Nat := 2

/-- The flags that an argument raises, the switch itself first; none if the argument is refused as a whole. -/
def flagsOf (f : Flag) : Attached → Option (List Flag)
  | .nothing => some [f]
  | .value _ => Option.none
  | .letters [] => Option.none
  | .letters cs => (cluster cs).map (f :: ·)

/-- Takes the arguments in turn; `strays` says whether one before was not asked for. -/
def take (o : Options) (strays : Bool) : List Argument → Parsed
  | [] => if strays then .exit refused else .options o
  | .value _ :: rest => take o true rest
  | .stray :: rest => take o true rest
  | .switch (.field f) (.value v) :: rest => take (o.setAttached v f) strays rest
  | .switch (.field f) .nothing :: .value v :: rest => take (o.set v f) strays rest
  | .switch (.field _) _ :: _ => .exit refused
  | .switch (.flag f) attached :: rest =>
    match flagsOf f attached with
    | Option.none => .exit refused
    | some flags => if flags.contains .help then .exit 0 else take (flags.foldl Options.raise o) strays rest

def parse (arguments : List String) : Parsed :=
  match classifyAll arguments with
  | Option.none => .exit refused
  | some args => take Options.none false args

/-- The settings with what the options change. -/
def configure (settings : Settings) (o : Options) : Settings :=
  settings.update
    ((if o.rootCertificate = "" then [] else [(Setting.rootCertificate.key, .text o.rootCertificate)]) ++
      (if o.endpoints.isEmpty then [] else [(Setting.endpoints.key, .list o.endpoints)]) ++
      (if o.statements = "" then [] else [(Setting.statements.key, .text o.statements)]) ++
      (if o.noRevocationCheck then [(Setting.revocationCheck.key, .bool false)] else []))

def signalText (signal : Int) : String :=
  "Received signal " ++ toString signal ++ ". Stopping scheduler…"

/-- One turn of the schedule, after which the signal comes. -/
def watch (s : Service) (signal : Int) : Action Nat := do
  Action.log .info Schedule.topic Schedule.startText
  let (s, r) ← Schedule.default.turn Service.refreshable s (Moment.ofInstant (← get).clock)
  Action.log .info topic (signalText signal)
  if r.isOk then Action.log .info Schedule.topic Schedule.stopText
  pure (if s.validator.isSome then 0 else 1)

/-- One run of the service; the exit code says whether there is a validator. -/
def once (s : Service) : Action Nat := do
  match ← s.run with
  | (_, .ok .ready) =>
    Action.log .info topic "Attestation trust validator initialised."
    pure 0
  | (_, .ok _) =>
    Action.log .warning topic "Initialisation aborted; no attestation trust validator is available."
    pure 1
  | (_, .error (.service f)) =>
    Action.log .error topic ((Failure.service f).shown ++ ": " ++ f.message)
    pure 2
  | (_, .error f) => throw f

/-- How much is logged: everything with `verbose`. -/
def Options.level (o : Options) : Level := if o.verbose then .debug else .info

/-- The exit code of a command line. -/
def run (settings : Settings) (o : Options) (signal : Int) : Action Nat :=
  let s := Service.new (configure settings o) Resolver.default
  if o.watch then watch s signal else once s

end CommandLine
end AttestationTrust
