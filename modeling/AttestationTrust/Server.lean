import AttestationTrust.Http
/-!
# The server

At its start the server makes a run of the service if the settings say so, and then takes its address from the
environment.
-/
namespace AttestationTrust
namespace Server

variable [Json.Limits]

structure Address where
  host : String
  port : Int
  deriving DecidableEq, Repr

def hostName : String := "FIDO_SERVER_HOST"
def portName : String := "FIDO_SERVER_PORT"

/-- A number in a text; one of too many digits is refused in words that are not the program's own. -/
def portOf (text : String) : Except Failure Int :=
  match Numeral.readInteger text with
  | some n => .ok n
  | none => .error (.value (if Numeral.isOverlong text then .unworded else .notInteger text))

def address (env : Environment) : Except Failure Address :=
  (portOf ((env.lookup portName).getD "5000")).map fun port => ⟨(env.lookup hostName).getD "127.0.0.1", port⟩

/-- The run at the start, where the settings ask for one. -/
def prepare (s : Service) : Action (Service.Outcome Unit) := do
  if (s.settings.get Setting.initializeOnStart.key).truthy then
    let (s, r) ← s.run
    pure (s, r.map fun _ => ())
  else pure (s, .ok ())

/-- The address to serve at, once the service is prepared. -/
def start (s : Service) (env : Environment) : Action (Service.Outcome Address) := do
  match ← prepare s with
  | (s, .error f) => pure (s, .error f)
  | (s, .ok ()) => pure (s, address env)

end Server
end AttestationTrust
