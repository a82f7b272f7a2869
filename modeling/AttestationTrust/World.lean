import AttestationTrust.Failure
import AttestationTrust.FileTree
/-!
# The world of an operation

What an operation may look at and change: the clock, the files, the network, the requests it has made and the
records it has logged.  An `Action` either fails or answers, and the world that it leaves behind is there in
both cases.  The network answers each location with the next of its replies, the last of which repeats.
-/
namespace AttestationTrust

inductive Level where
  | debug
  | info
  | warning
  | error
  deriving DecidableEq, Repr

namespace Level

def rank : Level → Nat
  | .debug => 0
  | .info => 1
  | .warning => 2
  | .error => 3

def text : Level → String
  | .debug => "DEBUG"
  | .info => "INFO"
  | .warning => "WARNING"
  | .error => "ERROR"

end Level

structure LogRecord where
  level : Level
  topic : String
  text : String
  deriving DecidableEq, Repr

/-- A record as a line of a log. -/
def LogRecord.line (r : LogRecord) : String := r.level.text ++ " [" ++ r.topic ++ "] " ++ r.text

/-- A bound on the time of a request, in seconds. -/
inductive Timeout where
  | float (x : Binary64)
  | integer (n : Int)
  deriving DecidableEq, Repr

/-- The bound as a floating point number; an integer may lie beyond those. -/
def Timeout.seconds : Timeout → Except Failure Binary64
  | .float x => .ok x
  | .integer n =>
    match Binary64.ofInt? n with
    | some x => .ok x
    | none => .error (.range .integerTooLarge)

/-- What a location answers a request with. -/
inductive Reply where
  | body (bs : Bytes)
  | failure (f : Failure)
  deriving DecidableEq

structure Network where
  replies : List (String × List Reply)
  deriving DecidableEq

namespace Network

def empty : Network := ⟨[]⟩

/-- The replies of a location in place of those it had. -/
def put (n : Network) (url : String) (rs : List Reply) : Network :=
  ⟨(url, rs) :: n.replies.filter fun e => e.1 ≠ url⟩

/-- The next reply of a location and the network after it. -/
def next (n : Network) (url : String) : Reply × Network :=
  match n.replies.lookup url with
  | some (r :: s :: rest) => (r, n.put url (s :: rest))
  | some [r] => (r, n)
  | _ => (.failure (.download (.noResponse url)), n)

end Network

/-- A key that anchors are looked up by. -/
inductive Lookup where
  | aaguid (bs : Bytes)
  | keyIdentifier (bs : Bytes)
  deriving DecidableEq, Repr

structure World where
  /-- Universal time, in microseconds since the start of the year 1. -/
  clock : Int
  files : FileTree
  network : Network
  /-- The requests made, each with its timeout. -/
  requests : List (String × Binary64)
  log : List LogRecord
  /-- The lookups that fixed listings have answered. -/
  lookups : List Lookup
  deriving DecidableEq

abbrev Action (α : Type) := ExceptT Failure (StateM World) α

namespace World

def record (w : World) (level : Level) (topic text : String) : World :=
  { w with log := w.log ++ [⟨level, topic, text⟩] }

def fetch (w : World) (url : String) (timeout : Binary64) : Except Failure Bytes × World :=
  let w := { w with requests := w.requests ++ [(url, timeout)] }
  match w.network.next url with
  | (.body bs, n) => (.ok bs, { w with network := n })
  | (.failure f, n) => (.error f, { w with network := n })

end World

namespace Action

variable {α : Type}

def log (level : Level) (topic text : String) : Action Unit := modify fun w => w.record level topic text

/-- One request for a location, with a bound on its time. -/
def fetch (url : String) (timeout : Timeout) : Action Bytes := fun w =>
  match timeout.seconds with
  | .ok seconds => w.fetch url seconds
  | .error f => (.error f, w)

def ofExcept : Except Failure α → Action α
  | .ok a => pure a
  | .error f => throw f

def ofX509 (x : Except X509.Fault α) : Action α := ofExcept (x.mapError .x509)

/-- The answer or the failure, as an answer. -/
def attempt (a : Action α) : Action (Except Failure α) := fun w =>
  match a w with
  | (r, w) => (.ok r, w)

end Action
end AttestationTrust
