import AttestationTrust.Calendar.Span
import AttestationTrust.Service
/-!
# The refresh schedule

A schedule looks after something that may need a refresh: each turn asks whether one is due, makes it if so, and
says how many seconds to sleep (`Schedule.turn`).  A turn that was not needed or that succeeded sleeps for the
check interval, one that failed or found nothing for the retry interval.  The loop sleeps a minute at least.
-/
namespace AttestationTrust

variable [Json.Limits]

/-- How a refresh ends: in a state, in a failure that a later turn may mend, or in one that ends the schedule. -/
inductive Refreshed where
  | settled
  | unavailable (message : String)
  | failed (f : Failure)

/-- What a schedule looks after. -/
structure Refreshable (σ : Type) where
  isDue : σ → Moment → Except Failure Bool
  refresh : σ → Action (σ × Refreshed)
  isAvailable : σ → Bool

/-- The end of a run of the service. -/
def Refreshed.ofRun : Except Failure Stage → Refreshed
  | .ok _ => .settled
  | .error (.service f) => .unavailable (Failure.service f).shown
  | .error f => .failed f

def Service.refreshable : Refreshable Service where
  isDue := Service.needsRefresh
  refresh s := do
    let (s, r) ← s.run
    pure (s, Refreshed.ofRun r)
  isAvailable s := s.validator.isSome

structure Schedule where
  retryInterval : Span
  checkInterval : Span
  deriving DecidableEq, Repr

namespace Schedule

def topic : String := "mds_trust.scheduler"

def default : Schedule := ⟨Span.ofMinutes 30, Span.ofMinutes 360⟩

variable {σ : Type}

def abortedText (s : Schedule) : String :=
  "Metadata service initialisation aborted; retrying in " ++
    Span.roundedText (s.retryInterval.seconds.scale 1 60) ++ " minutes."

/-- One turn at a moment: the seconds to sleep, or the failure that ended it. -/
def turn (s : Schedule) (r : Refreshable σ) (x : σ) (now : Moment) : Action (σ × Except Failure Binary64) := do
  match r.isDue x now with
  | .error f => pure (x, .error f)
  | .ok false =>
    Action.log .debug topic ("Attestation validator is current; next check in " ++ s.checkInterval.text ++ ".")
    pure (x, .ok s.checkInterval.seconds)
  | .ok true =>
    Action.log .info topic "Beginning scheduled metadata service initialisation."
    match ← r.refresh x with
    | (x, .unavailable message) =>
      Action.log .warning topic ("Metadata service initialisation failed: " ++ message)
      pure (x, .ok s.retryInterval.seconds)
    | (x, .failed f) => pure (x, .error f)
    | (x, .settled) =>
      if r.isAvailable x then pure (x, .ok s.checkInterval.seconds)
      else
        Action.log .warning topic s.abortedText
        pure (x, .ok s.retryInterval.seconds)

def startText : String := "Starting metadata service refresh scheduler."
def stopText : String := "Stopping metadata service refresh scheduler."

/-- The least sleep between two turns, in seconds. -/
def leastSleep : Binary64 := Binary64.ofRatio false 60 1

/-- Turns at the time of the clock, as many as there are sleeps before the stop; the seconds of each sleep. -/
def turns (s : Schedule) (r : Refreshable σ) :
    (sleeps : Nat) → σ → Action (σ × Except Failure (List Binary64))
  | 0, x => pure (x, .ok [])
  | sleeps + 1, x => do
    match ← turn s r x (Moment.ofInstant (← get).clock) with
    | (x, .error f) => pure (x, .error f)
    | (x, .ok seconds) =>
      match ← turns s r sleeps x with
      | (x, .error f) => pure (x, .error f)
      | (x, .ok rest) => pure (x, .ok (seconds.max leastSleep :: rest))

/-- The whole loop up to its stop. -/
def loop (s : Schedule) (r : Refreshable σ) (sleeps : Nat) (x : σ) :
    Action (σ × Except Failure (List Binary64)) := do
  Action.log .info topic startText
  match ← turns s r sleeps x with
  | (x, .error f) => pure (x, .error f)
  | (x, .ok seconds) =>
    Action.log .info topic stopText
    pure (x, .ok seconds)

end Schedule

/-- Whether the loop of a schedule is running.  Starting a running one keeps it; stopping ends it and sets the
event that the next start clears. -/
structure Runner where
  running : Bool
  stopped : Bool
  deriving DecidableEq, Repr

namespace Runner

def idle : Runner := ⟨false, false⟩

/-- The runner after a start, and whether the start made a new loop. -/
def start (r : Runner) : Runner × Bool := if r.running then (r, false) else (⟨true, false⟩, true)

def stop (_ : Runner) : Runner := ⟨false, true⟩

end Runner
end AttestationTrust
