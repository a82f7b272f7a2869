import AttestationTrust.Bundle
import AttestationTrust.CommandLine
/-!
# The program

The arguments say what to do, the environment holds the settings, and one line on the standard input is the
bundle of what there is to see.  The records of the run go to the standard error; the exit code says whether
there is a validator.
-/
namespace AttestationTrust
namespace Program

open scoped Json.Limits

/-- The signal that ends a run which looks after the service. -/
def endSignal : Int := 15

/-- The exit code of a run that could not be made or did not end as runs do. -/
def brokenCode : UInt32 := 1

def readVariable (setting : Setting) : IO (Option (String × String)) := do
  let value ← IO.getEnv setting.environmentName
  pure (value.map fun v => (setting.environmentName, v))

def readSettings : IO Settings := do
  let found ← Settings.environmentOrder.mapM readVariable
  pure (Settings.initial.update (Settings.ofEnvironment (found.filterMap id)))

/-- Writes the records that the options ask for. -/
def report (o : CommandLine.Options) (records : List LogRecord) : IO Unit :=
  (records.filter fun r => o.level.rank ≤ r.level.rank).forM fun r => IO.eprintln r.line

def runWith (o : CommandLine.Options) (w : World) : IO UInt32 := do
  let (result, after) := CommandLine.run (← readSettings) o endSignal w
  report o after.log
  match result with
  | .ok code => pure code.toUInt32
  | .error f =>
    IO.eprintln f.shown
    pure brokenCode

def run (arguments : List String) : IO UInt32 := do
  match CommandLine.parse arguments with
  | .exit code => pure code.toUInt32
  | .options o =>
    match Bundle.read? (← (← IO.getStdin).getLine) with
    | some w => runWith o w
    | none =>
      IO.eprintln "The standard input holds no bundle."
      pure brokenCode

end Program
end AttestationTrust

def main (arguments : List String) : IO UInt32 := AttestationTrust.Program.run arguments
