import AttestationTrust.Calendar.Moment
import AttestationTrust.Value
/-!
# Spans of time

A span is a number of microseconds of less than a thousand million days.  It is made from seconds, is counted
in seconds again, and is written as days, hours, minutes and seconds.
-/
namespace AttestationTrust

structure Span where
  micros : Int
  deriving DecidableEq, Repr, Inhabited

namespace Span

/-- Why a number of seconds is no span. -/
inductive Fault where
  | notANumber
  | undefined
  | tooLong
  deriving DecidableEq, Repr

def ofMinutes (n : Int) : Span := ⟨n * 60000000⟩

def bounded (micros : Int) : Except Fault Span :=
  let days := micros / dayLength
  if -999999999 ≤ days ∧ days ≤ 999999999 then .ok ⟨micros⟩ else .error .tooLong

/-- Whole seconds exactly, and the fraction rounded to a microsecond, a half to the even one. -/
def ofFloat (x : Binary64) : Except Fault Span :=
  if x.isNaN then .error .undefined
  else if x.isInfinite then .error .tooLong
  else
    let whole := x.truncate
    let fraction := Binary64.ofRatio x.isNegative (x.numerator % x.denominator) x.denominator
    bounded (whole * 1000000 + (fraction.scale 1000000 1).round)

/-- A number of seconds. -/
def ofSeconds : Value → Except Fault Span
  | .int n => bounded (n * 1000000)
  | .bool b => bounded (if b then 1000000 else 0)
  | .float x => ofFloat x
  | _ => .error .notANumber

/-- The span in seconds. -/
def seconds (s : Span) : Binary64 := Binary64.ofRatio (s.micros < 0) s.micros.natAbs 1000000

/-- Days if there are any, then hours without a leading zero. -/
def text (s : Span) : String :=
  let days := s.micros / dayLength
  let rest := s.micros % dayLength
  let time := (Moment.timeText rest).toList
  let dayText :=
    if days = 0 then ""
    else Numeral.integerText days ++ (if days.natAbs = 1 then " day, " else " days, ")
  dayText ++ String.ofList (match time with
    | '0' :: rest => rest
    | _ => time)

/-- A number rounded to an integer, a half to the even one, under its sign. -/
def roundedText (x : Binary64) : String :=
  (if x.isNegative then "-" else "") ++ toString x.round.natAbs

end Span
end AttestationTrust
