import AttestationTrust.Calendar.Date
/-!
# Moments

A moment is what a clock shows somewhere and the offset of that clock from universal time, both in microseconds.
Two moments are the same instant when they agree in universal time (`Moment.instant?`), which exists only
while it stays inside the calendar.
-/
namespace AttestationTrust

/-- The microseconds of a day. -/
def dayLength : Int := 86400000000

structure Moment where
  /-- Microseconds that the clock has counted since the start of the year 1. -/
  wall : Int
  offset : Int
  deriving DecidableEq, Repr, Inhabited

namespace Moment

/-- The microseconds of the whole calendar. -/
def horizon : Int := Date.last * dayLength

/-- Universal time, in microseconds since the start of the year 1. -/
def instant? (m : Moment) : Option Int :=
  let t := m.wall - m.offset
  if 0 ≤ t ∧ t < horizon then some t else none

def ofInstant (t : Int) : Moment := ⟨t, 0⟩

/-- The date that universal time shows. -/
def dateOfInstant (t : Int) : Date := ⟨t / dayLength + 1⟩

def ofCivil? (date : Date) (hour minute second micro offset : Int) : Option Moment :=
  if 0 ≤ hour ∧ hour ≤ 23 ∧ 0 ≤ minute ∧ minute ≤ 59 ∧ 0 ≤ second ∧ second ≤ 59 then
    some ⟨(date.day - 1) * dayLength + ((hour * 60 + minute) * 60 + second) * 1000000 + micro, offset⟩
  else none

/-- Hours, minutes and seconds with colons, and six places if there are any. -/
def timeText (micros : Int) : String :=
  let seconds := micros / 1000000
  let places := micros % 1000000
  Date.padded 2 (seconds / 3600) ++ ":" ++ Date.padded 2 (seconds / 60 % 60) ++ ":" ++ Date.padded 2 (seconds % 60) ++
    if places = 0 then "" else "." ++ Date.padded 6 places

/-- Hours and minutes behind a sign, and seconds if there are any. -/
def offsetText (offset : Int) : String :=
  let size : Int := offset.natAbs
  let time := timeText size
  (if offset < 0 then "-" else "+") ++
    if size % 60000000 = 0 then String.ofList (time.toList.take 5) else time

def text (m : Moment) : String :=
  (dateOfInstant m.wall).text ++ "T" ++ timeText (m.wall % dayLength) ++ offsetText m.offset

/-- Two digits behind a colon, or nothing at all. -/
def readPart : List Char → Option (Int × List Char)
  | ':' :: rest => Date.digits 2 rest
  | cs => some (0, cs)

def readMicros : List Char → Option (Int × List Char)
  | '.' :: rest =>
    let ds := rest.takeWhile Date.isDigit
    if ds = [] then none
    else
      let six := (ds ++ List.replicate 6 '0').take 6
      (Date.digits 6 six).map fun (n, _) => (n, rest.dropWhile Date.isDigit)
  | cs => some (0, cs)

/-- Hour, minute, second and microsecond, of which the later ones may be missing. -/
def readTime (cs : List Char) : Option ((Int × Int × Int × Int) × List Char) := do
  let (hour, rest) ← Date.digits 2 cs
  let (minute, rest) ← readPart rest
  let (second, rest) ← readPart rest
  let (micro, rest) ← readMicros rest
  some ((hour, minute, second, micro), rest)

def readOffset (cs : List Char) : Option Int := do
  let (negative, rest) ← match cs with
    | '+' :: rest => some (false, rest)
    | '-' :: rest => some (true, rest)
    | _ => none
  let ((hour, minute, second, micro), rest) ← readTime rest
  if rest = [] then
    let size := ((hour * 60 + minute) * 60 + second) * 1000000 + micro
    some (if negative then -size else size)
  else none

/-- A date, a letter, a time and an offset. -/
def ofText? (s : String) : Option Moment := do
  let cs := s.toList
  let date ← Date.ofText? (String.ofList (cs.take 10))
  let ((hour, minute, second, micro), rest) ← readTime (cs.drop 11)
  let offset ← if rest = ['Z'] ∨ rest = [] then some 0 else readOffset rest
  ofCivil? date hour minute second micro offset

end Moment
end AttestationTrust
