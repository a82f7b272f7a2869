/-!
# Calendar dates

A date of the proleptic Gregorian calendar is the number of its day, the first of January of the year 1 being
day 1; the calendar ends with the year 9999.  `Date.ofText?` reads a date written with or without separators,
by month or by week.
-/
namespace AttestationTrust

structure Date where
  day : Int
  deriving DecidableEq, Repr, Inhabited

namespace Date

def isLeap (y : Int) : Bool := y % 4 == 0 && (y % 100 != 0 || y % 400 == 0)

def monthLengths (y : Int) : List Int :=
  [31, if isLeap y then 29 else 28, 31, 30, 31, 30, 31, 31, 30, 31, 30, 31]

/-- The days before the first of January of a year. -/
def daysBefore (y : Int) : Int := (y - 1) * 365 + (y - 1) / 4 - (y - 1) / 100 + (y - 1) / 400

/-- The last day of the year 9999. -/
def last : Int := daysBefore 10000

def isInRange (d : Date) : Bool := 1 ≤ d.day && d.day ≤ last

/-- A year, month and day of month, if there is such a day. -/
def ofCivil? (y m d : Int) : Option Date :=
  let lengths := monthLengths y
  match lengths[(m - 1).toNat]? with
  | none => none
  | some len =>
    if 1 ≤ y ∧ y ≤ 9999 ∧ 1 ≤ m ∧ 1 ≤ d ∧ d ≤ len then
      some ⟨daysBefore y + (lengths.take (m - 1).toNat).foldl (· + ·) 0 + d⟩
    else none

/-- The year of a day: the estimate of 400-year cycles corrected by at most one year either way. -/
def year (d : Date) : Int :=
  let guess := (d.day - 1) * 400 / 146097 + 1
  if d.day ≤ daysBefore guess then guess - 1
  else if daysBefore (guess + 1) < d.day then guess + 1
  else guess

/-- Month and day of the month, from the day's place in its year. -/
def monthOf : (month : Int) → (place : Int) → List Int → Int × Int
  | month, place, [] => (month, place)
  | month, place, len :: rest => if place ≤ len then (month, place) else monthOf (month + 1) (place - len) rest

def civil (d : Date) : Int × Int × Int :=
  let y := d.year
  let (m, day) := monthOf 1 (d.day - daysBefore y) (monthLengths y)
  (y, m, day)

/-- The digits of a number, with zeros before them up to a width. -/
def padded (width : Nat) (n : Int) : String :=
  let ds := Nat.toDigits 10 n.toNat
  String.ofList (List.replicate (width - ds.length) '0' ++ ds)

/-- Year, month and day with hyphens between them. -/
def text (d : Date) : String :=
  let (y, m, day) := d.civil
  padded 4 y ++ "-" ++ padded 2 m ++ "-" ++ padded 2 day

/-- Monday of the first week of a year, the week that holds its first Thursday. -/
def firstMonday (y : Int) : Int :=
  let first := daysBefore y + 1
  let weekday := (first + 6) % 7
  let monday := first - weekday
  if 3 < weekday then monday + 7 else monday

/-- Whether a year has a week 53: it starts on a Thursday, or on a Wednesday and is a leap year. -/
def isLong (y : Int) : Bool :=
  let weekday := (daysBefore y + 1 + 6) % 7
  weekday == 3 || (weekday == 2 && isLeap y)

def ofWeek? (y week weekday : Int) : Option Date :=
  let isWeek := 1 ≤ week ∧ (week ≤ 52 ∨ (week = 53 ∧ isLong y))
  if 1 ≤ y ∧ y ≤ 9999 ∧ isWeek ∧ 1 ≤ weekday ∧ weekday ≤ 7 then
    let d : Date := ⟨firstMonday y + (week - 1) * 7 + weekday - 1⟩
    if d.isInRange then some d else none
  else none

def isDigit (c : Char) : Bool := '0' ≤ c && c ≤ '9'

/-- Exactly `n` digits and what follows them. -/
def digits (n : Nat) (cs : List Char) : Option (Int × List Char) :=
  let ds := cs.take n
  if ds.length = n ∧ ds.all isDigit then
    some (ds.foldl (fun v c => v * 10 + (c.toNat - 48 : Nat)) 0, cs.drop n)
  else none

def separator (separated : Bool) : List Char → Option (List Char)
  | '-' :: rest => if separated then some rest else none
  | cs => if separated then none else some cs

/-- The week and the day of the week, Monday if none is given. -/
def readWeek (y : Int) (separated : Bool) (cs : List Char) : Option Date := do
  let (week, rest) ← digits 2 cs
  match rest with
  | [] => ofWeek? y week 1
  | _ =>
    let rest ← if separated then separator true rest else some rest
    let (weekday, _) ← digits 1 rest
    ofWeek? y week weekday

def readCivil (y : Int) (separated : Bool) (cs : List Char) : Option Date := do
  let (m, rest) ← digits 2 cs
  let rest ← if separated then separator true rest else some rest
  let (d, _) ← digits 2 rest
  ofCivil? y m d

/-- A date takes seven, eight or ten octets; what stands in them behind the day is left alone. -/
def lengths : List Nat := [7, 8, 10]

def ofText? (s : String) : Option Date := do
  if !lengths.contains s.utf8ByteSize then none
  let (y, rest) ← digits 4 s.toList
  let (separated, rest) := match rest with
    | '-' :: rest => (true, rest)
    | _ => (false, rest)
  match rest with
  | 'W' :: rest => readWeek y separated rest
  | _ => readCivil y separated rest

end Date
end AttestationTrust
