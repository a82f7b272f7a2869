import AttestationTrust.Calendar.Moment
import AttestationTrust.Der
/-!
# Times of certificates

A time is written to the second in universal time, with two or four digits for the year.
-/
namespace AttestationTrust
namespace X509

/-- Microseconds of universal time; a time of the year zero lies before the calendar. -/
abbrev Time := Option Int

namespace Time

def digitsOf (bs : Bytes) : Option Int :=
  if bs.all fun b => 48 ≤ b && b ≤ 57 then
    some (bs.foldl (fun (n : Int) b => n * 10 + (b.toNat - 48 : Nat)) 0)
  else none

/-- A year with the months of the year zero. -/
def leapYear : Int := 2000

/-- Month, day and time of day in two digits each, and the letter for universal time. -/
def ofYear (year : Int) (bs : Bytes) : Option Time := do
  if bs.length ≠ 11 ∨ bs.getLast? ≠ some 90 then none
  let part := fun (i : Nat) => digitsOf ((bs.drop (2 * i)).take 2)
  let date ← Date.ofCivil? (if year = 0 then leapYear else year) (← part 0) (← part 1)
  let m ← Moment.ofCivil? date (← part 2) (← part 3) (← part 4) 0 0
  some (if year = 0 then none else some m.wall)

def ofGeneralized (bs : Bytes) : Option Time := do ofYear (← digitsOf (bs.take 4)) (bs.drop 4)

/-- A year of two digits is of the century from 1950 on. -/
def ofShort (bs : Bytes) : Option Time := do
  let year ← digitsOf (bs.take 2)
  ofYear (if year < 50 then 2000 + year else 1900 + year) (bs.drop 2)

def ofElement (e : Der.Element) : Option Time :=
  if e.tag = Der.utcTime then ofShort e.content else e.value Der.generalizedTime ofGeneralized

end Time
end X509
end AttestationTrust
