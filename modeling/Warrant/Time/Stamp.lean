import Warrant.Text.Numeral
import Warrant.Time.Instant

/-! Times as their fields are written: a date and a time of day at an offset from universal time. -/

namespace Warrant

/-- The fields of a written time. The second 60 is a leap second. -/
structure Stamp where
  date : Date
  hour : Nat
  minute : Nat
  second : Nat
  nanos : Nat
deriving DecidableEq

namespace Stamp

/-- The seconds of a day. -/
def secondsPerDay : Int := 86400

/-- The first year of the calendar. -/
def firstYear : Int := -262143

/-- The last year of the calendar. -/
def lastYear : Int := 262142

/-- Every field lies in its range. -/
def isValid (s : Stamp) : Bool :=
  firstYear ≤ s.date.year && s.date.year ≤ lastYear && s.date.isValid &&
    s.hour < 24 && s.minute < 60 && s.second ≤ 60 && s.nanos < Instant.nanosPerSecond

/-- The seconds from the start of 1970 to the fields, a leap second counted with the one before it.
-/
def toSecond (s : Stamp) : Int :=
  s.date.toDays * secondsPerDay + s.hour * 3600 + s.minute * 60 + min s.second 59

/-- The instant at which clocks with an offset of so many seconds show the fields. -/
def instant? (s : Stamp) (offset : Int) : Option Instant :=
  if s.isValid ∧ offset.natAbs < secondsPerDay then
    Instant.make? (s.toSecond - offset)
      (s.nanos + if s.second = 60 then Instant.nanosPerSecond else 0)
  else none

/-- A number in at least so many digits. -/
def pad (width n : Nat) : List Char :=
  let digits := Text.natural n
  List.replicate (width - digits.length) '0' ++ digits

/-- Four digits for the years from 0 to 9999; the others have a sign and at least four digits. -/
def writeYear (year : Int) : List Char :=
  if 0 ≤ year ∧ year ≤ 9999 then pad 4 year.natAbs
  else (if year < 0 then '-' else '+') :: pad 4 year.natAbs

/-- The date and the time of day up to the second. -/
def write (s : Stamp) : List Char :=
  writeYear s.date.year ++ '-' :: pad 2 s.date.month ++ '-' :: pad 2 s.date.day ++
    'T' :: pad 2 s.hour ++ ':' :: pad 2 s.minute ++ ':' :: pad 2 s.second

/-- The fraction of the second in the fewest groups of three digits, and nothing when it is zero. -/
def writeFraction (nanos : Nat) : List Char :=
  if nanos = 0 then []
  else if nanos % 1000000 = 0 then '.' :: pad 3 (nanos / 1000000)
  else if nanos % 1000 = 0 then '.' :: pad 6 (nanos / 1000)
  else '.' :: pad 9 nanos

end Stamp

namespace Instant

/-- The fields of an instant in universal time. -/
def stamp (t : Instant) : Stamp where
  date := .ofDays (t.second / Stamp.secondsPerDay)
  hour := (t.second % Stamp.secondsPerDay / 3600).toNat
  minute := (t.second % 3600 / 60).toNat
  second := (t.second % 60).toNat + if t.isLeap then 1 else 0
  nanos := t.nanos % nanosPerSecond

/-- The time to the second, marked as universal. -/
def iso (t : Instant) : String :=
  String.ofList (t.stamp.write ++ ['Z'])

/-- The time with its fraction, marked as universal. -/
def exact (t : Instant) : String :=
  String.ofList (t.stamp.write ++ Stamp.writeFraction t.stamp.nanos ++ ['Z'])

end Instant

end Warrant
