/-! Dates of the calendar, and the days they are away from the first of January 1970. -/

namespace Warrant

/-- A date of the calendar, whose years go on below zero. -/
structure Date where
  year : Int
  month : Nat
  day : Nat
deriving DecidableEq

namespace Date

/-- Every fourth year is a leap year, but of the centuries only every fourth. -/
def isLeapYear (year : Int) : Bool :=
  year % 4 = 0 && (year % 100 ≠ 0 || year % 400 = 0)

/-- The number of days in a month. -/
def daysInMonth (year : Int) (month : Nat) : Nat :=
  if month = 2 then if isLeapYear year then 29 else 28
  else if month = 4 ∨ month = 6 ∨ month = 9 ∨ month = 11 then 30
  else 31

/-- The year has this month, and the month has this day. -/
def isValid (d : Date) : Bool :=
  1 ≤ d.month && d.month ≤ 12 && 1 ≤ d.day && d.day ≤ daysInMonth d.year d.month

/-- The days before the first of March of a year, counted from the first of March of the year 0. A
year that starts in March has its leap day at the end. -/
def daysBeforeYear (year : Int) : Int :=
  365 * year + year / 4 - year / 100 + year / 400

/-- The days before a month of a year that starts in March, which is its month 0. -/
def daysBeforeMonth (month : Int) : Int :=
  (153 * month + 2) / 5

/-- The days from the first of March of the year 0 to the first of January 1970. -/
def epochDay : Int := 719468

/-- The days from the first of January 1970 to a date. -/
def toDays (d : Date) : Int :=
  let year := if d.month ≤ 2 then d.year - 1 else d.year
  let month : Int := (d.month + 9) % 12
  daysBeforeYear year + daysBeforeMonth month + d.day - 1 - epochDay

/-- The date that lies so many days after the first of January 1970. A cycle of 400 years has 146097
days; inside it the leap days passed so far are taken out before the years are counted. -/
def ofDays (days : Int) : Date :=
  let total := days + epochDay
  let inCycle := total % 146097
  let year := 400 * (total / 146097) +
    (inCycle - inCycle / 1460 + inCycle / 36524 - inCycle / 146096) / 365
  let inYear := total - daysBeforeYear year
  let month := (5 * inYear + 2) / 153
  { year := if month < 10 then year else year + 1
    month := (if month < 10 then month + 3 else month - 9).toNat
    day := (inYear - daysBeforeMonth month + 1).toNat }

end Date

end Warrant
