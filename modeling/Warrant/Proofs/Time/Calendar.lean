import Mathlib.Order.Monotone.Basic
import Mathlib.Tactic.IntervalCases
import Warrant.Time.Calendar

/-! Dates and days tell each other: every day has a valid date, which lies on that day, months
follow each other without a gap, and later dates lie on later days. -/

namespace Warrant

/-- Leap years are every fourth year but not every hundredth, and every four hundredth. -/
theorem Date.isLeapYear_iff {year : Int} :
    isLeapYear year = true ↔ year % 4 = 0 ∧ (year % 100 ≠ 0 ∨ year % 400 = 0) := by
  simp [isLeapYear]

/-- A date is valid when its year has the month and the month has the day. -/
theorem Date.isValid_iff {d : Date} : d.isValid = true ↔
    1 ≤ d.month ∧ d.month ≤ 12 ∧ 1 ≤ d.day ∧ d.day ≤ daysInMonth d.year d.month := by
  simp [isValid, and_assoc]

/-- A day of 400 years that start in March, by its century, its span of four years, its year and its
place there. The last year of a span has a day more, unless it ends a century but not the 400
years. -/
structure CycleDay where
  century : Int
  span : Int
  year : Int
  place : Int
  centuryRange : 0 ≤ century ∧ century ≤ 3
  spanRange : 0 ≤ span ∧ span ≤ 24
  yearRange : 0 ≤ year ∧ year ≤ 3
  placeRange : 0 ≤ place ∧ place ≤ 365
  leap : place = 365 → year = 3 ∧ (span < 24 ∨ century = 3)

namespace CycleDay

/-- The days of the 400 years before this one. -/
def index (day : CycleDay) : Int :=
  36524 * day.century + 1461 * day.span + 365 * day.year + day.place

/-- The year within the 400 years. -/
def yearIndex (day : CycleDay) : Int :=
  100 * day.century + 4 * day.span + day.year

/-- Every one of the 146097 days has such a place. -/
theorem exists_index_eq {n : Int} (low : 0 ≤ n) (high : n < 146097) :
    ∃ day : CycleDay, day.index = n := by
  -- The last day of all would begin a fifth century, and a leap day a fifth year.
  let century := min (n / 36524) 3
  let inCentury := n - 36524 * century
  let year := min (inCentury % 1461 / 365) 3
  exact ⟨⟨century, inCentury / 1461, year, inCentury % 1461 - 365 * year, by omega, by omega,
    by omega, by omega, by omega⟩, by simp only [index]; omega⟩

/-- The year is found by counting the days that are left without the leap days. -/
theorem yearIndex_eq (day : CycleDay) : (day.index - day.index / 1460 + day.index / 36524 -
    day.index / 146096) / 365 = day.yearIndex := by
  -- The four parts of the day are bounded, and each division takes off the part above the next.
  obtain ⟨century, span, year, place, centuryRange, spanRange, yearRange, placeRange, leap⟩ := day
  simp only [index, yearIndex]
  generalize named : 36524 * century + 1461 * span + 365 * year + place = n
  -- The leap day of the last year counts as a fifth century.
  have centuries : n / 36524 - n / 146096 = century := by
    by_cases last : n = 146096
    · omega
    · have : n / 36524 = century := by omega
      omega
  -- The days of four years are one more than 1460.
  have spans : n / 1460 = 25 * century + span ∨ n / 1460 = 25 * century + span + 1 := by omega
  rcases spans with spans | spans
  · omega
  · omega

/-- The days before the year are those before the year of its number. -/
theorem index_eq (day : CycleDay) (cycle : Int) : 146097 * cycle + day.index =
    Date.daysBeforeYear (400 * cycle + day.yearIndex) + day.place := by
  -- The leap days before the year are those of the centuries and of the four years within them.
  obtain ⟨century, span, year, place, centuryRange, spanRange, yearRange, placeRange, leap⟩ := day
  simp only [index, yearIndex, Date.daysBeforeYear]
  have quarters : (400 * cycle + (100 * century + 4 * span + year)) / 4 =
      100 * cycle + 25 * century + span := by omega
  have centuries : (400 * cycle + (100 * century + 4 * span + year)) / 100 =
      4 * cycle + century := by omega
  have cycles : (400 * cycle + (100 * century + 4 * span + year)) / 400 = cycle := by omega
  omega

/-- The 366th day of a year is the leap day of the next year that starts in January. -/
theorem isLeapYear_of_place (day : CycleDay) (cycle : Int) (last : day.place = 365) :
    Date.isLeapYear (400 * cycle + day.yearIndex + 1) = true := by
  -- Only the last year of four has so many days, and the next one starts in it.
  obtain ⟨century, span, year, place, centuryRange, spanRange, yearRange, placeRange, leap⟩ := day
  rw [Date.isLeapYear_iff]
  simp only [yearIndex] at last ⊢
  omega

end CycleDay

namespace Date

/-- The date of a day of a year that starts in March. -/
def ofMarch (year inYear : Int) : Date :=
  let month := (5 * inYear + 2) / 153
  { year := if month < 10 then year else year + 1
    month := (if month < 10 then month + 3 else month - 9).toNat
    day := (inYear - daysBeforeMonth month + 1).toNat }

/-- Every day belongs to a year that starts in March, whose 366th day is a leap day. -/
theorem exists_ofMarch_eq (days : Int) : ∃ year inYear, ofDays days = ofMarch year inYear ∧
    days + epochDay = daysBeforeYear year + inYear ∧ 0 ≤ inYear ∧ inYear ≤ 365 ∧
      (inYear = 365 → isLeapYear (year + 1) = true) := by
  -- Days are counted from the beginning of a cycle of 400 years, within which the year is found.
  let total := days + epochDay
  obtain ⟨day, inCycle⟩ := CycleDay.exists_index_eq (n := total % 146097) (by omega) (by omega)
  have split := day.index_eq (total / 146097)
  have found := day.yearIndex_eq
  rw [inCycle] at split found
  have whole : total = daysBeforeYear (400 * (total / 146097) + day.yearIndex) + day.place := by
    omega
  refine ⟨400 * (total / 146097) + day.yearIndex, day.place, ?_, whole, day.placeRange.1,
    day.placeRange.2, day.isLeapYear_of_place _⟩
  -- The place is what is left of the days when those before the year are taken away.
  have place : total - daysBeforeYear (400 * (total / 146097) + day.yearIndex) = day.place := by
    omega
  simp only [ofDays, ofMarch]
  rw [show days + epochDay = total from rfl, found, place]

variable {year inYear : Int}

/-- The months of a year that starts in March, and the days before and within each of them. -/
theorem march_month (low : 0 ≤ inYear) (high : inYear ≤ 365) :
    ∃ month, (5 * inYear + 2) / 153 = month ∧ 0 ≤ month ∧ month ≤ 11 ∧
      daysBeforeMonth month ≤ inYear ∧ inYear < daysBeforeMonth (month + 1) := by
  -- The months from March on repeat a pattern of 153 days in five months, which the quotient
  -- counts.
  refine ⟨_, rfl, ?_⟩
  simp only [daysBeforeMonth]
  omega

/-- The date lies as many days after 1970 as its year and its day in it say. -/
theorem toDays_ofMarch (low : 0 ≤ inYear) (high : inYear ≤ 365) :
    (ofMarch year inYear).toDays = daysBeforeYear year + inYear - epochDay := by
  -- The months of a year that starts in March are gone through one by one.
  obtain ⟨month, named, first, last, before, behind⟩ := march_month low high
  -- January and February belong to the year that started in March before them.
  simp only [ofMarch, toDays, named]
  have day : ((inYear - daysBeforeMonth month + 1).toNat : Int) =
      inYear - daysBeforeMonth month + 1 := by omega
  interval_cases month <;> simp [day] <;> omega

/-- The date has a month that there is, and a day that the month has. -/
theorem isValid_ofMarch (low : 0 ≤ inYear) (high : inYear ≤ 365)
    (leap : inYear = 365 → isLeapYear (year + 1) = true) :
    (ofMarch year inYear).isValid = true := by
  -- The months are gone through again, and each of them but February has a fixed number of days.
  obtain ⟨month, named, first, last, before, behind⟩ := march_month low high
  simp only [daysBeforeMonth] at before behind
  simp only [isValid_iff, ofMarch, daysInMonth, named]
  interval_cases month
  -- February is the last month, and its 29th day the 366th of the year.
  case «11» =>
    simp [daysBeforeMonth]
    split
    · omega
    · have : inYear ≠ 365 := fun last => absurd (leap last) ‹_›
      omega
  all_goals
    simp [daysBeforeMonth]
    omega

/-- The days to the date of a day are those of the day. -/
@[simp] theorem toDays_ofDays (days : Int) : (ofDays days).toDays = days := by
  -- The date is found as a day of a year that starts in March, from which its days are counted
  -- again.
  obtain ⟨year, inYear, same, whole, low, high, _⟩ := exists_ofMarch_eq days
  rw [same, toDays_ofMarch low high]
  omega

/-- Every day has a date of the calendar. -/
theorem isValid_ofDays (days : Int) : (ofDays days).isValid = true := by
  -- The date is found as a day of a year that starts in March, and every such day has a valid date.
  obtain ⟨year, inYear, same, _, low, high, leap⟩ := exists_ofMarch_eq days
  rw [same]
  exact isValid_ofMarch low high leap

-- A century with a leap day.
example : ofDays 11016 = ⟨2000, 2, 29⟩ := by decide

/-- The day on which a month begins, where months are counted from the January of the year 0. -/
def monthStart (index : Int) : Int :=
  toDays ⟨index / 12, (index % 12).toNat + 1, 1⟩

/-- The leap day makes the difference between a year and 365 days. -/
theorem daysBeforeYear_succ (year : Int) : daysBeforeYear (year + 1) =
    daysBeforeYear year + if isLeapYear (year + 1) = true then 366 else 365 := by
  simp only [daysBeforeYear, isLeapYear_iff]
  split <;> omega

/-- Every month begins when the one before it ends. -/
theorem monthStart_succ (index : Int) : monthStart (index + 1) =
    monthStart index + daysInMonth (index / 12) ((index % 12).toNat + 1) := by
  -- The year and the month are named, so that the twelve months can be gone through.
  generalize year : index / 12 = y
  generalize month : index % 12 = m
  have low : 0 ≤ m := by omega
  have high : m ≤ 11 := by omega
  have leap := daysBeforeYear_succ (y - 1)
  simp only [monthStart, year, month]
  by_cases last : m = 11
  · -- December is followed by January of the next year.
    have nextYear : (index + 1) / 12 = y + 1 := by omega
    have january : (index + 1) % 12 = 0 := by omega
    rw [nextYear, january, last]
    simp [toDays, daysInMonth, daysBeforeMonth]
    omega
  · -- Any other month is followed by one of the same year.
    have sameYear : (index + 1) / 12 = y := by omega
    have nextMonth : (index + 1) % 12 = m + 1 := by omega
    rw [sameYear, nextMonth]
    rw [Int.sub_add_cancel] at leap
    interval_cases m
    -- After February the days of another year that starts in March are counted.
    case neg.«1» =>
      simp [toDays, daysInMonth, daysBeforeMonth, leap]
      split <;> omega
    all_goals
      simp [toDays, daysInMonth, daysBeforeMonth]
      omega

/-- Every month has 28 to 31 days. -/
theorem daysInMonth_range (year : Int) (month : Nat) :
    28 ≤ daysInMonth year month ∧ daysInMonth year month ≤ 31 := by
  -- February is the shortest month, with a day more in leap years.
  unfold daysInMonth
  split
  · split <;> decide
  · split <;> decide

/-- No month begins before an earlier one does. -/
theorem monthStart_le_monthStart {a b : Int} (before : a ≤ b) : monthStart a ≤ monthStart b := by
  -- It is enough that each month begins before the next one does, as none is of negative length.
  refine monotone_int_of_le_succ (fun index => ?_) before
  rw [monthStart_succ]
  have days := daysInMonth_range (index / 12) ((index % 12).toNat + 1)
  omega

/-- The number of a month, counted from the January of the year 0. -/
def monthIndex (d : Date) : Int :=
  12 * d.year + d.month - 1

/-- The number of a month tells the year and the month. -/
theorem year_month_of_monthIndex {d : Date} (valid : d.isValid = true) :
    d.monthIndex / 12 = d.year ∧ (d.monthIndex % 12).toNat + 1 = d.month := by
  obtain ⟨first, last, _, _⟩ := isValid_iff.mp valid
  unfold monthIndex
  omega

/-- A date lies as many days behind the beginning of its month as its day says. -/
theorem toDays_eq {d : Date} (valid : d.isValid = true) :
    d.toDays = monthStart d.monthIndex + d.day - 1 := by
  -- A date counts the days before its month in the same way as the beginning of the month does.
  obtain ⟨year, month⟩ := year_month_of_monthIndex valid
  rw [monthStart, year, month]
  simp only [toDays]
  omega

/-- A date comes before another when its year does, or its month in the same year, or its day in the
same month. -/
def Before (a b : Date) : Prop :=
  a.year < b.year ∨ a.year = b.year ∧ (a.month < b.month ∨ a.month = b.month ∧ a.day < b.day)

/-- Dates of an earlier month lie on earlier days. -/
theorem toDays_lt_of_monthIndex_lt {a b : Date} (validA : a.isValid = true)
    (validB : b.isValid = true) (before : a.monthIndex < b.monthIndex) : a.toDays < b.toDays := by
  -- The day is within its month, and the next month begins at most when the other does.
  obtain ⟨_, _, _, fits⟩ := isValid_iff.mp validA
  obtain ⟨_, _, day, _⟩ := isValid_iff.mp validB
  have next := monthStart_succ a.monthIndex
  obtain ⟨year, month⟩ := year_month_of_monthIndex validA
  rw [year, month] at next
  have later : monthStart (a.monthIndex + 1) ≤ monthStart b.monthIndex :=
    monthStart_le_monthStart before
  rw [toDays_eq validA, toDays_eq validB]
  omega

/-- Valid dates lie on their days in their order. -/
theorem toDays_lt_iff {a b : Date} (validA : a.isValid = true) (validB : b.isValid = true) :
    a.toDays < b.toDays ↔ a.Before b := by
  -- The months decide, unless they are the same.
  obtain ⟨_, _, _, _⟩ := isValid_iff.mp validA
  obtain ⟨_, _, _, _⟩ := isValid_iff.mp validB
  rcases lt_trichotomy a.monthIndex b.monthIndex with earlier | same | later
  · have days := toDays_lt_of_monthIndex_lt validA validB earlier
    unfold monthIndex at earlier
    exact iff_of_true days (by unfold Before; omega)
  · -- In the same month the days decide.
    rw [toDays_eq validA, toDays_eq validB, same]
    unfold monthIndex at same
    unfold Before
    omega
  · have days := toDays_lt_of_monthIndex_lt validB validA later
    unfold monthIndex at later
    exact iff_of_false (by omega) (by unfold Before; omega)

/-- The dates of days come in the order of the days. -/
theorem ofDays_before_iff (a b : Int) : (ofDays a).Before (ofDays b) ↔ a < b := by
  rw [← toDays_lt_iff (isValid_ofDays a) (isValid_ofDays b), toDays_ofDays, toDays_ofDays]

/-- The years before some year are those of the days before the first day of it. -/
theorem year_ofDays_lt_iff (days year : Int) :
    (ofDays days).year < year ↔ days < toDays ⟨year, 1, 1⟩ := by
  -- A year is before another when its days come before the first day of that one.
  have newYear : isValid ⟨year, 1, 1⟩ = true := by
    simp [isValid_iff, daysInMonth]
  have valid := isValid_ofDays days
  have order := toDays_lt_iff valid newYear
  rw [toDays_ofDays] at order
  obtain ⟨_, _, _, _⟩ := isValid_iff.mp valid
  rw [order]
  simp only [Before]
  omega

end Date

end Warrant
