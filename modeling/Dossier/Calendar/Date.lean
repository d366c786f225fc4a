/-
Calendar dates of the proleptic Gregorian calendar, counted as days since 1970-01-01. A year is
taken to begin in March, so that the leap day is its last day and months follow one linear rule.
-/

namespace Dossier

/-- A calendar date. -/
structure Date where
  year : Int
  month : Nat
  day : Nat
  deriving DecidableEq

namespace Date

/-- Days from 0000-03-01 to 1970-01-01. -/
def epochShift : Int := 719468

/-- The days of 400 years, after which the calendar repeats. -/
def eraDays : Int := 146097

/-- The year of an era, beginning in March, that holds a day of the era. -/
def yearOfEra (dayOfEra : Int) : Int :=
  (dayOfEra - dayOfEra / 1460 + dayOfEra / 36524 - dayOfEra / 146096) / 365

/-- The date of a day counted from 1970-01-01. -/
def ofDayNumber (dayNumber : Int) : Date :=
  let shifted := dayNumber + epochShift
  let era := shifted / eraDays
  let dayOfEra := shifted % eraDays
  let yoe := yearOfEra dayOfEra
  let dayOfYear := dayOfEra - (365 * yoe + yoe / 4 - yoe / 100)
  let shiftedMonth := (5 * dayOfYear + 2) / 153
  let day := dayOfYear - (153 * shiftedMonth + 2) / 5 + 1
  let month := if shiftedMonth < 10 then shiftedMonth + 3 else shiftedMonth - 9
  ⟨yoe + era * 400 + (if month ≤ 2 then 1 else 0), month.toNat, day.toNat⟩

/-- The number of days from 1970-01-01 to a date. -/
def dayNumber (d : Date) : Int :=
  let year := if d.month ≤ 2 then d.year - 1 else d.year
  let era := year / 400
  let yoe := year % 400
  let shiftedMonth : Int := if d.month ≤ 2 then d.month + 9 else d.month - 3
  let dayOfYear := (153 * shiftedMonth + 2) / 5 + d.day - 1
  era * eraDays + (yoe * 365 + yoe / 4 - yoe / 100 + dayOfYear) - epochShift

/-- Whether a date is in the calendar: a month or day out of range is not the date of its day. -/
def isValid (d : Date) : Bool := ofDayNumber d.dayNumber = d

/-- Whether a day is the last of its month. -/
def isMonthEnd (dayNumber : Int) : Bool := (ofDayNumber (dayNumber + 1)).day == 1

/-- The place of a date in its year, counted from one. -/
def ordinal (d : Date) : Nat := (d.dayNumber - dayNumber ⟨d.year, 1, 1⟩ + 1).toNat

/-- Days since the last Monday. -/
def daysFromMonday (dayNumber : Int) : Nat := ((dayNumber + 3) % 7).toNat

/-- Days since the last Sunday. -/
def daysFromSunday (dayNumber : Int) : Nat := ((dayNumber + 4) % 7).toNat

/-- The year and number of the week of a day, where a week belongs to the year of its Thursday. -/
def isoWeek (dayNumber : Int) : Int × Nat :=
  let thursday := ofDayNumber (dayNumber - daysFromMonday dayNumber + 3)
  (thursday.year, (thursday.ordinal - 1) / 7 + 1)

/-- English names of the months. -/
def monthNames : List String :=
  ["January", "February", "March", "April", "May", "June", "July", "August", "September",
    "October", "November", "December"]

/-- English names of the days of the week, from Monday. -/
def weekdayNames : List String :=
  ["Monday", "Tuesday", "Wednesday", "Thursday", "Friday", "Saturday", "Sunday"]

end Date

end Dossier
