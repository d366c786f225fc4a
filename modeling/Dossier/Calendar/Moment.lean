/-
Instants of time seen at a fixed offset from UTC: the local day and the time of that day.
-/
import Dossier.Calendar.Date

namespace Dossier

/-- The milliseconds of a day. -/
def dayMillis : Int := 86400000

/-- An instant in milliseconds since 1970-01-01T00:00:00Z, with the offset of a local clock. -/
structure Moment where
  millis : Int
  offsetSeconds : Int

namespace Moment

/-- What the local clock has counted since 1970-01-01. -/
def localMillis (m : Moment) : Int := m.millis + m.offsetSeconds * 1000

/-- The local calendar day, counted from 1970-01-01. -/
def dayNumber (m : Moment) : Int := m.localMillis / dayMillis

def date (m : Moment) : Date := Date.ofDayNumber m.dayNumber

/-- Milliseconds since local midnight. -/
def millisOfDay (m : Moment) : Nat := (m.localMillis % dayMillis).toNat

def hour (m : Moment) : Nat := m.millisOfDay / 3600000

def minute (m : Moment) : Nat := m.millisOfDay / 60000 % 60

def second (m : Moment) : Nat := m.millisOfDay / 1000 % 60

def millisecond (m : Moment) : Nat := m.millisOfDay % 1000

/-- The hour on a clock face, from 1 to 12. -/
def hour12 (m : Moment) : Nat := (m.hour + 11) % 12 + 1

def isAfternoon (m : Moment) : Bool := 12 ≤ m.hour

/-- Whole seconds since 1970-01-01T00:00:00Z, rounded down. -/
def timestamp (m : Moment) : Int := m.millis / 1000

end Moment

end Dossier
