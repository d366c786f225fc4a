/-
The calendar day of an instant at a fixed offset from UTC, as an interval of milliseconds. Every
intermediate number has to fit 64 bits.
-/
import Dossier.Bounded
import Dossier.Calendar.Moment
import Dossier.Fault

namespace Dossier

/-- How filters are read: the offset of the reference clock, and the text that stands for blank. -/
structure FilterSettings where
  utcOffsetMillis : Int := 0
  blankSentinel : String := "(Blanks)"

namespace FilterSettings

/-- Settings with the offset in minutes. -/
def ofMinutes (minutes : Int) (blankSentinel : String) : FilterSettings :=
  ⟨minutes * 60000, blankSentinel⟩

/-- The first and the last millisecond of the day around an instant, if all numbers on the way fit
64 bits. -/
def dayBounds? (settings : FilterSettings) (millis : Int) : Option (Int × Int) := do
  let localMillis ← Bounded.checked? (millis + settings.utcOffsetMillis)
  let localStart ← Bounded.checked? (localMillis / dayMillis * dayMillis)
  let start ← Bounded.checked? (localStart - settings.utcOffsetMillis)
  let stop ← Bounded.checked? (start + (dayMillis - 1))
  return (start, stop)

/-- The first and the last millisecond of the day around an instant. -/
def dayBounds (settings : FilterSettings) (millis : Int64) : Except Fault (Int64 × Int64) :=
  match settings.dayBounds? millis.toInt with
  | some (start, stop) => .ok (Int64.ofInt start, Int64.ofInt stop)
  | none => .error (.validation (.dateOutOfRange millis))

end FilterSettings

end Dossier
