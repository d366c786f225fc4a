/-
Instants in the form of RFC 3339: date, time with an optional fraction of the second, and offset
from UTC. A sixtieth second may end the last minute of a month in UTC.
-/
import Dossier.Calendar.Moment
import Dossier.Double.Reading

namespace Dossier.Rfc3339

/-- Reads a number of so many digits. -/
def number? (width : Nat) (cs : List Char) : Option (Nat × List Char) :=
  let digits := cs.take width
  if digits.length = width ∧ digits.all (fun c => (digitValue? c).isSome) then
    some (digitsValue digits, cs.drop width)
  else none

/-- Reads one given character. -/
def mark? (c : Char) : List Char → Option (List Char)
  | x :: rest => if x = c then some rest else none
  | [] => none

/-- Reads what stands between date and time, any one character of ASCII. -/
def separator? : List Char → Option (List Char)
  | c :: rest => if c.toNat < 0x80 then some rest else none
  | [] => none

/-- Reads a year, month and day. -/
def date? (cs : List Char) : Option (Date × List Char) := do
  let (year, cs) ← number? 4 cs
  let (month, cs) ← number? 2 (← mark? '-' cs)
  let (day, cs) ← number? 2 (← mark? '-' cs)
  let date : Date := ⟨year, month, day⟩
  if date.isValid then some (date, cs) else none

/-- Reads the fraction of a second in nanoseconds; digits past the ninth are dropped. -/
def fraction? : List Char → Option (Nat × List Char)
  | '.' :: cs =>
    match spanDigits cs with
    | ([], _) => none
    | (digits, rest) => some (digitsValue ((digits ++ List.replicate 9 '0').take 9), rest)
  | cs => some (0, cs)

/-- Reads an offset that ends the text, in seconds. -/
def offset? : List Char → Option Int
  | [] => none
  | ['Z'] | ['z'] => some 0
  | sign :: cs => do
    let (hours, cs) ← number? 2 cs
    let (minutes, cs) ← number? 2 (← mark? ':' cs)
    let seconds : Int := hours * 3600 + minutes * 60
    if cs = [] ∧ hours < 24 ∧ minutes < 60 then
      if sign = '+' then some seconds else if sign = '-' then some (-seconds) else none
    else none

/-- The whole seconds and the nanoseconds that a text denotes, with the seconds counted since
1970-01-01T00:00:00Z. A sixtieth second is shown as the last nanosecond before it. -/
def instant? (s : String) : Option (Int × Nat) := do
  let (date, cs) ← date? s.toList
  let (hour, cs) ← number? 2 (← separator? cs)
  let (minute, cs) ← number? 2 (← mark? ':' cs)
  let (second, cs) ← number? 2 (← mark? ':' cs)
  let (nanos, cs) ← fraction? cs
  let offset ← offset? cs
  let minuteStart : Int := date.dayNumber * 86400 + hour * 3600 + minute * 60 - offset
  if hour < 24 ∧ minute < 60 ∧ second < 60 then some (minuteStart + second, nanos)
  else if hour < 24 ∧ minute < 60 ∧ second = 60 then
    let last := minuteStart + 59
    if last % 86400 = 86399 ∧ Date.isMonthEnd (last / 86400) then some (last, 999999999) else none
  else none

/-- The milliseconds since 1970-01-01T00:00:00Z that a text denotes, rounded towards that time. -/
def millis? (s : String) : Option Int :=
  (instant? s).map fun (seconds, nanos) => Int.tdiv (seconds * 1000000000 + nanos) 1000000

end Dossier.Rfc3339
