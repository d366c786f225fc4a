/-
Date patterns: text in which a percent sign and a letter stand for a part of a moment. A pattern
with an unknown directive is refused as a whole, whatever the moment.
-/
import Dossier.Calendar.Moment
import Dossier.Text.Pad

namespace Dossier.Pattern

/-- The parts of a moment that are written as numbers. -/
inductive NumberField where
  | year
  | century
  | yearOfCentury
  | isoYear
  | isoYearOfCentury
  | quarter
  | month
  | day
  | weekFromSunday
  | weekFromMonday
  | isoWeek
  | daysFromSunday
  | weekdayNumber
  | ordinal
  | hour
  | hour12
  | minute
  | second
  | nanosecond
  | timestamp
  deriving DecidableEq

/-- How a number is brought to its full width. -/
inductive Padding where
  | none
  | zero
  | space
  deriving DecidableEq

/-- The parts of a moment that are written in a form of their own. -/
inductive TextField where
  | weekday
  | shortWeekday
  | month
  | shortMonth
  | upperHalf
  | lowerHalf
  /-- The fraction of the second behind a point, left out when it is zero. -/
  | fraction
  /-- So many digits of the fraction of the second, behind a point or not. -/
  | fractionDigits (digits : Nat) (point : Bool)
  /-- The offset from UTC: hours, then minutes and seconds up to the given number of parts. -/
  | offset (parts : Nat) (colons : Bool)
  /-- Date, time and offset in the form of RFC 3339. -/
  | rfc3339
  deriving DecidableEq

/-- A piece of a pattern. -/
inductive Piece where
  | literal (c : Char)
  | number (field : NumberField) (padding : Padding)
  | text (field : TextField)
  deriving DecidableEq

/-! ## Reading patterns -/

/-- The number that a letter stands for, with its usual padding. -/
def numberDirective? : Char → Option (NumberField × Padding)
  | 'Y' => some (.year, .zero)
  | 'C' => some (.century, .zero)
  | 'y' => some (.yearOfCentury, .zero)
  | 'G' => some (.isoYear, .zero)
  | 'g' => some (.isoYearOfCentury, .zero)
  | 'q' => some (.quarter, .none)
  | 'm' => some (.month, .zero)
  | 'd' => some (.day, .zero)
  | 'e' => some (.day, .space)
  | 'U' => some (.weekFromSunday, .zero)
  | 'W' => some (.weekFromMonday, .zero)
  | 'V' => some (.isoWeek, .zero)
  | 'w' => some (.daysFromSunday, .none)
  | 'u' => some (.weekdayNumber, .none)
  | 'j' => some (.ordinal, .zero)
  | 'H' => some (.hour, .zero)
  | 'k' => some (.hour, .space)
  | 'I' => some (.hour12, .zero)
  | 'l' => some (.hour12, .space)
  | 'M' => some (.minute, .zero)
  | 'S' => some (.second, .zero)
  | 'f' => some (.nanosecond, .zero)
  | 's' => some (.timestamp, .none)
  | _ => none

/-- The text that a letter stands for. -/
def textDirective? : Char → Option TextField
  | 'A' => some .weekday
  | 'a' => some .shortWeekday
  | 'B' => some .month
  | 'b' => some .shortMonth
  | 'h' => some .shortMonth
  | 'p' => some .upperHalf
  | 'P' => some .lowerHalf
  | 'z' => some (.offset 2 false)
  | 'Z' => some (.offset 2 true)
  | '+' => some .rfc3339
  | _ => none

/-- The shorthand letters, each with the pattern that it abbreviates in terms of other letters. -/
def shorthand? : Char → Option String
  | 'D' => some "m/d/y"
  | 'x' => some "m/d/y"
  | 'F' => some "Y-m-d"
  | 'R' => some "H:M"
  | 'T' => some "H:M:S"
  | 'X' => some "H:M:S"
  | 'r' => some "I:M:S p"
  | 'v' => some "e-b-Y"
  | 'c' => some "a b e H:M:S Y"
  | _ => none

/-- A letter outside shorthands: the number or text it stands for, or itself. -/
def simplePiece (c : Char) : Piece :=
  match numberDirective? c with
  | some (field, padding) => .number field padding
  | none =>
    match textDirective? c with
    | some field => .text field
    | none => .literal c

/-- The pieces that a directive of one letter stands for. -/
def directive? (c : Char) : Option (List Piece) :=
  match shorthand? c with
  | some letters => some (letters.toList.map simplePiece)
  | none =>
    match c with
    | '%' => some [.literal '%']
    | 'n' => some [.literal '\n']
    | 't' => some [.literal '\t']
    | _ =>
      match simplePiece c with
      | .literal _ => none
      | piece => some [piece]

/-- A number directive whose padding is overridden; no other directive takes an override. -/
def padded? (padding : Padding) (c : Char) : Option (List Piece) :=
  (numberDirective? c).map fun (field, _) => [.number field padding]

/-- Reads a pattern into its pieces. -/
def parse? : List Char → Option (List Piece)
  | [] => some []
  | '%' :: '-' :: c :: rest => (padded? .none c).bind fun p => (parse? rest).map (p ++ ·)
  | '%' :: '0' :: c :: rest => (padded? .zero c).bind fun p => (parse? rest).map (p ++ ·)
  | '%' :: '_' :: c :: rest => (padded? .space c).bind fun p => (parse? rest).map (p ++ ·)
  | '%' :: ':' :: ':' :: ':' :: 'z' :: rest => (parse? rest).map (.text (.offset 1 true) :: ·)
  | '%' :: ':' :: ':' :: 'z' :: rest => (parse? rest).map (.text (.offset 3 true) :: ·)
  | '%' :: ':' :: 'z' :: rest => (parse? rest).map (.text (.offset 2 true) :: ·)
  | '%' :: '.' :: 'f' :: rest => (parse? rest).map (.text .fraction :: ·)
  | '%' :: '.' :: '3' :: 'f' :: rest => (parse? rest).map (.text (.fractionDigits 3 true) :: ·)
  | '%' :: '.' :: '6' :: 'f' :: rest => (parse? rest).map (.text (.fractionDigits 6 true) :: ·)
  | '%' :: '.' :: '9' :: 'f' :: rest => (parse? rest).map (.text (.fractionDigits 9 true) :: ·)
  | '%' :: '3' :: 'f' :: rest => (parse? rest).map (.text (.fractionDigits 3 false) :: ·)
  | '%' :: '6' :: 'f' :: rest => (parse? rest).map (.text (.fractionDigits 6 false) :: ·)
  | '%' :: '9' :: 'f' :: rest => (parse? rest).map (.text (.fractionDigits 9 false) :: ·)
  | '%' :: c :: rest => (directive? c).bind fun p => (parse? rest).map (p ++ ·)
  | ['%'] => none
  | c :: rest => (parse? rest).map (.literal c :: ·)

/-! ## Writing moments -/

/-- A number of up to two digits. Past 99 the tens go on as the characters behind the digits. -/
def twoDigits (padding : Padding) (n : Nat) : String :=
  let tens := n / 10
  let ones := (Char.ofNat ('0'.toNat + n % 10)).toString
  match padding with
  | .none => if tens = 0 then ones else (Char.ofNat ('0'.toNat + tens)).toString ++ ones
  | .space => (if tens = 0 then ' ' else Char.ofNat ('0'.toNat + tens)).toString ++ ones
  | .zero => (Char.ofNat ('0'.toNat + tens)).toString ++ ones

/-- A number of at least `width` digits; zeros go behind the sign, spaces before it. A forced sign
takes one more place. -/
def wideNumber (padding : Padding) (width : Nat) (forceSign : Bool) (i : Int) : String :=
  let bare := signed forceSign toString i
  let places := if forceSign then width + 1 else width
  match padding with
  | .none => bare
  | .space => padLeft ' ' places bare
  | .zero =>
    let signPlaces := bare.length - (toString i.natAbs).length
    signed forceSign (zeroPadded (places - signPlaces)) i

/-- Years have four digits, and a sign when that is not enough. -/
def yearText (padding : Padding) (year : Int) : String :=
  wideNumber padding 4 (year < 0 || 10000 ≤ year) year

/-- A number of two digits that is kept in one byte. -/
def byteDigits (padding : Padding) (i : Int) : String := twoDigits padding (i % 256).toNat

/-- The number of full weeks begun in the year, when weeks begin `sinceStart` days before the
day with the given ordinal. -/
def weekOfYear (ordinal sinceStart : Nat) : Nat := (ordinal + 6 - sinceStart) / 7

/-- Writes a number field. -/
def numberText (m : Moment) (padding : Padding) : NumberField → String
  | .year => yearText padding m.date.year
  | .century => byteDigits padding (m.date.year / 100)
  | .yearOfCentury => byteDigits padding (m.date.year % 100)
  | .isoYear => yearText padding (Date.isoWeek m.dayNumber).1
  | .isoYearOfCentury => byteDigits padding ((Date.isoWeek m.dayNumber).1 % 100)
  | .quarter => toString ((m.date.month + 2) / 3)
  | .month => twoDigits padding m.date.month
  | .day => twoDigits padding m.date.day
  | .weekFromSunday =>
    twoDigits padding (weekOfYear m.date.ordinal (Date.daysFromSunday m.dayNumber))
  | .weekFromMonday =>
    twoDigits padding (weekOfYear m.date.ordinal (Date.daysFromMonday m.dayNumber))
  | .isoWeek => twoDigits padding (Date.isoWeek m.dayNumber).2
  | .daysFromSunday => toString (Date.daysFromSunday m.dayNumber)
  | .weekdayNumber => toString (Date.daysFromMonday m.dayNumber + 1)
  | .ordinal => wideNumber padding 3 false m.date.ordinal
  | .hour => twoDigits padding m.hour
  | .hour12 => twoDigits padding m.hour12
  | .minute => twoDigits padding m.minute
  | .second => twoDigits padding m.second
  | .nanosecond => wideNumber padding 9 false (m.millisecond * 1000000)
  | .timestamp => wideNumber padding 9 false m.timestamp

/-- The offset from UTC in hours, minutes and seconds, cut after the given number of parts. -/
def offsetText (offsetSeconds : Int) (parts : Nat) (colons : Bool) : String :=
  let seconds := offsetSeconds.natAbs
  let written := [seconds / 3600, seconds / 60 % 60, seconds % 60].take parts
  (if offsetSeconds < 0 then "-" else "+") ++
    String.intercalate (if colons then ":" else "") (written.map (zeroPadded 2))

/-- The fraction of the second behind a point, or nothing when it is zero. -/
def fractionText (m : Moment) : String :=
  if m.millisecond = 0 then "" else "." ++ zeroPadded 3 m.millisecond

/-- Date, time and offset in the form of RFC 3339. -/
def rfc3339Text (m : Moment) : String :=
  yearText .zero m.date.year ++ "-" ++ zeroPadded 2 m.date.month ++ "-" ++
    zeroPadded 2 m.date.day ++ "T" ++ zeroPadded 2 m.hour ++ ":" ++ zeroPadded 2 m.minute ++ ":" ++
    zeroPadded 2 m.second ++ fractionText m ++ offsetText m.offsetSeconds 2 true

/-- The first three letters of a name. -/
def short (name : String) : String := String.ofList (name.toList.take 3)

def weekdayName (m : Moment) : String :=
  Date.weekdayNames.getD (Date.daysFromMonday m.dayNumber) ""

def monthName (m : Moment) : String := Date.monthNames.getD (m.date.month - 1) ""

/-- Writes a text field. -/
def fieldText (m : Moment) : TextField → String
  | .weekday => weekdayName m
  | .shortWeekday => short (weekdayName m)
  | .month => monthName m
  | .shortMonth => short (monthName m)
  | .upperHalf => if m.isAfternoon then "PM" else "AM"
  | .lowerHalf => if m.isAfternoon then "pm" else "am"
  | .fraction => fractionText m
  | .fractionDigits digits point =>
    (if point then "." else "") ++ zeroPadded 3 m.millisecond ++ "".pushn '0' (digits - 3)
  | .offset parts colons => offsetText m.offsetSeconds parts colons
  | .rfc3339 => rfc3339Text m

/-- Writes one piece. -/
def Piece.write (m : Moment) : Piece → String
  | .literal c => c.toString
  | .number field padding => numberText m padding field
  | .text field => fieldText m field

/-- A moment written by a pattern, if the pattern is valid. -/
def format? (pattern : String) (m : Moment) : Option String :=
  (parse? pattern.toList).map fun pieces => String.join (pieces.map (Piece.write m))

end Dossier.Pattern
