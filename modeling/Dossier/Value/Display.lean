/-
The display form of values nested in arrays and documents: a readable text in which strings are
quoted but not escaped, and instants are shown in UTC.
-/
import Dossier.Calendar.Moment
import Dossier.Double.Text
import Dossier.Text.Base64
import Dossier.Text.Pad
import Dossier.Value.Basic

namespace Dossier

namespace Moment

/-- Drops trailing zeros from three digits of a fraction, keeping at least one. -/
def fractionDigits (millisecond : Nat) : String :=
  if millisecond % 100 = 0 then toString (millisecond / 100)
  else if millisecond % 10 = 0 then zeroPadded 2 (millisecond / 10)
  else zeroPadded 3 millisecond

/-- Date, time and offset zero, for a moment in UTC. The hour has no leading zero. -/
def utcText (m : Moment) : String :=
  let d := m.date
  let year :=
    if d.year.natAbs < 10000 then signed false (zeroPadded 4) d.year
    else signed true toString d.year
  s!"{year}-{zeroPadded 2 d.month}-{zeroPadded 2 d.day} {m.hour}:{zeroPadded 2 m.minute}:" ++
    s!"{zeroPadded 2 m.second}.{fractionDigits m.millisecond} +00:00:00"

/-- The greatest year that has a text, with either sign. -/
def yearLimit : Nat := 999999

/-- The display form of an instant: its text in UTC, or its milliseconds where that has none. -/
def display (millis : Int) : String :=
  let m : Moment := ⟨millis, 0⟩
  if m.date.year.natAbs ≤ yearLimit then utcText m else toString millis

end Moment

namespace Value

/-- A subtype in lower-case hexadecimal, without leading zeros. -/
def subtypeHex (subtype : UInt8) : String :=
  String.ofList (Nat.toDigits 16 subtype.toNat)

mutual

/-- The display form of a value. -/
def display : Value → String
  | null => "null"
  | undefined => "undefined"
  | minKey => "MinKey"
  | maxKey => "MaxKey"
  | boolean b => toString b
  | int32 i => toString i.toInt
  | int64 i => toString i.toInt
  | double x => x.text
  | decimal128 d => d.text
  | string s => "\"" ++ s ++ "\""
  | symbol s => "Symbol(\"" ++ s ++ "\")"
  | code s => s
  | scopedCode s _ => s
  | regex pattern options => "/" ++ pattern ++ "/" ++ options
  | dateTime millis => "DateTime(\"" ++ Moment.display millis.toInt ++ "\")"
  | timestamp time increment => "Timestamp(" ++ toString time.toNat ++ ", " ++
      toString increment.toNat ++ ")"
  | objectId bytes => "ObjectId(\"" ++ String.ofList (Hex.encode bytes) ++ "\")"
  | binary subtype bytes => "Binary(0x" ++ subtypeHex subtype ++ ", " ++
      String.ofList (Base64.encode bytes) ++ ")"
  | array items => "[" ++ String.intercalate ", " (displayItems items) ++ "]"
  | document [] => "\x7b\x7d"
  | document entries => "\x7b " ++ String.intercalate ", " (displayEntries entries) ++ " \x7d"

/-- The display forms of the items of an array. -/
def displayItems : List Value → List String
  | [] => []
  | v :: rest => display v :: displayItems rest

/-- The display forms of the entries of a document. -/
def displayEntries : List (String × Value) → List String
  | [] => []
  | (key, v) :: rest => ("\"" ++ key ++ "\": " ++ display v) :: displayEntries rest

end

end Value

end Dossier
