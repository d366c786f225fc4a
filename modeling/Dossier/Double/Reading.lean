/-
Reading a decimal number from text. The digits, point and exponent are collected exactly and the
result is rounded once, to the nearest double.
-/
import Dossier.Double.Basic

namespace Dossier

/-- The value of a decimal digit. -/
def digitValue? (c : Char) : Option Nat :=
  if '0' ≤ c ∧ c ≤ '9' then some (c.toNat - '0'.toNat) else none

/-- The number that a run of decimal digits stands for. -/
def digitsValue (cs : List Char) : Nat :=
  cs.foldl (fun n c => 10 * n + (c.toNat - '0'.toNat)) 0

/-- The leading decimal digits of a text and what follows them. -/
def spanDigits (cs : List Char) : List Char × List Char :=
  cs.span fun c => (digitValue? c).isSome

/-- Splits a leading sign from a text; the flag tells whether it was a minus. -/
def splitSign : List Char → Bool × List Char
  | '-' :: cs => (true, cs)
  | '+' :: cs => (false, cs)
  | cs => (false, cs)

/-- An unsigned decimal numeral: the digits of its whole and fractional part and its exponent. -/
structure Numeral where
  whole : List Char
  fraction : List Char
  exponent : Int

namespace Numeral

/-- Reads the exponent that may follow the digits: nothing, or `e` with an optional sign and at
least one digit. -/
def readExponent? : List Char → Option Int
  | [] => some 0
  | c :: cs =>
    if c = 'e' ∨ c = 'E' then
      let (negative, cs) := splitSign cs
      match spanDigits cs with
      | (digits@(_ :: _), []) =>
        let magnitude : Int := digitsValue digits
        some (if negative then -magnitude else magnitude)
      | _ => none
    else none

/-- Reads digits with an optional point and exponent. At least one digit must stand before the
exponent. -/
def read? (cs : List Char) : Option Numeral :=
  let (whole, rest) := spanDigits cs
  let (fraction, rest) :=
    match rest with
    | '.' :: after => spanDigits after
    | _ => ([], rest)
  if whole.isEmpty && fraction.isEmpty then none
  else (readExponent? rest).map fun exponent => ⟨whole, fraction, exponent⟩

/-- All digits as one integer. -/
def digits (n : Numeral) : Nat := digitsValue (n.whole ++ n.fraction)

/-- The power of ten of the last digit. -/
def unit (n : Numeral) : Int := n.exponent - n.fraction.length

/-- The nearest double. Exponents far outside the range of doubles are cut short, for which the
result is zero or infinite all the same. -/
def toDouble (negative : Bool) (n : Numeral) : Double :=
  let size : Int := n.whole.length + n.fraction.length
  if n.digits = 0 then Double.ofMagnitude negative 0
  else if n.unit + size < -400 then Double.ofMagnitude negative 0
  else if 400 < n.unit then Double.infinity negative
  else
    Double.ofRatio negative (n.digits * power 10 n.unit) (power 10 (-n.unit))

end Numeral

namespace Double

/-- Reads a signed decimal, or one of the names of infinity and NaN without regard to case. -/
def ofText? (s : String) : Option Double :=
  let (negative, cs) := splitSign s.toList
  let name := String.ofList (cs.map Char.toLower)
  if name = "nan" then some nan
  else if name = "inf" ∨ name = "infinity" then some (infinity negative)
  else (Numeral.read? cs).map (Numeral.toDouble negative)

end Double

end Dossier
