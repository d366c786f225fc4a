/-
How doubles are written: positional decimals of the shortest digits, and the inspection form that
always shows a fraction or an exponent.
-/
import Dossier.Double.Shortest

namespace Dossier

namespace Decimal

/-- Positional notation, never with an exponent. -/
def positional (d : Decimal) : String :=
  let digits := toString d.digits
  if 0 ≤ d.exponent then digits ++ "".pushn '0' d.exponent.toNat
  else
    let places := (-d.exponent).toNat
    if digits.length ≤ places then
      "0." ++ "".pushn '0' (places - digits.length) ++ digits
    else
      let whole := digits.length - places
      String.ofList (digits.toList.take whole) ++ "." ++ String.ofList (digits.toList.drop whole)

/-- One digit before the point and an exponent after the letter `e`. -/
def scientific (d : Decimal) : String :=
  match (toString d.digits).toList with
  | [] => "0e0"
  | first :: rest =>
    let fraction := if rest.isEmpty then "" else "." ++ String.ofList rest
    first.toString ++ fraction ++ "e" ++ toString (d.exponent + (rest.length : Int))

end Decimal

namespace Double

/-- Writes the sign, then NaN and infinity by name and a finite magnitude by `finite`. -/
def write (finite : Decimal → String) (x : Double) : String :=
  if x.isNaN then "NaN"
  else
    let magnitude := if x.isInfinite then "inf" else finite x.shortest
    if x.isNegative then "-" ++ magnitude else magnitude

/-- The shortest positional decimal that reads back as the number; a whole number has no point. -/
def text (x : Double) : String := x.write Decimal.positional

/-- Whether the inspection form uses an exponent: from 10^16 on and below 10^-4. -/
def inspectsWithExponent (x : Double) : Bool :=
  (ofInt 10000000000000000).magnitude ≤ x.magnitude ||
    (x.magnitude ≠ 0 && x.magnitude < (ofRatio false 1 10000).magnitude)

/-- The inspection form: like `text`, but a whole number ends in `.0` and very large and very small
numbers have an exponent. -/
def inspect (x : Double) : String :=
  x.write fun d =>
    if x.inspectsWithExponent then d.scientific
    else if d.exponent < 0 then d.positional else d.positional ++ ".0"

end Double

end Dossier
