/-
The shortest decimal of a double: the fewest significant digits that still read back as the same
number, and of those the nearest to its exact value. All comparisons are exact, on integers.
-/
import Dossier.Double.Basic

namespace Dossier

/-- The number `digits · 10 ^ exponent`. -/
structure Decimal where
  digits : Nat
  exponent : Int
  deriving DecidableEq

namespace Decimal

/-- Exact comparison of `d` with `b · 2 ^ q`. -/
def compareBinary (d : Decimal) (b : Nat) (q : Int) : Ordering :=
  compare (d.digits * power 10 d.exponent * power 2 (-q))
    (b * power 2 q * power 10 (-d.exponent))

/-- Drops up to `fuel` trailing zeros of the digits. -/
def trimZeros (d : Decimal) : Nat → Decimal
  | 0 => d
  | fuel + 1 =>
    if d.digits ≠ 0 ∧ d.digits % 10 = 0 then
      trimZeros ⟨d.digits / 10, d.exponent + 1⟩ fuel
    else d

end Decimal

/-- How many decimal digits a positive number has. -/
def decimalLength (n : Nat) : Nat := (Nat.toDigits 10 n).length

namespace Double

/-- Below the value `m · 2 ^ q` the spacing of doubles halves at a power of two. -/
def isBinadeStart (x : Double) : Bool :=
  x.significand == leadingBit && leastExponent < x.exponent

/-- The lower end of the reals that round to a positive finite number, in units of a quarter of
its last place. -/
def lowerEnd (x : Double) : Nat := 4 * x.significand - if x.isBinadeStart then 1 else 2

/-- The upper end of the reals that round to a positive finite number, in the same units. -/
def upperEnd (x : Double) : Nat := 4 * x.significand + 2

/-- Whether a decimal rounds to the positive finite number `x`. The ends of the interval do so
exactly when the significand is even. -/
def isReadBy (x : Double) (d : Decimal) : Bool :=
  let low := d.compareBinary x.lowerEnd (x.exponent - 2)
  let high := d.compareBinary x.upperEnd (x.exponent - 2)
  (low == .gt && high == .lt) ||
    ((low == .eq || high == .eq) && x.significand % 2 == 0)

/-- The largest integer whose product with `10 ^ p` is at most `x`. -/
def floorAt (x : Double) (p : Int) : Nat :=
  x.significand * power 2 x.exponent * power 10 (-p) /
    (power 2 (-x.exponent) * power 10 p)

/-- The exponent of the leading decimal digit of a positive finite number. -/
def floorLog10 (x : Double) : Int :=
  let num := x.significand * power 2 x.exponent
  let den := power 2 (-x.exponent)
  let guess : Int := (decimalLength num : Int) - decimalLength den
  if den * power 10 guess ≤ num * power 10 (-guess) then guess else guess - 1

/-- The decimal with unit `10 ^ p` that reads back as `x` and lies nearest to it, an exact tie
going upwards. -/
def nearestAt? (x : Double) (p : Int) : Option Decimal :=
  let floor := x.floorAt p
  let below : Decimal := ⟨floor, p⟩
  let above : Decimal := ⟨floor + 1, p⟩
  let middle : Decimal := ⟨10 * floor + 5, p - 1⟩
  match x.isReadBy below, x.isReadBy above with
  | true, true =>
    some (if middle.compareBinary x.significand x.exponent == .gt then below else above)
  | true, false => some below
  | false, true => some above
  | false, false => none

/-- The shortest decimal of the magnitude of a finite number. Seventeen digits always suffice. -/
def shortest (x : Double) : Decimal :=
  if x.significand = 0 then ⟨0, 0⟩
  else
    let lead := x.floorLog10
    match (List.range 17).findSome? fun (n : Nat) => x.nearestAt? (lead - n) with
    | some d => d.trimZeros 20
    | none => ⟨x.floorAt (lead - 16), lead - 16⟩

end Double

end Dossier
