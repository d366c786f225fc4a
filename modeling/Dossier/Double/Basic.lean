/-
Binary floating point numbers of 64 bits (IEEE 754), kept as their bit pattern. A finite number is
`significand · 2 ^ exponent`; apart from NaN the order of the numbers is the order of `rank`, a
plain integer, so comparing needs no arithmetic on fractions.
-/

namespace Dossier

/-- The power of a base, one when the exponent is negative. -/
def power (base : Nat) (exponent : Int) : Nat := Nat.pow base exponent.toNat

/-- A double, as the 64 bits of its encoding. -/
structure Double where
  bits : UInt64
  deriving DecidableEq, Inhabited

namespace Double

/-- The weight of the sign bit. -/
def signBit : Nat := 0x8000000000000000

/-- The weight of the leading bit that the significand of a normal number has. -/
def leadingBit : Nat := 0x10000000000000

/-- The magnitude bits of the infinities; larger ones are NaN. -/
def infinityMagnitude : Nat := 0x7FF0000000000000

/-- Whether the sign bit is set. -/
def isNegative (x : Double) : Bool := signBit ≤ x.bits.toNat

/-- All bits but the sign. -/
def magnitude (x : Double) : Nat := x.bits.toNat % signBit

def isNaN (x : Double) : Bool := infinityMagnitude < x.magnitude

def isInfinite (x : Double) : Bool := x.magnitude == infinityMagnitude

def isFinite (x : Double) : Bool := x.magnitude < infinityMagnitude

/-- The number with the given sign and magnitude bits. -/
def ofMagnitude (negative : Bool) (magnitude : Nat) : Double :=
  ⟨UInt64.ofNat (if negative then signBit + magnitude else magnitude)⟩

def zero : Double := ofMagnitude false 0

def infinity (negative : Bool) : Double := ofMagnitude negative infinityMagnitude

/-- The quiet NaN with no payload. -/
def nan : Double := ofMagnitude false 0x7FF8000000000000

/-! ## Order -/

/-- The position of a number among the others. Both zeros have rank zero. -/
def rank (x : Double) : Int := if x.isNegative then -(x.magnitude : Int) else x.magnitude

/-- Numeric comparison, undefined as soon as one side is NaN. -/
def compare? (x y : Double) : Option Ordering :=
  if x.isNaN || y.isNaN then none else some (compare x.rank y.rank)

/-- Numeric equality: NaN equals nothing and both zeros are equal. -/
def numEq (x y : Double) : Bool := !x.isNaN && !y.isNaN && x.rank == y.rank

/-! ## Significand and exponent -/

/-- The least exponent, that of the subnormal numbers. -/
def leastExponent : Int := -1074

/-- The integer `m` of a finite number `m · 2 ^ q`. -/
def significand (x : Double) : Nat :=
  if x.magnitude / leadingBit = 0 then x.magnitude else x.magnitude % leadingBit + leadingBit

/-- The power `q` of a finite number `m · 2 ^ q`. -/
def exponent (x : Double) : Int :=
  if x.magnitude / leadingBit = 0 then leastExponent
  else ((x.magnitude / leadingBit : Nat) : Int) - 1075

/-! ## Rounding to nearest -/

/-- `num / den` rounded to the nearest integer, a half going to the even neighbour. -/
def roundHalfEven (num den : Nat) : Nat :=
  let floor := num / den
  match compare (2 * (num % den)) den with
  | .lt => floor
  | .gt => floor + 1
  | .eq => floor + floor % 2

/-- The exponent of the leading binary digit of `num / den`. -/
def floorLog2 (num den : Nat) : Int :=
  let guess : Int := (num.log2 : Int) - den.log2
  if den * power 2 guess ≤ num * power 2 (-guess) then guess else guess - 1

/-- The double nearest to `num / den`, ties going to the even significand; a ratio past the
largest finite number becomes infinite. -/
def ofRatio (negative : Bool) (num den : Nat) : Double :=
  if num = 0 then ofMagnitude negative 0
  else
    let exponent := max (floorLog2 num den - 52) leastExponent
    let significand := roundHalfEven (num * power 2 (-exponent)) (den * power 2 exponent)
    let magnitude := (exponent - leastExponent).toNat * leadingBit + significand
    ofMagnitude negative (min magnitude infinityMagnitude)

/-- The double nearest to an integer. -/
def ofInt (i : Int) : Double := ofRatio (i < 0) i.natAbs 1

end Double

end Dossier
