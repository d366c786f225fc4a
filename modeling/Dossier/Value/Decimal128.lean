/-
Decimal numbers of 34 digits (IEEE 754 decimal128), kept as their bit pattern. A finite number is a
coefficient and a power of ten; numbers that are equal in value but written with other trailing
zeros are different numbers here, and so are two NaN with different bits.
-/
import Dossier.Double.Reading
import Dossier.Text.Hex

namespace Dossier

/-- A decimal floating point number, as the 128 bits of its encoding. -/
structure Decimal128 where
  bits : BitVec 128
  deriving DecidableEq

namespace Decimal128

/-- What an encoding stands for. -/
inductive Content where
  | nan
  | infinity (negative : Bool)
  | finite (negative : Bool) (coefficient : Nat) (exponent : Int)
  deriving DecidableEq

/-- The greatest exponent of the last digit. -/
def maxExponent : Int := 6111

/-- The least exponent of the last digit. -/
def minExponent : Int := -6176

/-- The digits that a coefficient may have. -/
def digitLimit : Nat := 34

/-- The first coefficient with too many digits. -/
def coefficientLimit : Nat := Nat.pow 10 digitLimit

/-! ## Bits -/

/-- The weight of the sign bit. -/
def signBit : Nat := Nat.pow 2 127

/-- The weight of the last bit of the exponent, above all bits of the coefficient. -/
def exponentUnit : Nat := Nat.pow 2 113

/-- The weight of the last of the five bits that tell infinities and NaN from numbers. -/
def kindUnit : Nat := Nat.pow 2 122

/-- The five bits of the infinities. -/
def infinityKind : Nat := 30

/-- The five bits of NaN. -/
def nanKind : Nat := 31

/-- The encoding with the given sign and other bits. -/
def ofMagnitude (negative : Bool) (magnitude : Nat) : Decimal128 :=
  ⟨BitVec.ofNat 128 (if negative then signBit + magnitude else magnitude)⟩

/-- Infinity of either sign. -/
def infinity (negative : Bool) : Decimal128 := ofMagnitude negative (infinityKind * kindUnit)

/-- NaN of either sign, where a signalling one has the next bit set. -/
def nan (negative signalling : Bool) : Decimal128 :=
  ofMagnitude negative (nanKind * kindUnit + if signalling then kindUnit / 2 else 0)

/-- The encoding of a finite number whose parts are in range. -/
def finite (negative : Bool) (coefficient : Nat) (exponent : Int) : Decimal128 :=
  ofMagnitude negative ((exponent - minExponent).toNat * exponentUnit + coefficient)

/-- What the bits stand for. The form whose coefficient would begin with the bits 100 has too many
digits throughout, and such coefficients count as zero. -/
def content (d : Decimal128) : Content :=
  let negative := signBit ≤ d.bits.toNat
  let magnitude := d.bits.toNat % signBit
  let kind := magnitude / kindUnit
  if kind = nanKind then .nan
  else if kind = infinityKind then .infinity negative
  else if 24 ≤ kind then
    .finite negative 0 ((magnitude / (exponentUnit / 4) % 16384 : Nat) + minExponent)
  else
    let coefficient := magnitude % exponentUnit
    .finite negative (if coefficient < coefficientLimit then coefficient else 0)
      ((magnitude / exponentUnit : Nat) + minExponent)

/-- The bytes of the encoding, least significant first. -/
def bytes (d : Decimal128) : List UInt8 :=
  (List.range 16).map fun i => UInt8.ofNat (d.bits.toNat >>> (8 * i))

/-- The number whose encoding has the given bytes, if there are sixteen. -/
def ofBytes? (bytes : List UInt8) : Option Decimal128 :=
  if bytes.length = 16 then
    some ⟨BitVec.ofNat 128 (bytes.foldr (fun b n => 256 * n + b.toNat) 0)⟩
  else none

/-! ## Reading -/

/-- A zero with its exponent brought into range. -/
def zero (negative : Bool) (exponent : Int) : Decimal128 :=
  finite negative 0 (max minExponent (min maxExponent exponent))

/-- Drops so many digits at the end, all of which have to be zeros, from a longer list. -/
def dropZeros? (count : Nat) (digits : List Char) : Option (List Char) :=
  let kept := digits.length - count
  if count = 0 then some digits
  else if count < digits.length ∧ (digits.drop kept).all (· == '0') then some (digits.take kept)
  else none

/-- The finite number with the given digits, if it can be kept without rounding. Zeros are dropped
from too many digits or for too small an exponent, and appended for too large an exponent. A plus
sign before the digits takes one of the places. -/
def ofDigits? (negative plus : Bool) (digits : List Char) (exponent : Int) : Option Decimal128 := do
  let limit := if plus then digitLimit - 1 else digitLimit
  let excess := digits.length - limit
  let digits ← dropZeros? excess digits
  let exponent := exponent + excess
  let shortfall := (minExponent - exponent).toNat
  let digits ← dropZeros? shortfall digits
  let exponent := exponent + shortfall
  let surplus := (exponent - maxExponent).toNat
  if digits.length + surplus ≤ limit then
    some (finite negative (digitsValue (digits ++ List.replicate surplus '0')) (exponent - surplus))
  else none

/-- The finite number that is left when leading zeros are dropped: zero if nothing is, else a
coefficient of at least one digit, which may begin with a plus sign. -/
def ofSignificant? (negative : Bool) (exponent : Int) : List Char → Option Decimal128
  | [] => some (zero negative exponent)
  | c :: cs =>
    let digits := if c = '+' then cs else c :: cs
    if digits ≠ [] ∧ digits.all (fun d => (digitValue? d).isSome) then
      ofDigits? negative (c == '+') digits exponent
    else none

/-- Whether an exponent fits sixteen bits with a sign; texts with others are refused. -/
def isWritable (exponent : Int) : Bool := -0x8000 ≤ exponent && exponent ≤ 0x7FFF

/-- Reads decimal notation without its sign: characters with at most one point, and an optional
exponent. -/
def ofNotation? (negative : Bool) (cs : List Char) : Option Decimal128 := do
  let (body, rest) := cs.span fun c => c != 'e' && c != 'E'
  let exponent ← Numeral.readExponent? rest
  let (whole, after) := body.span (· != '.')
  let fraction := after.drop 1
  let unit := exponent - fraction.length
  if isWritable exponent ∧ isWritable fraction.length ∧ isWritable unit then
    ofSignificant? negative unit ((whole ++ fraction).dropWhile (· == '0'))
  else none

/-- Reads decimal notation, or a name of infinity or NaN. -/
def ofText? (s : String) : Option Decimal128 :=
  let (negative, cs) := splitSign s.toList
  match String.ofList (cs.map Char.toLower) with
  | "nan" => some (nan negative false)
  | "snan" => some (nan negative true)
  | "inf" | "infinity" => some (infinity negative)
  | _ => ofNotation? negative cs

/-! ## Writing -/

/-- The magnitude of a finite number: plain notation while the exponent is not positive and at most
six zeros follow the point, scientific notation otherwise. -/
def magnitudeText (coefficient : Nat) (exponent : Int) : String :=
  let digits := (toString coefficient).toList
  let adjusted := exponent + digits.length - 1
  if exponent ≤ 0 ∧ -6 ≤ adjusted then
    let places := (-exponent).toNat
    if places = 0 then String.ofList digits
    else if digits.length ≤ places then
      "0." ++ "".pushn '0' (places - digits.length) ++ String.ofList digits
    else
      String.ofList (digits.take (digits.length - places)) ++ "." ++
        String.ofList (digits.drop (digits.length - places))
  else
    let fraction := if digits.length ≤ 1 then "" else "." ++ String.ofList (digits.drop 1)
    let sign := if adjusted < 0 then "" else "+"
    String.ofList (digits.take 1) ++ fraction ++ "E" ++ sign ++ toString adjusted

/-- The text of a number. The sign of NaN is not shown. -/
def text (d : Decimal128) : String :=
  match d.content with
  | .nan => "NaN"
  | .infinity negative => if negative then "-Infinity" else "Infinity"
  | .finite negative coefficient exponent =>
    (if negative then "-" else "") ++ magnitudeText coefficient exponent

/-- The bytes of the encoding in hexadecimal. -/
def inspect (d : Decimal128) : String := String.ofList (Hex.encode d.bytes)

end Decimal128

end Dossier
