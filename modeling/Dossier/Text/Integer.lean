/-
Reading integers from text: an optional sign and decimal digits.
-/
import Dossier.Bounded
import Dossier.Double.Reading

namespace Dossier

/-- Reads an integer of any size. -/
def readInt? (s : String) : Option Int :=
  let (negative, digits) := splitSign s.toList
  if digits ≠ [] ∧ digits.all (fun c => (digitValue? c).isSome) then
    let magnitude : Int := digitsValue digits
    some (if negative then -magnitude else magnitude)
  else none

/-- Reads an integer that fits 64 bits with a sign. -/
def readInt64? (s : String) : Option Int64 := (readInt? s).bind Bounded.int64?

/-- Reads an integer that fits 32 bits with a sign. -/
def readInt32? (s : String) : Option Int32 := (readInt? s).bind Bounded.int32?

end Dossier
