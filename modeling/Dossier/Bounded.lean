/-
Narrowing of unbounded integers to the words that values are kept in.
-/

namespace Dossier.Bounded

/-- Whether an integer fits 64 bits with a sign. -/
def fitsInt64 (i : Int) : Bool := -0x8000000000000000 ≤ i && i ≤ 0x7FFFFFFFFFFFFFFF

/-- The integer itself, if it fits 64 bits with a sign. -/
def checked? (i : Int) : Option Int := if fitsInt64 i then some i else none

/-- The word of 64 bits with a sign that holds an integer. -/
def int64? (i : Int) : Option Int64 := if fitsInt64 i then some (Int64.ofInt i) else none

/-- The word of 32 bits with a sign that holds an integer. -/
def int32? (i : Int) : Option Int32 :=
  if -0x80000000 ≤ i ∧ i ≤ 0x7FFFFFFF then some (Int32.ofInt i) else none

/-- The largest natural number of 64 bits. -/
def maxNat64 : Nat := 0xFFFFFFFFFFFFFFFF

/-- Multiplication that stops at the largest number of 64 bits. -/
def saturatingMul (a b : Nat) : Nat := min (a * b) maxNat64

end Dossier.Bounded
