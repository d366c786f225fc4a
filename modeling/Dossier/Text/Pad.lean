/-
Numbers written to a least width.
-/

namespace Dossier

/-- A text filled up on the left to a least width. -/
def padLeft (fill : Char) (width : Nat) (s : String) : String :=
  "".pushn fill (width - s.length) ++ s

/-- A number with leading zeros up to a least number of digits. -/
def zeroPadded (width n : Nat) : String := padLeft '0' width (toString n)

/-- Writes the sign and then the magnitude by `magnitude`. -/
def signed (plus : Bool) (magnitude : Nat → String) (i : Int) : String :=
  (if i < 0 then "-" else if plus then "+" else "") ++ magnitude i.natAbs

end Dossier
