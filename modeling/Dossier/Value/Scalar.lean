/-
Reading single contents out of values.
-/
import Dossier.Value.Basic

namespace Dossier.Value

/-- A text, kept as such or as plain bytes of UTF-8. -/
def text? : Value → Option String
  | string s => some s
  | binary subtype bytes =>
    if subtype = genericSubtype then String.fromUTF8? ⟨bytes.toArray⟩ else none
  | _ => none

def boolean? : Value → Option Bool
  | boolean b => some b
  | _ => none

/-- Any number but a decimal, as a double. -/
def number? : Value → Option Double
  | int32 i => some (Double.ofInt i.toInt)
  | int64 i => some (Double.ofInt i.toInt)
  | double x => some x
  | _ => none

/-- An integer, in 64 bits. -/
def integer? : Value → Option Int64
  | int32 i => some (Int64.ofInt i.toInt)
  | int64 i => some i
  | _ => none

/-- An integer from zero up to a limit. -/
def natural? (limit : Nat) (v : Value) : Option Nat :=
  v.integer?.bind fun i =>
    if 0 ≤ i.toInt ∧ i.toInt ≤ limit then some i.toInt.toNat else none

/-- The items of an array, each read by `read`. -/
def items? {α : Type} (read : Value → Option α) : Value → Option (List α)
  | array items => items.mapM read
  | _ => none

/-- A sequence of bytes: plain bytes, the UTF-8 of a text, or a list of numbers. -/
def bytes? : Value → Option (List UInt8)
  | binary subtype bytes => if subtype = genericSubtype then some bytes else none
  | string s => some s.toUTF8.data.toList
  | v => (v.items? (natural? 255)).map (·.map UInt8.ofNat)

end Dossier.Value
