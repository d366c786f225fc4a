/-
Stored values read from JSON. Kinds that JSON lacks are in extended notation, and nothing may
follow the member that names a kind.
-/
import Dossier.Json.Basic
import Dossier.Value.Extended

namespace Dossier.Json

/-- An integer in JSON: not negative and small it has 32 bits, else 64; past those there is none. -/
def integerValue? (i : Int) : Option Value :=
  if 0 ≤ i ∧ i ≤ 0x7FFFFFFF then some (.int32 (Int32.ofInt i)) else (Bounded.int64? i).map .int64

mutual

/-- The value with the same structure as a JSON value. -/
def literal? : Json → Option Value
  | null => some .null
  | boolean b => some (.boolean b)
  | integer i => integerValue? i
  | real x => some (.double x)
  | string s => some (.string s)
  | array items => (literalItems? items).map .array
  | object members => (literalMembers? members).map .document

def literalItems? : List Json → Option (List Value)
  | [] => some []
  | j :: rest => (literal? j).bind fun v => (literalItems? rest).map (v :: ·)

def literalMembers? : List (String × Json) → Option Document
  | [] => some []
  | (name, j) :: rest =>
    (literal? j).bind fun v => (literalMembers? rest).map ((name, v) :: ·)

end

/-- The stored value that a JSON value stands for. -/
def value? (j : Json) : Option Value := j.literal?.bind (Value.resolve? true)

end Dossier.Json
