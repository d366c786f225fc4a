/-
JSON texts as values. Objects keep the order of their members, and a number written as an integer
is told apart from one written with a fraction or an exponent.
-/
import Dossier.Bounded
import Dossier.Double.Basic

namespace Dossier

/-- A JSON value. -/
inductive Json where
  | null
  | boolean (b : Bool)
  | integer (i : Int)
  | real (x : Double)
  | string (s : String)
  | array (items : List Json)
  | object (members : List (String × Json))

namespace Json

instance : Inhabited Json := ⟨null⟩

/-- The integers that stay integers; a larger literal is a real. -/
def isIntegerRange (i : Int) : Bool := -0x8000000000000000 ≤ i && i ≤ Bounded.maxNat64

/-- The number that an integer literal denotes. -/
def ofIntegerLiteral (i : Int) : Json :=
  if isIntegerRange i then integer i else real (Double.ofInt i)

/-- The members of an object. -/
def members? : Json → Option (List (String × Json))
  | object members => some members
  | _ => none

/-- The member of an object with a given name. -/
def member? (j : Json) (key : String) : Option Json := j.members?.bind (·.lookup key)

def items? : Json → Option (List Json)
  | array items => some items
  | _ => none

def string? : Json → Option String
  | string s => some s
  | _ => none

/-- The name of a constant: as a string, or as the only member of an object that holds null. With
`orEmpty` set that member may also hold an object without members. -/
def name? (orEmpty : Bool) : Json → Option String
  | string s => some s
  | object [(s, null)] => some s
  | object [(s, object [])] => if orEmpty then some s else none
  | _ => none

def boolean? : Json → Option Bool
  | boolean b => some b
  | _ => none

/-- A number written as an integer. -/
def integer? : Json → Option Int
  | integer i => some i
  | _ => none

/-- A number written as an integer that fits 64 bits with a sign. -/
def int64? (j : Json) : Option Int64 := j.integer?.bind Bounded.int64?

/-- A number written as an integer that fits 32 bits with a sign. -/
def int32? (j : Json) : Option Int32 := j.integer?.bind Bounded.int32?

/-- Any number, as a double. -/
def double? : Json → Option Double
  | integer i => some (Double.ofInt i)
  | real x => some x
  | _ => none

/-- A list whose items are all read by `read`. -/
def listOf? {α : Type} (read : Json → Option α) (j : Json) : Option (List α) :=
  j.items?.bind (·.mapM read)

/-! ## Members with a reading

The readers of object members below return `none` when the member is there but cannot be read. -/

/-- A member that has to be there. -/
def required {α : Type} (read : Json → Option α) (key : String) (j : Json) : Option α :=
  (j.member? key).bind read

/-- A member that may be left out, with the value it then has. -/
def withDefault {α : Type} (read : Json → Option α) (absent : α) (key : String) (j : Json) :
    Option α :=
  match j.member? key with
  | some m => read m
  | none => some absent

/-- A member that may be left out or null. -/
def optional {α : Type} (read : Json → Option α) (key : String) (j : Json) : Option (Option α) :=
  match j.member? key with
  | none | some null => some none
  | some m => (read m).map some

end Json

end Dossier
