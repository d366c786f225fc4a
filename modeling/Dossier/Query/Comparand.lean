/-
What predicates and sorting see of a value. All numbers are compared as doubles, and kinds without
a useful order are not told apart.
-/
import Dossier.Query.Expr

namespace Dossier

/-- A value as it is compared. -/
inductive Comparand where
  | null
  | number (x : Double)
  | string (s : String)
  | map (entries : List (String × Comparand))
  | array (items : List Comparand)
  | binary (subtype : UInt8) (bytes : List UInt8)
  | objectId (bytes : List UInt8)
  | boolean (b : Bool)
  | instant (millis : Int64)
  /-- Regular expressions, code, symbols, decimals, timestamps and the extreme keys. -/
  | unordered

namespace Comparand

mutual

/-- What comparison sees of a value. -/
def ofValue : Value → Comparand
  | .null => null
  | .undefined => null
  | .boolean b => boolean b
  | .int32 i => number (Double.ofInt i.toInt)
  | .int64 i => number (Double.ofInt i.toInt)
  | .double x => number x
  | .dateTime millis => instant millis
  | .string s => string s
  | .objectId bytes => objectId bytes
  | .binary subtype bytes => binary subtype bytes
  | .array items => array (ofItems items)
  | .document entries => map (ofEntries entries)
  | _ => unordered

def ofItems : List Value → List Comparand
  | [] => []
  | v :: rest => ofValue v :: ofItems rest

def ofEntries : List (String × Value) → List (String × Comparand)
  | [] => []
  | (key, v) :: rest => (key, ofValue v) :: ofEntries rest

end

/-! ## Equality -/

mutual

/-- Equality: of one kind and the same content. Maps bind the same keys to equal contents. Nothing
is equal to an unordered kind. -/
def same : Comparand → Comparand → Bool
  | null, null => true
  | number a, number b => a.numEq b
  | string a, string b => a == b
  | map a, map b => a.length == b.length && sameEntries a b
  | array a, array b => sameItems a b
  | binary s a, binary s' b => s == s' && a == b
  | objectId a, objectId b => a == b
  | boolean a, boolean b => a == b
  | instant a, instant b => a == b
  | _, _ => false

def sameItems : List Comparand → List Comparand → Bool
  | [], [] => true
  | a :: as, b :: bs => same a b && sameItems as bs
  | _, _ => false

def sameEntries : List (String × Comparand) → List (String × Comparand) → Bool
  | [], _ => true
  | (key, a) :: rest, other =>
    (match other.lookup key with
      | some b => same a b
      | none => false) && sameEntries rest other

end

/-! ## Order -/

/-- Bytes are ordered from the first on, a shorter sequence before its extensions. -/
def compareBytes : List UInt8 → List UInt8 → Ordering
  | [], [] => .eq
  | [], _ :: _ => .lt
  | _ :: _, [] => .gt
  | a :: as, b :: bs => (compare a.toNat b.toNat).then (compareBytes as bs)

/-- The order within a kind. Arrays, maps and unordered kinds have none; binaries are ordered by
their bytes alone. -/
def compare? : Comparand → Comparand → Option Ordering
  | null, null => some .eq
  | boolean a, boolean b => some (compare a.toNat b.toNat)
  | number a, number b => a.compare? b
  | instant a, instant b => some (compare a.toInt b.toInt)
  | string a, string b => some (compare a b)
  | objectId a, objectId b => some (compareBytes a b)
  | binary _ a, binary _ b => some (compareBytes a b)
  | _, _ => none

/-- The place of a kind when values of different kinds are sorted. -/
def rank : Comparand → Nat
  | null => 0
  | number _ => 1
  | string _ => 2
  | map _ => 3
  | array _ => 4
  | binary _ _ => 5
  | objectId _ => 6
  | boolean _ => 7
  | instant _ => 8
  | unordered => 9

mutual

/-- The order used for sorting: by kind, then arrays item by item with the shorter first, other
kinds by their own order. Contents without an order tie. -/
def sortCompare : Comparand → Comparand → Ordering
  | array a, array b => sortCompareItems a b
  | a, b => (compare a.rank b.rank).then ((compare? a b).getD .eq)

def sortCompareItems : List Comparand → List Comparand → Ordering
  | [], [] => .eq
  | [], _ :: _ => .lt
  | _ :: _, [] => .gt
  | a :: as, b :: bs => (sortCompare a b).then (sortCompareItems as bs)

end

/-! ## Fan-out over arrays -/

/-- Equal to a value, or an array with an element equal to it. -/
def hits (stored operand : Comparand) : Bool :=
  same stored operand ||
    match stored with
    | array items => items.any (same · operand)
    | _ => false

/-- Whether an order result satisfies a range comparison. -/
def admits : Comparison → Ordering → Bool
  | .gt, o => o == .gt
  | .gte, o => o != .lt
  | .lt, o => o == .lt
  | .lte, o => o != .gt
  | _, _ => false

/-- Whether a value compares with an operand as asked, by the order of its kind. -/
def inOrder (op : Comparison) (stored operand : Comparand) : Bool :=
  match compare? stored operand with
  | some o => admits op o
  | none => false

def isArray : Comparand → Bool
  | array _ => true
  | _ => false

mutual

/-- A range comparison. Against an operand that is no array, an array satisfies it when one of its
elements does. -/
def satisfies (op : Comparison) (operand : Comparand) : Comparand → Bool
  | array items =>
    if operand.isArray then inOrder op (array items) operand else anySatisfies op operand items
  | stored => inOrder op stored operand

def anySatisfies (op : Comparison) (operand : Comparand) : List Comparand → Bool
  | [] => false
  | item :: rest => satisfies op operand item || anySatisfies op operand rest

end

end Comparand

end Dossier
