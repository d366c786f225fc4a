/-
The values that documents hold. A document is a list of entries, one per key, whose order is part
of the value but not of its equality. Pointers into other collections, a kind of value that is
deprecated and that nothing here makes or asks for, are left out.
-/
import Dossier.Double.Basic
import Dossier.Entries
import Dossier.Uuid
import Dossier.Value.Decimal128

namespace Dossier

/-- A stored value. -/
inductive Value where
  | null
  | undefined
  | minKey
  | maxKey
  | boolean (b : Bool)
  | int32 (i : Int32)
  | int64 (i : Int64)
  | double (x : Double)
  | decimal128 (d : Decimal128)
  | string (s : String)
  | symbol (s : String)
  | code (s : String)
  /-- Code with the names that it may use. -/
  | scopedCode (s : String) (scope : List (String × Value))
  | regex (pattern options : String)
  | dateTime (millis : Int64)
  | timestamp (time increment : UInt32)
  | objectId (bytes : List UInt8)
  | binary (subtype : UInt8) (bytes : List UInt8)
  | array (items : List Value)
  | document (entries : List (String × Value))

/-- The entries of a document. -/
abbrev Document := List (String × Value)

namespace Value

instance : Inhabited Value := ⟨null⟩

/-- The subtype of binary values that hold plain bytes. -/
def genericSubtype : UInt8 := 0

/-- The subtype of binary values that hold an identifier. -/
def uuidSubtype : UInt8 := 4

/-- The subtype that identifiers had before `uuidSubtype`. -/
def oldUuidSubtype : UInt8 := 3

/-- An identifier as a stored value. -/
def uuid (u : Uuid) : Value := binary uuidSubtype u.bytes

/-- The identifier that a value holds. -/
def uuid? : Value → Option Uuid
  | binary subtype bytes => if subtype = uuidSubtype then Uuid.ofBytes? bytes else none
  | _ => none

/-- The entries of a value that is a document. -/
def entries? : Value → Option Document
  | document entries => some entries
  | _ => none

/-- Whether a value stands for nothing. -/
def isNothing : Value → Bool
  | null | undefined => true
  | _ => false

/-- Null for nothing. -/
def ofOption : Option Value → Value
  | some v => v
  | none => null

/-- The name of the kind of a value. -/
def kindName : Value → String
  | null => "Null"
  | undefined => "Undefined"
  | minKey => "MinKey"
  | maxKey => "MaxKey"
  | boolean _ => "Boolean"
  | int32 _ => "Int32"
  | int64 _ => "Int64"
  | double _ => "Double"
  | decimal128 _ => "Decimal128"
  | string _ => "String"
  | symbol _ => "Symbol"
  | code _ => "JavaScriptCode"
  | scopedCode _ _ => "JavaScriptCodeWithScope"
  | regex _ _ => "RegularExpression"
  | dateTime _ => "DateTime"
  | timestamp _ _ => "Timestamp"
  | objectId _ => "ObjectId"
  | binary _ _ => "Binary"
  | array _ => "Array"
  | document _ => "Document"

/-- The name of a binary subtype. -/
def subtypeName (subtype : UInt8) : String :=
  match subtype.toNat with
  | 0 => "Generic"
  | 1 => "Function"
  | 2 => "BinaryOld"
  | 3 => "UuidOld"
  | 4 => "Uuid"
  | 5 => "Md5"
  | 6 => "Encrypted"
  | 7 => "Column"
  | 8 => "Sensitive"
  | 9 => "Vector"
  | n => if n < 128 then s!"Reserved({n})" else s!"UserDefined({n})"

/-! ## Equality -/

mutual

/-- Equality of stored values: kinds are told apart (the integers and doubles too), doubles compare
as numbers, and documents are equal when they bind the same keys to equal values. -/
def same : Value → Value → Bool
  | null, null => true
  | undefined, undefined => true
  | minKey, minKey => true
  | maxKey, maxKey => true
  | boolean a, boolean b => a == b
  | int32 a, int32 b => a == b
  | int64 a, int64 b => a == b
  | double a, double b => a.numEq b
  | decimal128 a, decimal128 b => a == b
  | string a, string b => a == b
  | symbol a, symbol b => a == b
  | code a, code b => a == b
  | scopedCode a s, scopedCode b t => a == b && s.length == t.length && sameEntries s t
  | regex p o, regex p' o' => p == p' && o == o'
  | dateTime a, dateTime b => a == b
  | timestamp t i, timestamp t' i' => t == t' && i == i'
  | objectId a, objectId b => a == b
  | binary s a, binary s' b => s == s' && a == b
  | array a, array b => sameItems a b
  | document a, document b => a.length == b.length && sameEntries a b
  | _, _ => false

/-- Item by item, in order. -/
def sameItems : List Value → List Value → Bool
  | [], [] => true
  | a :: as, b :: bs => same a b && sameItems as bs
  | _, _ => false

/-- Every entry on the left has an equal one on the right. -/
def sameEntries : List (String × Value) → List (String × Value) → Bool
  | [], _ => true
  | (key, a) :: rest, other =>
    (match other.lookup key with
      | some b => same a b
      | none => false) && sameEntries rest other

end

end Value

end Dossier
