/-
The inspection form of values, which names the kind of every value.
-/
import Dossier.Text.Inspect
import Dossier.Value.Display

namespace Dossier.Value

open Inspect

/-- The inspection form of a document with the given entries. -/
def documentText (entries : List String) : String :=
  "Document(\x7b" ++ String.intercalate ", " entries ++ "\x7d)"

mutual

/-- The inspection form of a value. -/
def inspect : Value → String
  | null => "Null"
  | undefined => "Undefined"
  | minKey => "MinKey"
  | maxKey => "MaxKey"
  | boolean b => "Boolean(" ++ toString b ++ ")"
  | int32 i => "Int32(" ++ toString i.toInt ++ ")"
  | int64 i => "Int64(" ++ toString i.toInt ++ ")"
  | double x => "Double(" ++ x.inspect ++ ")"
  | decimal128 d => "Decimal128(" ++ d.inspect ++ ")"
  | string s => "String(" ++ quoted s ++ ")"
  | symbol s => "Symbol(" ++ quoted s ++ ")"
  | code s => "JavaScriptCode(" ++ quoted s ++ ")"
  | scopedCode s scope => record "JavaScriptCodeWithScope"
      [("code", quoted s), ("scope", documentText (inspectEntries scope))]
  | regex pattern options => record "Regex"
      [("pattern", quoted pattern), ("options", quoted options)]
  | dateTime millis => "DateTime(" ++ Moment.display millis.toInt ++ ")"
  | timestamp time increment => record "Timestamp"
      [("time", toString time.toNat), ("increment", toString increment.toNat)]
  | objectId bytes => "ObjectId(" ++ quoted (String.ofList (Hex.encode bytes)) ++ ")"
  | binary subtype bytes => record "Binary"
      [("subtype", subtypeName subtype), ("bytes", bracketed (bytes.map fun b => toString b.toNat))]
  | array items => "Array(" ++ bracketed (inspectItems items) ++ ")"
  | document entries => documentText (inspectEntries entries)

/-- The inspection forms of the items of an array. -/
def inspectItems : List Value → List String
  | [] => []
  | v :: rest => inspect v :: inspectItems rest

/-- The inspection forms of the entries of a document. -/
def inspectEntries : List (String × Value) → List String
  | [] => []
  | (key, v) :: rest => (quoted key ++ ": " ++ inspect v) :: inspectEntries rest

end

end Dossier.Value
