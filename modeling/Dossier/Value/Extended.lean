/-
Extended notation: a document in which a key with a dollar sign names the kind of value that the
document stands for. Documents are resolved key by key; at the first such key the entries before it
are dropped, and its content alone makes the value.
-/
import Dossier.Calendar.Rfc3339
import Dossier.Text.Base64
import Dossier.Text.Integer
import Dossier.Value.Scalar

namespace Dossier.Value

/-! ## Contents -/

/-- The values of two keys, when a document has these keys and no other. -/
def pair? (first second : String) : Value → Option (Value × Value)
  | document [(k, a), (l, b)] =>
    if k = first ∧ l = second then some (a, b)
    else if k = second ∧ l = first then some (b, a)
    else none
  | _ => none

/-- The bytes of an object identifier, from 24 hexadecimal digits. -/
def objectIdBytes? (s : String) : Option (List UInt8) :=
  if s.toList.length = 24 then Hex.decode? s.toList else none

/-- An object identifier, by its digits or its twelve bytes. -/
def objectIdOf? : Value → Option Value
  | string s => (objectIdBytes? s).map objectId
  | binary subtype bytes =>
    if subtype = genericSubtype ∧ bytes.length = 12 then some (objectId bytes) else none
  | _ => none

/-- The double that a text names; infinities and NaN have fixed spellings. -/
def doubleText? : String → Option Double
  | "Infinity" => some (Double.infinity false)
  | "-Infinity" => some (Double.infinity true)
  | "NaN" => some Double.nan
  | s => Double.ofText? s

/-- An instant: its milliseconds as a number or as the text of a long integer, or its RFC 3339
form. -/
def instantOf? : Value → Option Value
  | document [(key, v)] =>
    if key = "$numberLong" then (v.text?.bind readInt64?).map dateTime else none
  | v =>
    match v.integer? with
    | some millis => some (dateTime millis)
    | none => (v.text?.bind Rfc3339.millis?).map fun millis => dateTime (Int64.ofInt millis)

/-- A timestamp, by its two numbers. -/
def timestampOf? (v : Value) : Option Value := do
  let (time, increment) ← v.pair? "t" "i"
  let time ← time.natural? 0xFFFFFFFF
  let increment ← increment.natural? 0xFFFFFFFF
  return timestamp (UInt32.ofNat time) (UInt32.ofNat increment)

/-- The options of a regular expression in their order. -/
def sortedOptions (options : String) : String :=
  String.ofList (options.toList.mergeSort fun a b => a.toNat ≤ b.toNat)

/-- A regular expression, by its pattern and options, neither of which holds the null character. -/
def regexOf? (v : Value) : Option Value := do
  let (pattern, options) ← v.pair? "pattern" "options"
  let pattern ← pattern.text?
  let options ← options.text?
  if (pattern.toList ++ options.toList).contains '\x00' then none
  else some (regex pattern (sortedOptions options))

/-- A binary, by its bytes in base 64 and its subtype in two hexadecimal digits. -/
def binaryOf? (v : Value) : Option Value := do
  let (bytes, subtype) ← v.pair? "base64" "subType"
  let bytes ← Base64.decode? (← bytes.text?).toList
  match ← Hex.decode? (← subtype.text?).toList with
  | [subtype] => some (binary subtype bytes)
  | _ => none

/-- The names of kinds, each with the reading of the content that follows it. There are no pointers
into other collections. -/
def namedKinds : List (String × (Value → Option Value)) :=
  [("$oid", objectIdOf?),
    ("$symbol", fun v => v.text?.map symbol),
    ("$numberInt", fun v => (v.text?.bind readInt32?).map int32),
    ("$numberLong", fun v => (v.text?.bind readInt64?).map int64),
    ("$numberDouble", fun v => (v.text?.bind doubleText?).map double),
    ("$numberDecimal", fun v => (v.text?.bind Decimal128.ofText?).map decimal128),
    ("$numberDecimalBytes", fun v => (v.bytes?.bind Decimal128.ofBytes?).map decimal128),
    ("$binary", binaryOf?),
    ("$uuid", fun v => (v.text?.bind Uuid.ofText?).map uuid),
    ("$timestamp", timestampOf?),
    ("$regularExpression", regexOf?),
    ("$dbPointer", fun _ => none),
    ("$date", instantOf?),
    ("$minKey", fun v => if v.natural? 255 = some 1 then some minKey else none),
    ("$maxKey", fun v => if v.natural? 255 = some 1 then some maxKey else none),
    ("$undefined", fun v => if v.boolean? = some true then some undefined else none)]

/-! ## Resolution -/

/-- The name of code. -/
def codeKey : String := "$code"

/-- The name of the scope of code, before or after the code itself. -/
def scopeKey : String := "$scope"

/-- Code with a scope, which has to be a document. -/
def withScope? (code : Value) (scope : Option Value) : Option Value := do
  return scopedCode (← code.text?) (← (← scope).entries?)

mutual

/-- The value that a value in extended notation stands for. Where the notation is closed nothing
may follow what makes a document another kind; otherwise what follows is not looked at. -/
def resolve? (closed : Bool) : Value → Option Value
  | array items => (resolveItems? closed items).map array
  | document entries => resolveEntries? closed [] entries
  | scopedCode s scope => withScope? (string s) (resolveEntries? closed [] scope)
  | regex pattern options => some (regex pattern (sortedOptions options))
  | v => some v

def resolveItems? (closed : Bool) : List Value → Option (List Value)
  | [] => some []
  | v :: rest => (resolve? closed v).bind fun v => (resolveItems? closed rest).map (v :: ·)

/-- The value of the given entries, after a document of the entries before them. -/
def resolveEntries? (closed : Bool) (done : Document) : List (String × Value) → Option Value
  | [] => some (document done)
  | [(key, v)] =>
    if key = codeKey then v.text?.map code
    else if key = scopeKey then none
    else
      match namedKinds.lookup key with
      | some read => read v
      | none => (resolve? closed v).map fun v => document (Entries.insert key v done)
  | (key, v) :: (next, w) :: rest =>
    if key = codeKey then
      if next = scopeKey ∧ (rest.isEmpty || !closed) then withScope? v (resolve? closed w) else none
    else if key = scopeKey then
      if next = codeKey ∧ (rest.isEmpty || !closed) then withScope? w (resolve? closed v) else none
    else
      match namedKinds.lookup key with
      | some read => if closed then none else read v
      | none =>
        (resolve? closed v).bind fun v =>
          resolveEntries? closed (Entries.insert key v done) ((next, w) :: rest)

end

end Dossier.Value
