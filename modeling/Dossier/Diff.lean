/-
Comparing two versions of a document property by property. Absent and null are the same, identity
fields are left out, and both sides of a change are rendered as text.
-/
import Dossier.Calendar.Pattern
import Dossier.Config
import Dossier.Fault
import Dossier.Value.Display

namespace Dossier

/-- One property whose value differs, with both values as they are shown. -/
structure PropertyChange where
  property : String
  oldValue : Option String
  newValue : Option String
  deriving DecidableEq

/-- How versions are compared and values shown. -/
structure Differ where
  identityFields : List String := defaultIdentityFields
  dateFormat : String := defaultDateFormat
  utcOffsetSeconds : Int := 0

namespace Differ

/-- The comparison that a configuration asks for. Its seconds are counted in 32 bits, as the minutes are, and wrap
where they do not fit. -/
def ofConfig (c : Config) : Differ :=
  ⟨c.identityFields, c.dateFormat, (c.utcOffsetMinutes * 60).toInt⟩

/-! ## Rendering -/

/-- The first instant that can be shown, at the start of the year -262143. -/
def firstInstant : Int := -8334601228800000

/-- The last instant that can be shown, at the end of the year 262142. -/
def lastInstant : Int := 8210266876799999

/-- An instant by the date pattern, at the offset of the engine, which is less than a day. -/
def renderDate (d : Differ) (millis : Int64) : Except Fault String :=
  if 86400 ≤ d.utcOffsetSeconds.natAbs then
    .error (.conversion (.utcOffset d.utcOffsetSeconds))
  else if millis.toInt < firstInstant ∨ lastInstant < millis.toInt then
    .error (.conversion (.timestamp millis))
  else
    let format := if d.dateFormat.isEmpty then defaultDateFormat else d.dateFormat
    match Pattern.format? format ⟨millis.toInt, d.utcOffsetSeconds⟩ with
    | some text => .ok text
    | none => .error (.conversion (.dateFormat format))

/-- An identifier by its hyphenated text; no other binary can be shown. -/
def renderBinary (subtype : UInt8) (bytes : List UInt8) : Except Fault String :=
  if subtype = Value.uuidSubtype ∨ subtype = Value.oldUuidSubtype then
    match Uuid.ofBytes? bytes with
    | some u => .ok u.text
    | none => .error (.conversion (.uuidSize bytes.length))
  else .error (.conversion (.binarySubtype subtype))

/-- The text of a value as it is shown in a change, nothing for null. -/
def render (d : Differ) (v : Value) : Except Fault (Option String) :=
  match v with
  | .null | .undefined => .ok none
  | .string s => .ok (some s)
  | .int32 i => .ok (some (toString i.toInt))
  | .int64 i => .ok (some (toString i.toInt))
  | .double x => .ok (some x.text)
  | .boolean b => .ok (some (toString b))
  | .dateTime millis => (d.renderDate millis).map some
  | .objectId bytes => .ok (some (String.ofList (Hex.encode bytes)))
  | .binary subtype bytes => (renderBinary subtype bytes).map some
  | .document _ | .array _ | .decimal128 _ | .timestamp _ _ => .ok (some v.display)
  | .minKey | .maxKey | .symbol _ | .code _ | .scopedCode _ _ | .regex _ _ =>
    .error (.conversion (.kind v.kindName))

/-! ## Comparison -/

/-- Whether a key is never compared. -/
def isIdentity (d : Differ) (key : String) : Bool := key == "_id" || d.identityFields.contains key

/-- What a document holds under a key, null counting as nothing. -/
def valueAt (doc : Document) (key : String) : Option Value :=
  (doc.lookup key).filter fun v => !v.isNothing

/-- Equality of what two documents hold under a key. -/
def agree : Option Value → Option Value → Bool
  | none, none => true
  | some a, some b => a.same b
  | _, _ => false

/-- Renders one side of a change. -/
def renderSide (d : Differ) : Option Value → Except Fault (Option String)
  | some v => d.render v
  | none => .ok none

/-- The change of one property, if its values differ. -/
def change? (d : Differ) (old new : Document) (key : String) :
    Except Fault (Option PropertyChange) :=
  let before := valueAt old key
  let after := valueAt new key
  if d.isIdentity key || agree before after then .ok none
  else do
    let oldValue ← d.renderSide before
    let newValue ← d.renderSide after
    return some ⟨key, oldValue, newValue⟩

/-- The changes of the given properties, in order. -/
def changesOf (d : Differ) (old new : Document) : List String → Except Fault (List PropertyChange)
  | [] => .ok []
  | key :: rest => do
    let change ← d.change? old new key
    let more ← changesOf d old new rest
    return change.toList ++ more

/-- The properties to compare: those given, or the keys of the old version and then those that only
the new one has. -/
def compared (old new : Document) (only : Option (List String)) : List String :=
  match only with
  | some properties => properties
  | none =>
    Entries.keys old ++ (Entries.keys new).filter fun key => !Entries.contains key old

/-- The changes between two versions of a document. -/
def diffDocuments (d : Differ) (old new : Document) (only : Option (List String)) :
    Except Fault (List PropertyChange) :=
  d.changesOf old new (compared old new only)

end Differ

end Dossier
