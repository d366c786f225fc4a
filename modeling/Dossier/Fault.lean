/-
What can go wrong. A fault names its cause; its wording is decided in one place, `Fault.message`.
-/
import Dossier.Value.Basic

namespace Dossier

/-- Why a request or an entity is not acceptable. -/
inductive Violation where
  | negativePage (page : Int)
  | nonPositivePageSize (size : Int)
  | emptyPageSize
  | numberOperandMissing (field operand : String)
  | dateBoundMissing (field bound : String)
  | dateOutOfRange (millis : Int64)
  | notFilterable (field : String)
  /-- A membership test is evaluated with an operand that is no array. -/
  | membershipOperand (field : String)
  /-- A membership test is put into a filter document with an operand that is no array. -/
  | membershipForm (field : String)
  | identifierMissing (operation collection : String)
  | noPropertyNamed (collection : String)
  | unsupportedProperty (property collection : String)
  | nonPositiveIncrement (increment : Int64) (sequence : String)
  | counterOverflow (counter : String) (delta : Int64)
  /-- A rule of the entity itself, in its own words. -/
  | rule (text : String)
  deriving DecidableEq

/-- Why a value has no display form. -/
inductive Unrenderable where
  | uuidSize (size : Nat)
  | binarySubtype (subtype : UInt8)
  | kind (name : String)
  | utcOffset (seconds : Int)
  | timestamp (millis : Int64)
  | dateFormat (format : String)
  | other (text : String)
  deriving DecidableEq

/-- Why a value is not the stored form that is expected. -/
inductive Mismatch where
  | notADocument (collection kind : String)
  | unreadable (collection : String)
  | other (text : String)
  deriving DecidableEq

/-- The outcome of an operation that did not succeed. -/
inductive Fault where
  | notFound (key collection : String)
  | alreadyExists (key collection : String)
  | validation (cause : Violation)
  | conversion (cause : Unrenderable)
  | serialization (cause : Mismatch)
  | initialization (text : String)
  | collectionNotFound (collection : String)
  | backend (text : String)
  deriving DecidableEq

namespace Violation

/-- The wording of a violation. -/
def message : Violation → String
  | negativePage page => s!"page must be zero or greater, got {page}"
  | nonPositivePageSize size => s!"page size must be positive, got {size}"
  | emptyPageSize => "page size must be positive"
  | numberOperandMissing field operand => s!"number filter on '{field}' is missing '{operand}'"
  | dateBoundMissing field bound => s!"date filter on '{field}' is missing '{bound}'"
  | dateOutOfRange millis => s!"date {millis.toInt} is out of range"
  | notFilterable field => s!"field '{field}' is not filterable"
  | membershipOperand field => s!"membership test on '{field}' needs an array operand"
  | membershipForm field => s!"membership test on '{field}' requires an array operand"
  | identifierMissing operation collection =>
    s!"{operation} requires a document with an identifier in {collection}"
  | noPropertyNamed collection => s!"no properties named for {collection}"
  | unsupportedProperty property collection =>
    s!"unsupported property '{property}' for {collection}"
  | nonPositiveIncrement increment sequence =>
    s!"sequence increment must be positive, got {increment.toInt} for '{sequence}'"
  | counterOverflow counter delta =>
    s!"counter '{counter}' overflows when advanced by {delta.toInt}"
  | rule text => text

end Violation

namespace Unrenderable

/-- The wording of a failed conversion. -/
def message : Unrenderable → String
  | uuidSize size => s!"uuid binary holds {size} bytes"
  | binarySubtype subtype =>
    s!"binary value of subtype {Value.subtypeName subtype} has no display form"
  | kind name => s!"{name} value has no display form"
  | utcOffset seconds => s!"invalid utc offset of {seconds} seconds"
  | timestamp millis => s!"timestamp {millis.toInt} is out of range"
  | dateFormat format => s!"invalid date format '{format}'"
  | other text => text

end Unrenderable

namespace Mismatch

/-- The wording of a mismatch. -/
def message : Mismatch → String
  | notADocument collection kind =>
    s!"{collection} serialized to {kind}, expected a document"
  | unreadable collection => s!"value cannot be read as a document of {collection}"
  | other text => text

end Mismatch

namespace Fault

/-- The wording of a fault. -/
def message : Fault → String
  | notFound key collection => s!"Document {key} not found in collection {collection}"
  | alreadyExists key collection => s!"Document {key} already exists in collection {collection}"
  | validation cause => s!"Validation error: {cause.message}"
  | conversion cause => s!"Conversion error: {cause.message}"
  | serialization cause => s!"Serialization error: {cause.message}"
  | initialization text => s!"Initialization error: {text}"
  | collectionNotFound collection => s!"Collection not found: {collection}"
  | backend text => s!"Backend error: {text}"

def isNotFound : Fault → Bool
  | notFound _ _ => true
  | _ => false

def isAlreadyExists : Fault → Bool
  | alreadyExists _ _ => true
  | _ => false

end Fault

end Dossier
