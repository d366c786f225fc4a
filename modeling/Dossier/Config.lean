/-
The layout of a collection of entities: which fields carry identity, activity and slugs, which may
be filtered, how results are ordered, and how dates are read and shown.
-/
import Dossier.Filter.Day
import Dossier.Json.Basic
import Dossier.Query.Expr

namespace Dossier

/-- The pattern that dates are shown by. -/
def defaultDateFormat : String := "%Y-%m-%d %H:%M:%S"

/-- The fields that identify and stamp an entity, which no comparison or import touches. -/
def defaultIdentityFields : List String :=
  ["id", "slug", "sequence", "created_at", "created_by", "modified_at", "modified_by"]

/-- The layout of a collection of entities. -/
structure Config where
  slugPrefix : Option String := none
  /-- The counter that numbers slugs; the name of the collection when left out. -/
  sequenceName : Option String := none
  defaultSort : List SortKey := []
  /-- The fields that requests may filter; all fields when empty. -/
  filterableFields : List String := []
  identityFields : List String := defaultIdentityFields
  idField : String := "id"
  slugField : String := "slug"
  sequenceField : String := "sequence"
  activeField : String := "active"
  utcOffsetMinutes : Int32 := 0
  dateFormat : String := defaultDateFormat
  blankSentinel : String := "(Blanks)"
  auditCollection : String := "change_records"

namespace Config

/-- The counter that numbers the slugs of a collection. -/
def sequenceNameOr (c : Config) (collection : String) : String := c.sequenceName.getD collection

/-- The part of a dotted path before its first dot. -/
def topField (field : String) : String := String.ofList (field.toList.takeWhile (· != '.'))

/-- Whether requests may filter a field. Deep filtering accepts every path into a filterable
field. -/
def isFilterable (c : Config) (field : String) (deep : Bool) : Bool :=
  c.filterableFields.isEmpty ||
    c.filterableFields.contains (if deep then topField field else field)

def isIdentityField (c : Config) (field : String) : Bool := c.identityFields.contains field

def utcOffsetMillis (c : Config) : Int := c.utcOffsetMinutes.toInt * 60000

/-- How filters on the collection are read. -/
def filterSettings (c : Config) : FilterSettings := ⟨c.utcOffsetMillis, c.blankSentinel⟩

end Config

/-! ## Sort directives in JSON and as values -/

namespace Direction

def name : Direction → String
  | ascending => "asc"
  | descending => "desc"

/-- Reads a direction in lower or upper case. -/
def ofName? : String → Option Direction
  | "asc" | "ASC" => some ascending
  | "desc" | "DESC" => some descending
  | _ => none

def ofJson? (j : Json) : Option Direction := (j.name? false).bind ofName?

end Direction

namespace SortKey

open Json

/-- A member that has two names, of which exactly one has to be there. -/
def eitherMember? {α : Type} (read : Json → Option α) (name other : String) (j : Json) : Option α :=
  match j.member? name, j.member? other with
  | some m, none => read m
  | none, some m => read m
  | _, _ => none

def ofJson? (j : Json) : Option SortKey := do
  let field ← eitherMember? string? "field" "colId" j
  let direction ← eitherMember? Direction.ofJson? "direction" "sort" j
  return { field, direction }

def toValue (key : SortKey) : Value :=
  .document [("field", .string key.field), ("direction", .string key.direction.name)]

end SortKey

/-! ## Configurations in JSON and as values -/

namespace Config

open Json

/-- Reads a configuration; every member may be left out. -/
def ofJson? (j : Json) : Option Config := do
  let _ ← j.members?
  let usual : Config := {}
  let text (key : String) (absent : String) := withDefault string? absent key j
  let slugPrefix ← optional string? "slug_prefix" j
  let sequenceName ← optional string? "sequence_name" j
  let defaultSort ← withDefault (listOf? SortKey.ofJson?) usual.defaultSort "default_sort" j
  let filterableFields ← withDefault (listOf? string?) usual.filterableFields "filterable_fields" j
  let identityFields ← withDefault (listOf? string?) usual.identityFields "identity_fields" j
  let idField ← text "id_field" usual.idField
  let slugField ← text "slug_field" usual.slugField
  let sequenceField ← text "sequence_field" usual.sequenceField
  let activeField ← text "active_field" usual.activeField
  let utcOffsetMinutes ← withDefault int32? usual.utcOffsetMinutes "utc_offset_minutes" j
  let dateFormat ← text "date_format" usual.dateFormat
  let blankSentinel ← text "blank_sentinel" usual.blankSentinel
  let auditCollection ← text "audit_collection" usual.auditCollection
  return { slugPrefix, sequenceName, defaultSort, filterableFields, identityFields, idField,
           slugField, sequenceField, activeField, utcOffsetMinutes, dateFormat, blankSentinel,
           auditCollection }

/-- A configuration as a stored value. -/
def toValue (c : Config) : Value :=
  .document
    [("slug_prefix", Value.ofOption (c.slugPrefix.map .string)),
      ("sequence_name", Value.ofOption (c.sequenceName.map .string)),
      ("default_sort", .array (c.defaultSort.map SortKey.toValue)),
      ("filterable_fields", .array (c.filterableFields.map .string)),
      ("identity_fields", .array (c.identityFields.map .string)),
      ("id_field", .string c.idField),
      ("slug_field", .string c.slugField),
      ("sequence_field", .string c.sequenceField),
      ("active_field", .string c.activeField),
      ("utc_offset_minutes", .int32 c.utcOffsetMinutes),
      ("date_format", .string c.dateFormat),
      ("blank_sentinel", .string c.blankSentinel),
      ("audit_collection", .string c.auditCollection)]

end Config

end Dossier
