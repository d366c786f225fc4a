/-
Change records: who did what to which entity, and for a changed property what it was and became.
-/
import Dossier.Diff
import Dossier.Entity.Basic
import Dossier.Json.Basic
import Dossier.Value.Field

namespace Dossier

/-- What was done to an entity. -/
inductive ChangeAction where
  | create
  | update
  | delete
  deriving DecidableEq

namespace ChangeAction

def name : ChangeAction → String
  | create => "create"
  | update => "update"
  | delete => "delete"

def ofName? : String → Option ChangeAction
  | "create" => some create
  | "update" => some update
  | "delete" => some delete
  | _ => none

def ofJson? (j : Json) : Option ChangeAction := (j.name? false).bind ofName?

end ChangeAction

namespace ChangeSource

def name : ChangeSource → String
  | interactive => "interactive"
  | imported => "import"

def ofName? : String → Option ChangeSource
  | "interactive" => some interactive
  | "import" => some imported
  | _ => none

def ofJson? (j : Json) : Option ChangeSource := (j.name? false).bind ofName?

end ChangeSource

/-- A record of one change. -/
structure ChangeRecord where
  id : Option Uuid := none
  entityCollection : String
  entityId : Uuid
  entitySlug : Option String
  action : ChangeAction
  source : ChangeSource
  property : Option String := none
  oldValue : Option String := none
  newValue : Option String := none
  changedBy : String
  changedAt : Int64
  deriving DecidableEq

namespace ChangeRecord

/-- A record about an entity as a whole. -/
def ofEntity (collection : String) (entityId : Uuid) (entitySlug : Option String)
    (action : ChangeAction) (ctx : AuditContext) : ChangeRecord where
  entityCollection := collection
  entityId := entityId
  entitySlug := entitySlug
  action := action
  source := ctx.source
  changedBy := ctx.user
  changedAt := ctx.timestamp

/-- A record about one property of an entity. -/
def ofProperty (collection : String) (entityId : Uuid) (entitySlug : Option String)
    (action : ChangeAction) (change : PropertyChange) (ctx : AuditContext) : ChangeRecord :=
  { ofEntity collection entityId entitySlug action ctx with
    property := some change.property
    oldValue := change.oldValue
    newValue := change.newValue }

/-- The stored form of a record. -/
def toValue (r : ChangeRecord) : Value :=
  .document <|
    Field.written "id" (r.id.map .uuid) ++
    [("entity_collection", .string r.entityCollection), ("entity_id", .uuid r.entityId)] ++
    Field.written "entity_slug" (r.entitySlug.map .string) ++
    [("action", .string r.action.name), ("source", .string r.source.name),
      ("prop_changed", Value.ofOption (r.property.map .string)),
      ("old_value", Value.ofOption (r.oldValue.map .string)),
      ("new_value", Value.ofOption (r.newValue.map .string)),
      ("changed_by", .string r.changedBy), ("changed_at", .dateTime r.changedAt)]

/-- Reads a stored record. -/
def ofValue? (v : Value) : Option ChangeRecord := do
  let doc ← v.entries?
  let id ← Field.optional Value.identifier? "id" doc
  let entityCollection ← Field.required Value.text? "entity_collection" doc
  let entityId ← Field.required Value.identifier? "entity_id" doc
  let entitySlug ← Field.optional Value.text? "entity_slug" doc
  let action ← (Field.required Value.name? "action" doc).bind ChangeAction.ofName?
  let source ← (Field.required Value.name? "source" doc).bind ChangeSource.ofName?
  let property ← Field.optional Value.text? "prop_changed" doc
  let oldValue ← Field.optional Value.text? "old_value" doc
  let newValue ← Field.optional Value.text? "new_value" doc
  let changedBy ← Field.required Value.text? "changed_by" doc
  let changedAt ← Field.required Value.instant? "changed_at" doc
  return { id, entityCollection, entityId, entitySlug, action, source, property, oldValue, newValue,
           changedBy, changedAt }

end ChangeRecord

instance : Stored ChangeRecord where
  collection := "change_records"
  toValue := ChangeRecord.toValue
  ofValue? := ChangeRecord.ofValue?
  id? := ChangeRecord.id
  withId r id := { r with id := some id }

end Dossier
