/-
Items: entities that keep any value, and no rules of their own.
-/
import Dossier.Entity.Registry
import Dossier.Value.Field

namespace Dossier

/-- An item. -/
structure Item where
  id : Option Uuid := none
  slug : Option String := none
  sequence : Option Int64 := none
  name : String
  value : Value := .null
  tags : List String := []
  notes : Option Document := none

namespace Item

/-- The tags of an item as a value. -/
def tagsValue (i : Item) : Value := .array (i.tags.map .string)

/-- The stored form of an item. -/
def toValue (i : Item) : Value :=
  .document <|
    Field.written "id" (i.id.map .uuid) ++ Field.written "slug" (i.slug.map .string) ++
    Field.written "sequence" (i.sequence.map .int64) ++
    [("name", .string i.name), ("value", i.value), ("tags", i.tagsValue)] ++
    Field.written "meta" (i.notes.map .document)

/-- Reads a stored item. -/
def ofValue? (v : Value) : Option Item := do
  let doc ← v.entries?
  let id ← Field.optional Value.identifier? "id" doc
  let slug ← Field.optional Value.text? "slug" doc
  let sequence ← Field.optional Value.integer? "sequence" doc
  let name ← Field.required Value.text? "name" doc
  let value ← Field.withDefault Value.read? .null "value" doc
  let tags ← Field.withDefault Value.texts? [] "tags" doc
  let notes ← Field.optional Value.document? "meta" doc
  return { id, slug, sequence, name, value, tags, notes }

/-- The properties of an item that may be patched. The name is registered twice and stands last. -/
def registry : Registry Item :=
  .ofProperties
    [⟨"name", Item.value, fun i t => { t with value := i.value }⟩,
      ⟨"value", Item.value, fun i t => { t with value := i.value }⟩,
      ⟨"tags", tagsValue, fun i t => { t with tags := i.tags }⟩,
      ⟨"meta", fun i => Value.ofOption (i.notes.map .document),
        fun i t => { t with notes := i.notes }⟩,
      ⟨"slug", fun i => Value.ofOption (i.slug.map .string), fun i t => { t with slug := i.slug }⟩,
      ⟨"name", fun i => .string i.name, fun i t => { t with name := i.name }⟩]

end Item

instance : Entity Item where
  collection := "items"
  toValue := Item.toValue
  ofValue? := Item.ofValue?
  id? := Item.id
  withId i id := { i with id := some id }
  slug? := Item.slug
  withSlug i slug sequence := { i with slug := some slug, sequence := some sequence }

end Dossier
