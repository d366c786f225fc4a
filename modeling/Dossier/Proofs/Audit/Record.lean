/-
The stored form of change records: it is read back as the record, it keeps the identifier as entities
do, and it is never read as a customer.
-/
import Dossier.Audit.Record
import Dossier.Proofs.Entity.Customer

namespace Dossier

theorem ChangeAction.ofName?_name (action : ChangeAction) : ofName? action.name = some action := by
  cases action <;> rfl

theorem ChangeSource.ofName?_name (source : ChangeSource) : ofName? source.name = some source := by
  cases source <;> rfl

namespace ChangeRecord

/-- The columns of a stored record in order. -/
def columns : List (String × (ChangeRecord → Option Value)) :=
  [("id", fun r => r.id.map .uuid), ("entity_collection", fun r => some (.string r.entityCollection)),
    ("entity_id", fun r => some (.uuid r.entityId)), ("entity_slug", fun r => r.entitySlug.map .string),
    ("action", fun r => some (.string r.action.name)), ("source", fun r => some (.string r.source.name)),
    ("prop_changed", fun r => some (Value.ofOption (r.property.map .string))),
    ("old_value", fun r => some (Value.ofOption (r.oldValue.map .string))),
    ("new_value", fun r => some (Value.ofOption (r.newValue.map .string))),
    ("changed_by", fun r => some (.string r.changedBy)), ("changed_at", fun r => some (.dateTime r.changedAt))]

/-- The document of a record. -/
def document (r : ChangeRecord) : Document := columns.filterMap fun col => (col.2 r).map (col.1, ·)

theorem toValue_eq (r : ChangeRecord) : r.toValue = .document r.document := by
  obtain ⟨id, _, _, slug, _⟩ := r
  cases id <;> cases slug <;> rfl

theorem lookup_document (r : ChangeRecord) (key : String) :
    r.document.lookup key = (columns.lookup key).bind fun read => read r :=
  Entries.lookup_filterMap r key (by decide)

theorem keyed_toValue {r : ChangeRecord} {id : Uuid} (h : r.id = some id) : r.toValue.Keyed id := by
  refine ⟨r.document, toValue_eq r, Or.inl ?_⟩
  rw [lookup_document]
  show r.id.map Value.uuid = _
  rw [h]; rfl

/-- A record is read back as it was written. -/
theorem ofValue?_toValue (r : ChangeRecord) : ofValue? r.toValue = some r := by
  have text : ∀ {key : String} {x : Option String},
      (r.document.lookup key).getD .null = Value.ofOption (x.map .string) →
      Field.optional Value.text? key r.document = some x :=
    Field.optional_of_getD .string (fun _ => rfl) fun _ => nofun
  have required : ∀ {α : Type} (read : Value → Option α) {key : String} {v : Value},
      r.document.lookup key = some v → Field.required read key r.document = read v :=
    fun read _ _ hl => by unfold Field.required; rw [hl]; rfl
  have id : Field.optional Value.identifier? "id" r.document = some r.id :=
    Field.optional_of_getD .uuid Uuid.identifier?_uuid (fun _ => nofun)
      (by rw [lookup_document]; exact Value.getD_null (r.id.map .uuid))
  have entityId : Field.required Value.identifier? "entity_id" r.document = some r.entityId :=
    (required _ (by rw [lookup_document]; rfl)).trans (Uuid.identifier?_uuid r.entityId)
  have action : (Field.required Value.name? "action" r.document).bind ChangeAction.ofName? = some r.action := by
    rw [required _ (lookup_document r _)]
    exact ChangeAction.ofName?_name r.action
  have source : (Field.required Value.name? "source" r.document).bind ChangeSource.ofName? = some r.source := by
    rw [required _ (lookup_document r _)]
    exact ChangeSource.ofName?_name r.source
  have entitySlug : Field.optional Value.text? "entity_slug" r.document = some r.entitySlug :=
    text (by rw [lookup_document]; exact Value.getD_null (r.entitySlug.map .string))
  have property : Field.optional Value.text? "prop_changed" r.document = some r.property :=
    text (by rw [lookup_document]; rfl)
  have oldValue : Field.optional Value.text? "old_value" r.document = some r.oldValue :=
    text (by rw [lookup_document]; rfl)
  have newValue : Field.optional Value.text? "new_value" r.document = some r.newValue :=
    text (by rw [lookup_document]; rfl)
  rw [toValue_eq]
  unfold ofValue?
  change (Field.optional Value.identifier? "id" r.document).bind _ = _
  rw [id, Option.bind_some, required _ (lookup_document r "entity_collection"), entityId, entitySlug, action, source,
    property, oldValue, newValue, required _ (lookup_document r "changed_by"),
    required _ (lookup_document r "changed_at")]
  rfl

/-- A record has no name. -/
theorem not_customer (r : ChangeRecord) : Customer.ofValue? r.toValue = none := by
  rw [toValue_eq, Option.eq_none_iff_forall_ne_some]
  intro c hc
  obtain ⟨_, hd, hr⟩ := Customer.ofValue?_eq_some_iff.1 hc
  cases hd
  have hn := hr.name
  unfold Field.required at hn
  rw [lookup_document] at hn
  cases hn

end ChangeRecord

end Dossier
