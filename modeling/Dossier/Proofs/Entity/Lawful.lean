/-
What operations rely on in an entity type: the identifier is kept in the document under `id` and is
read from there, and neither a slug nor a stamp changes it.
-/
import Dossier.Entity.Basic
import Dossier.Proofs.Query.Field
import Dossier.Store.Basic
import Dossier.Value.Field

namespace Dossier

/-- The name under which documents keep the identifier. -/
def idKey : String := "id"

/-- An entity type whose values are kept by their identifiers. -/
class LawfulEntity (E : Type) [Entity E] : Prop where
  toValue_id (e : E) : ∃ es, Stored.toValue e = .document es ∧ es.lookup idKey = (Stored.id? e).map .uuid
  id_of_ofValue? {v : Value} {e : E} : Stored.ofValue? v = some e →
    ∃ es, v = .document es ∧ Field.optional Value.identifier? idKey es = some (Stored.id? e)
  id_withId (e : E) (id : Uuid) : Stored.id? (Stored.withId e id) = some id
  id_withSlug (e : E) (slug : String) (number : Int64) : Stored.id? (Entity.withSlug e slug number) = Stored.id? e
  id_stamp (e : E) (ctx : AuditContext) (created : Bool) : Stored.id? (Entity.stamp ctx created e) = Stored.id? e

variable {E : Type} [Entity E] [LawfulEntity E]

/-- The entries of the document that an entity is kept as. -/
def Stored.entries {E : Type} [Stored E] (e : E) : Document := (Stored.toValue e).entries?.getD []

theorem toValue_entries (e : E) : Stored.toValue e = .document (Stored.entries e) := by
  obtain ⟨es, he, -⟩ := LawfulEntity.toValue_id e
  unfold Stored.entries
  rw [he]; rfl

theorem lookup_id_entries (e : E) : (Stored.entries e).lookup idKey = (Stored.id? e).map .uuid := by
  obtain ⟨es, he, hl⟩ := LawfulEntity.toValue_id e
  unfold Stored.entries
  rw [he]; exact hl

theorem toDocument_entries (e : E) : Stored.toDocument e = .ok (Stored.entries e) := by
  unfold Stored.toDocument
  rw [toValue_entries]

/-- A document that keeps its identifier under `id`, unless a flag has been put there. -/
def Value.Keyed (v : Value) (id : Uuid) : Prop :=
  ∃ es, v = .document es ∧ (es.lookup idKey = some (.uuid id) ∨ ∃ flag, es.lookup idKey = some (.boolean flag))

theorem keyed_toValue {e : E} {id : Uuid} (h : Stored.id? e = some id) : (Stored.toValue e).Keyed id := by
  obtain ⟨es, he, hl⟩ := LawfulEntity.toValue_id e
  exact ⟨es, he, Or.inl (by rw [hl, h]; rfl)⟩

theorem Uuid.identifier?_uuid (id : Uuid) : (Value.uuid id).identifier? = some id := by
  show (if Value.uuidSubtype = Value.uuidSubtype then Uuid.ofBytes? id.bytes else none) = some id
  rw [if_pos rfl, Uuid.ofBytes?, dif_pos id.size_eq]

/-- An entity that can be read has the identifier that it is kept under. -/
theorem Value.Keyed.id_eq {v : Value} {id : Uuid} {e : E} (h : v.Keyed id) (he : Stored.ofValue? v = some e) :
    Stored.id? e = some id := by
  obtain ⟨es, rfl, hl⟩ := h
  obtain ⟨es', hv, hr⟩ := LawfulEntity.id_of_ofValue? he
  cases hv
  unfold Field.optional at hr
  rcases hl with hl | ⟨flag, hl⟩
  · rw [hl] at hr
    change (Value.identifier? (.uuid id)).map some = _ at hr
    rw [Uuid.identifier?_uuid, Option.map_some, Option.some.injEq] at hr
    exact hr.symm
  · rw [hl] at hr; cases hr

theorem Value.Keyed.withFields {v : Value} {id : Uuid} (h : v.Keyed id) {fields : Document}
    (hf : idKey ∉ Entries.keys fields) : (Store.withFields fields v).Keyed id := by
  obtain ⟨es, rfl, hl⟩ := h
  refine ⟨Entries.insertAll es fields, rfl, ?_⟩
  rwa [Entries.lookup_insertAll_of_not_mem hf]

theorem Value.Flat.withFields {v : Value} {key : String} (h : v.Flat key) {fields : Document}
    (hn : (Entries.keys fields).Nodup) (hf : ∀ name v, fields.lookup name = some v → v.IsField key name) :
    (Store.withFields fields v).Flat key := by
  obtain ⟨es, rfl, he⟩ := h
  refine ⟨Entries.insertAll es fields, rfl, fun name v hl => ?_⟩
  rw [Entries.lookup_insertAll name hn, Option.or_eq_some_iff] at hl
  rcases hl with hl | ⟨-, hl⟩
  · exact hf name v hl
  · exact he name v hl

/-- A document can only have the identifier that it is kept under. -/
theorem Value.Keyed.eq_of_holds {v : Value} {id other : Uuid} (h : v.Keyed id)
    (hh : (Expr.eq idKey (.uuid other)).holds v = true) : id = other := by
  obtain ⟨es, rfl, hl | ⟨flag, hl⟩⟩ := h
  · rwa [Expr.holds_eq_uuid (by decide) hl, decide_eq_true_iff] at hh
  · rw [Expr.holds_eq_uuid_boolean (by decide) hl] at hh; cases hh

/-- A document that can be read still has its identifier. -/
theorem Value.Keyed.holds_of_read {v : Value} {id : Uuid} {e : E} (h : v.Keyed id)
    (he : Stored.ofValue? v = some e) :
    (Expr.eq idKey (.uuid id)).holds v = true := by
  obtain ⟨es, rfl, hl | ⟨flag, hl⟩⟩ := h
  · rw [Expr.holds_eq_uuid (by decide) hl, decide_eq_true_iff]
  · obtain ⟨es', hv, hr⟩ := LawfulEntity.id_of_ofValue? he
    cases hv
    unfold Field.optional at hr
    rw [hl] at hr; cases hr

/-- A flag may be put anywhere, also in the place of the identifier. -/
theorem Value.Keyed.withFlag {v : Value} {id : Uuid} (h : v.Keyed id) (key : String) (flag : Bool) :
    (Store.withFields [(key, .boolean flag)] v).Keyed id := by
  obtain ⟨es, rfl, hl⟩ := h
  refine ⟨Entries.insert key (.boolean flag) es, rfl, ?_⟩
  rw [Entries.lookup_insert]
  split
  · exact Or.inr ⟨flag, rfl⟩
  · exact hl

end Dossier
