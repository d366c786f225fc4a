/-
Entities that can be written and read again. An entity that has been read off any document is read off the document
that it is kept as, and this document binds each key once, however deep, since contents of free form are resolved when
they are read.
-/
import Dossier.Proofs.Entity.Item

namespace Dossier

/-- An entity type whose entities, once read, are kept in proper documents and read back from them. -/
class Rereadable (E : Type) [Entity E] : Prop extends LawfulEntity E where
  reread {v : Value} {e : E} : Stored.ofValue? v = some e → Stored.ofValue? (Stored.toValue e) = some e
  proper {v : Value} {e : E} : Stored.ofValue? v = some e → (Stored.toValue e).Proper

/-- A document of columns is proper if what the columns hold is. -/
theorem Value.proper_of_columns {β : Type} {b : β} {columns : List (String × (β → Option Value))}
    (hn : (Entries.keys columns).Nodup) (h : ∀ col ∈ columns, ∀ v, col.2 b = some v → v.Proper) :
    (Value.document (columns.filterMap fun col => (col.2 b).map (col.1, ·))).Proper := by
  refine .document ?_ fun entry he => ?_
  · rw [Entries.keys_filterMap]
    exact hn.sublist (List.filter_sublist.map _)
  · obtain ⟨col, hc, hcol⟩ := List.mem_filterMap.1 he
    obtain ⟨v, hv, rfl⟩ := Option.map_eq_some_iff.1 hcol
    exact h col hc v hv

/-! ## Customers -/

namespace Customer

/-- What a customer keeps in its columns is compared as a whole, and only the balance can be NaN. -/
theorem atom_column (c : Customer) : ∀ col ∈ columns, ∀ v, col.2 c = some v →
    v.isAtom = true ∧ (c.balance.isNaN = false → v.hasNaN = false) := by
  have text : ∀ x : Option String, (Value.ofOption (x.map .string)).isAtom = true ∧
      (Value.ofOption (x.map .string)).hasNaN = false := fun x => by cases x <;> exact ⟨rfl, rfl⟩
  have instant : ∀ x : Option Int64, (Value.ofOption (x.map .dateTime)).isAtom = true ∧
      (Value.ofOption (x.map .dateTime)).hasNaN = false := fun x => by cases x <;> exact ⟨rfl, rfl⟩
  intro col hc v hv
  simp only [columns, List.mem_cons, List.not_mem_nil, or_false] at hc
  rcases hc with rfl | rfl | rfl | rfl | rfl | rfl | rfl | rfl | rfl | rfl | rfl | rfl
  · obtain ⟨id, -, rfl⟩ := Option.map_eq_some_iff.1 hv
    exact ⟨rfl, fun _ => rfl⟩
  · obtain ⟨slug, -, rfl⟩ := Option.map_eq_some_iff.1 hv
    exact ⟨rfl, fun _ => rfl⟩
  · obtain ⟨sequence, -, rfl⟩ := Option.map_eq_some_iff.1 hv
    exact ⟨rfl, fun _ => rfl⟩
  · cases hv; exact ⟨rfl, fun _ => rfl⟩
  · cases hv; exact (text _).imp_right fun h _ => h
  · cases hv; exact (text _).imp_right fun h _ => h
  · cases hv; exact ⟨rfl, fun hb => hb⟩
  · cases hv; exact ⟨rfl, fun _ => rfl⟩
  · cases hv; exact (instant _).imp_right fun h _ => h
  · cases hv; exact (text _).imp_right fun h _ => h
  · cases hv; exact (instant _).imp_right fun h _ => h
  · cases hv; exact (text _).imp_right fun h _ => h

instance : Rereadable Customer where
  reread _ := ofValue?_toValue _
  proper {_ c} _ := by
    rw [show Stored.toValue c = .document c.document from toValue_eq c]
    exact Value.proper_of_columns keys_columns_nodup fun col hc v hv => .atom (atom_column c col hc v hv).1

end Customer

/-! ## Items -/

namespace Item

variable {v : Value} {i : Item}

/-- What an item that has been read keeps in free form is settled. -/
theorem settled_of_read (h : ofValue? v = some i) :
    i.value.Settled false ∧ ∀ notes, i.notes = some notes → (Value.document notes).Settled false := by
  obtain ⟨hvalue, hnotes⟩ := resolved_of_read h
  refine ⟨Value.settled_of_resolve? hvalue, fun notes hn => ?_⟩
  obtain ⟨w, hw, he⟩ := Option.bind_eq_some_iff.1 (hnotes notes hn)
  cases w with
  | document entries => cases he; exact Value.settled_of_resolve? hw
  | _ => cases he

theorem proper_column (h : ofValue? v = some i) : ∀ col ∈ columns, ∀ v, col.2 i = some v → v.Proper := by
  obtain ⟨hvalue, hnotes⟩ := settled_of_read h
  intro col hc v hv
  simp only [columns, List.mem_cons, List.not_mem_nil, or_false] at hc
  rcases hc with rfl | rfl | rfl | rfl | rfl | rfl | rfl
  · obtain ⟨id, -, rfl⟩ := Option.map_eq_some_iff.1 hv
    exact .atom rfl
  · obtain ⟨slug, -, rfl⟩ := Option.map_eq_some_iff.1 hv
    exact .atom rfl
  · obtain ⟨sequence, -, rfl⟩ := Option.map_eq_some_iff.1 hv
    exact .atom rfl
  · cases hv; exact .atom rfl
  · cases hv; exact hvalue.proper
  · cases hv
    refine .array fun tag ht => ?_
    obtain ⟨s, -, rfl⟩ := List.mem_map.1 ht
    exact .atom rfl
  · obtain ⟨notes, hn, rfl⟩ := Option.map_eq_some_iff.1 hv
    exact (hnotes notes hn).proper

theorem reads_document (h : ofValue? v = some i) : Reads i.document i := by
  obtain ⟨hvalue, hnotes⟩ := resolved_of_read h
  have hl := lookup_document i
  constructor
  case id =>
    refine Field.optional_of_getD .uuid Uuid.identifier?_uuid (fun _ => nofun) ?_
    rw [hl]
    exact Value.getD_null _
  case slug =>
    refine Field.optional_of_getD .string (fun _ => rfl) (fun _ => nofun) ?_
    rw [hl]
    exact Value.getD_null _
  case sequence =>
    refine Field.optional_of_getD .int64 (fun _ => rfl) (fun _ => nofun) ?_
    rw [hl]
    exact Value.getD_null _
  case name =>
    unfold Field.required
    rw [hl]
    rfl
  case value =>
    unfold Field.withDefault
    rw [hl]
    exact hvalue
  case tags =>
    unfold Field.withDefault
    rw [hl]
    exact texts?_tagsValue i
  case notes =>
    have hnoted : i.document.lookup "meta" = i.notes.map .document := hl "meta"
    unfold Field.optional
    rw [hnoted]
    cases hn : i.notes with
    | none => rfl
    | some notes => exact congrArg (Option.map some) (hnotes notes hn)

instance : Rereadable Item where
  reread {_ i} h := by
    rw [show Stored.toValue i = .document i.document from toValue_eq i]
    exact ofValue?_eq_some_iff.2 ⟨_, rfl, reads_document h⟩
  proper {_ i} h := by
    rw [show Stored.toValue i = .document i.document from toValue_eq i]
    exact Value.proper_of_columns keys_columns_nodup (proper_column h)

end Item

end Dossier
