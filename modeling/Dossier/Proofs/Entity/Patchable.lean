/-
Entity types with a registry of properties. Every registered property is kept in the document under its
own name, and there it is read, copied and set, so that what a patch does to an entity can be told from
documents, whatever the type.
-/
import Dossier.Proofs.Entity.Item
import Dossier.Proofs.Entity.Reading

namespace Dossier

/-- An entity type whose properties may be named in patches. -/
class Patchable (E : Type) [Entity E] extends LawfulEntity E where
  registry : Registry E
  idKey_not_registered : idKey ∉ registry.names
  lookup_slug (e : E) : (Stored.entries e).lookup "slug" = (Entity.slug? e).map .string
  lookup_copy {p : Property E} (h : p ∈ registry.properties) (u t : E) (key : String) :
    (Stored.entries (p.copy u t)).lookup key = (Stored.entries (if key = p.name then u else t)).lookup key
  read_eq {p : Property E} (h : p ∈ registry.properties) (u : E) :
    p.read u = Value.ofOption ((Stored.entries u).lookup p.name)
  /-- A document in which properties of an entity that can be read are set is read with these properties. -/
  ofValue?_withFields {v w : Value} {t u : E} {names : List String} {values : Document}
    (ht : Stored.ofValue? v = some t) (hu : Stored.ofValue? w = some u)
    (hl : registry.readAll u names = .ok values) : ∃ e : E, Stored.ofValue? (Store.withFields values v) = some e ∧
      ∀ key, (Stored.entries e).lookup key = (Stored.entries (if key ∈ names then u else t)).lookup key

/-- An overlay that takes over registered names only takes over all that it is asked for, if these are registered. -/
theorem Registry.lookup_overlaid {E : Type} [Stored E] {registry : Registry E} {document : E → Document}
    {overlay : List String → E → E → E} (hd : ∀ e : E, Stored.entries e = document e)
    (hover : ∀ names u t key, (document (overlay names u t)).lookup key =
      if key ∈ names ∧ key ∈ registry.names then (document u).lookup key else (document t).lookup key)
    {names : List String} (h : ∀ name ∈ names, name ∈ registry.names) (u t : E) (key : String) :
    (Stored.entries (overlay names u t)).lookup key = (Stored.entries (if key ∈ names then u else t)).lookup key := by
  rw [hd, hd, hover]
  by_cases hk : key ∈ names
  · rw [if_pos ⟨hk, h key hk⟩, if_pos hk]
  · rw [if_neg fun hm => hk hm.1, if_neg hk]

namespace Customer

theorem entries_eq (c : Customer) : Stored.entries c = c.document := by
  show c.toValue.entries?.getD [] = _
  rw [toValue_eq]; rfl

instance : Patchable Customer where
  registry := registry
  idKey_not_registered := by
    show "id" ∉ ["name", "email", "city", "balance", "active"]
    decide
  lookup_slug c := by rw [entries_eq, lookup_document]; rfl
  lookup_copy {p} h u t key := by
    rw [(property_registry h u t).1, Registry.lookup_overlaid entries_eq lookup_overlay
      (List.forall_mem_singleton.2 (List.mem_map_of_mem h))]
    simp only [List.mem_singleton]
  read_eq h u := by rw [entries_eq, (property_registry h u u).2]; rfl
  ofValue?_withFields ht _ hl :=
    ⟨_, ofValue?_withFields ht hl,
      Registry.lookup_overlaid entries_eq lookup_overlay (fun _ => Registry.mem_names_of_readAll hl) _ _⟩

end Customer

namespace Item

theorem entries_eq (i : Item) : Stored.entries i = i.document := by
  show i.toValue.entries?.getD [] = _
  rw [toValue_eq]; rfl

instance : Patchable Item where
  registry := registry
  idKey_not_registered := by rw [names_registry]; decide
  lookup_slug i := by rw [entries_eq, lookup_document]; rfl
  lookup_copy {p} h u t key := by
    rw [(property_registry h u t).1, Registry.lookup_overlaid entries_eq lookup_overlay
      (List.forall_mem_singleton.2 (List.mem_map_of_mem h))]
    simp only [List.mem_singleton]
  read_eq h u := by rw [entries_eq, (property_registry h u u).2]
  ofValue?_withFields ht hu hl :=
    ⟨_, ofValue?_withFields ht hu hl,
      Registry.lookup_overlaid entries_eq lookup_overlay (fun _ => Registry.mem_names_of_readAll hl) _ _⟩

end Item

namespace Patchable

variable {E : Type} [Entity E] [Patchable E] {u w t c : E} {names : List String}

/-- Copying properties takes over what is kept under their names and nothing else. -/
theorem copyAll_ok {u : E} : ∀ {names : List String} {t c : E}, registry.copyAll names u t = .ok c →
    (∀ name ∈ names, name ∈ (registry (E := E)).names) ∧
      ∀ key, (Stored.entries c).lookup key = (Stored.entries (if key ∈ names then u else t)).lookup key
  | [], t, c, h => by
    cases h
    exact ⟨by simp, by simp⟩
  | name :: names, t, c, h => by
    obtain ⟨t', hc, hrest⟩ := except_bind_ok h
    obtain ⟨p, hf, rfl⟩ := except_map_ok hc
    obtain ⟨hp, rfl⟩ := Registry.find_ok hf
    obtain ⟨hreg, hl⟩ := copyAll_ok hrest
    refine ⟨List.forall_mem_cons.2 ⟨List.mem_map_of_mem hp, hreg⟩, fun key => ?_⟩
    rw [hl key]
    by_cases hn : key ∈ names
    · rw [if_pos hn, if_pos (List.mem_cons_of_mem _ hn)]
    · rw [if_neg hn, lookup_copy hp]
      simp only [List.mem_cons, hn, or_false]

theorem id_of_copyAll (h : registry.copyAll names u t = .ok c) : Stored.id? c = Stored.id? t := by
  obtain ⟨hreg, hl⟩ := copyAll_ok h
  have hid := hl idKey
  rw [if_neg fun hm => idKey_not_registered (hreg idKey hm), lookup_id_entries, lookup_id_entries] at hid
  refine Option.map_injective (fun a b hab => ?_) hid
  obtain ⟨bytes, _⟩ := a
  obtain ⟨bytes', _⟩ := b
  cases hab
  rfl

theorem read_congr {name : String} (h : (Stored.entries u).lookup name = (Stored.entries w).lookup name) :
    registry.read u name = registry.read w name := by
  unfold Registry.read
  cases hf : (registry (E := E)).find name with
  | error fault => rfl
  | ok p =>
    obtain ⟨hp, rfl⟩ := Registry.find_ok hf
    show Except.ok (p.read u) = .ok (p.read w)
    rw [read_eq hp, read_eq hp, h]

/-- Entities that keep the same under some names have the same values of these properties. -/
theorem readAll_congr (h : ∀ name ∈ names, (Stored.entries u).lookup name = (Stored.entries w).lookup name) :
    registry.readAll u names = registry.readAll w names := by
  unfold Registry.readAll
  generalize ([] : Document) = values
  induction names generalizing values with
  | nil => rfl
  | cons name names ih =>
    rw [List.forall_mem_cons] at h
    rw [List.foldlM_cons, List.foldlM_cons, read_congr h.1]
    exact congrArg _ (funext fun values => ih h.2 values)

end Patchable

end Dossier
