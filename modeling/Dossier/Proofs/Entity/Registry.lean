/-
Reading properties by name. What is read is bound to the names asked for, each of which is registered.
-/
import Dossier.Entity.Registry
import Dossier.Proofs.Action
import Dossier.Proofs.Entries

namespace Dossier.Registry

variable {E : Type} [Stored E] {r : Registry E} {e : E} {names : List String} {values : Document}

theorem find_ok {name : String} {p : Property E} (h : r.find name = .ok p) : p ∈ r.properties ∧ p.name = name := by
  unfold find at h
  split at h
  · rename_i hf
    cases h
    exact ⟨List.mem_of_find?_eq_some hf, by simpa using List.find?_some hf⟩
  · cases h

theorem find_of_mem {name : String} (h : name ∈ r.names) : ∃ p, r.find name = .ok p := by
  obtain ⟨p, hp, rfl⟩ := List.mem_map.1 h
  unfold find
  cases hf : r.properties.find? (·.name == p.name) with
  | none => rw [List.find?_eq_none] at hf; simpa using hf p hp
  | some q => exact ⟨q, rfl⟩

theorem foldlM_of_registered : ∀ {names : List String} (acc : Document), (∀ name ∈ names, name ∈ r.names) →
    ∃ values,
      names.foldlM (fun doc name => (r.read e name).map fun v => Entries.insert name v doc) acc = .ok values
  | [], acc, _ => ⟨acc, rfl⟩
  | name :: names, acc, h => by
    rw [List.forall_mem_cons] at h
    obtain ⟨p, hp⟩ := find_of_mem h.1
    obtain ⟨values, hv⟩ := foldlM_of_registered (Entries.insert name (p.read e) acc) h.2
    refine ⟨values, ?_⟩
    rw [List.foldlM_cons, read, hp]
    exact hv

/-- Reading registered properties never fails. -/
theorem readAll_of_registered (h : ∀ name ∈ names, name ∈ r.names) : ∃ values, r.readAll e names = .ok values :=
  foldlM_of_registered [] h

/-- What a fold that reads properties binds, on top of the entries it starts from. -/
theorem readAll_from {acc : Document}
    (h : names.foldlM (fun doc name => (r.read e name).map fun v => Entries.insert name v doc) acc = .ok values)
    (hn : (Entries.keys acc).Nodup) : (Entries.keys values).Nodup ∧ ∀ key, if key ∈ names
      then ∃ p ∈ r.properties, p.name = key ∧ values.lookup key = some (p.read e)
      else values.lookup key = acc.lookup key := by
  induction names generalizing acc with
  | nil => cases h; exact ⟨hn, by simp⟩
  | cons name names ih =>
    obtain ⟨acc', hi, h⟩ := except_bind_ok h
    obtain ⟨v, hr, rfl⟩ := except_map_ok hi
    obtain ⟨p, hf, rfl⟩ := except_map_ok hr
    obtain ⟨hp, rfl⟩ := find_ok hf
    obtain ⟨hk, hl⟩ := ih h (Entries.nodup_keys_insert _ _ hn)
    refine ⟨hk, fun key => ?_⟩
    have hl := hl key
    by_cases hm : key ∈ names
    · rw [if_pos hm] at hl
      rwa [if_pos (List.mem_cons_of_mem _ hm)]
    · rw [if_neg hm, Entries.lookup_insert] at hl
      by_cases he : key = p.name
      · rw [if_pos he] at hl
        rw [if_pos (he ▸ List.mem_cons_self ..)]
        exact ⟨p, hp, he.symm, hl⟩
      · rw [if_neg he] at hl
        rwa [if_neg (by simp [he, hm])]

theorem readAll_nodup (h : r.readAll e names = .ok values) : (Entries.keys values).Nodup :=
  (readAll_from h List.nodup_nil).1

theorem lookup_readAll (h : r.readAll e names = .ok values) {key : String} (hk : key ∈ names) :
    ∃ p ∈ r.properties, p.name = key ∧ values.lookup key = some (p.read e) := by
  have hl := (readAll_from h List.nodup_nil).2 key
  rwa [if_pos hk] at hl

theorem lookup_readAll_none (h : r.readAll e names = .ok values) {key : String} (hk : key ∉ names) :
    values.lookup key = none := by
  have hl := (readAll_from h List.nodup_nil).2 key
  rwa [if_neg hk] at hl

theorem mem_names_of_readAll (h : r.readAll e names = .ok values) {key : String} (hk : key ∈ names) :
    key ∈ r.names := by
  obtain ⟨p, hp, rfl, -⟩ := lookup_readAll h hk
  exact List.mem_map_of_mem hp

theorem keys_readAll (h : r.readAll e names = .ok values) {key : String} (hk : key ∈ Entries.keys values) :
    key ∈ r.names := by
  by_cases hm : key ∈ names
  · exact mem_names_of_readAll h hm
  · rw [← Entries.lookup_isSome_iff, lookup_readAll_none h hm] at hk; cases hk

end Dossier.Registry
