/-
The order that a sort document asks for. A document has one entry for each key: a field that several directives name
keeps its first place and takes its last direction. So the sort document orders documents as the directives do if and
only if each field that they name is named at last in the direction in which it is named first.
-/
import Dossier.Mongo.Filter
import Dossier.Proofs.Query.Repeats
import Mathlib.Data.Set.List

namespace Dossier.Mongo

/-! ## Reading sort documents -/

/-- The direction that a value in a sort document stands for. -/
def direction? : Value → Option Direction
  | .int32 i => if i = 1 then some .ascending else if i = -1 then some .descending else none
  | _ => none

/-- The directives that a sort document stands for: its keys in their order, each with its direction. -/
def sortKeys? (doc : Document) : Option (List SortKey) := doc.mapM fun e => (direction? e.2).map (SortKey.mk e.1)

/-- The entry that a directive adds to a sort document. -/
def entryOf (key : SortKey) : String × Value :=
  (key.field, .int32 (match key.direction with | .ascending => 1 | .descending => -1))

theorem sortDocument_eq (sort : List SortKey) : sortDocument sort = Entries.ofList (sort.map entryOf) := rfl

theorem direction?_entryOf (key : SortKey) :
    (direction? (entryOf key).2).map (SortKey.mk (entryOf key).1) = some key := by
  cases key with
  | mk field direction => cases direction <;> rfl

theorem entryOf_injective : Function.Injective entryOf := by
  intro key key' h
  exact Option.some.inj ((direction?_entryOf key).symm.trans (h ▸ direction?_entryOf key'))

theorem sortKeys?_map (keys : List SortKey) : sortKeys? (keys.map entryOf) = some keys := by
  induction keys with
  | nil => rfl
  | cons key keys ih =>
    unfold sortKeys? at ih ⊢
    rw [List.map_cons, List.mapM_cons, direction?_entryOf, ih]
    rfl

theorem picks_getLast? : Picks List.getLast? := ⟨List.mem_of_getLast?, List.getLast?_eq_none_iff.1⟩

/-- A sort document can be read, and stands for the last directive of each field. -/
theorem sortKeys?_sortDocument (sort : List SortKey) :
    ∃ keys, sortKeys? (sortDocument sort) = some keys ∧ OneEach List.getLast? sort keys := by
  have hentries : sortDocument sort ∈ Set.range (List.map entryOf) := by
    rw [Set.range_list_map]
    intro e he
    obtain ⟨key, -, rfl⟩ := List.mem_map.1 (Entries.mem_of_mem_ofList he)
    exact ⟨key, rfl⟩
  obtain ⟨keys, hkeys⟩ := hentries
  refine ⟨keys, hkeys ▸ sortKeys?_map keys, fun key => ?_, ?_⟩
  · have hlookup : (sortDocument sort).lookup key.field =
        (directivesOf key.field sort).getLast?.map fun key => (entryOf key).2 := by
      rw [sortDocument_eq, Entries.lookup_ofList, List.filter_map, List.getLast?_map, Option.map_map]
      rfl
    rw [← List.mem_map_of_injective entryOf_injective, hkeys]
    constructor
    · intro h
      have hfound := Entries.lookup_of_mem (Entries.nodup_keys_ofList _) h
      change (sortDocument sort).lookup key.field = _ at hfound
      obtain ⟨last, hl, hd⟩ := Option.map_eq_some_iff.1 (hlookup.symm.trans hfound)
      have hfield := (mem_directivesOf.1 (List.mem_of_getLast? hl)).2
      rw [hl, entryOf_injective (Prod.ext hfield hd)]
    · intro h
      rw [h] at hlookup
      exact Entries.mem_of_lookup hlookup
  · have horder := Entries.keys_ofList_inOrder (sort.map entryOf)
    rw [← sortDocument_eq, ← hkeys, Entries.keys, Entries.keys, List.map_map, List.map_map, List.pairwise_map] at horder
    exact horder

/-- Directives that name each field once are all that the sort document stands for. -/
theorem sortKeys?_sortDocument_of_nodup {sort : List SortKey} (h : (sort.map (·.field)).Nodup) :
    sortKeys? (sortDocument sort) = some sort := by
  have hkeys : Entries.keys (sort.map entryOf) = sort.map (·.field) := List.map_map
  rw [sortDocument_eq, Entries.ofList_of_nodup (hkeys ▸ h), sortKeys?_map]

/-- Requests are sorted by such directives. -/
theorem sortKeys?_sortDocument_ordering (c : Config) (sort : List SortKey) :
    sortKeys? (sortDocument (c.ordering sort)) = some (c.ordering sort) :=
  sortKeys?_sortDocument_of_nodup (dedupSort_oneEach _).fields_nodup

/-! ## The order of documents -/

/-- Each field that is named is named at last in the direction in which it is named first. -/
def Steady (sort : List SortKey) : Prop :=
  ∀ field, (directivesOf field sort).getLast? = (directivesOf field sort).head?

/-- The sort document of directives can be read, and orders all documents as the directives do if each field that they
name is named at last in the direction in which it is named first. Otherwise it does not. -/
theorem sortDocument_orders_iff (sort : List SortKey) : ∃ keys, sortKeys? (sortDocument sort) = some keys ∧
    OneEach List.getLast? sort keys ∧
    (Steady sort → ∀ a b : Value, compareDocuments keys a b = compareDocuments sort a b) ∧
    ((∀ a b : Document, compareDocuments keys (.document a) (.document b) =
      compareDocuments sort (.document a) (.document b)) → Steady sort) := by
  obtain ⟨keys, hread, hone⟩ := sortKeys?_sortDocument sort
  exact ⟨keys, hread, hone, hone.orders, hone.first_of_orders picks_getLast?⟩

/-- A second directive of a field is not only asked when the first one ties: it takes its place. -/
theorem not_sortDocument_orders : ¬ ∀ sort keys, sortKeys? (sortDocument sort) = some keys → ∀ a b : Document,
    compareDocuments keys (.document a) (.document b) = compareDocuments sort (.document a) (.document b) := by
  intro h
  have hread : sortKeys? (sortDocument [⟨"active", .ascending⟩, ⟨"active", .descending⟩]) =
      some [⟨"active", .descending⟩] := rfl
  have horder := h _ _ hread [("active", .boolean false)] [("active", .boolean true)]
  exact absurd horder (by decide)

end Dossier.Mongo
