/-
Keys that are escaped are safe. Escaping changes nothing but keys, and leaves no character in them that it would change
again: so it is done with after the first time, and it leaves exactly the values alone whose keys are safe already. Keys
may become one when they are escaped; then the value that comes last stays.
-/
import Dossier.Proofs.Mongo.Escape

namespace Dossier

namespace Value

variable {motive : Value → Prop}

/-- Induction on the values in the arrays and documents that a value is made of. -/
@[elab_as_elim]
theorem nested_induction (scalar : ∀ v, v.isScalar = true → motive v)
    (array : ∀ items, (∀ v ∈ items, motive v) → motive (array items))
    (document : ∀ es : Document, (∀ e ∈ es, motive e.2) → motive (document es)) (v : Value) : motive v := by
  by_cases h : v.isScalar = true
  · exact scalar v h
  · cases v with
    | array items => exact array items fun w _ => nested_induction scalar array document w
    | document es => exact document es fun e _ => nested_induction scalar array document e.2
    | _ => exact (h rfl).elim
termination_by sizeOf v
decreasing_by
  · rename_i hw
    have := List.sizeOf_lt_of_mem hw
    simp only [Value.array.sizeOf_spec]
    omega
  · rename_i he
    have := List.sizeOf_lt_of_mem he
    have : sizeOf e.2 < sizeOf e := by
      cases e
      simp only [Prod.mk.sizeOf_spec]
      omega
    simp only [Value.document.sizeOf_spec]
    omega

/-- The last of the entries whose keys have a new form. -/
def latest (f : String → String) (key : String) (es : Document) : Option (String × Value) :=
  (es.filter (f ·.1 == key)).getLast?

/-- A value in which nothing but keys is changed. Values that have no others in them are the same, arrays have the
same items one by one, and a document binds the new form of every key, to what was bound last to a key of this form. -/
inductive Rekeyed (f : String → String) : Value → Value → Prop
  | scalar {v : Value} (h : v.isScalar = true) : Rekeyed f v v
  | array {items items' : List Value} (h : List.Forall₂ (Rekeyed f) items items') :
    Rekeyed f (.array items) (.array items')
  | document {es es' : Document} (hkeys : ∀ key, key ∈ Entries.keys es' ↔ key ∈ (Entries.keys es).map f)
      (h : ∀ key e v, latest f key es = some e → es'.lookup key = some v → Rekeyed f e.2 v) :
    Rekeyed f (.document es) (.document es')

end Value

namespace Mongo

open Value

variable {f : String → String} {P : String → Prop}

/-! ## Changing keys -/

theorem mapKeys_entries (es : Document) :
    mapKeys f (.document es) = .document (Entries.ofList (es.map (Prod.map f (mapKeys f)))) := by
  rw [mapKeys, mapKeysEntries_eq]

theorem mem_keys_mapKeys {es : Document} {key : String} :
    key ∈ Entries.keys (Entries.ofList (es.map (Prod.map f (mapKeys f)))) ↔ key ∈ (Entries.keys es).map f := by
  rw [Entries.mem_keys_ofList]
  simp [Entries.keys]

theorem lookup_mapKeys (es : Document) (key : String) :
    (Entries.ofList (es.map (Prod.map f (mapKeys f)))).lookup key = (latest f key es).map (mapKeys f ·.2) := by
  rw [Entries.lookup_ofList, List.filter_map, List.getLast?_map, Option.map_map]
  rfl

/-- Changing keys changes nothing else. -/
theorem rekeyed_mapKeys (v : Value) : v.Rekeyed f (mapKeys f v) := by
  induction v using nested_induction with
  | scalar v h =>
    rw [mapKeys_scalar h]
    exact .scalar h
  | array items ih =>
    rw [mapKeys_array]
    exact .array (List.forall₂_map_right_iff.2 (List.forall₂_same.2 ih))
  | document es ih =>
    rw [mapKeys_entries]
    refine .document (fun _ => mem_keys_mapKeys) fun key e v he hv => ?_
    rw [lookup_mapKeys, he] at hv
    cases hv
    exact ih e (List.mem_filter.1 (List.mem_of_getLast? he)).1

/-- Keys that are changed bind each key once. -/
theorem wellKeyed_mapKeys (v : Value) : (mapKeys f v).WellKeyed := by
  induction v using nested_induction with
  | scalar v h =>
    rw [mapKeys_scalar h]
    exact .scalar h
  | array items ih =>
    rw [mapKeys_array]
    exact .array (List.forall_mem_map.2 ih)
  | document es ih =>
    rw [mapKeys_entries]
    refine .document (Entries.nodup_keys_ofList _) fun e he => ?_
    obtain ⟨e, hm, rfl⟩ := List.mem_map.1 (Entries.mem_of_mem_ofList he)
    exact ih e hm

/-- What holds of all new forms holds of the keys of a value whose keys are changed. -/
theorem forall_keysWithin_mapKeys (hf : ∀ key, P (f key)) (v : Value) : ∀ key ∈ (mapKeys f v).keysWithin, P key := by
  induction v using nested_induction with
  | scalar v h =>
    rw [mapKeys_scalar h, keysWithin_scalar h]
    exact fun _ => nofun
  | array items ih =>
    rw [mapKeys_array, forall_keysWithin_array]
    exact List.forall_mem_map.2 ih
  | document es ih =>
    rw [mapKeys_entries, forall_keysWithin_document]
    intro e he
    obtain ⟨e, hm, rfl⟩ := List.mem_map.1 (Entries.mem_of_mem_ofList he)
    exact ⟨hf e.1, ih e hm⟩

/-! ## Safe keys -/

/-- A key without special characters. -/
def IsSafe (key : String) : Prop := ∀ c ∈ specials, c ∉ key.toList

instance (key : String) : Decidable (IsSafe key) := inferInstanceAs (Decidable (∀ c ∈ specials, c ∉ key.toList))

theorem not_mem_escapeOnly {cs key : List Char} {c : Char} (hcs : cs ⊆ specials) (hc : c ∈ specials)
    (h : c ∈ cs ∨ c ∉ key) : c ∉ escapeOnly cs key := by
  unfold escapeOnly
  rw [List.mem_flatMap]
  rintro ⟨x, hx, hm⟩
  split at hm
  · exact special_not_mem_wordOf x (hcs ‹x ∈ cs›) c hc hm
  · rw [List.mem_singleton] at hm
    subst hm
    exact h.elim ‹c ∉ cs› fun h => h hx

theorem isSafe_escapeKey (key : String) : IsSafe (escapeKey key) := by
  intro c hc
  unfold escapeKey
  rw [String.toList_ofList, escapeChars_eq]
  exact not_mem_escapeOnly (List.Subset.refl _) hc (.inl hc)

theorem escapeKey_eq_self_iff {key : String} : escapeKey key = key ↔ IsSafe key :=
  ⟨fun h => h ▸ isSafe_escapeKey key, fun h => escapeKey_eq_self fun c hm hc => h c hc hm⟩

theorem escapeOnly_append (cs s t : List Char) : escapeOnly cs (s ++ t) = escapeOnly cs s ++ escapeOnly cs t :=
  List.flatMap_append

/-- Characters may be written as words one after the other, since no word has another of them in it. -/
theorem escapeOnly_cons {c : Char} {cs : List Char} (hc : c ∈ specials) (hcs : cs ⊆ specials) (key : List Char) :
    escapeOnly (c :: cs) key = escapeOnly [c] (escapeOnly cs key) := by
  induction key with
  | nil => rfl
  | cons x key ih =>
    by_cases hm : x ∈ cs
    · have hword : escapeOnly [c] (wordOf x) = wordOf x := escapeOnly_eq_self fun y hy hyc =>
        special_not_mem_wordOf x (hcs hm) c hc (List.mem_singleton.1 hyc ▸ hy)
      rw [escapeOnly_cons_of_mem (List.mem_cons_of_mem c hm), escapeOnly_cons_of_mem hm, escapeOnly_append, hword, ih]
    · by_cases hx : x = c
      · subst hx
        rw [escapeOnly_cons_of_mem (List.mem_cons_self ..), escapeOnly_cons_of_not_mem hm,
          escapeOnly_cons_of_mem (List.mem_singleton_self x), ih]
      · rw [escapeOnly_cons_of_not_mem (by simp [hx, hm]), escapeOnly_cons_of_not_mem hm,
          escapeOnly_cons_of_not_mem (by simpa using hx), ih]

/-- A key is escaped by replacing the characters throughout, one after the other. -/
theorem escapeChars_oneByOne (key : List Char) :
    escapeChars key = escapeOnly ['\x00'] (escapeOnly ['$'] (escapeOnly ['.'] key)) := by
  rw [escapeChars_eq]
  refine (escapeOnly_cons (by decide) (by decide) key).trans (congrArg (escapeOnly ['\x00']) ?_)
  exact escapeOnly_cons (by decide) (by decide) key

/-- All keys of an escaped value are safe, nothing but keys has been changed in it, and to escape it again changes
nothing. A value whose documents bind each key once is left alone if and only if its keys are safe. -/
theorem escape_safe (v : Value) :
    (∀ key ∈ (escape v).keysWithin, IsSafe key) ∧ v.Rekeyed escapeKey (escape v) ∧ escape (escape v) = escape v ∧
      (v.WellKeyed → (escape v = v ↔ ∀ key ∈ v.keysWithin, IsSafe key)) := by
  have hiff {v : Value} (hv : v.WellKeyed) : escape v = v ↔ ∀ key ∈ v.keysWithin, IsSafe key :=
    (mapKeys_eq_self_iff hv).trans (forall₂_congr fun _ _ => escapeKey_eq_self_iff)
  have hsafe : ∀ key ∈ (escape v).keysWithin, IsSafe key := forall_keysWithin_mapKeys isSafe_escapeKey v
  exact ⟨hsafe, rekeyed_mapKeys v, (hiff (wellKeyed_mapKeys v)).2 hsafe, hiff⟩

/-- Two keys that become one: the first keeps its place and the last keeps its value. -/
theorem escape_safe_colliding :
    let v : Value := .document [("a.b", .array [.document [("$", .int32 1)]]), ("\x00", .null), ("a__dot__b", .int32 2)]
    v.WellKeyed ∧ escape v = .document [("a__dot__b", .int32 2), ("__null__", .null)] ∧ escape v ≠ v ∧
      escape (escape v) = escape v := by
  intro v
  have hinner : (Value.document [("$", .int32 1)]).WellKeyed :=
    .document (by decide) (List.forall_mem_singleton.2 (.scalar rfl))
  have hv : v.WellKeyed :=
    .document (by decide) (by
      simp only [List.forall_mem_cons]
      exact ⟨.array (List.forall_mem_singleton.2 hinner), .scalar rfl, .scalar rfl, fun _ => nofun⟩)
  obtain ⟨-, -, hagain, hiff⟩ := escape_safe v
  refine ⟨hv, rfl, fun h => ?_, hagain⟩
  have hkey : IsSafe "a.b" := (hiff hv).1 h "a.b" (List.mem_cons_self ..)
  exact hkey '.' (by decide) (by decide)

end Mongo

end Dossier
