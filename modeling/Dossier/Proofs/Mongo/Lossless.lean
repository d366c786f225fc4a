/-
Escaping loses nothing where keys have no underscores. Two such keys have different words in them unless they are
equal, so no two entries of a document become one: every document keeps its entries in their order, and values that
become the same were the same. This holds of any change of keys that keeps apart the keys that it is used on.
-/
import Dossier.Proofs.Mongo.Safe
import Dossier.Proofs.Value.Same
import Mathlib.Data.Set.Function

namespace Dossier

namespace Value

/-- A value with other keys, entry by entry. Values that have no others in them are the same, arrays have the same
items one by one, and documents the same entries one by one, each with the new form of its key. -/
inductive Renamed (f : String → String) : Value → Value → Prop
  | scalar {v : Value} (h : v.isScalar = true) : Renamed f v v
  | array {items items' : List Value} (h : List.Forall₂ (Renamed f) items items') :
    Renamed f (.array items) (.array items')
  | document {es es' : Document} (hkeys : Entries.keys es' = (Entries.keys es).map f)
      (h : List.Forall₂ (Renamed f) (es.map (·.2)) (es'.map (·.2))) : Renamed f (.document es) (.document es')

variable {v w : Value} {as bs : List Value} {es fs : Document} {f : String → String} {g : Value → Value}

theorem same_eq_false_of_isScalar (hv : v.isScalar = true) (hw : w.isScalar = false) :
    v.same w = false ∧ w.same v = false := by
  cases w with
  | array bs =>
    cases v with
    | array | document => cases hv
    | _ => exact ⟨rfl, rfl⟩
  | document fs =>
    cases v with
    | array | document => cases hv
    | _ => exact ⟨rfl, rfl⟩
  | _ => cases hw

theorem sameItems_map (h : ∀ a ∈ as, ∀ b ∈ bs, (g a).same (g b) = a.same b) :
    sameItems (as.map g) (bs.map g) = sameItems as bs := by
  induction as generalizing bs with
  | nil => cases bs <;> rfl
  | cons a as ih =>
    cases bs with
    | nil => rfl
    | cons b bs =>
      rw [List.map_cons, List.map_cons, sameItems, sameItems, h a (List.mem_cons_self ..) b (List.mem_cons_self ..),
        ih fun a ha b hb => h a (List.mem_cons_of_mem _ ha) b (List.mem_cons_of_mem _ hb)]

theorem sameEntries_map (hf : ∀ e ∈ es, ∀ key ∈ Entries.keys fs, f key = f e.1 → key = e.1)
    (h : ∀ e ∈ es, ∀ b ∈ fs, (g e.2).same (g b.2) = e.2.same b.2) :
    sameEntries (es.map (Prod.map f g)) (fs.map (Prod.map f g)) = sameEntries es fs := by
  rw [Bool.eq_iff_iff, sameEntries_iff, sameEntries_iff, List.forall_mem_map]
  refine forall₂_congr fun e he => ?_
  rw [Prod.map_fst, Prod.map_snd, Entries.lookup_rename g (hf e he)]
  cases hl : fs.lookup e.1 with
  | none => simp
  | some w => simp [h e he _ (Entries.mem_of_lookup hl)]

end Value

namespace Mongo

open Value

variable {f : String → String} {P : String → Prop} {v w : Value}

/-! ## Keys that stay apart -/

/-- Where keys stay apart, every entry keeps its place. -/
theorem renamed_mapKeys (hf : ∀ a b, P a → P b → f a = f b → a = b) (hv : v.WellKeyed)
    (hp : ∀ key ∈ v.keysWithin, P key) : v.Renamed f (mapKeys f v) := by
  induction hv with
  | scalar h =>
    rw [mapKeys_scalar h]
    exact .scalar h
  | array _ ih =>
    rw [forall_keysWithin_array] at hp
    rw [mapKeys_array]
    exact .array (List.forall₂_map_right_iff.2 (List.forall₂_same.2 fun v hv => ih v hv (hp v hv)))
  | @document es hn _ ih =>
    rw [mapKeys_document hf hn hp]
    rw [forall_keysWithin_document] at hp
    refine .document (by simp [Entries.keys]) ?_
    rw [List.map_map, List.forall₂_map_left_iff, List.forall₂_map_right_iff, List.forall₂_same]
    exact fun e he => ih e he (hp e he).2

/-- Keys that stay apart can be changed back. -/
theorem mapKeys_injOn (hf : ∀ a b, P a → P b → f a = f b → a = b) (hv : v.WellKeyed)
    (hp : ∀ key ∈ v.keysWithin, P key) (hw : w.WellKeyed) (hq : ∀ key ∈ w.keysWithin, P key)
    (h : mapKeys f v = mapKeys f w) : v = w := by
  let back := Function.invFunOn f {key | P key}
  have hleft : ∀ key, P key → back (f key) = key := fun key hk =>
    Set.InjOn.leftInvOn_invFunOn (fun a ha b hb => hf a b ha hb) hk
  have hback {v : Value} (hv : v.WellKeyed) (hp : ∀ key ∈ v.keysWithin, P key) : mapKeys back (mapKeys f v) = v := by
    rw [mapKeys_mapKeys hf hv hp, mapKeys_eq_self_iff hv]
    exact fun key hkey => hleft key (hp key hkey)
  calc
    v = mapKeys back (mapKeys f v) := (hback hv hp).symm
    _ = mapKeys back (mapKeys f w) := congrArg _ h
    _ = w := hback hw hq

theorem isScalar_mapKeys (v : Value) : (mapKeys f v).isScalar = v.isScalar := by
  cases v <;> rfl

/-- Where keys stay apart, values are equal as stored values if and only if they are so with new keys. -/
theorem same_mapKeys (hf : ∀ a b, P a → P b → f a = f b → a = b) (hv : v.WellKeyed)
    (hp : ∀ key ∈ v.keysWithin, P key) (hw : w.WellKeyed) (hq : ∀ key ∈ w.keysWithin, P key) :
    (mapKeys f v).same (mapKeys f w) = v.same w := by
  induction hv generalizing w with
  | scalar h =>
    cases h' : w.isScalar with
    | true => rw [mapKeys_scalar h, mapKeys_scalar h']
    | false =>
      rw [mapKeys_scalar h, (same_eq_false_of_isScalar h h').1,
        (same_eq_false_of_isScalar h ((isScalar_mapKeys w).trans h')).1]
  | @array items _ ih =>
    cases hw with
    | scalar h' =>
      rw [mapKeys_scalar h', mapKeys_array, (same_eq_false_of_isScalar h' rfl).2, (same_eq_false_of_isScalar h' rfl).2]
    | array hw =>
      rw [forall_keysWithin_array] at hp hq
      rw [mapKeys_array, mapKeys_array, same, same]
      exact sameItems_map fun a ha b hb => ih a ha (hp a ha) (hw b hb) (hq b hb)
    | document => rfl
  | @document es hn _ ih =>
    cases hw with
    | scalar h' =>
      rw [mapKeys_scalar h', mapKeys_entries, (same_eq_false_of_isScalar h' rfl).2,
        (same_eq_false_of_isScalar h' rfl).2]
    | array => rfl
    | @document fs hn' hw =>
      -- an entry is looked for by its new key, which no other key of the document becomes
      have hkeys := forall_keys_of_keysWithin hq
      rw [mapKeys_document hf hn hp, mapKeys_document hf hn' hq, same, same, List.length_map, List.length_map]
      rw [forall_keysWithin_document] at hp hq
      rw [sameEntries_map fun e he key hk => hf key e.1 (hkeys key hk) (hp e he).1]
      exact fun e he b hb => ih e he (hp e he).2 (hw b hb) (hq b hb).2

/-! ## Escaped keys -/

/-- Keys without underscores stay apart when they are escaped. So a value whose keys have none keeps all its entries in
their places, and two such values are identical, or equal as stored values, if and only if they are so escaped. -/
theorem escape_lossless :
    (∀ a b : String, '_' ∉ a.toList → '_' ∉ b.toList → escapeKey a = escapeKey b → a = b) ∧
    (∀ v : Value, v.WellKeyed → (∀ key ∈ v.keysWithin, '_' ∉ key.toList) → v.Renamed escapeKey (escape v)) ∧
    ∀ v w : Value, v.WellKeyed → (∀ key ∈ v.keysWithin, '_' ∉ key.toList) →
      w.WellKeyed → (∀ key ∈ w.keysWithin, '_' ∉ key.toList) →
        (escape v = escape w ↔ v = w) ∧ (escape v).same (escape w) = v.same w := by
  have hapart : ∀ a b : String, '_' ∉ a.toList → '_' ∉ b.toList → escapeKey a = escapeKey b → a = b :=
    fun _ _ ha hb => escapeKey_inj ha hb
  refine ⟨hapart, fun v hv hp => renamed_mapKeys hapart hv hp, fun v w hv hp hw hq => ⟨⟨?_, ?_⟩, ?_⟩⟩
  · exact mapKeys_injOn hapart hv hp hw hq
  · rintro rfl
    rfl
  · exact same_mapKeys hapart hv hp hw hq

/-- Entries in another order: equal as stored values, but not identical, before and after. -/
theorem escape_lossless_reordered :
    let v : Value := .document [("a..$b", .array [.document [("$", .int32 1)]]), ("\x00", .null)]
    let w : Value := .document [("\x00", .null), ("a..$b", .array [.document [("$", .int32 1)]])]
    v.Renamed escapeKey (escape v) ∧ escape v ≠ escape w ∧ (escape v).same (escape w) = true := by
  intro v w
  have hinner : (Value.document [("$", .int32 1)]).WellKeyed :=
    .document (by decide) (List.forall_mem_singleton.2 (.scalar rfl))
  have hitems : (Value.array [.document [("$", .int32 1)]]).WellKeyed := .array (List.forall_mem_singleton.2 hinner)
  have hnull : Value.null.WellKeyed := .scalar rfl
  have hv : v.WellKeyed :=
    .document (by decide) (List.forall_mem_cons.2 ⟨hitems, List.forall_mem_singleton.2 hnull⟩)
  have hw : w.WellKeyed :=
    .document (by decide) (List.forall_mem_cons.2 ⟨hnull, List.forall_mem_singleton.2 hitems⟩)
  have hp : ∀ key ∈ v.keysWithin, '_' ∉ key.toList := by decide
  have hq : ∀ key ∈ w.keysWithin, '_' ∉ key.toList := by decide
  obtain ⟨-, hrenamed, hcompare⟩ := escape_lossless
  obtain ⟨hiff, hsame⟩ := hcompare v w hv hp hw hq
  refine ⟨hrenamed v hv hp, fun h => ?_, hsame.trans rfl⟩
  have heq : v = w := hiff.1 h
  simp [v, w] at heq

end Mongo

end Dossier
