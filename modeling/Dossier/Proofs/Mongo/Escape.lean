/-
Escaping the keys of nested documents and restoring them. A value whose keys have no underscores is restored with
the same keys in the same order if and only if no key at any depth has one of the ambiguous texts in it.
-/
import Dossier.Proofs.Entries
import Dossier.Proofs.Mongo.Words

namespace Dossier

namespace Value

/-- Whether a value has no other values in it that escaping reaches. -/
def isScalar : Value → Bool
  | array _ => false
  | document _ => false
  | _ => true

/-- A value whose documents, at any depth, bind each key once. -/
inductive WellKeyed : Value → Prop
  | scalar {v : Value} (h : v.isScalar = true) : WellKeyed v
  | array {items : List Value} (h : ∀ v ∈ items, WellKeyed v) : WellKeyed (.array items)
  | document {es : Document} (hn : (Entries.keys es).Nodup) (h : ∀ e ∈ es, WellKeyed e.2) :
    WellKeyed (.document es)

mutual

/-- The keys of the documents in a value, at any depth. -/
def keysWithin : Value → List String
  | array items => keysWithinItems items
  | document es => keysWithinEntries es
  | _ => []

def keysWithinItems : List Value → List String
  | [] => []
  | v :: rest => keysWithin v ++ keysWithinItems rest

def keysWithinEntries : List (String × Value) → List String
  | [] => []
  | (key, v) :: rest => key :: (keysWithin v ++ keysWithinEntries rest)

end

variable {v : Value} {items : List Value} {es : Document} {P : String → Prop}

theorem keysWithin_scalar (h : v.isScalar = true) : v.keysWithin = [] := by
  cases v with
  | array items => cases h
  | document es => cases h
  | _ => rfl

theorem forall_keysWithin_array :
    (∀ key ∈ (array items).keysWithin, P key) ↔ ∀ v ∈ items, ∀ key ∈ v.keysWithin, P key := by
  change (∀ key ∈ keysWithinItems items, P key) ↔ _
  induction items with
  | nil => simp [keysWithinItems]
  | cons v items ih => rw [keysWithinItems, List.forall_mem_append, ih, List.forall_mem_cons]

theorem forall_keysWithin_document : (∀ key ∈ (document es).keysWithin, P key) ↔
    ∀ e ∈ es, P e.1 ∧ ∀ key ∈ e.2.keysWithin, P key := by
  change (∀ key ∈ keysWithinEntries es, P key) ↔ _
  induction es with
  | nil => simp [keysWithinEntries]
  | cons e es ih =>
    rw [keysWithinEntries, List.forall_mem_cons, List.forall_mem_append, ih, List.forall_mem_cons, and_assoc]

theorem forall_keys_of_keysWithin (h : ∀ key ∈ (document es).keysWithin, P key) : ∀ key ∈ Entries.keys es, P key :=
  List.forall_mem_map.2 fun e he => (forall_keysWithin_document.1 h e he).1

end Value

namespace Mongo

open Value

variable {f g : String → String} {v : Value}

/-! ## Changing keys -/

theorem mapKeys_scalar (h : v.isScalar = true) : mapKeys f v = v := by
  cases v with
  | array items => cases h
  | document es => cases h
  | _ => rfl

theorem mapKeysItems_eq (items : List Value) : mapKeysItems f items = items.map (mapKeys f) := by
  induction items with
  | nil => rfl
  | cons v items ih => rw [mapKeysItems, ih, List.map_cons]

theorem mapKeysEntries_eq (es : Document) : mapKeysEntries f es = es.map (Prod.map f (mapKeys f)) := by
  induction es with
  | nil => rfl
  | cons e es ih => rw [mapKeysEntries, ih, List.map_cons]; rfl

theorem mapKeys_array (items : List Value) : mapKeys f (.array items) = .array (items.map (mapKeys f)) := by
  rw [mapKeys, mapKeysItems_eq]

/-- Keys that stay apart keep their entries. -/
theorem mapKeys_document {P : String → Prop} {es : Document} (hf : ∀ a b, P a → P b → f a = f b → a = b)
    (hn : (Entries.keys es).Nodup) (hp : ∀ key ∈ (document es).keysWithin, P key) :
    mapKeys f (.document es) = .document (es.map (Prod.map f (mapKeys f))) := by
  have hkeys : Entries.keys (es.map (Prod.map f (mapKeys f))) = (Entries.keys es).map f := by simp [Entries.keys]
  have hapart : ∀ a ∈ Entries.keys es, ∀ b ∈ Entries.keys es, f a = f b → a = b := fun a ha b hb =>
    hf a b (forall_keys_of_keysWithin hp a ha) (forall_keys_of_keysWithin hp b hb)
  rw [mapKeys, mapKeysEntries_eq, Entries.ofList_of_nodup]
  rw [hkeys]
  exact hn.map_on hapart

theorem map_eq_self_iff {α : Type} {h : α → α} {l : List α} : l.map h = l ↔ ∀ a ∈ l, h a = a := by
  simpa using @List.map_inj_left _ _ l h id

/-- A value stays as it is if and only if each of its keys does. -/
theorem mapKeys_eq_self_iff (hv : v.WellKeyed) : mapKeys f v = v ↔ ∀ key ∈ v.keysWithin, f key = key := by
  induction hv with
  | scalar h =>
    rw [mapKeys_scalar h, keysWithin_scalar h]
    simp
  | array _ ih =>
    rw [mapKeys_array, Value.array.injEq, map_eq_self_iff, forall_keysWithin_array]
    exact forall₂_congr ih
  | @document es hn _ ih =>
    rw [mapKeys, mapKeysEntries_eq, Value.document.injEq, Entries.ofList_eq_iff hn (List.length_map ..),
      map_eq_self_iff, forall_keysWithin_document]
    refine forall₂_congr fun e he => ?_
    rw [← ih e he]
    exact Prod.ext_iff

/-- Changing keys twice is changing them once, when the first change lets no two keys of a value coincide. -/
theorem mapKeys_mapKeys {P : String → Prop} (hf : ∀ a b, P a → P b → f a = f b → a = b) (hv : v.WellKeyed)
    (hp : ∀ key ∈ v.keysWithin, P key) : mapKeys g (mapKeys f v) = mapKeys (g ∘ f) v := by
  induction hv with
  | scalar h => rw [mapKeys_scalar h, mapKeys_scalar h, mapKeys_scalar h]
  | array _ ih =>
    rw [forall_keysWithin_array] at hp
    rw [mapKeys_array, mapKeys_array, mapKeys_array, List.map_map]
    exact congrArg Value.array (List.map_congr_left fun v hv => ih v hv (hp v hv))
  | @document es hn _ ih =>
    rw [mapKeys_document hf hn hp, mapKeys, mapKeys, mapKeysEntries_eq, mapKeysEntries_eq, List.map_map]
    rw [forall_keysWithin_document] at hp
    refine congrArg (Value.document ∘ Entries.ofList) (List.map_congr_left fun e he => ?_)
    exact Prod.ext rfl (ih e he (hp e he).2)

/-! ## Escaping and restoring -/

theorem escape_eq_self (hv : v.WellKeyed) (hkeys : ∀ key ∈ v.keysWithin, ∀ c ∈ key.toList, c ∉ specials) :
    escape v = v :=
  (mapKeys_eq_self_iff hv).2 fun key hkey => escapeKey_eq_self (hkeys key hkey)

/-- A value without underscores in its keys is restored, with the same keys in the same order, if and only if none
of its keys has an ambiguous text in it. -/
theorem restore_escape_iff (hv : v.WellKeyed) (hkeys : ∀ key ∈ v.keysWithin, '_' ∉ key.toList) :
    restore (escape v) = v ↔ ∀ key ∈ v.keysWithin, ∀ text ∈ ambiguous, ¬ text.toList <:+: key.toList := by
  unfold restore escape
  rw [mapKeys_mapKeys (fun _ _ ha hb => escapeKey_inj ha hb) hv hkeys, mapKeys_eq_self_iff hv]
  exact forall₂_congr fun key hkey => restoreKey_escapeKey_iff (hkeys key hkey)

/-- Special characters next to each other, next to the name of one, and around a name that no word has. -/
theorem restore_escape_nested :
    let v : Value := .document [("a..$b", .array [.document [("$null", .int32 1), (".dots.\x00", .null)]]), ("", .null)]
    v.WellKeyed ∧ (∀ key ∈ v.keysWithin, '_' ∉ key.toList) ∧ restore (escape v) = v := by
  intro v
  have hinner : (Value.document [("$null", .int32 1), (".dots.\x00", .null)]).WellKeyed :=
    .document (by decide) (List.forall_mem_cons.2 ⟨.scalar rfl, List.forall_mem_singleton.2 (.scalar rfl)⟩)
  have hv : v.WellKeyed :=
    .document (by decide) (List.forall_mem_cons.2
      ⟨.array (List.forall_mem_singleton.2 hinner), List.forall_mem_singleton.2 (.scalar rfl)⟩)
  have hkeys : ∀ key ∈ v.keysWithin, '_' ∉ key.toList := by decide
  exact ⟨hv, hkeys, (restore_escape_iff hv hkeys).2 (by decide)⟩

/-- Not every value without underscores in its keys is restored: between the words of two dots stands the word of
the null character, which is restored first. -/
theorem not_restore_escape : ¬ ∀ v : Value, v.WellKeyed → (∀ key ∈ v.keysWithin, '_' ∉ key.toList) →
    restore (escape v) = v := by
  intro h
  have hv : (Value.document [(".null.", .int32 1)]).WellKeyed :=
    .document (by decide) (List.forall_mem_singleton.2 (.scalar rfl))
  have hrestored : restore (escape (.document [(".null.", .int32 1)])) = .document [("__dot\x00dot__", .int32 1)] :=
    rfl
  have heq := hrestored.symm.trans (h _ hv (by decide))
  simp at heq

end Mongo

end Dossier
