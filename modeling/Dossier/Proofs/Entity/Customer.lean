/-
The stored form of customers. A customer is read off the entries of its document by name, so a
document is the stored form of a customer as soon as it has the same entries, and a patch sets the
named columns and no others.
-/
import Dossier.Entity.Customer
import Dossier.Proofs.Entity.Lawful
import Dossier.Proofs.Entity.Registry
import Dossier.Proofs.Store.Writes

namespace Dossier

theorem Value.getD_null (v : Option Value) : v.getD .null = Value.ofOption v := by
  cases v <;> rfl

/-- Reading back a field that is written as null or not at all when it is empty. -/
theorem Field.optional_of_getD {α : Type} {read : Value → Option α} (wrap : α → Value)
    (hr : ∀ a, read (wrap a) = some a) (hn : ∀ a, wrap a ≠ .null) {key : String} {doc : Document} {x : Option α}
    (h : (doc.lookup key).getD .null = Value.ofOption (x.map wrap)) : Field.optional read key doc = some x := by
  unfold Field.optional
  cases x with
  | none =>
    split
    · rfl
    · rfl
    · rename_i hv hl; rw [hl] at h; exact absurd h hv
  | some a =>
    rw [Option.map_some, Value.ofOption] at h
    split
    · rename_i hl; rw [hl] at h; exact absurd h.symm (hn a)
    · rename_i hl; rw [hl] at h; exact absurd h.symm (hn a)
    · rename_i v _ hl
      rw [hl, Option.getD_some] at h
      rw [h, hr]; rfl

theorem Field.optional_congr {α : Type} {read : Value → Option α} {key : String} {doc other : Document}
    (h : doc.lookup key = other.lookup key) : optional read key doc = optional read key other := by
  unfold optional; rw [h]

theorem Field.required_congr {α : Type} {read : Value → Option α} {key : String} {doc other : Document}
    (h : doc.lookup key = other.lookup key) : required read key doc = required read key other := by
  unfold required; rw [h]

namespace Customer

/-! ## Columns -/

/-- The columns of a stored customer in order. -/
def columns : List (String × (Customer → Option Value)) :=
  [("id", fun c => c.id.map .uuid), ("slug", fun c => c.slug.map .string),
    ("sequence", fun c => c.sequence.map .int64),
    ("name", fun c => some (.string c.name)), ("email", fun c => some (Value.ofOption (c.email.map .string))),
    ("city", fun c => some (Value.ofOption (c.city.map .string))), ("balance", fun c => some (.double c.balance)),
    ("active", fun c => some (.boolean c.active)),
    ("created_at", fun c => some (Value.ofOption (c.createdAt.map .dateTime))),
    ("created_by", fun c => some (Value.ofOption (c.createdBy.map .string))),
    ("modified_at", fun c => some (Value.ofOption (c.modifiedAt.map .dateTime))),
    ("modified_by", fun c => some (Value.ofOption (c.modifiedBy.map .string)))]

/-- The document of a customer. -/
def document (c : Customer) : Document := columns.filterMap fun col => (col.2 c).map (col.1, ·)

theorem toValue_eq (c : Customer) : c.toValue = .document c.document := by
  obtain ⟨id, slug, sequence, _⟩ := c
  cases id <;> cases slug <;> cases sequence <;> rfl

theorem keys_columns_nodup : (Entries.keys columns).Nodup := by decide

theorem lookup_document (c : Customer) (key : String) :
    c.document.lookup key = (columns.lookup key).bind fun read => read c :=
  Entries.lookup_filterMap c key keys_columns_nodup

theorem keys_document (c : Customer) :
    Entries.keys c.document = Entries.keys (columns.filter fun col => (col.2 c).isSome) :=
  Entries.keys_filterMap c columns

theorem keys_document_nodup (c : Customer) : (Entries.keys c.document).Nodup := by
  rw [keys_document]
  exact keys_columns_nodup.sublist (List.filter_sublist.map _)

/-- Customers whose columns agree by name have the same entry under it. -/
theorem lookup_document_congr {c d : Customer} {key : String}
    (h : ∀ col ∈ columns, col.1 = key → col.2 c = col.2 d) : c.document.lookup key = d.document.lookup key := by
  rw [lookup_document, lookup_document]
  cases hl : columns.lookup key with
  | none => rfl
  | some read => exact h _ (Entries.mem_of_lookup hl) rfl

/-! ## Reading back -/

/-- The entries of a document are read as those of a customer. -/
structure Reads (doc : Document) (c : Customer) : Prop where
  id : Field.optional Value.identifier? "id" doc = some c.id
  slug : Field.optional Value.text? "slug" doc = some c.slug
  sequence : Field.optional Value.integer? "sequence" doc = some c.sequence
  name : Field.required Value.text? "name" doc = some c.name
  email : Field.optional Value.text? "email" doc = some c.email
  city : Field.optional Value.text? "city" doc = some c.city
  balance : Field.required Value.number? "balance" doc = some c.balance
  active : Field.required Value.boolean? "active" doc = some c.active
  createdAt : Field.optional Value.instant? "created_at" doc = some c.createdAt
  createdBy : Field.optional Value.text? "created_by" doc = some c.createdBy
  modifiedAt : Field.optional Value.instant? "modified_at" doc = some c.modifiedAt
  modifiedBy : Field.optional Value.text? "modified_by" doc = some c.modifiedBy

theorem ofValue?_eq_some_iff {v : Value} {c : Customer} :
    ofValue? v = some c ↔ ∃ doc, v = .document doc ∧ Reads doc c := by
  constructor
  · intro h
    unfold ofValue? at h
    obtain ⟨doc, hv, h⟩ := Option.bind_eq_some_iff.1 h
    obtain ⟨_, h1, h⟩ := Option.bind_eq_some_iff.1 h
    obtain ⟨_, h2, h⟩ := Option.bind_eq_some_iff.1 h
    obtain ⟨_, h3, h⟩ := Option.bind_eq_some_iff.1 h
    obtain ⟨_, h4, h⟩ := Option.bind_eq_some_iff.1 h
    obtain ⟨_, h5, h⟩ := Option.bind_eq_some_iff.1 h
    obtain ⟨_, h6, h⟩ := Option.bind_eq_some_iff.1 h
    obtain ⟨_, h7, h⟩ := Option.bind_eq_some_iff.1 h
    obtain ⟨_, h8, h⟩ := Option.bind_eq_some_iff.1 h
    obtain ⟨_, h9, h⟩ := Option.bind_eq_some_iff.1 h
    obtain ⟨_, h10, h⟩ := Option.bind_eq_some_iff.1 h
    obtain ⟨_, h11, h⟩ := Option.bind_eq_some_iff.1 h
    obtain ⟨_, h12, h⟩ := Option.bind_eq_some_iff.1 h
    cases h
    cases v with
    | document entries => cases hv; exact ⟨doc, rfl, h1, h2, h3, h4, h5, h6, h7, h8, h9, h10, h11, h12⟩
    | _ => cases hv
  · rintro ⟨doc, rfl, h1, h2, h3, h4, h5, h6, h7, h8, h9, h10, h11, h12⟩
    unfold ofValue?
    change (Field.optional Value.identifier? "id" doc).bind _ = _
    rw [h1, h2, h3, h4, h5, h6, h7, h8, h9, h10, h11, h12]
    rfl

/-- A document with the entries of a customer is read as that customer. -/
theorem Reads.of_lookup {c : Customer} {doc : Document} (h : ∀ key, doc.lookup key = c.document.lookup key) :
    Reads doc c := by
  have h := fun key => (h key).trans (lookup_document c key)
  have text : ∀ {key : String} {x : Option String}, (doc.lookup key).getD .null = Value.ofOption (x.map .string) →
      Field.optional Value.text? key doc = some x :=
    Field.optional_of_getD .string (fun _ => rfl) fun _ => nofun
  have instant : ∀ {key : String} {x : Option Int64},
      (doc.lookup key).getD .null = Value.ofOption (x.map .dateTime) →
      Field.optional Value.instant? key doc = some x :=
    Field.optional_of_getD .dateTime (fun _ => rfl) fun _ => nofun
  exact {
    id := Field.optional_of_getD .uuid Uuid.identifier?_uuid (fun _ => nofun)
      (by rw [h]; exact Value.getD_null (c.id.map .uuid))
    slug := text (by rw [h]; exact Value.getD_null (c.slug.map .string))
    sequence := Field.optional_of_getD .int64 (fun _ => rfl) (fun _ => nofun)
      (by rw [h]; exact Value.getD_null (c.sequence.map .int64))
    name := by unfold Field.required; rw [h]; rfl
    email := text (by rw [h]; rfl)
    city := text (by rw [h]; rfl)
    balance := by unfold Field.required; rw [h]; rfl
    active := by unfold Field.required; rw [h]; rfl
    createdAt := instant (by rw [h]; rfl)
    createdBy := text (by rw [h]; rfl)
    modifiedAt := instant (by rw [h]; rfl)
    modifiedBy := text (by rw [h]; rfl) }

theorem reads_document (c : Customer) : Reads c.document c := .of_lookup fun _ => rfl

theorem ofValue?_document {c : Customer} {doc : Document} (h : ∀ key, doc.lookup key = c.document.lookup key) :
    ofValue? (.document doc) = some c :=
  ofValue?_eq_some_iff.2 ⟨doc, rfl, .of_lookup h⟩

theorem ofValue?_toValue (c : Customer) : ofValue? c.toValue = some c := by
  rw [toValue_eq]; exact ofValue?_document fun _ => rfl

instance : LawfulEntity Customer where
  toValue_id c := ⟨c.document, toValue_eq c, by rw [lookup_document]; rfl⟩
  id_of_ofValue? h := by
    obtain ⟨doc, hv, hr⟩ := ofValue?_eq_some_iff.1 h
    exact ⟨doc, hv, hr.id⟩
  id_withId _ _ := rfl
  id_withSlug _ _ _ := rfl
  id_stamp _ _ created := by cases created <;> rfl

/-! ## Properties -/

/-- A customer with the named properties of another one. -/
def overlay (names : List String) (u t : Customer) : Customer :=
  { t with
    name := if "name" ∈ names then u.name else t.name
    email := if "email" ∈ names then u.email else t.email
    city := if "city" ∈ names then u.city else t.city
    balance := if "balance" ∈ names then u.balance else t.balance
    active := if "active" ∈ names then u.active else t.active }

theorem column_overlay (names : List String) (u t : Customer) : ∀ col ∈ columns, col.2 (overlay names u t) =
    if col.1 ∈ names ∧ col.1 ∈ registry.names then col.2 u else col.2 t := by
  have hr : registry.names = ["name", "email", "city", "balance", "active"] := rfl
  rw [hr]
  intro col hc
  simp only [columns, List.mem_cons, List.not_mem_nil, or_false] at hc
  rcases hc with rfl | rfl | rfl | rfl | rfl | rfl | rfl | rfl | rfl | rfl | rfl | rfl <;>
    simp only [overlay, List.mem_cons, String.reduceEq, List.not_mem_nil, or_self, or_false, or_true, and_false,
      and_true, if_false]
  all_goals split <;> rfl

theorem lookup_overlay (names : List String) (u t : Customer) (key : String) :
    (overlay names u t).document.lookup key =
      if key ∈ names ∧ key ∈ registry.names then u.document.lookup key else t.document.lookup key := by
  rw [lookup_document, lookup_document, lookup_document]
  cases hl : columns.lookup key with
  | none => simp
  | some read => simpa using column_overlay names u t _ (Entries.mem_of_lookup hl)

/-- The columns of properties always have a value. -/
theorem column_isSome {col : String × (Customer → Option Value)} (hc : col ∈ columns) (hn : col.1 ∈ registry.names)
    (c : Customer) : (col.2 c).isSome = true := by
  have hr : registry.names = ["name", "email", "city", "balance", "active"] := rfl
  rw [hr] at hn
  revert col
  simp [columns]

theorem keys_overlay (names : List String) (u t : Customer) :
    Entries.keys (overlay names u t).document = Entries.keys t.document := by
  rw [keys_document, keys_document]
  refine congrArg Entries.keys (List.filter_congr fun col hc => ?_)
  rw [column_overlay names u t col hc]
  split
  · rename_i hn; rw [column_isSome hc hn.2, column_isSome hc hn.2]
  · rfl

/-- Every registered property copies and reads the column of its name. -/
theorem property_registry {p : Property Customer} (h : p ∈ registry.properties) (u t : Customer) :
    p.copy u t = overlay [p.name] u t ∧ u.document.lookup p.name = some (p.read u) := by
  rw [lookup_document]
  revert p
  rw [← List.forall_iff_forall_mem]
  exact ⟨⟨rfl, rfl⟩, ⟨rfl, rfl⟩, ⟨rfl, rfl⟩, ⟨rfl, rfl⟩, ⟨rfl, rfl⟩⟩

theorem lookup_property {name : String} (h : name ∈ registry.names) (c : Customer) :
    (c.document.lookup name).isSome = true := by
  obtain ⟨p, hp, rfl⟩ := List.mem_map.1 h
  rw [(property_registry hp c c).2]; rfl

theorem overlay_cons (name : String) (names : List String) (u t : Customer) :
    overlay names u (overlay [name] u t) = overlay (name :: names) u t := by
  have h : ∀ {α : Type} (key : String) (x y : α), (if key ∈ names then x else if key ∈ [name] then x else y) =
      if key ∈ name :: names then x else y := by
    intro α key x y
    by_cases h1 : key ∈ names <;> by_cases h2 : key = name <;> simp [h1, h2]
  unfold overlay
  simp only [h]

theorem copyAll_ok {u : Customer} : ∀ {names : List String} {t v : Customer},
    registry.copyAll names u t = .ok v → v = overlay names u t ∧ ∀ name ∈ names, name ∈ registry.names
  | [], t, v, h => by
    cases h
    exact ⟨rfl, by simp⟩
  | name :: names, t, v, h => by
    obtain ⟨t', hc, hr⟩ := except_bind_ok h
    obtain ⟨p, hf, rfl⟩ := except_map_ok hc
    obtain ⟨hp, rfl⟩ := Registry.find_ok hf
    obtain ⟨hv, hn⟩ := copyAll_ok hr
    rw [hv, (property_registry hp u t).1, overlay_cons]
    exact ⟨rfl, List.forall_mem_cons.2 ⟨List.mem_map_of_mem hp, hn⟩⟩

theorem lookup_readAll {u : Customer} {names : List String} {values : Document}
    (h : registry.readAll u names = .ok values) (key : String) :
    values.lookup key = if key ∈ names then u.document.lookup key else none := by
  split
  · rename_i hk
    obtain ⟨p, hp, rfl, hl⟩ := Registry.lookup_readAll h hk
    rw [hl, (property_registry hp u u).2]
  · rename_i hk; exact Registry.lookup_readAll_none h hk

/-- Setting the values of properties in a stored customer sets those properties of the customer. -/
theorem withFields_readAll {u : Customer} {names : List String} {values : Document}
    (h : registry.readAll u names = .ok values) (t : Customer) :
    Store.withFields values t.toValue = (overlay names u t).toValue := by
  have hn : ∀ key ∈ names, key ∈ registry.names := fun key => Registry.mem_names_of_readAll h
  have hs : Entries.keys values ⊆ Entries.keys t.document := fun key hm =>
    Entries.lookup_isSome_iff.1 (lookup_property (Registry.keys_readAll h hm) t)
  rw [toValue_eq, toValue_eq]
  unfold Store.withFields
  refine congrArg Value.document (Entries.ext_lookup ?_ ?_ fun key => ?_)
  · rw [Entries.keys_insertAll_of_subset hs, keys_overlay]
  · rw [Entries.keys_insertAll_of_subset hs]; exact keys_document_nodup t
  · rw [Entries.lookup_insertAll key (Registry.readAll_nodup h), lookup_readAll h, lookup_overlay]
    by_cases hi : key ∈ names
    · obtain ⟨v, hv⟩ := Option.isSome_iff_exists.1 (lookup_property (hn key hi) u)
      rw [if_pos hi, if_pos ⟨hi, hn key hi⟩, hv]; rfl
    · rw [if_neg hi, if_neg fun h => hi h.1]; rfl

end Customer

end Dossier
