/-
The stored form of items. An item is read off the entries of its document by name, as a customer is.
What it keeps as its value and as its notes is resolved when it is read, once and for all, so that an
item that has been read can be written and read again.
-/
import Dossier.Entity.Item
import Dossier.Proofs.Entity.Customer
import Dossier.Proofs.Value.Extended

namespace Dossier

theorem Field.withDefault_congr {α : Type} {read : Value → Option α} {absent : α} {key : String}
    {doc other : Document} (h : doc.lookup key = other.lookup key) :
    withDefault read absent key doc = withDefault read absent key other := by
  unfold withDefault; rw [h]

namespace Item

/-! ## Columns -/

/-- The columns of a stored item in order. -/
def columns : List (String × (Item → Option Value)) :=
  [("id", fun i => i.id.map .uuid), ("slug", fun i => i.slug.map .string),
    ("sequence", fun i => i.sequence.map .int64), ("name", fun i => some (.string i.name)),
    ("value", fun i => some i.value), ("tags", fun i => some i.tagsValue),
    ("meta", fun i => i.notes.map .document)]

/-- The document of an item. -/
def document (i : Item) : Document := columns.filterMap fun col => (col.2 i).map (col.1, ·)

theorem toValue_eq (i : Item) : i.toValue = .document i.document := by
  obtain ⟨id, slug, sequence, _, _, _, notes⟩ := i
  cases id <;> cases slug <;> cases sequence <;> cases notes <;> rfl

theorem keys_columns_nodup : (Entries.keys columns).Nodup := by decide

theorem lookup_document (i : Item) (key : String) :
    i.document.lookup key = (columns.lookup key).bind fun read => read i :=
  Entries.lookup_filterMap i key keys_columns_nodup

/-! ## Reading back -/

/-- The entries of a document are read as those of an item. -/
structure Reads (doc : Document) (i : Item) : Prop where
  id : Field.optional Value.identifier? "id" doc = some i.id
  slug : Field.optional Value.text? "slug" doc = some i.slug
  sequence : Field.optional Value.integer? "sequence" doc = some i.sequence
  name : Field.required Value.text? "name" doc = some i.name
  value : Field.withDefault Value.read? .null "value" doc = some i.value
  tags : Field.withDefault Value.texts? [] "tags" doc = some i.tags
  notes : Field.optional Value.document? "meta" doc = some i.notes

theorem ofValue?_eq_some_iff {v : Value} {i : Item} :
    ofValue? v = some i ↔ ∃ doc, v = .document doc ∧ Reads doc i := by
  constructor
  · intro h
    unfold ofValue? at h
    obtain ⟨doc, hv, h⟩ := Option.bind_eq_some_iff.1 h
    obtain ⟨_, h1, h⟩ := Option.bind_eq_some_iff.1 h
    obtain ⟨_, h2, h⟩ := Option.bind_eq_some_iff.1 h
    obtain ⟨_, h3, h⟩ := Option.bind_eq_some_iff.1 h
    obtain ⟨_, h4, h⟩ := Option.bind_eq_some_iff.1 h
    obtain ⟨_, h5, h⟩ := Option.bind_eq_some_iff.1 h
    obtain ⟨_, h6, h⟩ := Option.bind_eq_some_iff.1 h
    obtain ⟨_, h7, h⟩ := Option.bind_eq_some_iff.1 h
    cases h
    cases v with
    | document entries => cases hv; exact ⟨doc, rfl, h1, h2, h3, h4, h5, h6, h7⟩
    | _ => cases hv
  · rintro ⟨doc, rfl, h1, h2, h3, h4, h5, h6, h7⟩
    unfold ofValue?
    change (Field.optional Value.identifier? "id" doc).bind _ = _
    rw [h1, h2, h3, h4, h5, h6, h7]
    rfl

instance : LawfulEntity Item where
  toValue_id i := ⟨i.document, toValue_eq i, by rw [lookup_document]; rfl⟩
  id_of_ofValue? h := by
    obtain ⟨doc, hv, hr⟩ := ofValue?_eq_some_iff.1 h
    exact ⟨doc, hv, hr.id⟩
  id_withId _ _ := rfl
  id_withSlug _ _ _ := rfl
  id_stamp _ _ _ := rfl

theorem texts?_tagsValue (i : Item) : i.tagsValue.texts? = some i.tags := by
  have h : ∀ tags : List String, (tags.map Value.string).mapM Value.text? = some tags := by
    intro tags
    induction tags with
    | nil => rfl
    | cons tag tags ih =>
      rw [List.map_cons, List.mapM_cons, ih]
      rfl
  exact h i.tags

/-- An item that has been read keeps a resolved value and resolved notes. -/
theorem resolved_of_read {v : Value} {i : Item} (h : ofValue? v = some i) :
    i.value.read? = some i.value ∧ ∀ notes, i.notes = some notes → Value.document? (.document notes) = some notes := by
  obtain ⟨doc, rfl, hr⟩ := ofValue?_eq_some_iff.1 h
  constructor
  · have hv := hr.value
    unfold Field.withDefault at hv
    split at hv
    · exact Value.resolve?_idem hv
    · rw [← Option.some.inj hv]; rfl
  · intro notes hn
    have hm := hr.notes
    rw [hn] at hm
    unfold Field.optional at hm
    split at hm
    · cases hm
    · cases hm
    · obtain ⟨entries, he, hnotes⟩ := Option.map_eq_some_iff.1 hm
      cases hnotes
      obtain ⟨w, hw, he⟩ := Option.bind_eq_some_iff.1 he
      have hd : Value.document? w = some notes := by
        unfold Value.document? Value.read?
        rw [Value.resolve?_idem hw]
        exact he
      cases w with
      | document entries => cases he; exact hd
      | _ => cases he

/-! ## Properties -/

/-- An item with the named properties of another one. -/
def overlay (names : List String) (u t : Item) : Item :=
  { t with
    slug := if "slug" ∈ names then u.slug else t.slug
    name := if "name" ∈ names then u.name else t.name
    value := if "value" ∈ names then u.value else t.value
    tags := if "tags" ∈ names then u.tags else t.tags
    notes := if "meta" ∈ names then u.notes else t.notes }

theorem names_registry : registry.names = ["value", "tags", "meta", "slug", "name"] := rfl

theorem column_overlay (names : List String) (u t : Item) : ∀ col ∈ columns, col.2 (overlay names u t) =
    if col.1 ∈ names ∧ col.1 ∈ registry.names then col.2 u else col.2 t := by
  rw [names_registry]
  intro col hc
  simp only [columns, List.mem_cons, List.not_mem_nil, or_false] at hc
  rcases hc with rfl | rfl | rfl | rfl | rfl | rfl | rfl <;>
    simp only [overlay, tagsValue, List.mem_cons, String.reduceEq, List.not_mem_nil, or_self, or_false, or_true,
      and_false, and_true, if_false]
  all_goals split <;> rfl

theorem lookup_overlay (names : List String) (u t : Item) (key : String) :
    (overlay names u t).document.lookup key =
      if key ∈ names ∧ key ∈ registry.names then u.document.lookup key else t.document.lookup key := by
  rw [lookup_document, lookup_document, lookup_document]
  cases hl : columns.lookup key with
  | none => simp
  | some read => simpa using column_overlay names u t _ (Entries.mem_of_lookup hl)

/-- Every registered property copies the column of its name, and reads it as null where it is empty. -/
theorem property_registry {p : Property Item} (h : p ∈ registry.properties) (u t : Item) :
    p.copy u t = overlay [p.name] u t ∧ p.read u = Value.ofOption (u.document.lookup p.name) := by
  rw [lookup_document]
  revert p
  rw [← List.forall_iff_forall_mem]
  exact ⟨⟨rfl, rfl⟩, ⟨rfl, rfl⟩, ⟨rfl, rfl⟩, ⟨rfl, rfl⟩, ⟨rfl, rfl⟩⟩

theorem overlay_cons (name : String) (names : List String) (u t : Item) :
    overlay names u (overlay [name] u t) = overlay (name :: names) u t := by
  have h : ∀ {α : Type} (key : String) (x y : α), (if key ∈ names then x else if key ∈ [name] then x else y) =
      if key ∈ name :: names then x else y := by
    intro α key x y
    by_cases h1 : key ∈ names <;> by_cases h2 : key = name <;> simp [h1, h2]
  unfold overlay
  simp only [h]

theorem lookup_readAll {u : Item} {names : List String} {values : Document}
    (h : registry.readAll u names = .ok values) (key : String) :
    values.lookup key = if key ∈ names then some (Value.ofOption (u.document.lookup key)) else none := by
  split
  · rename_i hk
    obtain ⟨p, hp, rfl, hl⟩ := Registry.lookup_readAll h hk
    rw [hl, (property_registry hp u u).2]
  · rename_i hk; exact Registry.lookup_readAll_none h hk

theorem lookup_insertAll_readAll {u : Item} {names : List String} {values : Document}
    (h : registry.readAll u names = .ok values) (doc : Document) (key : String) :
    (Entries.insertAll doc values).lookup key =
      if key ∈ names then some (Value.ofOption (u.document.lookup key)) else doc.lookup key := by
  rw [Entries.lookup_insertAll key (Registry.readAll_nodup h), lookup_readAll h]
  split <;> rfl

/-- A document in which resolved properties have been set is read as the item with those properties. -/
theorem Reads.insertAll {doc values : Document} {v : Value} {u i : Item} {names : List String} (hi : Reads doc i)
    (hu : ofValue? v = some u) (h : registry.readAll u names = .ok values) :
    Reads (Entries.insertAll doc values) (overlay names u i) := by
  obtain ⟨hvalue, hnotes⟩ := resolved_of_read hu
  have kept : ∀ {α : Type} (read : Value → Option α) {key : String}, key ∉ registry.names →
      Field.optional read key (Entries.insertAll doc values) = Field.optional read key doc := by
    intro α read key hk
    refine Field.optional_congr ?_
    rw [lookup_insertAll_readAll h, if_neg fun hm => hk (Registry.mem_names_of_readAll h hm)]
  -- a field is read from its entry alone, which is the one that has been set or the one that was there
  have picked : ∀ {α : Type} {field : Document → Option α} {key : String} {x y : α},
      (∀ {d d' : Document}, d.lookup key = d'.lookup key → field d = field d') →
      field [(key, Value.ofOption (u.document.lookup key))] = some x → field doc = some y →
      field (Entries.insertAll doc values) = some (if key ∈ names then x else y) := by
    intro α field key x y hcongr hx hy
    have hl := lookup_insertAll_readAll h doc key
    by_cases hm : key ∈ names
    · rw [if_pos hm] at hl ⊢
      rw [← hx]
      refine hcongr ?_
      rw [hl, Entries.lookup_cons, if_pos rfl]
    · rw [if_neg hm] at hl ⊢
      rw [hcongr hl, hy]
  constructor
  case id => exact (kept _ (by decide)).trans hi.id
  case sequence => exact (kept _ (by decide)).trans hi.sequence
  case slug =>
    refine picked Field.optional_congr ?_ hi.slug
    rw [lookup_document]
    exact Field.optional_of_getD .string (fun _ => rfl) (fun _ => nofun) rfl
  case name =>
    refine picked Field.required_congr ?_ hi.name
    rw [lookup_document]
    rfl
  case value =>
    refine picked Field.withDefault_congr ?_ hi.value
    rw [lookup_document]
    exact hvalue
  case tags =>
    refine picked Field.withDefault_congr ?_ hi.tags
    rw [lookup_document]
    exact texts?_tagsValue u
  case notes =>
    refine picked Field.optional_congr ?_ hi.notes
    rw [lookup_document]
    change Field.optional _ _ [(_, Value.ofOption (u.notes.map Value.document))] = _
    cases hn : u.notes with
    | none => rfl
    | some notes => exact congrArg (Option.map some) (hnotes notes hn)

theorem ofValue?_withFields {v w : Value} {values : Document} {u i : Item} {names : List String}
    (hi : ofValue? v = some i) (hu : ofValue? w = some u) (h : registry.readAll u names = .ok values) :
    ofValue? (Store.withFields values v) = some (overlay names u i) := by
  obtain ⟨doc, rfl, hr⟩ := ofValue?_eq_some_iff.1 hi
  exact ofValue?_eq_some_iff.2 ⟨_, rfl, hr.insertAll hu h⟩

end Item

end Dossier
