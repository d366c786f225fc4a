/-
The identity of customers that are read off documents. Documents with the same identity fields are read
as the same customer, and setting properties changes those properties and nothing else.
-/
import Dossier.Config
import Dossier.Proofs.Entity.Customer

namespace Dossier.Customer

/-! ## Identity -/

/-- The same customer, whatever its properties: identifier, slug and creation are the same. -/
structure SameIdentity (c d : Customer) : Prop where
  id : c.id = d.id
  slug : c.slug = d.slug
  sequence : c.sequence = d.sequence
  createdAt : c.createdAt = d.createdAt
  createdBy : c.createdBy = d.createdBy

theorem SameIdentity.refl (c : Customer) : SameIdentity c c := ⟨rfl, rfl, rfl, rfl, rfl⟩

theorem SameIdentity.trans {c d e : Customer} (h : SameIdentity c d) (h' : SameIdentity d e) : SameIdentity c e :=
  ⟨h.id.trans h'.id, h.slug.trans h'.slug, h.sequence.trans h'.sequence, h.createdAt.trans h'.createdAt,
    h.createdBy.trans h'.createdBy⟩

theorem sameIdentity_stamp (ctx : AuditContext) (c : Customer) : SameIdentity c (stamp ctx false c) :=
  ⟨rfl, rfl, rfl, rfl, rfl⟩

/-- Documents with the same identity fields are read as the same customer. -/
theorem Reads.sameIdentity {doc other : Document} {c d : Customer} (hc : Reads doc c) (hd : Reads other d)
    (h : ∀ key ∈ defaultIdentityFields, doc.lookup key = other.lookup key) : SameIdentity c d where
  id := Option.some.inj (hc.id.symm.trans ((Field.optional_congr (h "id" (by decide))).trans hd.id))
  slug := Option.some.inj (hc.slug.symm.trans ((Field.optional_congr (h "slug" (by decide))).trans hd.slug))
  sequence :=
    Option.some.inj (hc.sequence.symm.trans ((Field.optional_congr (h "sequence" (by decide))).trans hd.sequence))
  createdAt :=
    Option.some.inj (hc.createdAt.symm.trans ((Field.optional_congr (h "created_at" (by decide))).trans hd.createdAt))
  createdBy :=
    Option.some.inj (hc.createdBy.symm.trans ((Field.optional_congr (h "created_by" (by decide))).trans hd.createdBy))

theorem sameIdentity_overlay (names : List String) (u c : Customer) : SameIdentity c (overlay names u c) :=
  ⟨rfl, rfl, rfl, rfl, rfl⟩

/-! ## Setting properties -/

/-- An entry is the one that has been set, or else the one that was there. -/
theorem lookup_insertAll_readAll {u : Customer} {names : List String} {values : Document}
    (h : registry.readAll u names = .ok values) (doc : Document) (key : String) :
    (Entries.insertAll doc values).lookup key = if key ∈ names then u.document.lookup key else doc.lookup key := by
  rw [Entries.lookup_insertAll key (Registry.readAll_nodup h), lookup_readAll h]
  split
  · rename_i hk
    obtain ⟨v, hv⟩ := Option.isSome_iff_exists.1 (lookup_property (Registry.mem_names_of_readAll h hk) u)
    rw [hv]; rfl
  · rfl

theorem lookup_insertAll_of_not_registered {u : Customer} {names : List String} {values : Document}
    (h : registry.readAll u names = .ok values) (doc : Document) {key : String} (hk : key ∉ registry.names) :
    (Entries.insertAll doc values).lookup key = doc.lookup key := by
  rw [lookup_insertAll_readAll h, if_neg fun hm => hk (Registry.mem_names_of_readAll h hm)]

/-- A document in which properties have been set is read as the customer with those properties. -/
theorem Reads.insertAll {doc values : Document} {u c : Customer} {names : List String} (hc : Reads doc c)
    (h : registry.readAll u names = .ok values) : Reads (Entries.insertAll doc values) (overlay names u c) := by
  have hu := reads_document u
  have kept : ∀ {α : Type} (read : Value → Option α) {key : String}, key ∉ registry.names →
      Field.optional read key (Entries.insertAll doc values) = Field.optional read key doc :=
    fun read key hk => Field.optional_congr (lookup_insertAll_of_not_registered h doc hk)
  have required : ∀ {α : Type} {read : Value → Option α} {key : String} {x y : α},
      Field.required read key u.document = some x → Field.required read key doc = some y →
      Field.required read key (Entries.insertAll doc values) = some (if key ∈ names then x else y) := by
    intro α read key x y hx hy
    have hl := lookup_insertAll_readAll h doc key
    split at hl <;> rename_i hk
    · rw [Field.required_congr hl, hx, if_pos hk]
    · rw [Field.required_congr hl, hy, if_neg hk]
  have optional : ∀ {α : Type} {read : Value → Option α} {key : String} {x y : Option α},
      Field.optional read key u.document = some x → Field.optional read key doc = some y →
      Field.optional read key (Entries.insertAll doc values) = some (if key ∈ names then x else y) := by
    intro α read key x y hx hy
    have hl := lookup_insertAll_readAll h doc key
    split at hl <;> rename_i hk
    · rw [Field.optional_congr hl, hx, if_pos hk]
    · rw [Field.optional_congr hl, hy, if_neg hk]
  exact {
    id := (kept _ (by decide)).trans hc.id
    slug := (kept _ (by decide)).trans hc.slug
    sequence := (kept _ (by decide)).trans hc.sequence
    name := required hu.name hc.name
    email := optional hu.email hc.email
    city := optional hu.city hc.city
    balance := required hu.balance hc.balance
    active := required hu.active hc.active
    createdAt := (kept _ (by decide)).trans hc.createdAt
    createdBy := (kept _ (by decide)).trans hc.createdBy
    modifiedAt := (kept _ (by decide)).trans hc.modifiedAt
    modifiedBy := (kept _ (by decide)).trans hc.modifiedBy }

theorem ofValue?_withFields {v : Value} {values : Document} {u c : Customer} {names : List String}
    (hc : ofValue? v = some c) (h : registry.readAll u names = .ok values) :
    ofValue? (Store.withFields values v) = some (overlay names u c) := by
  obtain ⟨doc, rfl, hr⟩ := ofValue?_eq_some_iff.1 hc
  exact ofValue?_eq_some_iff.2 ⟨_, rfl, hr.insertAll h⟩

end Dossier.Customer
