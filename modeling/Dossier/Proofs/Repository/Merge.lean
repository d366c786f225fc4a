/-
Merging customers. A row takes over the properties that it fills in and nothing else, so merging it
once more into what it was merged into changes nothing.
-/
import Dossier.Proofs.Repository.Update

namespace Dossier.Customer

open Repository

variable {config : Config} {names : List String} {c e existing : Customer} {ctx : AuditContext}

/-! ## What a row takes over -/

/-- The properties that a customer fills in. -/
def present (e : Customer) : List String :=
  registry.names.filter fun key => (Differ.valueAt e.document key).isSome

theorem mem_present {key : String} {v : Value} (hk : key ∈ registry.names) (hl : e.document.lookup key = some v) :
    key ∈ present e ↔ v.isNothing = false := by
  unfold present Differ.valueAt
  rw [List.mem_filter, hl, Option.filter_some]
  cases v.isNothing
  · exact ⟨fun _ => rfl, fun _ => ⟨hk, rfl⟩⟩
  · exact ⟨fun h => (Bool.false_ne_true h.2).elim, nofun⟩

/-- The one value of a property that counts as nothing is null. -/
theorem isNothing_property {p : Property Customer} (h : p ∈ registry.properties) (e : Customer) :
    (p.read e).isNothing = true → p.read e = .null := by
  have text : ∀ x : Option String, (Value.ofOption (x.map .string)).isNothing = true →
      Value.ofOption (x.map .string) = .null := by
    intro x
    cases x with
    | none => exact fun _ => rfl
    | some text => exact nofun
  revert p
  rw [← List.forall_iff_forall_mem]
  exact ⟨nofun, text e.email, text e.city, nofun, nofun⟩

/-- A column that is no identity field is a property. -/
theorem lookup_document_none {key : String} (hk : key ∉ registry.names) (hi : key ∉ defaultIdentityFields)
    (e : Customer) : e.document.lookup key = none := by
  have hcolumns : ∀ name ∈ Entries.keys columns, name ∈ registry.names ∨ name ∈ defaultIdentityFields := by decide
  rw [lookup_document, Entries.lookup_eq_none_iff.2 fun hm => (hcolumns key hm).elim hk hi]
  rfl

/-- A property is no identity field. -/
theorem not_identity_of_property {key : String} (hk : key ∈ registry.names) :
    (key == "_id" || defaultIdentityFields.contains key) = false := by
  have hnames : ∀ name ∈ registry.names, (name == "_id" || defaultIdentityFields.contains name) = false := by decide
  exact hnames key hk

theorem lookup_merge (existing incoming : Customer) (key : String) :
    (mergeDocuments defaultIdentityFields existing.document incoming.document).lookup key =
      (overlay (present incoming) incoming existing).document.lookup key := by
  rw [lookup_mergeDocuments _ _ (keys_document_nodup incoming), lookup_overlay]
  by_cases hk : key ∈ registry.names
  · rw [not_identity_of_property hk, if_neg Bool.false_ne_true]
    obtain ⟨p, hp, rfl⟩ := List.mem_map.1 hk
    have hread : incoming.document.lookup p.name = some (p.read incoming) := (property_registry hp incoming incoming).2
    have hvalue : Differ.valueAt incoming.document p.name =
        (some (p.read incoming)).filter fun v => !v.isNothing := by
      unfold Differ.valueAt
      rw [hread]
    cases hn : (p.read incoming).isNothing with
    | true =>
      rw [if_neg (fun hm => ?_), hread, isNothing_property hp incoming hn]
      have hsome := (List.mem_filter.1 hm.1).2
      rw [hvalue, Option.filter_some, hn] at hsome
      cases hsome
    | false =>
      rw [if_pos ⟨List.mem_filter.2 ⟨hk, by rw [hvalue, Option.filter_some, hn]; rfl⟩, hk⟩, hread]
      cases hv : p.read incoming with
      | null => rw [hv] at hn; cases hn
      | _ => rfl
  · have hnot : ¬ (key ∈ present incoming ∧ key ∈ registry.names) := fun h => hk h.2
    rw [if_neg hnot]
    split
    · rfl
    · rename_i hi
      rw [Bool.or_eq_true, not_or, List.contains_iff_mem] at hi
      rw [lookup_document_none hk hi.2]

/-- A row is merged into a customer by setting the properties that it fills in. -/
theorem merged_eq (hdef : config.UsesDefaultFields) (existing incoming : Customer) :
    (repository config).merged existing incoming = .ok (overlay (present incoming) incoming existing) := by
  unfold merged
  rw [toDocument_eq, toDocument_eq, show (repository config).config.identityFields = _ from hdef.identityFields]
  change Stored.ofValue (E := Customer) _ = _
  unfold Stored.ofValue
  rw [show Stored.ofValue? (E := Customer) _ = some _ from
    ofValue?_document fun key => lookup_merge existing incoming key]

/-! ## Merging once more -/

/-- Merging a row into a customer changes nothing. -/
def Absorbed (config : Config) (e c : Customer) : Prop :=
  (repository config).changes c (overlay (present e) e c) none = .ok []

theorem absorbed_of_overlay (h : overlay (present e) e c = c) (hb : c.balance.isNaN = false) :
    Absorbed config e c := by
  unfold Absorbed
  rw [changes_eq, h]
  refine Differ.diffDocuments_nil_iff.2 fun key => ?_
  unfold Differ.differs
  rw [agree_self hb, Bool.not_true, Bool.and_false]

theorem overlay_self (names : List String) (e : Customer) : overlay names e e = e := by
  unfold overlay
  simp only [ite_self]

/-- Slugs, identifiers and stamps leave the properties alone. -/
theorem overlay_of_dressed (h : Dressed e c) : overlay names e c = c := by
  induction h with
  | bare => exact overlay_self names e
  | @slug c slug number h ih => exact congrArg (fun c => Entity.withSlug c slug number) ih
  | @identifier c id h ih => exact congrArg (fun c => Stored.withId c id) ih
  | @stamp c ctx created h ih =>
    cases created with
    | true => exact congrArg (stamp ctx true) ih
    | false => exact congrArg (stamp ctx false) ih

theorem active_of_dressed (h : Dressed e c) : c.active = e.active := by
  have ho : (overlay ["active"] e c).active = c.active := congrArg Customer.active (overlay_of_dressed h)
  rw [← ho]
  show (if "active" ∈ ["active"] then e.active else c.active) = e.active
  rw [if_pos (List.mem_singleton_self _)]

theorem overlay_overlay (names : List String) (e c : Customer) :
    overlay names e (overlay names e c) = overlay names e c := by
  unfold overlay
  congr 1 <;> (dsimp only; split <;> rfl)

/-- A row that has been merged is absorbed. -/
theorem absorbed_merged (existing : Customer) (ctx : AuditContext) (hb : e.balance.isNaN = false) :
    Absorbed config e (stamp ctx false (overlay (present e) e existing)) := by
  refine absorbed_of_overlay (congrArg (stamp ctx false) (overlay_overlay _ e existing)) ?_
  show (if "balance" ∈ present e then e.balance else existing.balance).isNaN = false
  have hpresent : "balance" ∈ present e :=
    (mem_present (v := .double e.balance) (by decide) (by rw [lookup_document]; rfl)).2 rfl
  rw [if_pos hpresent, hb]

theorem absorbed_dressed (h : Dressed e c) (hb : e.balance.isNaN = false) : Absorbed config e c :=
  absorbed_of_overlay (overlay_of_dressed h) ((kept_of_dressed h).2 ▸ hb)

end Dossier.Customer
