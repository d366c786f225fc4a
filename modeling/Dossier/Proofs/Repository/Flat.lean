/-
Stored customers hold an identifier under `id` and nowhere else, whatever the configuration, when the
log is kept in another collection. A patch that looks for an identifier under some field then writes
to no other row than the one of that identifier.
-/
import Dossier.Proofs.Repository.Customers

namespace Dossier.Customer

open Repository

variable {config : Config} {c u : Customer} {row : Row} {store : Store} {names : List String} {values : Document}

/-! ## Documents of customers -/

theorem isField_column : ∀ col ∈ columns, ∀ v, col.2 c = some v → v.IsField idKey col.1 := by
  have text : ∀ (x : Option String) name, (Value.ofOption (x.map .string)).IsField idKey name := fun x _ => by
    cases x <;> trivial
  have instant : ∀ (x : Option Int64) name, (Value.ofOption (x.map .dateTime)).IsField idKey name := fun x _ => by
    cases x <;> trivial
  intro col hc v hv
  simp only [columns, List.mem_cons, List.not_mem_nil, or_false] at hc
  rcases hc with rfl | rfl | rfl | rfl | rfl | rfl | rfl | rfl | rfl | rfl | rfl | rfl
  · obtain ⟨id, -, rfl⟩ := Option.map_eq_some_iff.1 hv
    exact rfl
  · obtain ⟨slug, -, rfl⟩ := Option.map_eq_some_iff.1 hv
    trivial
  · obtain ⟨sequence, -, rfl⟩ := Option.map_eq_some_iff.1 hv
    trivial
  · cases hv; trivial
  · cases hv; exact text ..
  · cases hv; exact text ..
  · cases hv; trivial
  · cases hv; trivial
  · cases hv; exact instant ..
  · cases hv; exact text ..
  · cases hv; exact instant ..
  · cases hv; exact text ..

theorem isField_document {name : String} {v : Value} (h : c.document.lookup name = some v) : v.IsField idKey name := by
  rw [lookup_document] at h
  obtain ⟨read, hr, hv⟩ := Option.bind_eq_some_iff.1 h
  exact isField_column _ (Entries.mem_of_lookup hr) v hv

theorem flat_toValue (c : Customer) : c.toValue.Flat idKey :=
  ⟨c.document, toValue_eq c, fun _ _ => isField_document⟩

theorem flat_withFields_readAll {doc : Value} (h : doc.Flat idKey) (hl : registry.readAll u names = .ok values) :
    (Store.withFields values doc).Flat idKey := by
  refine h.withFields (Registry.readAll_nodup hl) fun name v hv => ?_
  rw [lookup_readAll hl] at hv
  split at hv
  · exact isField_document hv
  · cases hv

/-! ## Flat stores -/

/-- Every document of the collection is flat. -/
def Flat (store : Store) : Prop := ∀ row ∈ store.rows (Stored.collection Customer), row.doc.Flat idKey

theorem Flat.fieldsSet (h : Flat store) (filter : Expr)
    (hv : ∀ doc : Value, doc.Flat idKey → (Store.withFields values doc).Flat idKey) :
    Flat (store.reviseRows (Stored.collection Customer) (Store.fieldsSet filter values)) := by
  intro row hr
  rw [Store.rows_reviseRows] at hr
  obtain ⟨old, ho, rfl⟩ := List.mem_map.1 hr
  change (Store.fieldsSet filter values old).Flat idKey
  unfold Store.fieldsSet
  split
  · exact hv _ (h old ho)
  · exact h old ho

theorem Flat.cleared {r : Repository Customer} {e : Customer} {own : Option Uuid} {cleared : Store} (h : Flat store)
    (hw : store.WF) (hc : Cleared r e own store cleared) : Flat cleared :=
  fun row hr => h row (hc.mem_rows hw hr)

theorem Flat.effect {scope : Scope Customer} {s t : State} (ha : config.auditCollection ≠ Stored.collection Customer)
    (h : Effect (repository config) scope s t) (hs : (repository config).Sound s.store) (hf : Flat s.store) :
    Flat t.store := by
  cases h with
  | draws n => exact hf
  | counts counters => exact hf
  | drops id => exact fun row hr => hf row (hs.wf.mem_of_dropRow hr)
  | @creates e c cleared id n counters hg hcl hd hi ho hv hid =>
    intro row hr
    rcases Store.mem_rows_addRows hr with hr | ⟨-, hm⟩
    · exact hf.cleared hs.wf hcl row hr
    · rw [List.mem_singleton, Prod.mk.injEq] at hm
      rw [hm.2]
      exact flat_toValue c
  | replaces ctx hg ho hv hcl hi =>
    intro row hr
    rcases Store.mem_rows_putRow hr with ⟨-, hd⟩ | hr
    · rw [hd]
      exact flat_toValue _
    · exact hf.cleared hs.wf hcl row hr
  | patches hg hr he hv hcl hd hl =>
    exact (hf.cleared hs.wf hcl).fieldsSet _ fun doc h => flat_withFields_readAll h hl
  | patchesMany filter hm hg hl => exact hf.fieldsSet _ fun doc h => flat_withFields_readAll h hl
  | deactivates hg =>
    refine hf.fieldsSet _ fun doc h => h.withFields (List.nodup_singleton _) fun name v hv => ?_
    obtain ⟨-, rfl⟩ := Prod.mk.inj (List.mem_singleton.1 (Entries.mem_of_lookup hv))
    trivial
  | logs hr =>
    intro row hm
    rw [hr.left] at hm
    rcases mem_rows_recorded hm with hm | ⟨hname, -⟩
    · exact hf row hm
    · exact (ha hname.symm).elim

theorem flat_of_reachable {allowed : Call Customer → Prop} {s : State}
    (ha : config.auditCollection ≠ Stored.collection Customer) (h : Reachable (repository config) allowed s) :
    Flat s.store :=
  (h.invariant (P := Flat) idKey_not_registered nofun fun _ _ _ _ he hs hf => hf.effect ha he hs).2

/-- What is found by an identifier is kept under it. -/
theorem id_eq_of_byId (hs : (repository config).Sound store) (hf : config.idField = "id" ∨ Flat store) {own : Uuid}
    (hr : row ∈ store.rows (Stored.collection Customer)) (hh : ((repository config).byId own).holds row.doc = true) :
    row.id = own := by
  have hby : (repository config).byId own = .eq config.idField (.uuid own) := rfl
  rw [hby] at hh
  by_cases hid : config.idField = idKey
  · rw [hid] at hh
    exact (hs.keyed row hr).eq_of_holds hh
  · rcases hf with hid' | hf
    · exact (hid hid').elim
    · rw [Expr.holds_eq_uuid_flat (hf row hr) hid] at hh
      cases hh

end Dossier.Customer
