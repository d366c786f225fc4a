/-
Two ways to a stored entity: the key that it is stored under, and the field of its document that
keeps its identifier. Whatever operations do, every document keeps the key that it is stored under,
so both ways lead to the same record and to no other.
-/
import Dossier.Proofs.Repository.Customers
import Dossier.Proofs.Store.Counters

namespace Dossier

/-! ## Documents that keep their key -/

/-- A document that keeps an identifier under `id`. -/
def Value.Bears (v : Value) (id : Uuid) : Prop := ∃ es, v = .document es ∧ es.lookup idKey = some (.uuid id)

namespace Value.Bears

variable {v : Value} {id : Uuid}

theorem holds_eq (h : v.Bears id) (other : Uuid) : (Expr.eq idKey (.uuid other)).holds v = decide (id = other) := by
  obtain ⟨es, rfl, hl⟩ := h
  exact Expr.holds_eq_uuid (by decide) hl other

theorem withFields (h : v.Bears id) {fields : Document} (hf : idKey ∉ Entries.keys fields) :
    (Store.withFields fields v).Bears id := by
  obtain ⟨es, rfl, hl⟩ := h
  refine ⟨Entries.insertAll es fields, rfl, ?_⟩
  rwa [Entries.lookup_insertAll_of_not_mem hf]

theorem ofEntity {E : Type} [Entity E] [LawfulEntity E] {e : E} (h : Stored.id? e = some id) :
    (Stored.toValue e).Bears id := by
  obtain ⟨es, he, hl⟩ := LawfulEntity.toValue_id e
  exact ⟨es, he, by rw [hl, h]; rfl⟩

theorem ofRecord {record : ChangeRecord} (h : record.id = some id) : record.toValue.Bears id := by
  refine ⟨record.document, record.toValue_eq, ?_⟩
  rw [ChangeRecord.lookup_document]
  show record.id.map Value.uuid = _
  rw [h]; rfl

end Value.Bears

/-! ## Stores in which every document keeps its key -/

namespace Repository

theorem decides_byId {E : Type} (r : Repository E) (id : Uuid) (doc : Value) : (r.byId id).Decides doc :=
  ⟨_, Expr.eval_eq ..⟩

variable {E : Type} [Entity E] {r : Repository E} {scope : Scope E} {s t : State} {store : Store} {id : Uuid}
  {row : Row}

/-- Every stored document keeps the key that it is stored under. -/
def Filed (_ : Repository E) (store : Store) : Prop :=
  ∀ row ∈ store.rows (Stored.collection E), row.doc.Bears row.id

/-- Documents are written under their keys and stay there, unless a patch or the activity flag can take the place of
the identifier. -/
theorem keptByWrites_bears [LawfulEntity E] (hid : idKey ∉ r.registry.names) (hact : r.config.activeField ≠ idKey) :
    r.KeptByWrites fun id doc => doc.Bears id where
  entity _ _ h := .ofEntity h
  properties _ _ _ hl _ _ hd := hd.withFields fun hm => hid (Registry.keys_readAll hl hm)
  flag _ _ hd := hd.withFields fun hm => hact (List.mem_singleton.1 hm).symm
  record _ _ h := .ofRecord h

theorem Filed.holds_byId (h : r.Filed store) (hid : r.config.idField = idKey)
    (hr : row ∈ store.rows (Stored.collection E)) (id : Uuid) : (r.byId id).holds row.doc = decide (row.id = id) := by
  unfold byId
  rw [hid]
  exact (h row hr).holds_eq id

/-- The predicate on the field selects the row of the key. -/
theorem Filed.selected (h : r.Filed store) (hw : store.WF) (hid : r.config.idField = idKey) (id : Uuid) :
    ((store.rows (Stored.collection E)).filter fun row => (r.byId id).holds row.doc) =
      ((store.rows (Stored.collection E)).find? (·.id = id)).toList := by
  rw [List.filter_congr fun row hr => h.holds_byId hid hr id]
  exact (hw _).filter_id id

/-- Asking for the documents with an identifier yields what is stored under the key. -/
theorem Filed.query_byId (h : r.Filed store) (hw : store.WF) (hid : r.config.idField = idKey) (id : Uuid)
    {limit : Option Nat} (hl : limit ≠ some 0) :
    store.queryDocuments { filter := some (r.byId id), limit } (Stored.collection E) =
      .ok (store.getDocuments [id] (Stored.collection E)) := by
  have hsel : (store.collection (Stored.collection E)).select (some (r.byId id)) =
      .ok ((store.rows (Stored.collection E)).find? (·.id = id)).toList := by
    rw [← h.selected hw hid]
    exact Collection.selectRows_total fun row _ => r.decides_byId id row.doc
  unfold Store.queryDocuments Store.getDocuments
  rw [Collection.query_unsorted, hsel, List.filterMap_cons, (hw _).get?_eq]
  unfold Except.map Store.rows
  cases (store.collection (Stored.collection E)).rows.find? (·.id = id) with
  | none => cases limit <;> simp [window]
  | some row =>
    cases limit with
    | none => rfl
    | some n =>
      obtain ⟨m, rfl⟩ := Nat.exists_eq_succ_of_ne_zero fun hn => hl (congrArg some hn)
      simp [window]

/-! ## The two ways agree -/

/-- The key of an entity and the field that keeps its identifier lead to the same record. -/
structure Addresses (r : Repository E) (store : Store) (id : Uuid) : Prop where
  /-- A record is stored under the key if and only if exactly one document has the identifier, and it is that one. -/
  unique (doc : Value) : (store.collection (Stored.collection E)).get? id = some doc ↔
    store.queryDocuments { filter := some (r.byId id) } (Stored.collection E) = .ok [doc]
  /-- The one document that has the identifier is stored under it. -/
  matched : (store.collection (Stored.collection E)).contains id = true ↔
    (store.collection (Stored.collection E)).matchingIds (r.byId id) = .ok [id]
  /-- Looking up by the key and by the field yields the same entity or the same fault. -/
  found : r.entities.get? id store = r.entities.find? (r.byId id) store
  /-- What is loaded from under the key has it as its identifier. -/
  loaded (e : E) (h : r.entities.get? id store = .ok (some e)) : Stored.id? e = some id
  /-- Setting fields by the field that keeps the identifier changes the record under the key and no other. -/
  written (fields : Document) : ∃ t, Store.updateFields (r.byId id) fields (Stored.collection E) store =
      .ok (if (store.collection (Stored.collection E)).contains id then 1 else 0) t ∧ t.counters = store.counters ∧
    ∀ name key, (t.collection name).get? key = if name = Stored.collection E ∧ key = id
      then ((store.collection (Stored.collection E)).get? id).map (Store.withFields fields)
      else (store.collection name).get? key

/-- What setting fields by the field that keeps the identifier leaves under each key. -/
theorem Filed.get?_patchRow (h : r.Filed store) (hw : store.WF) (hid : r.config.idField = idKey) (id : Uuid)
    (fields : Document) (name : String) (key : Uuid) :
    ((store.reviseRows (Stored.collection E) (Store.fieldsSet (r.byId id) fields)).collection name).get? key =
      if name = Stored.collection E ∧ key = id
      then ((store.collection (Stored.collection E)).get? id).map (Store.withFields fields)
      else (store.collection name).get? key := by
  by_cases hn : name = Stored.collection E
  · subst hn
    rw [hw.get?_reviseRows, (hw _).get?_eq, (hw _).get?_eq, Option.map_map]
    change ((store.rows _).find? _).map _ = if _ then ((store.rows _).find? _).map _ else ((store.rows _).find? _).map _
    -- the row under the key is the one that is changed, if it is the key asked for
    cases hf : (store.rows (Stored.collection E)).find? (·.id = key) with
    | none =>
      split
      · rename_i hk
        rw [← hk.2, hf]; rfl
      · rfl
    | some row =>
      have hr := List.mem_of_find?_eq_some hf
      have hi : row.id = key := by simpa using List.find?_some hf
      rw [Option.map_some, Store.fieldsSet, h.holds_byId hid hr, hi]
      by_cases hk : key = id
      · subst hk
        rw [hf, if_pos (decide_eq_true rfl), if_pos ⟨rfl, rfl⟩]; rfl
      · have hd : ¬ decide (key = id) = true := by simpa using hk
        rw [if_neg hd, if_neg fun hm => hk hm.2]; rfl
  · rw [Store.collection_reviseRows_other hn, if_neg fun hm => hn hm.1]

theorem Filed.addresses [LawfulEntity E] (h : r.Filed store) (hs : r.Sound store) (hid : r.config.idField = idKey)
    (id : Uuid) : r.Addresses store id where
  unique doc := by
    rw [h.query_byId hs.wf hid id (by simp)]
    unfold Store.getDocuments
    cases hd : (store.collection (Stored.collection E)).get? id <;> simp [hd]
  matched := by
    have hsel : Collection.selectRows (r.byId id) (store.rows (Stored.collection E)) = _ :=
      Collection.selectRows_total fun row _ => r.decides_byId id row.doc
    rw [h.selected hs.wf hid] at hsel
    unfold Collection.matchingIds
    change _ ↔ (Collection.selectRows _ (store.rows _)).map _ = _
    rw [hsel, (hs.wf _).contains_iff]
    change (∃ row ∈ store.rows _, _) ↔ _
    cases hf : (store.rows (Stored.collection E)).find? (·.id = id) with
    | none =>
      rw [List.find?_eq_none] at hf
      simpa [Except.map] using hf
    | some row =>
      have hi : row.id = id := by simpa using List.find?_some hf
      simpa [Except.map, hi] using ⟨row, List.mem_of_find?_eq_some hf, hi⟩
  found := by
    unfold DocumentSet.find? DocumentSet.query DocumentSet.get? DocumentSet.get
    change _ = Except.map _ (store.queryDocuments _ (Stored.collection E) >>= _)
    rw [h.query_byId hs.wf hid id (by simp)]
    rfl
  loaded e he := by
    obtain ⟨row, hr, rfl, hv⟩ := DocumentSet.get?_some hs.wf he
    exact (hs.keyed row hr).id_eq hv
  written fields := by
    refine ⟨_, ?_, Store.counters_reviseRows _ _, h.get?_patchRow hs.wf hid id fields⟩
    rw [Store.updateFields_run hs.wf fun row _ => r.decides_byId id row.doc, h.selected hs.wf hid]
    congr 1
    cases hf : (store.rows (Stored.collection E)).find? (·.id = id) with
    | none =>
      rw [List.find?_eq_none] at hf
      rw [if_neg]
      · rfl
      · rw [(hs.wf _).contains_iff]
        rintro ⟨row, hr, hi⟩
        exact hf row hr (by simpa using hi)
    | some row =>
      have hi : row.id = id := by simpa using List.find?_some hf
      rw [if_pos (hi ▸ (hs.wf _).contains_of_mem (List.mem_of_find?_eq_some hf))]
      rfl

end Repository

namespace Reachable

open Repository

variable {E : Type} [Entity E] [LawfulEntity E] {r : Repository E} {allowed : Call E → Prop} {s : State}

theorem filed (hid : idKey ∉ r.registry.names) (hact : r.config.activeField ≠ idKey) (h : Reachable r allowed s) :
    r.Filed s.store :=
  h.rows hid (keptByWrites_bears hid hact)

end Reachable

namespace Customer

open Repository

variable {config : Config} {s : State}

/-- In every state that operations lead to, the key of every customer and its stored identifier lead to the same
record, and to no other. -/
theorem key_and_field_agree {allowed : Call Customer → Prop} (hdef : config.UsesDefaultFields)
    (h : Reachable (repository config) allowed s) (id : Uuid) : (repository config).Addresses s.store id := by
  have hact : (repository config).config.activeField ≠ idKey := by
    show config.activeField ≠ "id"
    rw [hdef.activeField]
    decide
  exact (h.filed idKey_not_registered hact).addresses (h.sound idKey_not_registered) hdef.idField id

/-- Ann has been created, and a row with her address and another identifier has been imported. -/
def annMerged : State :=
  afterCalls {} [.write (.save ann) morning, .bulkImport [{ cyd with id := some (.ofNat 99) }] morning false]

/-- The import has been merged into the record of Ann, under her key; none has the identifier of the row. -/
theorem keys_of_annMerged :
    (annMerged.store.collection "customers").matchingIds (.eq "id" (.uuid (.ofNat 1))) = .ok [.ofNat 1] ∧
    (annMerged.store.collection "customers").matchingIds (.eq "id" (.uuid (.ofNat 99))) ≠ .ok [.ofNat 99] ∧
    ((repository {}).entities.find? (.eq "id" (.uuid (.ofNat 1))) annMerged.store).toOption.join.map (·.name) =
      some "Cyd" := by
  have hreach : Reachable (repository {}) (fun _ => True) annMerged :=
    reachable_afterCalls (fun _ _ => trivial) (by decide +kernel)
  have hann := key_and_field_agree .default hreach (.ofNat 1)
  have hrow := key_and_field_agree .default hreach (.ofNat 99)
  have hfacts : ((annMerged.store.collection "customers").contains (.ofNat 1),
      (annMerged.store.collection "customers").contains (.ofNat 99),
      ((repository {}).entities.get? (.ofNat 1) annMerged.store).toOption.join.map (·.name)) =
    (true, false, some "Cyd") := by decide +kernel
  simp only [Prod.mk.injEq] at hfacts
  obtain ⟨hin, hout, hname⟩ := hfacts
  refine ⟨hann.matched.1 hin, fun hm => ?_, ?_⟩
  · rw [show (annMerged.store.collection "customers").contains (.ofNat 99) = true from hrow.matched.2 hm] at hout
    cases hout
  · rw [← hname, hann.found]
    rfl

end Customer

end Dossier
