/-
Sets of documents over well-formed stores. Looking up yields the row of an identifier or the first
row that satisfies a predicate, and a write of one value is one change of the store.
-/
import Dossier.Entity.Set
import Dossier.Proofs.Store.Writes

namespace Dossier

/-- The state with another store. -/
def State.withStore (s : State) (store : Store) : State := { s with store }

theorem State.withStore_of_ids {s t : State} (h : t.ids = s.ids) : t = s.withStore t.store := by
  cases t; cases h; rfl

theorem Stored.ofValue_ok {E : Type} [Stored E] {v : Value} {e : E} (h : Stored.ofValue v = .ok e) :
    Stored.ofValue? v = some e := by
  unfold Stored.ofValue at h
  split at h
  · cases h; assumption
  · cases h

theorem Stored.requireId_ok {E : Type} [Stored E] {operation : String} {e : E} {id : Uuid}
    (h : Stored.requireId operation e = .ok id) : Stored.id? e = some id := by
  unfold Stored.requireId at h
  split at h
  · cases h; assumption
  · cases h

theorem Stored.requireId_of_id {E : Type} [Stored E] {e : E} {id : Uuid} (h : Stored.id? e = some id)
    (operation : String) : Stored.requireId operation e = .ok id := by
  unfold Stored.requireId; rw [h]

namespace DocumentSet

variable {E : Type} {c : DocumentSet E} {s t : State} {fault : Fault} {id : Uuid}

/-- The rows of the set that satisfy a predicate, in order. -/
def selection (c : DocumentSet E) (filter : Expr) (store : Store) : List Row :=
  (store.rows c.name).filter fun row => filter.holds row.doc

theorem mem_selection {store : Store} {filter : Expr} {row : Row} :
    row ∈ c.selection filter store ↔ row ∈ store.rows c.name ∧ filter.holds row.doc = true :=
  List.mem_filter

/-- The first row of a selection is a row of the set that satisfies the predicate. -/
theorem first_selected {store : Store} {filter : Expr} {row : Row} {rest : List Row}
    (h : c.selection filter store = row :: rest) : row ∈ store.rows c.name ∧ filter.holds row.doc = true :=
  mem_selection.1 (h ▸ List.mem_cons_self ..)

/-! ## Removing rows and setting fields -/

theorem delete_ok {u : Unit} (h : c.delete [id] s = .ok u t) :
    (s.store.collection c.name).contains id = true ∧ t = s.withStore (s.store.dropRow c.name id) := by
  obtain ⟨hc, ht⟩ := Action.change_ok h
  obtain ⟨hin, hs⟩ := Store.deleteDocuments_ok hc
  exact ⟨hin, by rw [State.withStore_of_ids ht, hs]⟩

theorem delete_error (h : c.delete [id] s = .error fault t) :
    t = s ∧ (s.store.collection c.name).contains id = false := by
  obtain ⟨hc, ht⟩ := Action.change_error h
  obtain ⟨hs, hin⟩ := Store.deleteDocuments_error hc
  exact ⟨by rw [State.withStore_of_ids ht, hs]; rfl, hin⟩

theorem updateFields_ok (hw : s.store.WF) {filter : Expr} {fields : Document} {n : Nat}
    (h : c.updateFields filter fields s = .ok n t) :
    t = s.withStore (s.store.reviseRows c.name (Store.fieldsSet filter fields)) := by
  obtain ⟨hc, ht⟩ := Action.change_ok h
  rw [State.withStore_of_ids ht, Store.updateFields_ok hw hc]

theorem updateFields_error {filter : Expr} {fields : Document}
    (h : c.updateFields filter fields s = .error fault t) :
    t = s ∧ ¬ ∀ row ∈ s.store.rows c.name, filter.Decides row.doc := by
  obtain ⟨hc, ht⟩ := Action.change_error h
  obtain ⟨hs, hd⟩ := Store.updateFields_error hc
  exact ⟨by rw [State.withStore_of_ids ht, hs]; rfl, hd⟩

variable [Stored E] {e : E}

/-! ## Reading -/

theorem readAll_nil {es : List E} (h : readAll [] = .ok es) : es = [] := by
  cases h; rfl

theorem readAll_cons {v : Value} {vs : List Value} {es : List E} (h : readAll (v :: vs) = .ok es) :
    ∃ e rest, es = e :: rest ∧ Stored.ofValue? v = some e ∧ readAll vs = .ok rest := by
  unfold readAll at h
  rw [List.mapM_cons] at h
  obtain ⟨e, he, h⟩ := except_bind_ok h
  obtain ⟨rest, hr, h⟩ := except_bind_ok h
  cases h
  exact ⟨e, rest, rfl, Stored.ofValue_ok he, hr⟩

theorem get?_none {store : Store} (hw : store.WF) (h : c.get? id store = .ok none) :
    (store.collection c.name).contains id = false := by
  obtain ⟨es, hg, he⟩ := except_map_ok h
  rw [← (hw c.name).get?_eq_none_iff]
  unfold DocumentSet.get Store.getDocuments at hg
  cases hd : (store.collection c.name).get? id with
  | none => rfl
  | some doc =>
    -- a document that cannot be read would have been a fault
    rw [List.filterMap_cons_some hd, List.filterMap_nil] at hg
    obtain ⟨e, rest, rfl, -, -⟩ := readAll_cons hg
    cases he

theorem get?_doc {store : Store} (h : c.get? id store = .ok (some e)) :
    ∃ doc, (store.collection c.name).get? id = some doc ∧ Stored.ofValue? doc = some e := by
  obtain ⟨es, hg, he⟩ := except_map_ok h
  unfold DocumentSet.get Store.getDocuments at hg
  cases hd : (store.collection c.name).get? id with
  | none =>
    rw [List.filterMap_cons_none hd, List.filterMap_nil] at hg
    rw [readAll_nil hg] at he; cases he
  | some doc =>
    rw [List.filterMap_cons_some hd, List.filterMap_nil] at hg
    obtain ⟨e', rest, rfl, hv, -⟩ := readAll_cons hg
    cases he
    exact ⟨doc, rfl, hv⟩

theorem get?_some {store : Store} (hw : store.WF) (h : c.get? id store = .ok (some e)) :
    ∃ row ∈ store.rows c.name, row.id = id ∧ Stored.ofValue? row.doc = some e := by
  obtain ⟨doc, hd, hv⟩ := get?_doc h
  obtain ⟨row, hr, hi, rfl⟩ := (hw c.name).get?_eq_some_iff.1 hd
  exact ⟨row, hr, hi, hv⟩

theorem get?_of_doc {store : Store} {doc : Value} (hd : (store.collection c.name).get? id = some doc)
    (he : Stored.ofValue? doc = some e) : c.get? id store = .ok (some e) := by
  unfold DocumentSet.get? DocumentSet.get Store.getDocuments readAll
  rw [List.filterMap_cons_some hd, List.filterMap_nil, List.mapM_cons, Stored.ofValue, he]
  rfl

/-- Of the documents that satisfy a predicate only the first is read. -/
theorem find?_eq (c : DocumentSet E) (filter : Expr) : c.find? filter = fun store =>
    ((store.collection c.name).select (some filter) >>= fun rows =>
      readAll ((rows.map (·.doc)).take 1)).map List.head? := by
  funext store
  unfold find? query Store.queryDocuments
  rw [Collection.query_unsorted]
  cases (store.collection c.name).select (some filter) <;> rfl

theorem find?_ok {store : Store} {filter : Expr} {found : Option E} (h : c.find? filter store = .ok found) :
    readAll (((c.selection filter store).map (·.doc)).take 1) >>= (fun es => .ok es.head?) = Except.ok found := by
  rw [find?_eq] at h
  obtain ⟨es, hq, rfl⟩ := except_map_ok h
  obtain ⟨sel, hs, hr⟩ := except_bind_ok hq
  unfold selection Store.rows
  rw [← Collection.selectRows_ok hs, hr]
  rfl

theorem find?_none {store : Store} {filter : Expr} (h : c.find? filter store = .ok none) :
    c.selection filter store = [] := by
  have h := find?_ok h
  cases hs : c.selection filter store with
  | nil => rfl
  | cons row rest =>
    rw [hs] at h
    obtain ⟨es, hr, he⟩ := except_bind_ok h
    obtain ⟨e, rest, rfl, -, -⟩ := readAll_cons hr
    cases he

/-- What is found is the first that satisfies the predicate. -/
theorem find?_some {store : Store} {filter : Expr} (h : c.find? filter store = .ok (some e)) :
    ∃ row rest, c.selection filter store = row :: rest ∧ Stored.ofValue? row.doc = some e := by
  have h := find?_ok h
  cases hs : c.selection filter store with
  | nil => rw [hs] at h; cases h
  | cons row rest =>
    rw [hs] at h
    obtain ⟨es, hr, he⟩ := except_bind_ok h
    obtain ⟨e', rest', rfl, hv, -⟩ := readAll_cons hr
    cases he
    exact ⟨row, rest, rfl, hv⟩

/-- The first document that satisfies a predicate is found if it can be read. -/
theorem find?_of_selection {store : Store} {filter : Expr} {row : Row} {rest : List Row}
    (hd : ∀ row ∈ store.rows c.name, filter.Decides row.doc) (hs : c.selection filter store = row :: rest)
    (he : Stored.ofValue? row.doc = some e) : c.find? filter store = .ok (some e) := by
  have hsel : (store.collection c.name).select (some filter) = .ok (c.selection filter store) :=
    Collection.selectRows_total hd
  rw [find?_eq]
  dsimp only
  rw [hsel, hs]
  unfold readAll
  change ((([row.doc]).mapM Stored.ofValue).map List.head? : Except Fault (Option E)) = _
  rw [List.mapM_cons, Stored.ofValue, he]
  rfl

/-! ## Inserting and replacing -/

theorem withIds_one {operation : String} {docs : List (Uuid × Value)} (h : withIds operation [e] = .ok docs) :
    ∃ id, Stored.id? e = some id ∧ docs = [(id, Stored.toValue e)] := by
  unfold withIds at h
  rw [List.mapM_cons] at h
  obtain ⟨d, hd, h⟩ := except_bind_ok h
  cases h
  obtain ⟨id, hi, rfl⟩ := except_map_ok hd
  exact ⟨id, Stored.requireId_ok hi, rfl⟩

theorem insert_ok {u : Unit} (h : c.insert [e] s = .ok u t) :
    ∃ id, Stored.id? e = some id ∧ (s.store.collection c.name).contains id = false ∧
      t = s.withStore (s.store.addRows c.name [(id, Stored.toValue e)]) := by
  obtain ⟨docs, hd, h⟩ := Action.bind_ofExcept_ok h
  obtain ⟨id, hi, rfl⟩ := withIds_one hd
  obtain ⟨hc, ht⟩ := Action.change_ok h
  obtain ⟨hn, hs⟩ := Store.insertDocuments_ok hc
  exact ⟨id, hi, hn _ (List.mem_singleton_self _), by rw [State.withStore_of_ids ht, hs]⟩

theorem insert_error (h : c.insert [e] s = .error fault t) :
    t = s ∧ ∀ id, Stored.id? e = some id → (s.store.collection c.name).contains id = true := by
  rcases Action.bind_ofExcept_error h with ⟨hd, rfl⟩ | ⟨docs, hd, h⟩
  · refine ⟨rfl, fun id hi => ?_⟩
    unfold withIds at hd
    rw [List.mapM_cons, Stored.requireId_of_id hi] at hd
    cases hd
  · obtain ⟨id, hi, rfl⟩ := withIds_one hd
    obtain ⟨hc, ht⟩ := Action.change_error h
    obtain ⟨hs, d, hm, hin⟩ := Store.insertDocuments_error hc
    rw [List.mem_singleton] at hm
    subst hm
    refine ⟨by rw [State.withStore_of_ids ht, hs]; rfl, fun id' hi' => ?_⟩
    rw [hi] at hi'; cases hi'; exact hin

theorem update_ok (hw : s.store.WF) {u : Unit} (h : c.update [e] s = .ok u t) :
    ∃ id, Stored.id? e = some id ∧ (s.store.collection c.name).contains id = true ∧
      t = s.withStore (s.store.reviseRows c.name fun row =>
        if row.id = id then Stored.toValue e else row.doc) := by
  obtain ⟨docs, hd, h⟩ := Action.bind_ofExcept_ok h
  obtain ⟨id, hi, rfl⟩ := withIds_one hd
  obtain ⟨hc, ht⟩ := Action.change_ok h
  obtain ⟨hin, hs⟩ := Store.updateDocuments_ok hw hc
  exact ⟨id, hi, hin, by rw [State.withStore_of_ids ht, hs]⟩

theorem update_error (h : c.update [e] s = .error fault t) :
    t = s ∧ ∀ id, Stored.id? e = some id → (s.store.collection c.name).contains id = false ∧
      (fault = .notFound id.text c.name ∨ fault = .collectionNotFound c.name) := by
  rcases Action.bind_ofExcept_error h with ⟨hd, rfl⟩ | ⟨docs, hd, h⟩
  · refine ⟨rfl, fun id hi => ?_⟩
    unfold withIds at hd
    rw [List.mapM_cons, Stored.requireId_of_id hi] at hd
    cases hd
  · obtain ⟨id, hi, rfl⟩ := withIds_one hd
    obtain ⟨hc, ht⟩ := Action.change_error h
    obtain ⟨hs, hin, hf⟩ := Store.updateDocuments_error hc
    refine ⟨by rw [State.withStore_of_ids ht, hs]; rfl, fun id' hi' => ?_⟩
    rw [hi] at hi'; cases hi'; exact ⟨hin, hf⟩

end DocumentSet

end Dossier
