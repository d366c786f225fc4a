/-
The writing operations of the store. Each one that succeeds is one of the functions of
`Dossier.Proofs.Store.Changes`; each one that fails leaves the store as it was.
-/
import Dossier.Proofs.Store.Changes

namespace Dossier.Store

variable {s t : Store} {name : String} {id : Uuid} {fault : Fault}

theorem WF.rows_dropRow (h : s.WF) (name : String) (id : Uuid) :
    (s.dropRow name id).rows name = (s.rows name).filter (·.id ≠ id) := by
  unfold rows
  rw [collection_dropRow, if_pos rfl, (h name).remove_rows]

theorem WF.mem_of_dropRow (h : s.WF) {row : Row} (hr : row ∈ (s.dropRow name id).rows name) :
    row ∈ s.rows name := by
  rw [h.rows_dropRow] at hr
  exact List.mem_of_mem_filter hr

theorem rows_dropRow_other {other : String} (ho : other ≠ name) (id : Uuid) :
    (s.dropRow name id).rows other = s.rows other := by
  unfold rows
  rw [collection_dropRow, if_neg ho]

theorem rows_reviseRows (name : String) (change : Row → Value) :
    (s.reviseRows name change).rows name = (s.rows name).map fun row => { row with doc := change row } := by
  rw [rows, collection_reviseRows_self]

theorem rows_reviseRows_other {other : String} (ho : other ≠ name) (change : Row → Value) :
    (s.reviseRows name change).rows other = s.rows other := by
  unfold rows
  rw [collection_reviseRows_other ho]

theorem reviseRows_congr {change other : Row → Value} (h : ∀ row ∈ s.rows name, change row = other row) :
    s.reviseRows name change = s.reviseRows name other := by
  unfold reviseRows
  split
  · rfl
  · rename_i c hl
    rw [rows, collection_of_lookup hl] at h
    congr 2
    exact List.map_congr_left fun row hr => by rw [h row hr]

theorem WF.get?_reviseRows (h : s.WF) (name : String) (change : Row → Value) (id : Uuid) :
    ((s.reviseRows name change).collection name).get? id = ((s.rows name).find? (·.id = id)).map change := by
  rw [((h.reviseRows name change) name).get?_eq]
  change (((s.reviseRows name change).rows name).find? _).map _ = _
  rw [rows_reviseRows, List.find?_map, Option.map_map]
  rfl

theorem rows_addRows_other {other : String} (ho : other ≠ name) (docs : List (Uuid × Value)) :
    (s.addRows name docs).rows other = s.rows other := by
  unfold rows
  rw [collection_addRows, if_neg ho]

/-- Added documents stand at the end, in order. -/
theorem rows_addRows (s : Store) (name : String) (docs : List (Uuid × Value)) : ∃ added,
    (s.addRows name docs).rows name = s.rows name ++ added ∧ added.map (fun row => (row.id, row.doc)) = docs := by
  unfold rows
  rw [collection_addRows, if_pos rfl]
  exact foldl_insert_rows _ docs

theorem mem_rows_addRows {docs : List (Uuid × Value)} {other : String} {row : Row}
    (h : row ∈ (s.addRows name docs).rows other) :
    row ∈ s.rows other ∨ other = name ∧ (row.id, row.doc) ∈ docs := by
  by_cases ho : other = name
  · subst ho
    obtain ⟨added, hr, rfl⟩ := s.rows_addRows other docs
    rw [hr, List.mem_append] at h
    exact h.imp id fun hm => ⟨rfl, List.mem_map.2 ⟨row, hm, rfl⟩⟩
  · rw [rows_addRows_other ho] at h
    exact Or.inl h

/-- Adding documents leaves the rows that are there. -/
theorem mem_addRows {docs : List (Uuid × Value)} {other : String} {row : Row} (h : row ∈ s.rows other) :
    row ∈ (s.addRows name docs).rows other := by
  by_cases ho : other = name
  · subst ho
    obtain ⟨added, hr, -⟩ := s.rows_addRows other docs
    rw [hr]
    exact List.mem_append_left _ h
  · rwa [rows_addRows_other ho]

theorem mem_addRows_new {docs : List (Uuid × Value)} {d : Uuid × Value} (h : d ∈ docs) :
    ∃ row ∈ (s.addRows name docs).rows name, row.id = d.1 ∧ row.doc = d.2 := by
  obtain ⟨added, hr, rfl⟩ := s.rows_addRows name docs
  obtain ⟨row, hm, rfl⟩ := List.mem_map.1 h
  exact ⟨row, hr ▸ List.mem_append_right _ hm, rfl, rfl⟩

/-- Selecting rows does not see rows that are added and not selected. -/
theorem filter_rows_addRows {p : Row → Bool} {docs : List (Uuid × Value)} (other : String)
    (h : ∀ row : Row, (row.id, row.doc) ∈ docs → p row = false) :
    ((s.addRows name docs).rows other).filter p = (s.rows other).filter p := by
  by_cases ho : other = name
  · subst ho
    obtain ⟨added, hr, rfl⟩ := s.rows_addRows other docs
    have ha : added.filter p = [] := List.filter_eq_nil_iff.2 fun row hm => by
      rw [h row (List.mem_map.2 ⟨row, hm, rfl⟩)]; exact Bool.false_ne_true
    rw [hr, List.filter_append, ha, List.append_nil]
  · rw [rows_addRows_other ho]

/-- Selecting rows does not see revised rows that are selected neither before nor after. -/
theorem filter_rows_reviseRows {p : Row → Bool} {change : Row → Value}
    (h : ∀ row ∈ s.rows name, change row = row.doc ∨ p row = false ∧ p { row with doc := change row } = false) :
    ((s.reviseRows name change).rows name).filter p = (s.rows name).filter p := by
  rw [rows_reviseRows]
  generalize s.rows name = rows at h
  induction rows with
  | nil => rfl
  | cons row rows ih =>
    rw [List.forall_mem_cons] at h
    rw [List.map_cons, List.filter_cons, List.filter_cons, ih h.2]
    rcases h.1 with he | ⟨hb, ha⟩
    · rw [he]
    · rw [hb, ha]; rfl

/-- The store with another document in the row that an identifier addresses. -/
def putRow (s : Store) (name : String) (id : Uuid) (doc : Value) : Store :=
  s.reviseRows name fun row => if row.id = id then doc else row.doc

theorem mem_rows_putRow {doc : Value} {row : Row} (h : row ∈ (s.putRow name id doc).rows name) :
    row.id = id ∧ row.doc = doc ∨ row ∈ s.rows name := by
  unfold putRow at h
  rw [rows_reviseRows] at h
  obtain ⟨old, ho, rfl⟩ := List.mem_map.1 h
  by_cases he : old.id = id
  · exact Or.inl ⟨he, if_pos he⟩
  · rw [if_neg he]; exact Or.inr ho

theorem mem_putRow_of_ne {doc : Value} {row : Row} (hr : row ∈ s.rows name) (hi : row.id ≠ id) :
    row ∈ (s.putRow name id doc).rows name := by
  unfold putRow
  rw [rows_reviseRows]
  exact List.mem_map.2 ⟨row, hr, by rw [if_neg hi]⟩

theorem mem_putRow_self {doc : Value} {row : Row} (hr : row ∈ s.rows name) (hi : row.id = id) :
    { row with doc } ∈ (s.putRow name id doc).rows name := by
  unfold putRow
  rw [rows_reviseRows]
  exact List.mem_map.2 ⟨row, hr, by rw [if_pos hi]⟩

theorem WF.get?_putRow (h : s.WF) (hin : (s.collection name).contains id = true) (doc : Value) :
    ((s.putRow name id doc).collection name).get? id = some doc := by
  obtain ⟨row, hr, hi⟩ := (h name).contains_iff.1 hin
  refine ((h.reviseRows _ _) name).get?_eq_some_iff.2 ⟨{ row with doc := doc }, ?_, hi, rfl⟩
  have hm := List.mem_map_of_mem
    (f := fun row : Row => { row with doc := if row.id = id then doc else row.doc }) hr
  rw [if_pos hi] at hm
  have hrows := rows_reviseRows (s := s) name fun row => if row.id = id then doc else row.doc
  rw [rows] at hrows
  rw [hrows]
  exact hm

/-! ## Inserting, replacing and deleting -/

theorem insertDocuments_ok {docs : List (Uuid × Value)} {u : Unit} (h : insertDocuments docs name s = .ok u t) :
    (∀ d ∈ docs, (s.collection name).contains d.1 = false) ∧ t = s.addRows name docs := by
  unfold insertDocuments at h
  simp only at h
  split at h
  · cases h
  · rename_i hf
    cases h
    rw [List.find?_eq_none] at hf
    exact ⟨fun d hd => by simpa using hf d hd, rfl⟩

theorem insertDocuments_error {docs : List (Uuid × Value)} (h : insertDocuments docs name s = .error fault t) :
    t = s ∧ ∃ d ∈ docs, (s.collection name).contains d.1 := by
  unfold insertDocuments at h
  simp only at h
  split at h
  · rename_i id doc hf
    cases h
    have hc : (s.collection name).contains id := by simpa using List.find?_some hf
    exact ⟨setCollection_self (lookup_of_contains hc), (id, doc), List.mem_of_find?_eq_some hf, hc⟩
  · cases h

theorem updateDocuments_ok (hw : s.WF) {doc : Value} {u : Unit}
    (h : updateDocuments [(id, doc)] name s = .ok u t) :
    (s.collection name).contains id ∧ t = s.reviseRows name fun row => if row.id = id then doc else row.doc := by
  unfold updateDocuments at h
  split at h
  · cases h
  · rename_i c hl
    rw [← collection_of_lookup hl] at h
    split at h
    · cases h
    · rename_i hf
      cases h
      rw [List.find?_eq_none] at hf
      refine ⟨by simpa using hf (id, doc) (List.mem_singleton_self _), ?_⟩
      -- putting a document into the one row that is addressed is a choice made at every row
      have hr := (hw name).modify_rows id fun _ => doc
      have hp := Collection.modify_positions (s.collection name) id fun _ => doc
      unfold reviseRows
      rw [hl, ← collection_of_lookup hl]
      simp only [List.foldl_cons, List.foldl_nil, Collection.replace]
      congr 1
      cases hm : (s.collection name).modify id fun _ => doc with
      | mk n ps rs =>
        rw [hm] at hr hp
        obtain ⟨rfl, rfl⟩ := hp
        simp only at hr
        subst hr
        congr 1
        exact List.map_congr_left fun row _ => by split <;> rfl

theorem updateDocuments_error {doc : Value} (h : updateDocuments [(id, doc)] name s = .error fault t) :
    t = s ∧ (s.collection name).contains id = false ∧
      (fault = .notFound id.text name ∨ fault = .collectionNotFound name) := by
  unfold updateDocuments at h
  split at h
  · rename_i hl
    cases h
    refine ⟨rfl, ?_, Or.inr rfl⟩
    unfold collection; rw [hl]; rfl
  · rename_i c hl
    split at h
    · rename_i id' doc' hf
      cases h
      have hm := List.mem_of_find?_eq_some hf
      rw [List.mem_singleton] at hm
      cases hm
      rw [collection_of_lookup hl]
      exact ⟨rfl, by simpa using List.find?_some hf, Or.inl rfl⟩
    · cases h

theorem deleteDocuments_ok {u : Unit} (h : deleteDocuments [id] name s = .ok u t) :
    (s.collection name).contains id ∧ t = s.dropRow name id := by
  unfold deleteDocuments at h
  split at h
  · cases h
  · rename_i c hl
    simp only [removeEach] at h
    rw [← collection_of_lookup hl] at h
    split at h
    · rename_i c' hr
      cases h
      split at hr
      · rename_i hc
        cases hr
        exact ⟨hc, rfl⟩
      · cases hr
    · cases h

theorem deleteDocuments_error (h : deleteDocuments [id] name s = .error fault t) :
    t = s ∧ (s.collection name).contains id = false := by
  unfold deleteDocuments at h
  split at h
  · rename_i hl
    cases h
    refine ⟨rfl, ?_⟩
    unfold collection; rw [hl]; rfl
  · rename_i c hl
    simp only [removeEach] at h
    split at h
    · cases h
    · rename_i f c' hr
      cases h
      split at hr
      · cases hr
      · rename_i hc
        cases hr
        exact ⟨setCollection_self hl, by rw [collection_of_lookup hl]; simpa using hc⟩

/-! ## Setting fields -/

theorem foldl_modify (change : Value → Value) : ∀ {ids : List Uuid} {c : Collection}, c.WF → ids.Nodup →
    ids.foldl (fun c id => c.modify id change) c = ⟨c.nextPosition, c.positions,
      c.rows.map fun row => if row.id ∈ ids then { row with doc := change row.doc } else row⟩
  | [], c, _, _ => by
    cases c; simp
  | id :: ids, c, hw, hn => by
    rw [List.nodup_cons] at hn
    rw [List.foldl_cons, foldl_modify change (hw.modify id change) hn.2,
      (Collection.modify_positions c id change).1,
      (Collection.modify_positions c id change).2, hw.modify_rows, List.map_map]
    congr 1
    refine List.map_congr_left fun row _ => ?_
    simp only [Function.comp_apply, List.mem_cons]
    by_cases hi : row.id = id
    · rw [if_pos hi, if_neg (by show row.id ∉ ids; rw [hi]; exact hn.1), if_pos (Or.inl hi)]
    · rw [if_neg hi]
      by_cases hm : row.id ∈ ids
      · rw [if_pos hm, if_pos (Or.inr hm)]
      · rw [if_neg hm, if_neg (not_or.2 ⟨hi, hm⟩)]

/-- The identifiers of the selected rows tell which rows are selected. -/
theorem mem_ids_selected {c : Collection} (hc : c.WF) (filter : Expr) {row : Row} (hr : row ∈ c.rows) :
    row.id ∈ (c.rows.filter fun row => filter.holds row.doc).map (·.id) ↔ filter.holds row.doc = true := by
  rw [List.mem_map]
  constructor
  · rintro ⟨row', hr', he⟩
    rw [List.mem_filter] at hr'
    rw [← hc.row_ext hr'.1 hr he]
    exact hr'.2
  · intro hh
    exact ⟨row, List.mem_filter.2 ⟨hr, hh⟩, rfl⟩

theorem foldl_modify_selected {c : Collection} (hc : c.WF) (filter : Expr) (change : Value → Value) :
    ((c.rows.filter fun row => filter.holds row.doc).map (·.id)).foldl (fun c id => c.modify id change) c =
      ⟨c.nextPosition, c.positions,
        c.rows.map fun row => if filter.holds row.doc then { row with doc := change row.doc } else row⟩ := by
  rw [foldl_modify _ hc (hc.ids.sublist (List.filter_sublist.map _))]
  congr 1
  refine List.map_congr_left fun row hr => ?_
  by_cases hh : filter.holds row.doc = true
  · rw [if_pos ((mem_ids_selected hc filter hr).2 hh), if_pos hh]
  · rw [if_neg fun hm => hh ((mem_ids_selected hc filter hr).1 hm), if_neg hh]

/-- The document of a row after fields have been set in the documents that satisfy a predicate. -/
def fieldsSet (filter : Expr) (fields : Document) (row : Row) : Value :=
  if filter.holds row.doc then withFields fields row.doc else row.doc

theorem updateFields_ok (hw : s.WF) {filter : Expr} {fields : Document} {n : Nat}
    (h : updateFields filter fields name s = .ok n t) : t = s.reviseRows name (fieldsSet filter fields) := by
  unfold updateFields at h
  split at h
  · rename_i hl
    cases h
    unfold reviseRows
    rw [hl]
  · rename_i c hl
    unfold reviseRows
    rw [hl]
    have hc := hw name
    rw [collection_of_lookup hl] at hc
    split at h
    · cases h
    · rename_i ids hm
      cases h
      obtain ⟨sel, hs, rfl⟩ := except_map_ok hm
      rw [Collection.selectRows_ok hs, foldl_modify_selected hc]
      congr 2
      refine List.map_congr_left fun row hr => ?_
      unfold fieldsSet
      split <;> rfl

/-- Setting fields counts the documents that satisfy the predicate. -/
theorem updateFields_count {filter : Expr} {fields : Document} {n : Nat}
    (h : updateFields filter fields name s = .ok n t) :
    n = ((s.rows name).filter fun row => filter.holds row.doc).length := by
  unfold updateFields at h
  split at h
  · rename_i hl
    cases h
    have hc : s.rows name = [] := by unfold rows collection; rw [hl]; rfl
    rw [hc]; rfl
  · rename_i c hl
    split at h
    · cases h
    · rename_i ids hm
      cases h
      obtain ⟨sel, hs, rfl⟩ := except_map_ok hm
      rw [Collection.selectRows_ok hs, List.length_map, rows, collection_of_lookup hl]

theorem updateFields_error {filter : Expr} {fields : Document}
    (h : updateFields filter fields name s = .error fault t) :
    t = s ∧ ¬ ∀ row ∈ s.rows name, filter.Decides row.doc := by
  unfold updateFields at h
  split at h
  · cases h
  · rename_i c hl
    split at h
    · rename_i f hm
      cases h
      refine ⟨rfl, fun hd => ?_⟩
      rw [rows, collection_of_lookup hl] at hd
      unfold Collection.matchingIds at hm
      rw [Collection.selectRows_total hd] at hm
      cases hm
    · cases h

/-- Setting fields succeeds if the predicate is decided for every document. -/
theorem updateFields_run (hw : s.WF) {filter : Expr} {fields : Document}
    (hd : ∀ row ∈ s.rows name, filter.Decides row.doc) :
    updateFields filter fields name s = .ok ((s.rows name).filter fun row => filter.holds row.doc).length
      (s.reviseRows name (fieldsSet filter fields)) := by
  cases hx : updateFields filter fields name s with
  | ok n t => rw [updateFields_ok hw hx, updateFields_count hx]
  | error fault t => exact absurd hd (updateFields_error hx).2

/-! ## Counters -/

/-- A number that is drawn changes its own counter only. -/
theorem nextInSequence_ok {counter : String} {increment value : Int64}
    (h : nextInSequence counter increment s = .ok value t) :
    0 < increment.toInt ∧ Bounded.int64? (((s.counter? counter).getD 0).toInt + increment.toInt) = some value ∧
      t = { s with counters := Entries.insert counter value s.counters } := by
  unfold nextInSequence at h
  split at h
  · cases h
  · rename_i hi
    unfold advance at h
    simp only at h
    split at h
    · rename_i next hn
      cases h
      exact ⟨by omega, hn, rfl⟩
    · cases h

theorem int64?_toInt (i : Int64) : (Bounded.int64? i.toInt).isSome := by
  have h1 := Int64.le_toInt i
  have h2 := Int64.toInt_lt i
  unfold Bounded.int64? Bounded.fitsInt64
  rw [if_pos (by simp only [Bool.and_eq_true, decide_eq_true_eq]; omega)]
  rfl

/-- A counter that would overflow stays as it was. -/
theorem advance_error {counter : String} {delta : Int64} (h : advance counter delta s = .error fault t) :
    t = s ∧ fault = .validation (.counterOverflow counter delta) := by
  unfold advance at h
  simp only at h
  split at h
  · cases h
  · rename_i hn
    cases h
    refine ⟨?_, rfl⟩
    -- a counter that was never used cannot overflow
    cases hc : s.counter? counter with
    | none =>
      rw [hc, Option.getD_none, Int64.toInt_zero, Int.zero_add] at hn
      have hs := int64?_toInt delta
      rw [hn] at hs; cases hs
    | some v => rw [Option.getD_some, Entries.insert_of_lookup hc]

theorem nextInSequence_error {counter : String} {increment : Int64}
    (h : nextInSequence counter increment s = .error fault t) :
    t = s ∧ (increment.toInt ≤ 0 ∨ fault = .validation (.counterOverflow counter increment)) := by
  unfold nextInSequence at h
  split at h
  · rename_i hi
    cases h; exact ⟨rfl, Or.inl hi⟩
  · obtain ⟨ht, hf⟩ := advance_error h
    exact ⟨ht, Or.inr hf⟩

end Dossier.Store
