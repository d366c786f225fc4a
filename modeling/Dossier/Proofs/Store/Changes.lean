/-
What each change of the store does, as a function of the store: rows are added, dropped or revised
in one collection, or a counter is advanced, and a change that fails leaves the store as it was.
-/
import Dossier.Proofs.Query.Field
import Dossier.Proofs.Store.Rows
import Dossier.Store.Basic

namespace Dossier

theorem Collection.selectRows_ok {filter : Expr} :
    ∀ {rows sel : List Row}, selectRows filter rows = .ok sel → sel = rows.filter fun row => filter.holds row.doc
  | [], _, h => by cases h; rfl
  | row :: rows, sel, h => by
    obtain ⟨b, hb, h⟩ := except_bind_ok h
    obtain ⟨more, hm, h⟩ := except_bind_ok h
    cases h
    rw [selectRows_ok hm, List.filter_cons, Expr.holds_of_eval hb]

theorem Collection.selectRows_total {filter : Expr} :
    ∀ {rows : List Row}, (∀ row ∈ rows, filter.Decides row.doc) →
      selectRows filter rows = .ok (rows.filter fun row => filter.holds row.doc)
  | [], _ => rfl
  | row :: rows, h => by
    unfold selectRows
    rw [(h row (List.mem_cons_self ..)).eval, selectRows_total fun r hr => h r (List.mem_cons_of_mem _ hr),
      List.filter_cons]
    rfl

theorem sortDocuments_nil (docs : List Value) : sortDocuments [] docs = docs :=
  List.mergeSort_of_pairwise (List.pairwise_of_forall fun _ _ => rfl)

/-- Without an order the documents that are selected stay as they stand. -/
theorem Collection.query_unsorted (c : Collection) (filter : Option Expr) (offset limit : Option Nat) :
    c.query { filter, offset, limit } = (c.select filter).map fun rows => window offset limit (rows.map (·.doc)) := by
  unfold query
  simp only [sortDocuments_nil]

theorem Collection.query_all (c : Collection) : c.query {} = .ok (c.rows.map (·.doc)) :=
  c.query_unsorted none none none

namespace Store

variable {s t : Store} {name : String}

/-- The rows of the collection of a name. -/
def rows (s : Store) (name : String) : List Row := (s.collection name).rows

/-- Every collection is well-formed. -/
def WF (s : Store) : Prop := ∀ name, (s.collection name).WF

/-- Whether an identifier addresses a document of any collection. -/
def InUse (s : Store) (id : Uuid) : Prop := ∃ p ∈ s.collections, p.2.contains id = true

instance (s : Store) (id : Uuid) : Decidable (s.InUse id) :=
  inferInstanceAs (Decidable (∃ p ∈ s.collections, p.2.contains id = true))

theorem empty_wf : ({} : Store).WF := fun _ => Collection.empty_wf

theorem inUse_of_contains {id : Uuid} (h : (s.collection name).contains id) : s.InUse id := by
  unfold collection at h
  cases hl : s.collections.lookup name with
  | none => rw [hl] at h; cases h
  | some c => rw [hl] at h; exact ⟨(name, c), Entries.mem_of_lookup hl, h⟩

/-! ## Collections by name -/

theorem collection_setCollection (s : Store) (name other : String) (c : Collection) :
    (s.setCollection name c).collection other = if other = name then c else s.collection other := by
  unfold setCollection collection
  rw [Entries.lookup_insert]
  split <;> rfl

theorem setCollection_self {c : Collection} (h : s.collections.lookup name = some c) :
    s.setCollection name c = s := by
  unfold setCollection
  rw [Entries.insert_of_lookup h]

theorem collection_of_lookup {c : Collection} (h : s.collections.lookup name = some c) :
    s.collection name = c := by
  unfold collection; rw [h]; rfl

theorem lookup_of_contains {id : Uuid} (h : (s.collection name).contains id) :
    s.collections.lookup name = some (s.collection name) := by
  unfold collection at h ⊢
  cases hl : s.collections.lookup name with
  | none => rw [hl] at h; cases h
  | some c => rfl

theorem inUse_setCollection {c : Collection} {id : Uuid} (h : (s.setCollection name c).InUse id) :
    c.contains id ∨ s.InUse id := by
  obtain ⟨p, hp, hc⟩ := h
  rcases Entries.mem_insert hp with rfl | hp
  · exact Or.inl hc
  · exact Or.inr ⟨p, hp, hc⟩

theorem WF.setCollection (h : s.WF) {c : Collection} (hc : c.WF) : (s.setCollection name c).WF := by
  intro other
  rw [collection_setCollection]
  split
  · exact hc
  · exact h other

/-! ## Changes as functions -/

/-- Drops the row that an identifier addresses. -/
def dropRow (s : Store) (name : String) (id : Uuid) : Store :=
  s.setCollection name ((s.collection name).remove id)

/-- Adds documents at the end. -/
def addRows (s : Store) (name : String) (docs : List (Uuid × Value)) : Store :=
  s.setCollection name (docs.foldl (fun c d => c.insert d.1 d.2) (s.collection name))

/-- Gives every row another document. -/
def reviseRows (s : Store) (name : String) (change : Row → Value) : Store :=
  match s.collections.lookup name with
  | none => s
  | some c => s.setCollection name { c with rows := c.rows.map fun row => { row with doc := change row } }

theorem collection_dropRow (name other : String) (id : Uuid) : (s.dropRow name id).collection other =
    if other = name then (s.collection name).remove id else s.collection other :=
  collection_setCollection ..

theorem collection_addRows (name other : String) (docs : List (Uuid × Value)) :
    (s.addRows name docs).collection other =
      if other = name then docs.foldl (fun c d => c.insert d.1 d.2) (s.collection name) else s.collection other :=
  collection_setCollection ..

theorem collection_reviseRows_self (name : String) (change : Row → Value) :
    (s.reviseRows name change).collection name = ⟨(s.collection name).nextPosition,
      (s.collection name).positions, (s.rows name).map fun row => { row with doc := change row }⟩ := by
  unfold reviseRows rows
  cases hl : s.collections.lookup name with
  | none =>
    have hc : s.collection name = {} := by unfold collection; rw [hl]; rfl
    simp only [hc]
    rfl
  | some c =>
    simp only
    rw [collection_setCollection, if_pos rfl, collection_of_lookup hl]

theorem collection_reviseRows_other {name other : String} (h : other ≠ name) (change : Row → Value) :
    (s.reviseRows name change).collection other = s.collection other := by
  unfold reviseRows
  split
  · rfl
  · rw [collection_setCollection, if_neg h]

theorem foldl_insert_rows (c : Collection) : ∀ docs : List (Uuid × Value), ∃ added : List Row,
    (docs.foldl (fun c d => c.insert d.1 d.2) c).rows = c.rows ++ added ∧
      added.map (fun row => (row.id, row.doc)) = docs
  | [] => ⟨[], by simp⟩
  | d :: docs => by
    obtain ⟨added, hr, hd⟩ := foldl_insert_rows (c.insert d.1 d.2) docs
    rw [List.foldl_cons, hr, Collection.insert_rows, List.append_assoc]
    exact ⟨_, rfl, congrArg (d :: ·) hd⟩

theorem contains_foldl_insert (c : Collection) (id : Uuid) : ∀ docs : List (Uuid × Value),
    (docs.foldl (fun c d => c.insert d.1 d.2) c).contains id = (c.contains id || docs.any fun d => id == d.1)
  | [] => by simp
  | d :: docs => by
    rw [List.foldl_cons, contains_foldl_insert _ id docs, Collection.contains_insert, List.any_cons, Bool.or_assoc]

theorem foldl_insert_wf {c : Collection} (h : c.WF) : ∀ {docs : List (Uuid × Value)}, (docs.map (·.1)).Nodup →
    (∀ d ∈ docs, c.contains d.1 = false) → (docs.foldl (fun c d => c.insert d.1 d.2) c).WF
  | [], _, _ => h
  | d :: docs, hn, hc => by
    rw [List.map_cons, List.nodup_cons] at hn
    refine foldl_insert_wf (h.insert (hc d (List.mem_cons_self ..)) d.2) hn.2 fun d' hd' => ?_
    have hne : d'.1 ≠ d.1 := fun e => hn.1 (List.mem_map.2 ⟨d', hd', e⟩)
    rw [Collection.contains_insert, hc d' (List.mem_cons_of_mem _ hd'), beq_false_of_ne hne]
    rfl

/-! ## Well-formedness -/

theorem WF.dropRow (h : s.WF) (name : String) (id : Uuid) : (s.dropRow name id).WF :=
  h.setCollection ((h name).remove id)

theorem WF.addRows (h : s.WF) {docs : List (Uuid × Value)} (hn : (docs.map (·.1)).Nodup)
    (hc : ∀ d ∈ docs, (s.collection name).contains d.1 = false) : (s.addRows name docs).WF :=
  h.setCollection (foldl_insert_wf (h name) hn hc)

theorem WF.reviseRows (h : s.WF) (name : String) (change : Row → Value) : (s.reviseRows name change).WF := by
  unfold Store.reviseRows
  split
  · exact h
  · rename_i c hl
    refine h.setCollection (Collection.WF.of_docs ?_ change rfl rfl rfl)
    rw [← collection_of_lookup hl]; exact h name

/-! ## Identifiers in use -/

theorem WF.inUse_dropRow (h : s.WF) {id gone : Uuid} (hu : (s.dropRow name gone).InUse id) : s.InUse id := by
  rcases inUse_setCollection hu with hc | hu
  · rw [(h name).contains_remove, Bool.and_eq_true] at hc
    exact inUse_of_contains hc.1
  · exact hu

theorem inUse_addRows {id : Uuid} {docs : List (Uuid × Value)} (hu : (s.addRows name docs).InUse id) :
    s.InUse id ∨ id ∈ docs.map (·.1) := by
  rcases inUse_setCollection hu with hc | hu
  · rw [contains_foldl_insert, Bool.or_eq_true, List.any_eq_true] at hc
    rcases hc with hc | ⟨d, hd, hi⟩
    · exact Or.inl (inUse_of_contains hc)
    · exact Or.inr (List.mem_map.2 ⟨d, hd, (by simpa using hi : id = d.1).symm⟩)
  · exact Or.inl hu

theorem inUse_reviseRows {id : Uuid} {change : Row → Value} (hu : (s.reviseRows name change).InUse id) :
    s.InUse id := by
  unfold reviseRows at hu
  split at hu
  · exact hu
  · rename_i c hl
    rcases inUse_setCollection hu with hc | hu
    · exact ⟨(name, c), Entries.mem_of_lookup hl, hc⟩
    · exact hu

end Store

end Dossier
