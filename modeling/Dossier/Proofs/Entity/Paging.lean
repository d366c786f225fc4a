/-
Paging through a result. The pages of one size cut the ordered result into consecutive parts: together they hold
every document that satisfies the predicate once, in order, and each tells how large the whole result is and whether
a later page holds anything.
-/
import Dossier.Entity.Raw
import Dossier.Proofs.Entity.Set
import Dossier.Proofs.Query.Sorting
import Mathlib.Algebra.Order.Floor.Div
import Mathlib.Tactic.FinCases

namespace Dossier

/-! ## Counting pages -/

theorem lt_ceilDiv_iff {size : Nat} (hsize : 0 < size) (n k : Nat) : k < n ⌈/⌉ size ↔ k * size < n := by
  rw [← not_le, ceilDiv_le_iff_le_mul hsize, not_le, Nat.mul_comm]

theorem Page.totalPages_ofItems {E : Type} {request : PageRequest} (hsize : 0 < request.size) (items : List E)
    (n : Nat) : (ofItems items request n).totalPages = n ⌈/⌉ request.size := by
  unfold ofItems
  dsimp only
  rw [Nat.max_eq_left hsize, Nat.ceilDiv_eq_add_pred_div, Nat.add_sub_assoc hsize]

namespace DocumentSet

variable {E : Type} {c : DocumentSet E} {s : Store} {filter : Expr} {sort : List SortKey} {docs arranged : List Value}
  {size : Nat}

/-! ## The documents of a result -/

/-- The documents of the set that satisfy a predicate, in the order of insertion. -/
def matching (c : DocumentSet E) (filter : Expr) (s : Store) : List Value := (c.selection filter s).map (·.doc)

theorem selectRows_run (hdecides : ∀ row ∈ s.rows c.name, filter.Decides row.doc) :
    Collection.selectRows filter (s.collection c.name).rows = .ok (c.selection filter s) :=
  Collection.selectRows_total hdecides

theorem count_run (hdecides : ∀ row ∈ s.rows c.name, filter.Decides row.doc) :
    c.count (some filter) s = .ok (c.matching filter s).length := by
  have hcount : c.count (some filter) s =
      (Collection.selectRows filter (s.collection c.name).rows).map (·.length) := rfl
  rw [hcount, selectRows_run hdecides, matching, List.length_map]
  rfl

theorem queryDocuments_run (hdecides : ∀ row ∈ s.rows c.name, filter.Decides row.doc) (offset limit : Option Nat) :
    s.queryDocuments { filter := some filter, limit, offset, sort } c.name =
      .ok (window offset limit (sortDocuments sort (c.matching filter s))) := by
  have hquery : s.queryDocuments { filter := some filter, limit, offset, sort } c.name =
      (Collection.selectRows filter (s.collection c.name).rows).map fun rows =>
        window offset limit (sortDocuments sort (rows.map (·.doc))) := rfl
  rw [hquery, selectRows_run hdecides]
  rfl

/-! ## Cutting a result into pages -/

/-- The documents of one page, out of all in order. -/
def cut (size k : Nat) (docs : List Value) : List Value := (docs.drop (k * size)).take size

theorem length_cut (size k : Nat) (docs : List Value) :
    (cut size k docs).length = min size (docs.length - k * size) := by
  rw [cut, List.length_take, List.length_drop]

theorem mem_of_cut {k : Nat} {doc : Value} (h : doc ∈ cut size k docs) : doc ∈ docs :=
  List.mem_of_mem_drop (List.mem_of_mem_take h)

theorem flatMap_cut (docs : List Value) (size : Nat) :
    ∀ n : Nat, (List.range n).flatMap (fun k => cut size k docs) = docs.take (n * size)
  | 0 => by simp
  | n + 1 => by
    rw [List.range_succ, List.flatMap_append, flatMap_cut docs size n, Nat.succ_mul, List.take_add]
    simp [cut]

/-- As many parts as there are pages hold everything. -/
theorem flatMap_cut_all (hsize : 0 < size) (docs : List Value) :
    (List.range (docs.length ⌈/⌉ size)).flatMap (fun k => cut size k docs) = docs := by
  have hall := lt_ceilDiv_iff hsize docs.length (docs.length ⌈/⌉ size)
  rw [flatMap_cut, List.take_of_length_le (by omega)]

/-- The offset of a page stops at the largest number of 64 bits, where no documents are left. -/
theorem window_offset (hn : docs.length ≤ Bounded.maxNat64) (k : Nat) :
    window (some (PageRequest.offset ⟨k, size⟩)) (some size) docs = cut size k docs := by
  have hdrop : docs.drop (min (k * size) Bounded.maxNat64) = docs.drop (k * size) := by
    rcases Nat.le_total (k * size) Bounded.maxNat64 with h | h
    · rw [Nat.min_eq_left h]
    · rw [Nat.min_eq_right h, List.drop_eq_nil_of_le hn, List.drop_eq_nil_of_le (hn.trans h)]
  unfold window PageRequest.offset Bounded.saturatingMul cut
  rw [Option.getD_some, hdrop]

/-! ## Reading what has been selected -/

variable [Stored E]

theorem readAll_of_readable : ∀ {docs : List Value}, (∀ doc ∈ docs, (Stored.ofValue? (E := E) doc).isSome) →
    readAll docs = .ok (docs.filterMap (Stored.ofValue? (E := E)))
  | [], _ => rfl
  | doc :: docs, h => by
    rw [List.forall_mem_cons] at h
    obtain ⟨e, he⟩ := Option.isSome_iff_exists.1 h.1
    have hrest := readAll_of_readable h.2
    unfold readAll at hrest ⊢
    rw [List.mapM_cons, Stored.ofValue, he, hrest, List.filterMap_cons_some he]
    rfl

theorem length_of_readable : ∀ {docs : List Value}, (∀ doc ∈ docs, (Stored.ofValue? (E := E) doc).isSome) →
    (docs.filterMap (Stored.ofValue? (E := E))).length = docs.length
  | [], _ => rfl
  | doc :: docs, h => by
    rw [List.forall_mem_cons] at h
    obtain ⟨e, he⟩ := Option.isSome_iff_exists.1 h.1
    rw [List.filterMap_cons_some he, List.length_cons, List.length_cons, length_of_readable h.2]

/-! ## Pages -/

/-- One page of an ordered result. -/
def pageOf (E : Type) [Stored E] (arranged : List Value) (size k : Nat) : Page E :=
  .ofItems ((cut size k arranged).filterMap Stored.ofValue?) ⟨k, size⟩ arranged.length

theorem length_items_pageOf (hreads : ∀ doc ∈ arranged, (Stored.ofValue? (E := E) doc).isSome) (size k : Nat) :
    (pageOf E arranged size k).items.length = min size (arranged.length - k * size) := by
  rw [← length_cut, ← length_of_readable (E := E) fun doc hd => hreads doc (mem_of_cut hd)]
  rfl

theorem hasNext_pageOf (hsize : 0 < size) (k : Nat) :
    (pageOf E arranged size k).hasNext = true ↔ (k + 1) * size < arranged.length := by
  rw [← lt_ceilDiv_iff hsize]
  unfold Page.hasNext
  rw [decide_eq_true_iff, pageOf, Page.totalPages_ofItems hsize]
  rfl

/-- The page of a request, when the result can be counted and its documents can be read. -/
theorem findPage_run (hsize : 0 < size) (hdecides : ∀ row ∈ s.rows c.name, filter.Decides row.doc)
    (hreads : ∀ doc ∈ c.matching filter s, (Stored.ofValue? (E := E) doc).isSome)
    (hn : (c.matching filter s).length ≤ Bounded.maxNat64) (k : Nat) :
    c.findPage filter sort ⟨k, size⟩ s = .ok (pageOf E (sortDocuments sort (c.matching filter s)) size k) := by
  have hperm : (sortDocuments sort (c.matching filter s)).Perm (c.matching filter s) := List.mergeSort_perm _ _
  have hcheck : PageRequest.check ⟨k, size⟩ = .ok () := if_neg (Nat.ne_of_gt hsize)
  have hquery : c.query
        { filter := some filter, sort, offset := some (PageRequest.offset ⟨k, size⟩), limit := some size } s =
      .ok ((cut size k (sortDocuments sort (c.matching filter s))).filterMap Stored.ofValue?) := by
    unfold DocumentSet.query
    rw [queryDocuments_run hdecides, window_offset (by rw [hperm.length_eq]; exact hn)]
    exact readAll_of_readable fun doc hd => hreads doc (hperm.mem_iff.1 (mem_of_cut hd))
  unfold findPage pageOf
  rw [hcheck, count_run hdecides, hquery, hperm.length_eq]
  rfl

/-- What the pages of one size have to be for the documents of a result: each tells the size of the whole, together
they hold the documents in order, all but the last are full, those after the last are empty, and each tells whether
the next one is not. -/
structure Paginates (sort : List SortKey) (docs : List Value) (size : Nat) (pages : Nat → Page E) : Prop where
  totals : ∀ k, (pages k).totalElements = docs.length ∧ (pages k).totalPages = docs.length ⌈/⌉ size
  partition : ∃ arranged, Arranges sort docs arranged ∧
    readAll arranged = .ok ((List.range (docs.length ⌈/⌉ size)).flatMap fun k => (pages k).items)
  full : ∀ k, k + 1 < docs.length ⌈/⌉ size → (pages k).items.length = size
  beyond : ∀ k, docs.length ⌈/⌉ size ≤ k → (pages k).items = []
  hasNext_iff : ∀ k, k < Bounded.maxNat64 → ((pages k).hasNext = true ↔ (pages (k + 1)).items ≠ [])

theorem paginates_of_arranges (h : Arranges sort docs arranged) (hsize : 0 < size)
    (hreads : ∀ doc ∈ arranged, (Stored.ofValue? (E := E) doc).isSome) :
    Paginates sort docs size (pageOf E arranged size) := by
  have hlen := h.perm.length_eq
  constructor
  case totals =>
    intro k
    refine ⟨hlen, ?_⟩
    rw [pageOf, Page.totalPages_ofItems hsize, hlen]
  case partition =>
    refine ⟨arranged, h, ?_⟩
    have hitems : (List.range (docs.length ⌈/⌉ size)).flatMap (fun k => (pageOf E arranged size k).items) =
        ((List.range (docs.length ⌈/⌉ size)).flatMap fun k => cut size k arranged).filterMap Stored.ofValue? := by
      rw [List.filterMap_flatMap]
      rfl
    rw [hitems, ← hlen, flatMap_cut_all hsize, readAll_of_readable hreads]
  case full =>
    intro k hk
    rw [lt_ceilDiv_iff hsize, Nat.succ_mul] at hk
    rw [length_items_pageOf hreads]
    omega
  case beyond =>
    intro k hk
    rw [← not_lt, lt_ceilDiv_iff hsize] at hk
    rw [← List.length_eq_zero_iff, length_items_pageOf hreads]
    omega
  case hasNext_iff =>
    intro k _
    rw [hasNext_pageOf hsize, ne_eq, ← List.length_eq_zero_iff, length_items_pageOf hreads]
    omega

/-- Whatever page of a size is asked for, it is found, and these pages are the documents that satisfy the predicate,
in order. A collection holds no more documents than 64 bits can count. -/
theorem findPage_paginates (hsize : 1 ≤ size) (hdecides : ∀ row ∈ s.rows c.name, filter.Decides row.doc)
    (hsortable : ∀ doc ∈ c.matching filter s, doc.Sortable sort)
    (hreads : ∀ doc ∈ c.matching filter s, (Stored.ofValue? (E := E) doc).isSome)
    (hn : (c.matching filter s).length ≤ Bounded.maxNat64) :
    ∃ pages : Nat → Page E, (∀ k, c.findPage filter sort ⟨k, size⟩ s = .ok (pages k)) ∧
      Paginates sort (c.matching filter s) size pages := by
  have harranged := sortDocuments_arranges hsortable
  refine ⟨_, findPage_run hsize hdecides hreads hn, paginates_of_arranges harranged hsize ?_⟩
  intro doc hd
  exact hreads doc (harranged.perm.mem_iff.1 hd)

/-- Documents with scores, two of which are equal although one is kept as an integer, and one document without. -/
def scores : Store := Store.addRows {} "raws"
  [(.ofNat 1, .document [("score", .int32 2)]), (.ofNat 2, .document [("score", .int32 1)]),
    (.ofNat 3, .document [("name", .string "Ann")]), (.ofNat 4, .document [("score", .double (.ofInt 1))])]

theorem findPage_paginates_scores :
    (own Raw).matching (.present "score" true) scores =
      [.document [("score", .int32 2)], .document [("score", .int32 1)], .document [("score", .double (.ofInt 1))]] ∧
    (∀ row ∈ scores.rows "raws", (Expr.present "score" true).Decides row.doc) ∧
    (∀ doc ∈ (own Raw).matching (.present "score" true) scores,
      doc.Sortable [⟨"score", .ascending⟩] ∧ (Stored.ofValue? (E := Raw) doc).isSome) ∧
    ∃ pages : Nat → Page Raw,
      (∀ k, (own Raw).findPage (.present "score" true) [⟨"score", .ascending⟩] ⟨k, 2⟩ scores = .ok (pages k)) ∧
      Paginates [⟨"score", .ascending⟩] ((own Raw).matching (.present "score" true) scores) 2 pages := by
  have hdocs : (own Raw).matching (.present "score" true) scores =
      [.document [("score", .int32 2)], .document [("score", .int32 1)],
        .document [("score", .double (.ofInt 1))]] := rfl
  have hdecides : ∀ row ∈ scores.rows "raws", (Expr.present "score" true).Decides row.doc := fun row _ => ⟨_, rfl⟩
  have hdoc : ∀ doc ∈ (own Raw).matching (.present "score" true) scores,
      doc.Sortable [⟨"score", .ascending⟩] ∧ (Stored.ofValue? (E := Raw) doc).isSome := by
    rw [hdocs]
    intro doc hd
    constructor
    · intro key hk
      rw [List.mem_singleton] at hk
      subst hk
      fin_cases hd
      · rfl
      · rfl
      · rfl
    · fin_cases hd <;> rfl
  refine ⟨hdocs, hdecides, hdoc, findPage_paginates (by omega) hdecides (fun doc hd => (hdoc doc hd).1)
    (fun doc hd => (hdoc doc hd).2) ?_⟩
  rw [hdocs]
  decide

end DocumentSet

end Dossier
