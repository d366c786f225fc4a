/-
Fetching by identifiers. One document comes back for each identifier in the request that is stored, in the order of the
request and as often as it is named there, and unknown identifiers are passed over. So the documents come back each
once exactly if no stored identifier is named twice, and in the order of the store exactly if the request follows it.
-/
import Dossier.Proofs.Store.FailedCall
import Mathlib.Data.List.Perm.Subperm

namespace Dossier

namespace Collection

variable {c : Collection} {ids : List Uuid} {row : Row}

/-- The rows whose identifiers are in a list, in the order of the collection. -/
def asked (c : Collection) (ids : List Uuid) : List Row := c.rows.filter fun row => row.id ∈ ids

/-- The identifiers of a list that are in use, in the order of the list. -/
def known (c : Collection) (ids : List Uuid) : List Uuid := ids.filter c.contains

/-- The row of each identifier of a list that has one. -/
def fetched (c : Collection) (ids : List Uuid) : List Row := ids.filterMap fun id => c.rows.find? (·.id = id)

theorem WF.filterMap_get? (h : c.WF) (ids : List Uuid) : ids.filterMap c.get? = (c.fetched ids).map (·.doc) := by
  rw [fetched, List.map_filterMap]
  exact List.filterMap_congr fun id _ => h.get?_eq id

theorem WF.map_id_fetched (h : c.WF) (ids : List Uuid) : (c.fetched ids).map (·.id) = c.known ids := by
  rw [fetched, List.map_filterMap, known, ← List.filterMap_eq_filter]
  refine List.filterMap_congr fun id _ => ?_
  cases hf : c.rows.find? (·.id = id) with
  | none =>
    have hc : c.contains id = false := by rw [← h.get?_eq_none_iff, h.get?_eq, hf, Option.map_none]
    simp [Option.guard, hc]
  | some row =>
    obtain ⟨hr, rfl⟩ := h.find_id_iff.1 hf
    simp [Option.guard, h.contains_of_mem hr]

theorem mem_asked : row ∈ c.asked ids ↔ row ∈ c.rows ∧ row.id ∈ ids := by
  rw [asked, List.mem_filter, decide_eq_true_iff]

/-- The rows that are fetched are those that are asked for. -/
theorem WF.mem_fetched (h : c.WF) : row ∈ c.fetched ids ↔ row ∈ c.asked ids := by
  rw [mem_asked, fetched, List.mem_filterMap]
  simp only [h.find_id_iff]
  constructor
  · rintro ⟨id, hi, hr, rfl⟩
    exact ⟨hr, hi⟩
  · rintro ⟨hr, hi⟩
    exact ⟨row.id, hi, hr, rfl⟩

theorem asked_sublist (c : Collection) (ids : List Uuid) : (c.asked ids).Sublist c.rows := List.filter_sublist

theorem WF.nodup_asked (h : c.WF) (ids : List Uuid) : ((c.asked ids).map (·.id)).Nodup :=
  h.ids.sublist ((c.asked_sublist ids).map _)

/-- A row is fetched once for each time that it is asked for. -/
theorem WF.fetched_perm_iff (h : c.WF) (ids : List Uuid) :
    (c.fetched ids).Perm (c.asked ids) ↔ (c.known ids).Nodup := by
  rw [← h.map_id_fetched]
  constructor
  · intro hp
    exact (hp.map _).nodup_iff.2 (h.nodup_asked ids)
  · intro hn
    exact (List.perm_ext_iff_of_nodup hn.of_map (h.nodup_asked ids).of_map).2 fun row => h.mem_fetched

/-- Rows that are told apart by what is read of them are told apart in lists. -/
theorem eq_of_map_eq {α : Type} {read : Row → α} {rows left right : List Row} (hn : (rows.map read).Nodup)
    (hl : left ⊆ rows) (hr : right ⊆ rows) (h : left.map read = right.map read) : left = right := by
  have hlength : left.length = right.length := by simpa using congrArg List.length h
  refine List.ext_getElem hlength fun i hi hi' => ?_
  refine List.inj_on_of_nodup_map hn (hl (List.getElem_mem hi)) (hr (List.getElem_mem hi')) ?_
  have hread : (left.map read)[i]? = (right.map read)[i]? := by rw [h]
  simpa [hi, hi'] using hread

theorem WF.fetched_subset (h : c.WF) (ids : List Uuid) : c.fetched ids ⊆ c.rows :=
  fun _ hr => (mem_asked.1 (h.mem_fetched.1 hr)).1

/-- Rows are fetched as they stand in the collection if they are asked for in this way. -/
theorem WF.fetched_eq_iff (h : c.WF) (ids : List Uuid) :
    c.fetched ids = c.asked ids ↔ (c.known ids).Sublist (c.rows.map (·.id)) := by
  rw [← h.map_id_fetched]
  constructor
  · intro he
    rw [he]
    exact (c.asked_sublist ids).map _
  · intro hs
    -- two sublists of the rows with the same members are the same
    have hn : ((c.fetched ids).map (·.id)).Nodup := h.ids.sublist hs
    have hperm := (h.fetched_perm_iff ids).2 (h.map_id_fetched ids ▸ hn)
    have hids := (h.ids.perm_iff_eq_of_sublist hs ((c.asked_sublist ids).map _)).1 (hperm.map _)
    exact eq_of_map_eq h.ids (h.fetched_subset ids) (c.asked_sublist ids).subset hids

end Collection

namespace Store

open Collection

variable {s : Store} {name : String}

theorem getDocuments_fetched (h : (s.collection name).WF) (ids : List Uuid) :
    s.getDocuments ids name = ((s.collection name).fetched ids).map (·.doc) := h.filterMap_get? ids

/-- What is fetched from a collection whose identifiers are unique. For each stored identifier in the request there is
its document, in the order of the request. These are the documents asked for, each once, exactly if the request names
no stored identifier twice; and they come in the order of the store if the stored identifiers in the request do, and
otherwise not, unless different identifiers have the same document. -/
theorem getDocuments_ordered_iff (h : (s.collection name).WF) (ids : List Uuid) :
    (∃ rows ⊆ s.rows name, rows.map (·.id) = (s.collection name).known ids ∧
      s.getDocuments ids name = rows.map (·.doc)) ∧
    ((s.getDocuments ids name).Perm (((s.collection name).asked ids).map (·.doc)) ↔
      ((s.collection name).known ids).Nodup) ∧
    (((s.collection name).known ids).Sublist ((s.rows name).map (·.id)) →
      s.getDocuments ids name = ((s.collection name).asked ids).map (·.doc)) ∧
    (((s.rows name).map (·.doc)).Nodup → s.getDocuments ids name = ((s.collection name).asked ids).map (·.doc) →
      ((s.collection name).known ids).Sublist ((s.rows name).map (·.id))) := by
  have hsubset := h.fetched_subset ids
  have hasked := ((s.collection name).asked_sublist ids).subset
  rw [getDocuments_fetched h]
  refine ⟨⟨_, hsubset, h.map_id_fetched ids, rfl⟩, ⟨fun hp => ?_, fun hn => ?_⟩, fun hs => ?_, fun hn he => ?_⟩
  · -- as many rows are fetched as are asked for, and all of these are
    rw [← h.fetched_perm_iff]
    have hlength : ((s.collection name).fetched ids).length = ((s.collection name).asked ids).length := by
      simpa using hp.length_eq
    have hsub : (s.collection name).asked ids ⊆ (s.collection name).fetched ids := fun row => h.mem_fetched.2
    exact ((List.subperm_of_subset (h.nodup_asked ids).of_map hsub).perm_of_length_le (Nat.le_of_eq hlength)).symm
  · exact ((h.fetched_perm_iff ids).2 hn).map _
  · rw [(h.fetched_eq_iff ids).2 hs]
  · exact (h.fetched_eq_iff ids).1 (eq_of_map_eq hn hsubset hasked he)

/-- Of two stored documents, the second is asked for first, then an unknown one, then the first. -/
theorem getDocuments_ordered_pair :
    let ids : List Uuid := [.ofNat 2, .ofNat 3, .ofNat 1]
    let docs : List Value := [.document [("n", .int32 1)], .document [("n", .int32 2)]]
    (pairStored.collection "a").WF ∧ ((pairStored.collection "a").asked ids).map (·.doc) = docs ∧
    (pairStored.getDocuments ids "a").Perm docs ∧ pairStored.getDocuments ids "a" ≠ docs ∧
    pairStored.getDocuments (.ofNat 3 :: [.ofNat 1, .ofNat 2]) "a" = docs := by
  intro ids docs
  have hwf : (pairStored.collection "a").WF := empty_wf.after (by decide) "a"
  have hasked : ((pairStored.collection "a").asked ids).map (·.doc) = docs := rfl
  have hdocs : ((pairStored.rows "a").map (·.doc)).Nodup := by
    have hrows : (pairStored.rows "a").map (·.doc) = docs := rfl
    rw [hrows]
    simp [docs]
  obtain ⟨-, hperm, -, honly⟩ := getDocuments_ordered_iff hwf ids
  obtain ⟨-, -, hordered, -⟩ := getDocuments_ordered_iff hwf [.ofNat 3, .ofNat 1, .ofNat 2]
  refine ⟨hwf, hasked, hasked ▸ hperm.2 (by decide), fun he => ?_, hordered (by decide)⟩
  exact absurd (honly hdocs (he.trans hasked.symm)) (by decide)

/-- Two stored documents, the second of which is asked for before and after the first. -/
theorem not_getDocuments_ordered : ¬ ∀ (s : Store) (name : String) (ids : List Uuid), (s.collection name).WF →
    s.getDocuments ids name = ((s.collection name).asked ids).map (·.doc) := by
  intro h
  have hwf : (pairStored.collection "a").WF := empty_wf.after (by decide) "a"
  have hlength := congrArg List.length (h pairStored "a" [.ofNat 2, .ofNat 1, .ofNat 2] hwf)
  exact absurd hlength (by decide)

end Store

end Dossier
