/-
Calls that fail. Every call but one checks all that it needs before it changes anything, so that its failure leaves the
store as it was. A deletion removes its identifiers one after the other and keeps what it has removed before the first
that is missing.
-/
import Dossier.Proofs.Store.Orphans

namespace Dossier

/-! ## Removing one after the other -/

namespace Collection

variable {c d : Collection} {id gone : Uuid}

/-- Removing an identifier makes it address nothing and brings no other one back. -/
theorem contains_of_contains_remove (h : (c.remove gone).contains id) : c.contains id ∧ id ≠ gone := by
  unfold remove at h
  split at h
  · rename_i hg
    refine ⟨h, ?_⟩
    rintro rfl
    unfold contains at h
    rw [hg] at h
    cases h
  · rw [contains_iff_mem, List.mem_map] at h
    obtain ⟨p, hp, rfl⟩ := h
    obtain ⟨hm, hne⟩ := List.mem_filter.1 hp
    exact ⟨contains_iff_mem.2 (List.mem_map_of_mem hm), bne_iff_ne.1 hne⟩

theorem contains_of_contains_removeEach (name : String) : ∀ {ids : List Uuid} {c : Collection},
    (Store.removeEach name ids c).2.contains id → c.contains id
  | [], _, h => h
  | gone :: ids, c, h => by
    unfold Store.removeEach at h
    split at h
    · exact (contains_of_contains_remove (contains_of_contains_removeEach name h)).1
    · exact h

/-- A removal that fails has removed everything before the first missing identifier. -/
theorem removeEach_fault (name : String) {fault : Fault} : ∀ {ids : List Uuid} {c d : Collection},
    Store.removeEach name ids c = (some fault, d) → ∃ before missing later, ids = before ++ missing :: later ∧
      fault = .notFound missing.text name ∧ Store.removeEach name before c = (none, d) ∧ d.contains missing = false
  | id :: ids, c, d, h => by
    unfold Store.removeEach at h
    split at h
    · rename_i hc
      obtain ⟨before, missing, later, rfl, hf, hr, hm⟩ := removeEach_fault name h
      refine ⟨id :: before, missing, later, rfl, hf, ?_, hm⟩
      unfold Store.removeEach
      rw [if_pos hc]
      exact hr
    · rename_i hc
      cases h
      exact ⟨[], id, ids, rfl, rfl, rfl, Bool.eq_false_iff.2 hc⟩

end Collection

namespace Store

variable {s t : Store} {name : String} {fault : Fault}

/-! ## Failures, call by call -/

theorem outcome_error {α : Type} {reply : α → Reply} {r : EStateM.Result Fault Store α}
    (h : (outcome reply r).1 = .error fault) : r = .error fault (outcome reply r).2 := by
  cases r with
  | ok a t => cases h
  | error fault t => cases h; rfl

theorem updateDocuments_refused {docs : List (Uuid × Value)} (h : updateDocuments docs name s = .error fault t) :
    t = s := by
  unfold updateDocuments at h
  split at h
  · cases h; rfl
  · split at h
    · cases h; rfl
    · cases h

theorem removeDocuments_refused {filter : Expr} (h : removeDocuments filter name s = .error fault t) : t = s := by
  unfold removeDocuments at h
  split at h
  · cases h
  · split at h
    · cases h; rfl
    · cases h

theorem dropCollection_refused (h : dropCollection name s = .error fault t) : t = s := by
  unfold dropCollection at h
  split at h
  · cases h; rfl
  · cases h

theorem deleteDocuments_ok_iff {ids : List Uuid} : deleteDocuments ids name s = .ok () t ↔
    ∃ c d, s.collections.lookup name = some c ∧ removeEach name ids c = (none, d) ∧ t = s.setCollection name d := by
  constructor
  · intro h
    unfold deleteDocuments at h
    split at h
    · cases h
    · rename_i c hl
      split at h
      · rename_i d hr
        cases h
        exact ⟨c, d, hl, hr, rfl⟩
      · cases h
  · rintro ⟨c, d, hl, hr, rfl⟩
    unfold deleteDocuments
    rw [hl]
    dsimp only
    rw [hr]

/-- A deletion fails for want of the collection, or of an identifier once those before it have been removed. -/
theorem deleteDocuments_refused {ids : List Uuid} (h : deleteDocuments ids name s = .error fault t) :
    (s.collections.lookup name = none ∧ t = s) ∨ ∃ before missing later, ids = before ++ missing :: later ∧
      fault = .notFound missing.text name ∧ deleteDocuments before name s = .ok () t ∧
        (t.collection name).contains missing = false := by
  unfold deleteDocuments at h
  split at h
  · rename_i hl
    cases h
    exact Or.inl ⟨hl, rfl⟩
  · rename_i c hl
    split at h
    · cases h
    · rename_i fault d hr
      cases h
      obtain ⟨before, missing, later, rfl, hf, hb, hm⟩ := Collection.removeEach_fault name hr
      refine Or.inr ⟨before, missing, later, rfl, hf, deleteDocuments_ok_iff.2 ⟨c, d, hl, hb, rfl⟩, ?_⟩
      rw [collection_setCollection, if_pos rfl]
      exact hm

theorem contains_of_deleteDocuments {ids : List Uuid} {id : Uuid} (h : deleteDocuments (id :: ids) name s = .ok () t) :
    (s.collection name).contains id ∧ (t.collection name).contains id = false := by
  obtain ⟨c, d, hl, hr, rfl⟩ := deleteDocuments_ok_iff.1 h
  rw [collection_of_lookup hl, collection_setCollection, if_pos rfl]
  unfold removeEach at hr
  split at hr
  · rename_i hc
    refine ⟨hc, Bool.eq_false_iff.2 fun hd => ?_⟩
    have hkept : (removeEach name ids (c.remove id)).2.contains id := by rw [hr]; exact hd
    exact (Collection.contains_of_contains_remove (Collection.contains_of_contains_removeEach name hkept)).2 rfl
  · cases hr

theorem deleteDocuments_nil (h : deleteDocuments [] name s = .ok () t) : t = s := by
  obtain ⟨c, d, hl, hr, rfl⟩ := deleteDocuments_ok_iff.1 h
  cases hr
  exact setCollection_self hl

/-- A deletion that fails leaves the store as it was if and only if its first identifier is not in use. -/
theorem deleteDocuments_unchanged_iff {ids : List Uuid} (h : deleteDocuments ids name s = .error fault t) :
    t = s ↔ ∀ id rest, ids = id :: rest → (s.collection name).contains id = false := by
  rcases deleteDocuments_refused h with ⟨hl, rfl⟩ | ⟨before, missing, later, rfl, -, hb, hm⟩
  · refine iff_of_true rfl fun _ _ _ => ?_
    unfold collection
    rw [hl]
    rfl
  · cases before with
    | nil =>
      cases deleteDocuments_nil hb
      refine iff_of_true rfl fun id rest he => ?_
      cases he
      exact hm
    | cons first before =>
      -- the first identifier is gone, so that the store is another one
      obtain ⟨hin, hout⟩ := contains_of_deleteDocuments hb
      refine iff_of_false ?_ fun hfirst => ?_
      · rintro rfl
        rw [hin] at hout
        cases hout
      · rw [hfirst first _ rfl] at hin
        cases hin

/-- A failure of anything but a deletion leaves the store as it was. -/
theorem after_eq_self {c : StoreCall} (hd : ∀ ids name, c ≠ .delete ids name) (h : (perform c s).1 = .error fault) :
    after c s = s := by
  cases c with
  | insert docs name => exact (insertDocuments_error (outcome_error h)).1
  | update docs name => exact updateDocuments_refused (outcome_error h)
  | delete ids name => exact (hd ids name rfl).elim
  | updateFields filter fields name => exact (updateFields_error (outcome_error h)).1
  | remove filter name => exact removeDocuments_refused (outcome_error h)
  | create name => cases h
  | drop name => exact dropCollection_refused (outcome_error h)
  | advance counter delta => exact (advance_error (outcome_error h)).1
  -- the other calls read
  | _ => rfl

/-! ## What a failure leaves -/

/-- A call that fails leaves the whole store as it was, unless it is a deletion whose first identifier is in use; and a
deletion from a collection has removed the identifiers before the first missing one, as if it had named no others. -/
theorem after_refused (c : StoreCall) (s : Store) (fault : Fault) (h : (perform c s).1 = .error fault) :
    (after c s = s ↔ ∀ id rest name, c = .delete (id :: rest) name → (s.collection name).contains id = false) ∧
    ∀ ids name, c = .delete ids name → (s.collections.lookup name).isSome →
      ∃ before missing later, ids = before ++ missing :: later ∧ fault = .notFound missing.text name ∧
        perform (.delete before name) s = (.ok .done, after c s) ∧
          ((after c s).collection name).contains missing = false := by
  by_cases hd : ∃ ids name, c = .delete ids name
  · obtain ⟨ids, name, rfl⟩ := hd
    have hr : deleteDocuments ids name s = .error fault (after (.delete ids name) s) := outcome_error h
    refine ⟨(deleteDocuments_unchanged_iff hr).trans ⟨?_, ?_⟩, ?_⟩
    · intro hfirst id rest name' he
      cases he
      exact hfirst id rest rfl
    · intro hfirst id rest he
      exact hfirst id rest name (by rw [he])
    · intro ids' name' he hs
      cases he
      rcases deleteDocuments_refused hr with ⟨hl, -⟩ | ⟨before, missing, later, hids, hf, hb, hm⟩
      · rw [hl] at hs
        cases hs
      · refine ⟨before, missing, later, hids, hf, ?_, hm⟩
        dsimp only [perform]
        rw [hb]
        rfl
  · refine ⟨iff_of_true (after_eq_self (fun ids name he => hd ⟨ids, name, he⟩) h) ?_, ?_⟩
    · intro id rest name he
      exact (hd ⟨_, _, he⟩).elim
    · intro ids name he
      exact (hd ⟨_, _, he⟩).elim

/-- The store after a batch of two documents. -/
def pairStored : Store :=
  after (.insert [(.ofNat 1, .document [("n", .int32 1)]), (.ofNat 2, .document [("n", .int32 2)])] "a") {}

/-- An identifier that is named twice is missing the second time. -/
theorem after_refused_repetition :
    (perform (.delete [.ofNat 1, .ofNat 1, .ofNat 2] "a") pairStored).1 = .error (.notFound (Uuid.ofNat 1).text "a") ∧
    after (.delete [.ofNat 1, .ofNat 1, .ofNat 2] "a") pairStored ≠ pairStored ∧
    ∃ before missing later, [Uuid.ofNat 1, .ofNat 1, .ofNat 2] = before ++ missing :: later ∧
      perform (.delete before "a") pairStored =
        (.ok .done, after (.delete [.ofNat 1, .ofNat 1, .ofNat 2] "a") pairStored) := by
  have hfails : (perform (.delete [.ofNat 1, .ofNat 1, .ofNat 2] "a") pairStored).1 =
      .error (.notFound (Uuid.ofNat 1).text "a") := by with_unfolding_all rfl
  obtain ⟨hiff, hdeleted⟩ := after_refused _ pairStored _ hfails
  refine ⟨hfails, fun he => ?_, ?_⟩
  · have hin : (pairStored.collection "a").contains (.ofNat 1) = true := by decide +kernel
    rw [hiff.1 he _ _ "a" rfl] at hin
    cases hin
  · obtain ⟨before, missing, later, hids, -, hb, -⟩ := hdeleted _ "a" rfl (by decide +kernel)
    exact ⟨before, missing, later, hids, hb⟩

/-- The deletion of a document and of a missing identifier fails, and one document is left of two. -/
theorem not_unchanged_by_refusal :
    (perform (.delete [.ofNat 1, .ofNat 3] "a") pairStored).1 = .error (.notFound (Uuid.ofNat 3).text "a") ∧
    (perform (.query {} "a") pairStored).1 =
      .ok (.documents [.document [("n", .int32 1)], .document [("n", .int32 2)]]) ∧
    (perform (.query {} "a") (after (.delete [.ofNat 1, .ofNat 3] "a") pairStored)).1 =
      .ok (.documents [.document [("n", .int32 2)]]) ∧
    after (.delete [.ofNat 1, .ofNat 3] "a") pairStored ≠ pairStored := by
  rw [perform_query_all, perform_query_all]
  refine ⟨by with_unfolding_all rfl, rfl, by with_unfolding_all rfl, fun he => ?_⟩
  have hout : ((after (.delete [.ofNat 1, .ofNat 3] "a") pairStored).collection "a").contains (.ofNat 1) = false := by
    decide +kernel
  have hin : (pairStored.collection "a").contains (.ofNat 1) = true := by decide +kernel
  rw [he, hin] at hout
  cases hout

end Store

end Dossier
