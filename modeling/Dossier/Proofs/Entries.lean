/-
Laws of ordered entries. A list of entries with distinct keys is determined by the order of its
keys and by what each key is bound to, so every law is stated once for `keys` and once for
`List.lookup`.
-/
import Dossier.Entries
import Mathlib.Data.List.Induction
import Mathlib.Data.List.Nodup

namespace Dossier.Entries

variable {α : Type}

theorem lookup_cons (k j : String) (v : α) (es : List (String × α)) :
    ((k, v) :: es).lookup j = if j = k then some v else es.lookup j := by
  by_cases h : j = k
  · subst h; simp
  · rw [if_neg h, List.lookup_cons, beq_false_of_ne h]

theorem lookup_eq_none_iff {k : String} : ∀ {es : List (String × α)}, es.lookup k = none ↔ k ∉ keys es
  | [] => by simp [keys]
  | (j, v) :: es => by
    rw [lookup_cons]
    by_cases h : k = j
    · simp [h, keys]
    · rw [if_neg h, lookup_eq_none_iff]
      simp [keys, h]

theorem lookup_isSome_iff {k : String} {es : List (String × α)} : (es.lookup k).isSome ↔ k ∈ keys es := by
  rw [← not_iff_not, Bool.not_eq_true, Option.isSome_eq_false_iff, Option.isNone_iff_eq_none, lookup_eq_none_iff]

theorem mem_of_lookup {k : String} {v : α} : ∀ {es : List (String × α)}, es.lookup k = some v → (k, v) ∈ es
  | (j, w) :: es, h => by
    rw [lookup_cons] at h
    split at h
    · rename_i hj; cases h; subst hj; exact List.mem_cons_self ..
    · exact List.mem_cons_of_mem _ (mem_of_lookup h)

/-- The value of an entry is found by its key if no other entry has that key. -/
theorem lookup_of_mem {k : String} {v : α} : ∀ {es : List (String × α)}, (keys es).Nodup → (k, v) ∈ es →
    es.lookup k = some v
  | (j, w) :: es, hn, hm => by
    obtain ⟨hj, hn⟩ := List.nodup_cons.1 hn
    rw [lookup_cons]
    rcases List.mem_cons.1 hm with he | hm
    · cases he
      exact if_pos rfl
    · have hk : k ≠ j := fun he => hj (he ▸ List.mem_map.2 ⟨(k, v), hm, rfl⟩)
      rw [if_neg hk, lookup_of_mem hn hm]

theorem contains_eq (k : String) (es : List (String × α)) : contains k es = decide (k ∈ keys es) := by
  unfold contains
  rw [Bool.eq_iff_iff, lookup_isSome_iff, decide_eq_true_iff]

/-! ## Inserting -/

theorem lookup_insert (k j : String) (v : α) :
    ∀ es : List (String × α), (insert k v es).lookup j = if j = k then some v else es.lookup j
  | [] => by simp [insert, lookup_cons]
  | (l, w) :: es => by
    unfold insert
    split
    · rename_i h
      subst h
      rw [lookup_cons, lookup_cons]
      split <;> rfl
    · rename_i h
      rw [lookup_cons, lookup_cons, lookup_insert k j v es]
      by_cases hj : j = l
      · subst hj; rw [if_pos rfl, if_pos rfl, if_neg h]
      · rw [if_neg hj, if_neg hj]

theorem lookup_insert_self (k : String) (v : α) (es : List (String × α)) :
    (insert k v es).lookup k = some v := by
  rw [lookup_insert, if_pos rfl]

theorem keys_insert (k : String) (v : α) :
    ∀ es : List (String × α), keys (insert k v es) = if k ∈ keys es then keys es else keys es ++ [k]
  | [] => by simp [insert, keys]
  | (l, w) :: es => by
    unfold insert
    have ih := keys_insert k v es
    unfold keys at ih ⊢
    by_cases h : l = k
    · simp [h]
    · rw [if_neg h, List.map_cons, ih]
      by_cases hk : k ∈ es.map (·.1)
      · simp [hk]
      · simp [hk, Ne.symm h]

theorem keys_insert_of_mem {k : String} (v : α) {es : List (String × α)} (h : k ∈ keys es) :
    keys (insert k v es) = keys es := by
  rw [keys_insert, if_pos h]

theorem nodup_keys_insert (k : String) (v : α) {es : List (String × α)} (h : (keys es).Nodup) :
    (keys (insert k v es)).Nodup := by
  rw [keys_insert]
  split
  · exact h
  · rename_i hk
    exact List.nodup_append.2 ⟨h, List.nodup_singleton k, fun a ha b hb => by
      rw [List.mem_singleton] at hb; subst hb; exact fun e => hk (e ▸ ha)⟩

/-- Writing back what is there changes nothing. -/
theorem insert_of_lookup {k : String} {v : α} :
    ∀ {es : List (String × α)}, es.lookup k = some v → insert k v es = es
  | (j, w) :: es, h => by
    rw [lookup_cons] at h
    unfold insert
    by_cases hj : j = k
    · rw [if_pos hj.symm] at h
      cases h; rw [if_pos hj, hj]
    · rw [if_neg (Ne.symm hj)] at h
      rw [if_neg hj, insert_of_lookup h]

theorem mem_insert {k : String} {v : α} {p : String × α} :
    ∀ {es : List (String × α)}, p ∈ insert k v es → p = (k, v) ∨ p ∈ es
  | [], h => by simpa [insert] using h
  | (j, w) :: es, h => by
    unfold insert at h
    split at h
    · exact (List.mem_cons.1 h).imp id (List.mem_cons_of_mem _)
    · rcases List.mem_cons.1 h with rfl | h
      · exact Or.inr (List.mem_cons_self ..)
      · exact (mem_insert h).imp id (List.mem_cons_of_mem _)

/-- Of two values that are bound to a key the second stays. -/
theorem insert_insert (k : String) (v w : α) : ∀ es : List (String × α), insert k w (insert k v es) = insert k w es
  | [] => if_pos rfl
  | (j, x) :: es => by
    by_cases hj : j = k
    · simp [insert, hj]
    · simp [insert, hj, insert_insert k v w es]

/-! ## Erasing -/

theorem lookup_erase (k j : String) :
    ∀ es : List (String × α), (erase k es).lookup j = if j = k then none else es.lookup j
  | [] => by simp [erase]
  | (l, w) :: es => by
    have ih := lookup_erase k j es
    unfold erase at ih ⊢
    by_cases hl : l = k
    · rw [List.filter_cons_of_neg (by simp [hl]), ih, lookup_cons, hl]
      by_cases hj : j = k
      · rw [if_pos hj, if_pos hj]
      · rw [if_neg hj, if_neg hj, if_neg hj]
    · rw [List.filter_cons_of_pos (by simpa using hl), lookup_cons, ih, lookup_cons]
      by_cases hj : j = l
      · rw [if_pos hj, if_pos hj, if_neg (hj ▸ hl)]
      · rw [if_neg hj, if_neg hj]

/-! ## Columns and several entries at once -/

/-- Entries that are computed by name, those without a value being left out. -/
theorem lookup_filterMap {β : Type} (b : β) (k : String) : ∀ {cols : List (String × (β → Option α))},
    (keys cols).Nodup → (cols.filterMap fun col => (col.2 b).map (col.1, ·)).lookup k =
      (cols.lookup k).bind fun read => read b
  | [], _ => rfl
  | (j, read) :: cols, h => by
    rw [keys, List.map_cons, List.nodup_cons] at h
    rw [List.filterMap_cons, lookup_cons]
    dsimp only
    cases hr : read b with
    | none =>
      dsimp only [Option.map_none]
      rw [lookup_filterMap b k h.2]
      by_cases hk : k = j
      · rw [if_pos hk, hk, lookup_eq_none_iff.2 h.1]; exact hr.symm
      · rw [if_neg hk]
    | some v =>
      dsimp only [Option.map_some]
      rw [lookup_cons, lookup_filterMap b k h.2]
      by_cases hk : k = j
      · rw [if_pos hk, if_pos hk]; exact hr.symm
      · rw [if_neg hk, if_neg hk]

theorem keys_filterMap {β : Type} (b : β) : ∀ cols : List (String × (β → Option α)),
    keys (cols.filterMap fun col => (col.2 b).map (col.1, ·)) = keys (cols.filter fun col => (col.2 b).isSome)
  | [] => rfl
  | (j, read) :: cols => by
    have ih := keys_filterMap b cols
    rw [List.filterMap_cons]
    cases hr : read b with
    | none =>
      rw [List.filter_cons_of_neg (by simp [hr])]
      simpa [hr] using ih
    | some v =>
      rw [List.filter_cons_of_pos (by simp [hr])]
      simpa [hr, keys] using ih

theorem lookup_insertAll (k : String) : ∀ {added es : List (String × α)}, (keys added).Nodup →
    (insertAll es added).lookup k = (added.lookup k).or (es.lookup k)
  | [], _, _ => rfl
  | (j, v) :: added, es, h => by
    rw [keys, List.map_cons, List.nodup_cons] at h
    change (insertAll (insert j v es) added).lookup k = _
    rw [lookup_insertAll k h.2, lookup_insert, lookup_cons]
    by_cases hk : k = j
    · rw [if_pos hk, if_pos hk, hk, lookup_eq_none_iff.2 h.1]; rfl
    · rw [if_neg hk, if_neg hk]

theorem lookup_insertAll_of_not_mem {k : String} : ∀ {added es : List (String × α)}, k ∉ keys added →
    (insertAll es added).lookup k = es.lookup k
  | [], _, _ => rfl
  | (j, v) :: added, es, h => by
    rw [keys, List.map_cons, List.mem_cons, not_or] at h
    change (insertAll (insert j v es) added).lookup k = _
    rw [lookup_insertAll_of_not_mem h.2, lookup_insert, if_neg h.1]

theorem keys_insertAll_of_subset : ∀ {added es : List (String × α)}, keys added ⊆ keys es →
    keys (insertAll es added) = keys es
  | [], _, _ => rfl
  | (j, v) :: added, es, h => by
    rw [keys, List.map_cons, List.cons_subset] at h
    have hk := keys_insert_of_mem v h.1
    change keys (insertAll (insert j v es) added) = _
    rw [keys_insertAll_of_subset (by rw [hk]; exact h.2), hk]

/-- The value of a key is the one inserted last. -/
theorem lookup_insertAll_latest (k : String) : ∀ (added es : List (String × α)),
    (insertAll es added).lookup k = ((added.filter (·.1 == k)).getLast?.map (·.2)).or (es.lookup k)
  | [], _ => rfl
  | (j, v) :: added, es => by
    change (insertAll (insert j v es) added).lookup k = _
    rw [lookup_insertAll_latest k added, lookup_insert]
    by_cases hj : k = j
    · rw [if_pos hj, List.filter_cons_of_pos (by simp [hj]), List.getLast?_cons]
      cases (added.filter (·.1 == k)).getLast? <;> rfl
    · rw [if_neg hj, List.filter_cons_of_neg (by simpa using Ne.symm hj)]

theorem nodup_keys_insertAll : ∀ (added : List (String × α)) {es : List (String × α)}, (keys es).Nodup →
    (keys (insertAll es added)).Nodup
  | [], _, h => h
  | (j, v) :: added, _, h => nodup_keys_insertAll added (nodup_keys_insert j v h)

theorem mem_insertAll {p : String × α} : ∀ {added es : List (String × α)}, p ∈ insertAll es added → p ∈ added ∨ p ∈ es
  | [], _, h => .inr h
  | (j, v) :: added, es, h => by
    change p ∈ insertAll (insert j v es) added at h
    rcases mem_insertAll h with h | h
    · exact .inl (List.mem_cons_of_mem _ h)
    · rcases mem_insert h with rfl | h
      · exact .inl (List.mem_cons_self ..)
      · exact .inr h

/-! ## Building from a list -/

theorem lookup_ofList (k : String) (added : List (String × α)) :
    (ofList added).lookup k = (added.filter (·.1 == k)).getLast?.map (·.2) := by
  rw [ofList, lookup_insertAll_latest, List.lookup_nil, Option.or_none]

theorem nodup_keys_ofList (added : List (String × α)) : (keys (ofList added)).Nodup :=
  nodup_keys_insertAll added List.nodup_nil

theorem mem_of_mem_ofList {p : String × α} {added : List (String × α)} (h : p ∈ ofList added) : p ∈ added :=
  (mem_insertAll h).resolve_right List.not_mem_nil

theorem mem_keys_ofList {k : String} {added : List (String × α)} :
    k ∈ keys (ofList added) ↔ k ∈ keys added := by
  rw [← lookup_isSome_iff, lookup_ofList, Option.isSome_map, List.getLast?_isSome, ne_eq, List.filter_eq_nil_iff]
  simp [keys]

/-- Keys stand in the order in which they came first. -/
theorem keys_ofList_inOrder (added : List (String × α)) :
    (keys (ofList added)).Pairwise fun j k => (keys added).idxOf j < (keys added).idxOf k := by
  induction added using List.reverseRecOn with
  | nil => exact .nil
  | append_singleton added e ih =>
    have hconcat : ofList (added ++ [e]) = insert e.1 e.2 (ofList added) := List.foldl_append ..
    have hkeys : keys (added ++ [e]) = keys added ++ [e.1] := List.map_append
    have hplace : ∀ k ∈ keys (ofList added), (keys added ++ [e.1]).idxOf k = (keys added).idxOf k := fun k hk =>
      List.idxOf_append_of_mem (mem_keys_ofList.1 hk)
    have hbefore : (keys (ofList added)).Pairwise fun j k =>
        (keys added ++ [e.1]).idxOf j < (keys added ++ [e.1]).idxOf k :=
      ih.imp_of_mem fun hj hk hlt => by rwa [hplace _ hj, hplace _ hk]
    rw [hconcat, keys_insert, hkeys]
    split
    · exact hbefore
    · rename_i hnew
      refine List.pairwise_append.2 ⟨hbefore, List.pairwise_singleton .., fun j hj k hk => ?_⟩
      rw [List.mem_singleton] at hk
      subst hk
      rw [hplace j hj, List.idxOf_append_of_notMem fun hm => hnew (mem_keys_ofList.2 hm)]
      exact Nat.lt_add_right _ (List.idxOf_lt_length_of_mem (mem_keys_ofList.1 hj))

theorem insert_of_not_mem {k : String} (v : α) : ∀ {es : List (String × α)}, k ∉ keys es →
    insert k v es = es ++ [(k, v)]
  | [], _ => rfl
  | (j, w) :: es, h => by
    rw [keys, List.map_cons, List.mem_cons, not_or] at h
    unfold insert
    rw [if_neg (Ne.symm h.1), insert_of_not_mem v h.2, List.cons_append]

theorem insertAll_of_nodup : ∀ {added es : List (String × α)}, (keys (es ++ added)).Nodup →
    insertAll es added = es ++ added
  | [], es, _ => (List.append_nil es).symm
  | (j, v) :: added, es, h => by
    have hj : j ∉ keys es := by
      rw [keys, List.map_append, List.nodup_append] at h
      exact fun hm => h.2.2 j hm j (List.mem_cons_self ..) rfl
    change insertAll (insert j v es) added = _
    rw [insert_of_not_mem v hj, insertAll_of_nodup (by simpa using h), List.append_assoc]
    rfl

theorem ofList_of_nodup {es : List (String × α)} (h : (keys es).Nodup) : ofList es = es := insertAll_of_nodup h

theorem keys_insertAll_sublist : ∀ {added es : List (String × α)},
    (keys (insertAll es added)).Sublist (keys es ++ keys added)
  | [], es => by simp [insertAll, keys]
  | (j, v) :: added, es => by
    have hinsert : (keys (insert j v es)).Sublist (keys es ++ [j]) := by
      rw [keys_insert]
      split
      · exact List.sublist_append_left ..
      · exact List.Sublist.refl _
    have hrest : (keys (insertAll (insert j v es) added)).Sublist (keys es ++ [j] ++ keys added) :=
      keys_insertAll_sublist.trans (hinsert.append_right _)
    rwa [List.append_assoc] at hrest

/-- Building entries from as many pairs as there are entries loses none of them. -/
theorem ofList_eq_iff {es added : List (String × α)} (hn : (keys es).Nodup) (hlen : added.length = es.length) :
    ofList added = es ↔ added = es := by
  constructor
  · intro h
    have hsub : (keys es).Sublist (keys added) := h ▸ keys_insertAll_sublist
    have hkeys : keys es = keys added := hsub.eq_of_length (by simp [keys, hlen])
    rwa [ofList_of_nodup (hkeys ▸ hn)] at h
  · rintro rfl
    exact ofList_of_nodup hn

/-! ## Mapping keys and values -/

variable {β : Type} (f : α → β)

theorem keys_map (es : List (String × α)) : keys (es.map (Prod.map id f)) = keys es := List.map_map

/-- Under new keys the values are found as before, if no other key becomes the one that is looked for. -/
theorem lookup_rename {g : String → String} {k : String} : ∀ {es : List (String × α)},
    (∀ j ∈ keys es, g j = g k → j = k) → (es.map (Prod.map g f)).lookup (g k) = (es.lookup k).map f
  | [], _ => rfl
  | (j, v) :: es, h => by
    rw [keys, List.map_cons, List.forall_mem_cons] at h
    rw [List.map_cons, Prod.map_apply, lookup_cons, lookup_cons, lookup_rename h.2]
    by_cases hj : k = j
    · rw [if_pos hj, if_pos (congrArg g hj), Option.map_some]
    · rw [if_neg hj, if_neg fun he => hj (h.1 he.symm).symm]

theorem lookup_map (k : String) (es : List (String × α)) : (es.map (Prod.map id f)).lookup k = (es.lookup k).map f :=
  lookup_rename f fun _ _ he => he

theorem insert_map (k : String) (v : α) : ∀ es : List (String × α),
    insert k (f v) (es.map (Prod.map id f)) = (insert k v es).map (Prod.map id f)
  | [] => rfl
  | (j, w) :: es => by
    unfold insert
    by_cases h : j = k
    · simp [h]
    · simp [h, insert_map k v es]

theorem erase_map (k : String) (es : List (String × α)) :
    erase k (es.map (Prod.map id f)) = (erase k es).map (Prod.map id f) := List.filter_map

theorem keys_sorted (es : List (String × α)) : keys (sorted es) = (keys es).mergeSort (· ≤ ·) :=
  List.map_mergeSort fun _ _ _ _ => rfl

/-! ## Equality -/

/-- Entries with the same keys in the same order, all distinct, and the same bindings are equal. -/
theorem ext_lookup : ∀ {es fs : List (String × α)}, keys es = keys fs → (keys es).Nodup →
    (∀ k, es.lookup k = fs.lookup k) → es = fs
  | [], [], _, _, _ => rfl
  | [], _ :: _, h, _, _ => by simp [keys] at h
  | _ :: _, [], h, _, _ => by simp [keys] at h
  | (k, v) :: es, (l, w) :: fs, h, hn, hl => by
    simp only [keys, List.map_cons, List.cons.injEq] at h
    obtain ⟨rfl, ht⟩ := h
    simp only [keys, List.map_cons, List.nodup_cons] at hn
    have hv : v = w := by simpa [lookup_cons] using hl k
    subst hv
    rw [ext_lookup ht hn.2 fun j => ?_]
    by_cases hj : j = k
    · subst hj
      rw [lookup_eq_none_iff.2 hn.1, lookup_eq_none_iff.2 (by unfold keys; rw [← ht]; exact hn.1)]
    · simpa [lookup_cons, hj] using hl j

end Dossier.Entries
