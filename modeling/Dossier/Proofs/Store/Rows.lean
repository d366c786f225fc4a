/-
Collections as lists of rows. In a well-formed collection the index of positions is nothing but the
list of rows read off, each identifier addressing one row, so that looking up, inserting, changing
and removing by an identifier are `find?`, `++`, `map` and `filter` on the rows.
-/
import Dossier.Proofs.Action
import Dossier.Store.Collection
import Mathlib.Data.List.Nodup

namespace Dossier.Collection

variable {c : Collection} {id : Uuid}

/-- Every identifier addresses exactly one row, and positions are never given twice. -/
structure WF (c : Collection) : Prop where
  index : c.positions = c.rows.map fun row => (row.id, row.position)
  ids : (c.rows.map (·.id)).Nodup
  positions : (c.rows.map (·.position)).Nodup
  below : ∀ row ∈ c.rows, row.position < c.nextPosition

theorem empty_wf : ({} : Collection).WF := ⟨rfl, by simp, by simp, by simp⟩

theorem WF.row_ext (h : c.WF) {a b : Row} (ha : a ∈ c.rows) (hb : b ∈ c.rows) (he : a.id = b.id) : a = b :=
  List.inj_on_of_nodup_map h.ids ha hb he

/-- Looking up an identifier in a list that is read off the rows. -/
theorem lookup_rows {α : Type} (read : Row → α) (id : Uuid) : ∀ rows : List Row,
    (rows.map fun row => (row.id, read row)).lookup id = (rows.find? (·.id = id)).map read
  | [] => rfl
  | row :: rows => by
    rw [List.map_cons, List.lookup_cons, List.find?_cons]
    by_cases h : row.id = id
    · simp [h]
    · rw [beq_false_of_ne (Ne.symm h), decide_eq_false h]
      exact lookup_rows read id rows

theorem WF.lookup (h : c.WF) (id : Uuid) :
    c.positions.lookup id = (c.rows.find? (·.id = id)).map (·.position) := by
  rw [h.index, lookup_rows]

theorem WF.contains_iff (h : c.WF) : c.contains id ↔ ∃ row ∈ c.rows, row.id = id := by
  unfold contains
  rw [h.lookup, Option.isSome_map, List.find?_isSome]
  simp

theorem WF.contains_of_mem (h : c.WF) {row : Row} (hr : row ∈ c.rows) : c.contains row.id :=
  h.contains_iff.2 ⟨row, hr, rfl⟩

theorem WF.not_contains (h : c.WF) (hc : c.contains id = false) {row : Row} (hr : row ∈ c.rows) : row.id ≠ id := by
  rintro rfl
  rw [h.contains_of_mem hr] at hc; cases hc

theorem WF.find_position (h : c.WF) {row : Row} (hr : row ∈ c.rows) :
    c.rows.find? (·.position == row.position) = some row := by
  cases hf : c.rows.find? (·.position == row.position) with
  | none => rw [List.find?_eq_none] at hf; simpa using hf row hr
  | some row' =>
    have hm := List.mem_of_find?_eq_some hf
    have hp : row'.position = row.position := by simpa using List.find?_some hf
    rw [List.inj_on_of_nodup_map h.positions hm hr hp]

theorem WF.get?_eq (h : c.WF) (id : Uuid) : c.get? id = (c.rows.find? (·.id = id)).map (·.doc) := by
  unfold get?
  rw [h.lookup]
  cases hf : c.rows.find? (·.id = id) with
  | none => rfl
  | some row =>
    simp only [Option.map_some, Option.bind_some]
    rw [h.find_position (List.mem_of_find?_eq_some hf), Option.map_some]

/-- The row of an identifier. -/
theorem WF.find_id_iff (h : c.WF) {row : Row} : c.rows.find? (·.id = id) = some row ↔ row ∈ c.rows ∧ row.id = id := by
  constructor
  · intro hf
    exact ⟨List.mem_of_find?_eq_some hf, by simpa using List.find?_some hf⟩
  · rintro ⟨hr, rfl⟩
    cases hf : c.rows.find? (·.id = row.id) with
    | none => rw [List.find?_eq_none] at hf; simpa using hf row hr
    | some other =>
      have hi : other.id = row.id := by simpa using List.find?_some hf
      rw [h.row_ext (List.mem_of_find?_eq_some hf) hr hi]

theorem WF.get?_eq_some_iff (h : c.WF) {doc : Value} :
    c.get? id = some doc ↔ ∃ row ∈ c.rows, row.id = id ∧ row.doc = doc := by
  rw [h.get?_eq, Option.map_eq_some_iff]
  simp only [h.find_id_iff, and_assoc]

theorem WF.get?_eq_none_iff (h : c.WF) : c.get? id = none ↔ c.contains id = false := by
  rw [h.get?_eq, Option.map_eq_none_iff, List.find?_eq_none, ← Bool.not_eq_true, h.contains_iff]
  simp

/-- At most one row has an identifier. -/
theorem WF.filter_id (h : c.WF) (id : Uuid) :
    c.rows.filter (fun row => decide (row.id = id)) = (c.rows.find? (·.id = id)).toList := by
  have hn := h.ids
  generalize c.rows = rows at hn
  induction rows with
  | nil => rfl
  | cons row rows ih =>
    rw [List.map_cons, List.nodup_cons] at hn
    rw [List.filter_cons, List.find?_cons]
    by_cases hi : row.id = id
    · have hrest : rows.filter (fun row => decide (row.id = id)) = [] :=
        List.filter_eq_nil_iff.2 fun other ho => by
          rw [decide_eq_true_iff]
          exact fun he => hn.1 (List.mem_map.2 ⟨other, ho, he.trans hi.symm⟩)
      rw [decide_eq_true hi, if_pos rfl, hrest]
      rfl
    · rw [decide_eq_false hi, if_neg Bool.false_ne_true]
      exact ih hn.2

/-! ## Inserting -/

theorem insert_rows (c : Collection) (id : Uuid) (doc : Value) :
    (c.insert id doc).rows = c.rows ++ [⟨c.nextPosition, id, doc⟩] := rfl

theorem WF.insert (h : c.WF) (hc : c.contains id = false) (doc : Value) : (c.insert id doc).WF where
  index := by
    -- no entry of the index has to make way
    have hf : c.positions.filter (·.1 != id) = c.positions := by
      rw [List.filter_eq_self, h.index]
      intro p hp
      obtain ⟨row, hr, rfl⟩ := List.mem_map.1 hp
      simpa using h.not_contains hc hr
    unfold Collection.insert
    rw [hf, h.index, List.map_append]
    rfl
  ids := by
    rw [insert_rows, List.map_append, List.nodup_append]
    refine ⟨h.ids, by simp, ?_⟩
    intro a ha b hb
    obtain ⟨row, hr, rfl⟩ := List.mem_map.1 ha
    simp only [List.map_cons, List.map_nil, List.mem_singleton] at hb
    subst hb
    exact h.not_contains hc hr
  positions := by
    rw [insert_rows, List.map_append, List.nodup_append]
    refine ⟨h.positions, by simp, ?_⟩
    intro a ha b hb
    obtain ⟨row, hr, rfl⟩ := List.mem_map.1 ha
    simp only [List.map_cons, List.map_nil, List.mem_singleton] at hb
    have := h.below row hr
    omega
  below := by
    intro row hr
    show row.position < c.nextPosition + 1
    rcases List.mem_append.1 (insert_rows c id doc ▸ hr) with hr | hr
    · have := h.below row hr; omega
    · rw [List.mem_singleton] at hr
      subst hr; exact Nat.lt_succ_self _

theorem contains_insert (c : Collection) (id new : Uuid) (doc : Value) :
    (c.insert new doc).contains id = (c.contains id || id == new) := by
  unfold contains Collection.insert
  simp only [List.lookup_append, Option.isSome_or]
  by_cases hi : id = new
  · subst hi; simp
  · -- entries of other identifiers are found as before
    have hl : ∀ ps : List (Uuid × Nat), (ps.filter (·.1 != new)).lookup id = ps.lookup id := by
      intro ps
      induction ps with
      | nil => rfl
      | cons p ps ih =>
        obtain ⟨j, n⟩ := p
        by_cases hj : j = new
        · rw [List.filter_cons_of_neg (by simp [hj]), ih, List.lookup_cons, hj, beq_false_of_ne hi]
        · rw [List.filter_cons_of_pos (by simpa using hj), List.lookup_cons, List.lookup_cons, ih]
    rw [hl, List.lookup_cons, beq_false_of_ne hi]
    simp

/-! ## Changing -/

theorem WF.modify_rows (h : c.WF) (id : Uuid) (change : Value → Value) :
    (c.modify id change).rows =
      c.rows.map fun row => if row.id = id then { row with doc := change row.doc } else row := by
  unfold modify
  rw [h.lookup]
  cases hf : c.rows.find? (·.id = id) with
  | none =>
    rw [List.find?_eq_none] at hf
    refine ((List.map_id' c.rows).symm.trans (List.map_congr_left fun row hr => ?_))
    rw [if_neg (by simpa using hf row hr)]
  | some found =>
    have hm := List.mem_of_find?_eq_some hf
    have hi : found.id = id := by simpa using List.find?_some hf
    -- the rows at the position found are those with the identifier
    refine List.map_congr_left fun row hr => ?_
    by_cases hr' : row.id = id
    · rw [if_pos hr', if_pos (congrArg Row.position (h.row_ext hr hm (hr'.trans hi.symm)))]
    · rw [if_neg hr', if_neg]
      intro hp
      exact hr' (by rw [List.inj_on_of_nodup_map h.positions hr hm hp, hi])

theorem modify_positions (c : Collection) (id : Uuid) (change : Value → Value) :
    (c.modify id change).positions = c.positions ∧ (c.modify id change).nextPosition = c.nextPosition := by
  unfold modify
  split <;> exact ⟨rfl, rfl⟩

/-- A collection whose rows get other documents stays well-formed. -/
theorem WF.of_docs {d : Collection} (h : c.WF) (change : Row → Value)
    (hr : d.rows = c.rows.map fun row => { row with doc := change row })
    (hp : d.positions = c.positions) (hn : d.nextPosition = c.nextPosition) : d.WF where
  index := by rw [hp, hr, h.index, List.map_map]; rfl
  ids := by rw [hr, List.map_map]; exact h.ids
  positions := by rw [hr, List.map_map]; exact h.positions
  below := by
    rw [hr, hn]
    intro row hm
    obtain ⟨old, ho, rfl⟩ := List.mem_map.1 hm
    exact h.below old ho

theorem WF.modify (h : c.WF) (id : Uuid) (change : Value → Value) : (c.modify id change).WF := by
  refine h.of_docs (fun row => if row.id = id then change row.doc else row.doc) ?_
    (modify_positions c id change).1 (modify_positions c id change).2
  rw [h.modify_rows]
  exact List.map_congr_left fun row _ => by split <;> rfl

/-! ## Removing -/

theorem WF.remove_rows (h : c.WF) (id : Uuid) : (c.remove id).rows = c.rows.filter (·.id ≠ id) := by
  unfold remove
  rw [h.lookup]
  cases hf : c.rows.find? (·.id = id) with
  | none =>
    rw [List.find?_eq_none] at hf
    exact (List.filter_eq_self.2 fun row hr => by simpa using hf row hr).symm
  | some found =>
    have hm := List.mem_of_find?_eq_some hf
    have hi : found.id = id := by simpa using List.find?_some hf
    refine List.filter_congr fun row hr => ?_
    by_cases hr' : row.id = id
    · simp [h.row_ext hr hm (hr'.trans hi.symm), hi]
    · have hp : row.position ≠ found.position := fun hp =>
        hr' (by rw [List.inj_on_of_nodup_map h.positions hr hm hp, hi])
      simp [hr', hp]

theorem WF.remove_positions (h : c.WF) (id : Uuid) : (c.remove id).positions = c.positions.filter (·.1 != id) := by
  unfold remove
  split
  · rename_i hl
    refine (List.filter_eq_self.2 fun p hp => ?_).symm
    rw [h.index] at hp
    obtain ⟨row, hr, rfl⟩ := List.mem_map.1 hp
    have hc : c.contains id = false := by unfold contains; rw [hl]; rfl
    simpa using h.not_contains hc hr
  · rfl

theorem remove_nextPosition (c : Collection) (id : Uuid) : (c.remove id).nextPosition = c.nextPosition := by
  unfold remove
  split <;> rfl

theorem WF.remove (h : c.WF) (id : Uuid) : (c.remove id).WF where
  index := by
    rw [h.remove_positions, h.remove_rows, h.index, List.filter_map]
    congr 1
    exact List.filter_congr fun row _ => by by_cases hi : row.id = id <;> simp [hi]
  ids := by rw [h.remove_rows]; exact h.ids.sublist (List.filter_sublist.map _)
  positions := by rw [h.remove_rows]; exact h.positions.sublist (List.filter_sublist.map _)
  below := by
    intro row hr
    rw [h.remove_rows] at hr
    rw [remove_nextPosition]
    exact h.below row (List.mem_of_mem_filter hr)

theorem WF.contains_remove (h : c.WF) (id gone : Uuid) :
    (c.remove gone).contains id = (c.contains id && id != gone) := by
  rw [Bool.eq_iff_iff, (h.remove gone).contains_iff, h.remove_rows, Bool.and_eq_true, h.contains_iff]
  simp only [List.mem_filter, ne_eq, decide_not, Bool.not_eq_true', decide_eq_false_iff_not, bne_iff_ne]
  constructor
  · rintro ⟨row, ⟨hr, hg⟩, rfl⟩; exact ⟨⟨row, hr, rfl⟩, hg⟩
  · rintro ⟨⟨row, hr, rfl⟩, hg⟩; exact ⟨row, ⟨hr, hg⟩, rfl⟩

end Dossier.Collection
