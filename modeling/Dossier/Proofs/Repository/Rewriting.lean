/-
What the writing of one customer leaves of the rest. The row of the customer gets another document where
it stands, at most one inactive customer with the same address makes way, and nothing else is touched.
-/
import Dossier.Proofs.Repository.MakingWay

namespace Dossier.Customer

open Repository

variable {config : Config} {c : Customer} {id : Uuid} {row : Row} {store left : Store} {records : List ChangeRecord}
  {s t : State}

/-- In a store one customer has become `c` where it stands. Everything else is as it was, except that one inactive
customer with the address of `c` may be gone, whose document was that of a customer, and that records may have been
added to the log. -/
structure Rewritten (config : Config) (id : Uuid) (c : Customer) (s t : Store) : Prop where
  stored : (t.collection (Stored.collection Customer)).get? id = some c.toValue
  rows : ∃ gone : Option Uuid, (∀ stale ∈ gone, stale ≠ id ∧ HoldsInactive s c.email stale ∧
      ∃ x : Customer, (s.collection (Stored.collection Customer)).get? stale = some x.toValue) ∧
    t.rows (Stored.collection Customer) =
      ((s.rows (Stored.collection Customer)).filter fun row => gone ≠ some row.id).map
        fun row => if row.id = id then { row with doc := c.toValue } else row
  log : s.rows config.auditCollection <+: t.rows config.auditCollection
  others : ∀ name, name ≠ Stored.collection Customer → name ≠ config.auditCollection → t.rows name = s.rows name
  counters : t.counters = s.counters

/-! ## Writing -/

/-- A customer that is not written stays as it is. -/
theorem MadeWay.kept (ha : config.auditCollection ≠ Stored.collection Customer)
    (h : MadeWay row.id c.email store left) (hw : left.WF) (hr : row ∈ store.rows (Stored.collection Customer))
    (hd : row.doc = c.toValue) : Rewritten config row.id c store left where
  stored := (hw _).get?_eq_some_iff.2 ⟨row, h.mem_rows hr, rfl, hd⟩
  rows := by
    have hsame : (left.rows (Stored.collection Customer)).map
        (fun other => if other.id = row.id then { other with doc := c.toValue } else other) =
        left.rows (Stored.collection Customer) := by
      refine (List.map_congr_left fun other ho => ?_).trans (List.map_id _)
      split
      · rename_i hi
        rw [(hw _).row_ext ho (h.mem_rows hr) hi, ← hd]
        rfl
      · rfl
    obtain ⟨gone, hgone, hrows⟩ := h.rows
    exact ⟨gone, hgone, by rw [← hrows, hsame]⟩
  log := ⟨[], by rw [List.append_nil, h.others _ ha]⟩
  others name hn _ := h.others name hn
  counters := h.counters

/-- A customer that is written, and whose changes are recorded. -/
theorem MadeWay.written (ha : config.auditCollection ≠ Stored.collection Customer)
    (h : MadeWay row.id c.email s.store left) (hw : left.WF) (hr : row ∈ s.store.rows (Stored.collection Customer))
    (hrec : (repository config).Recorded records
      (s.withStore (left.putRow (Stored.collection Customer) row.id c.toValue)) t) :
    Rewritten config row.id c s.store t.store where
  stored := by
    rw [hrec.left, collection_recorded ha.symm]
    exact hw.get?_putRow ((hw _).contains_of_mem (h.mem_rows hr)) _
  rows := by
    obtain ⟨gone, hgone, hrows⟩ := h.rows
    refine ⟨gone, hgone, ?_⟩
    rw [hrec.rows_other ha.symm, ← hrows]
    refine (Store.rows_reviseRows _ _).trans (List.map_congr_left fun other _ => ?_)
    split <;> rfl
  log := by
    obtain ⟨added, -, hrows, -⟩ := hrec.appends
    have hbefore : (left.putRow (Stored.collection Customer) row.id c.toValue).rows config.auditCollection =
        s.store.rows config.auditCollection := (Store.rows_reviseRows_other ha _).trans (h.others _ ha)
    exact ⟨added, by rw [← hbefore]; exact hrows.symm⟩
  others name hn hlog :=
    (hrec.rows_other hlog).trans ((Store.rows_reviseRows_other hn _).trans (h.others name hn))
  counters := (counters_of_recorded hrec).trans ((Store.counters_reviseRows ..).trans h.counters)

end Dossier.Customer
