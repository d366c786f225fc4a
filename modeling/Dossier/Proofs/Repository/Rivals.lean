/-
The other active customers that share the address of a customer. A write that succeeds leaves them as
they were: its check for duplicates decides on the first other match alone, and drops it only if it is
inactive.
-/
import Dossier.Proofs.Repository.Flat

namespace Dossier

namespace Store

/-- The stored documents of other customers that a filter selects, in order. -/
def others (s : Store) (filter : Expr) (own : Option Uuid) : List Row :=
  (s.rows (Stored.collection Customer)).filter fun row => filter.holds row.doc && decide (own ≠ some row.id)

/-- The active customers among them. -/
def rivals (s : Store) (filter : Expr) (own : Option Uuid) : List Row :=
  (s.others filter own).filter fun row => (Customer.ofValue? row.doc).any (·.active)

variable {s : Store} {filter : Expr} {id : Uuid}

/-- A row is not among its others, whatever is put into it. -/
theorem others_reviseRows {change : Row → Value}
    (h : ∀ row ∈ s.rows (Stored.collection Customer), row.id ≠ id → change row = row.doc) :
    (s.reviseRows (Stored.collection Customer) change).others filter (some id) = s.others filter (some id) := by
  refine filter_rows_reviseRows fun row hr => ?_
  by_cases hi : row.id = id
  · exact Or.inr (by simp [hi])
  · exact Or.inl (h row hr hi)

theorem others_putRow (doc : Value) :
    (s.putRow (Stored.collection Customer) id doc).others filter (some id) = s.others filter (some id) :=
  others_reviseRows fun _ _ hi => if_neg hi

theorem others_addRow (doc : Value) :
    (s.addRows (Stored.collection Customer) [(id, doc)]).others filter (some id) = s.others filter (some id) := by
  refine filter_rows_addRows _ fun row hm => ?_
  rw [List.mem_singleton, Prod.mk.injEq] at hm
  simp [hm.1]

end Store

namespace Customer

open Repository

variable {config : Config} {c e : Customer} {filter : Expr} {own : Option Uuid} {store cleared : Store}
  {s t : State}

/-- Change records share no address with a customer. -/
theorem others_recorded {r : Repository Customer} {records : List ChangeRecord}
    (hf : Entity.duplicateFilter? c = some filter) :
    (r.recorded records s).store.others filter own = s.store.others filter own := by
  obtain ⟨email, -, rfl⟩ := Option.map_eq_some_iff.1 hf
  unfold recorded
  split
  · rfl
  refine Store.filter_rows_addRows _ fun row hm => ?_
  obtain ⟨record, -, hd⟩ := mem_logEntries hm
  dsimp only at hd
  rw [hd, holds_email_record, Bool.false_and]

/-! ## Making way -/

/-- Whoever makes way, no active customer does. -/
theorem rivals_cleared {r : Repository Customer} (hs : r.Sound store) (hc : Cleared r e own store cleared)
    (filter : Expr) (other : Option Uuid) : cleared.rivals filter other = store.rivals filter other := by
  cases hc with
  | unkeyed hf => rfl
  | unmatched hf hm => rfl
  | @retired rest stale gone hf hm hi ha hin =>
    obtain ⟨first, others, -, hfirst, rfl, hv⟩ := hs.find?_some hm hi
    change ofValue? first.doc = some stale at hv
    unfold Store.rivals Store.others
    rw [hs.wf.rows_dropRow, List.filter_filter, List.filter_filter, List.filter_filter]
    refine List.filter_congr fun row hr => ?_
    by_cases he : row.id = first.id
    · -- the row that goes is not active
      have hrow := (hs.wf _).row_ext hr hfirst he
      have hactive : stale.active = false := ha
      rw [hrow, hv, Option.any_some, hactive, Bool.false_and, Bool.false_and]
    · rw [decide_eq_true he, Bool.and_true]

/-! ## Writing -/

/-- What a write puts into the store is not among the others of what it returns. -/
theorem others_after {w : Write Customer} {ctx : AuditContext} (hs : (repository config).Sound s.store)
    (hid : config.idField = "id" ∨ Flat s.store ∨ w.IsSave) (hw : w.run (repository config) ctx s = .ok c t)
    (hf : Entity.duplicateFilter? c = some filter) :
    ∃ e own cleared, Cleared (repository config) e own s.store cleared ∧
      t.store.others filter c.id = cleared.others filter c.id := by
  rcases w.save_or_patch (repository config) ctx with ⟨e, rfl⟩ | ⟨hw', find, requested, hfind, hrun⟩
  · cases createOrOverwrite_ok hs.wf hw with
    | created hv hn h =>
      cases h with
      | @intro cleared slugged identified id u v _ hc hsl hi hn hr =>
        refine ⟨_, _, _, hc, ?_⟩
        -- the new row has the identifier of what is returned
        obtain ⟨counters, rfl⟩ := hsl.frame
        obtain ⟨n, rfl, -⟩ := hi.frame
        have hown : (stamp ctx true identified).id = some id :=
          (LawfulEntity.id_stamp identified ctx true).trans hi.id_eq
        rw [hr.left, others_recorded hf]
        change Store.others _ _ (stamp ctx true identified).id = Store.others _ _ (stamp ctx true identified).id
        rw [hown]
        exact Store.others_addRow _
    | overwritten hi hg h =>
      cases h with
      | same hv hc hd => exact ⟨_, _, _, hc, rfl⟩
      | changed hv hc hd hne hwr =>
        cases hwr with
        | intro hi' hin hr =>
          refine ⟨_, _, _, hc, ?_⟩
          rw [hr.left, others_recorded hf, show Customer.id _ = _ from hi']
          exact Store.others_putRow _
  · rw [hrun] at hw
    obtain ⟨existing, row, -, hr, he, h⟩ := patch_ok hfind hs.wf hw
    cases h with
    | same hv hc hd => exact ⟨_, _, _, hc, rfl⟩
    | @changed own updated cleared changes values _ hv hc hd hne hl hrec =>
      refine ⟨_, _, _, hc, ?_⟩
      have hown : c.id = some own := by rw [(copyAll_ok hv.version).1]; exact hv.own_eq
      rw [hrec.left, others_recorded hf, hown]
      -- only the row with the own identifier is revised
      refine Store.others_reviseRows fun row hr hi => if_neg fun hh => hi ?_
      have hflat : config.idField = "id" ∨ Flat cleared :=
        hid.imp_right fun h => (h.resolve_right hw').cleared hs.wf hc
      exact id_eq_of_byId (hs.cleared hc) hflat hr hh

/-- A write that succeeds neither adds nor removes active customers with the address of what it returns: none
is left exactly if there was none. -/
theorem rivals_after {allowed : Call Customer → Prop} {w : Write Customer} {ctx : AuditContext}
    (h : Reachable (repository config) allowed s)
    (hid : config.idField = "id" ∨ config.auditCollection ≠ Stored.collection Customer ∨ w.IsSave)
    (hw : w.run (repository config) ctx s = .ok c t) (hf : Entity.duplicateFilter? c = some filter) :
    t.store.rivals filter c.id = s.store.rivals filter c.id := by
  have hs := h.sound idKey_not_registered
  have hflat : config.idField = "id" ∨ Flat s.store ∨ w.IsSave :=
    hid.imp_right (Or.imp_left fun ha => flat_of_reachable ha h)
  obtain ⟨e, own, cleared, hc, ho⟩ := others_after hs hflat hw hf
  rw [← rivals_cleared hs hc]
  unfold Store.rivals
  rw [ho]

/-- The first customer is retired, and the address it has kept is given to the second one by a patch of many. -/
def sharing : List (Call Customer) :=
  [.write (.save ann) morning, .write (.save bob) morning, .softDelete (.ofNat 1) morning,
    .patchMany (.eq "name" (.string "Bob")) { bob with email := some "a@x" } ["email"]]

theorem save_cyd : ∃ c t, (Write.save cyd).run (repository {}) morning (afterCalls {} sharing) = .ok c t ∧
    c.active = true ∧ Entity.duplicateFilter? c = some (.eq "email" (.string "a@x")) ∧
    (t.store.rivals (.eq "email" (.string "a@x")) c.id).map (·.id) = [.ofNat 3] := by
  have h : (((Write.save cyd).run (repository {}) morning).result? (afterCalls {} sharing)).map
      (fun r => (r.1.active, Entity.duplicateFilter? r.1,
        (r.2.store.rivals (.eq "email" (.string "a@x")) r.1.id).map (·.id))) =
    some (true, some (.eq "email" (.string "a@x")), [.ofNat 3]) := by
    simp only [Write.run, createOrOverwrite, createNew, resolveDuplicate, DocumentSet.find?_eq]
    with_unfolding_all rfl
  obtain ⟨r, hr, hfacts⟩ := Option.map_eq_some_iff.1 h
  simp only [Prod.mk.injEq] at hfacts
  exact ⟨r.1, r.2, Action.run_of_result? hr, hfacts⟩

theorem reachable_sharing : Reachable (repository {}) (fun _ => True) (afterCalls {} sharing) :=
  reachable_afterCalls (fun _ _ => trivial) (by decide +kernel)

theorem rivals_after_sharing : ∃ c t,
    (Write.save cyd).run (repository {}) morning (afterCalls {} sharing) = .ok c t ∧
    Entity.duplicateFilter? c = some (.eq "email" (.string "a@x")) ∧
    t.store.rivals (.eq "email" (.string "a@x")) c.id =
      (afterCalls {} sharing).store.rivals (.eq "email" (.string "a@x")) c.id := by
  obtain ⟨c, t, hr, -, hf, -⟩ := save_cyd
  exact ⟨c, t, hr, hf, rivals_after reachable_sharing (Or.inl rfl) hr hf⟩

/-- The check is not enough once an address is shared: a save can succeed beside an active customer with the
same address. -/
theorem not_unrivalled : ¬ ∀ (config : Config) (w : Write Customer) (ctx : AuditContext) (c : Customer)
    (filter : Expr) (s t : State), Reachable (repository config) (fun _ => True) s →
      w.run (repository config) ctx s = .ok c t → c.active = true → Entity.duplicateFilter? c = some filter →
      t.store.rivals filter c.id = [] := by
  intro h
  obtain ⟨c, t, hr, ha, hf, hl⟩ := save_cyd
  rw [h {} _ _ c _ _ t reachable_sharing hr ha hf] at hl
  cases hl

end Customer

end Dossier
