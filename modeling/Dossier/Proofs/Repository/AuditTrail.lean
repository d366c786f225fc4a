/-
The audit trail of customers. Every call, and every row of an import, leaves the log as it was and
appends exactly the records of what it has done to the stored customers.
-/
import Dossier.Proofs.Repository.FailedImport
import Dossier.Proofs.Repository.Trail

namespace Dossier.Customer

open Repository

variable {config : Config} {c e existing : Customer} {id : Uuid} {row : Row} {ctx : AuditContext} {force : Bool}
  {fault : Fault} {named : List Uuid} {s t u : State}

variable (hdef : config.UsesDefaultFields) (ha : config.auditCollection ≠ Stored.collection Customer)

/-! ## Imports -/

include ha in
/-- A row that fails logs nothing. -/
theorem rows_of_failed_import (hs : Settled config s.store) (hm : (e.id).toList ⊆ named) (hf : Fresh named s t)
    (h : (repository config).importRow ctx force e s = .error fault t) :
    t.store.rows config.auditCollection = s.store.rows config.auditCollection := by
  rw [(store_of_failed_row idKey_not_registered hs.sound hm hf h).1]
  exact rows_without ha ..

include hdef ha

theorem row_trail (hs : Settled config s.store) (hm : (e.id).toList ⊆ named)
    (hf : Fresh named s (((repository config).importRow ctx force e).leaves s)) : ∃ records,
      (repository config).Appends records s.store (((repository config).importRow ctx force e).leaves s).store ∧
        RowTrail config ctx force e s records := by
  cases hx : (repository config).importRow ctx force e s with
  | error fault t =>
    rw [Action.leaves_error hx] at hf ⊢
    refine ⟨[], .nothing (rows_of_failed_import ha hs hm hf hx), ?_⟩
    unfold RowTrail
    rw [hx]
  | ok result t =>
    rw [Action.leaves_ok hx] at hf ⊢
    unfold RowTrail
    rw [hx]
    cases importRow_ok hs.sound.wf hx with
    | created hp h =>
      cases hp with
      | create hg =>
        obtain ⟨id, hid, -, happ⟩ := h.appends ha hm hf fun id hi => DocumentSet.get?_none hs.sound.wf (hg id hi)
        exact ⟨_, happ, id, hid, rfl⟩
    | @replaced stale c _ hp h =>
      cases hp with
      | replaceStored hi hg hinactive =>
        have hfirst : Effects (repository config) (.free named) s _ := .single (.drops stale)
        have hf := hfirst.fresh_rest idKey_not_registered hs.sound (h.effects trivial hm) hf
        obtain ⟨id, hid, -, happ⟩ := h.appends ha hm hf (hs.sound.not_stored_of_dropped hi)
        exact ⟨_, happ.of_rows_eq (Store.rows_dropRow_other ha stale), id, hid, rfl⟩
    | merged hp h =>
      obtain ⟨row, hr, he⟩ := hp.row_of_overwrite hs.sound.wf
      have hid := ((hs.canonical row hr).doc_eq he).1
      cases h with
      | ignored hv hforce => exact ⟨[], .nothing rfl, rfl⟩
      | @updated own updated cleared changes _ hv hne hc hw =>
        have hown : own = row.id := Option.some.inj (hv.own_eq.symm.trans hid)
        subst hown
        have hin : "id" ∈ (repository config).config.identityFields := hdef.mem_identityFields.2 (by decide)
        have hupd : updated.id = some row.id := (id_of_version hin (Or.inr hv.version)).trans hid
        obtain ⟨records, happ, htrail⟩ := Written.trail hdef ha hs hr he hupd hc hv.changes_eq hw
        exact ⟨records, happ, row.id, hupd, htrail⟩

theorem rows_trail {es : List Customer} (hs : Settled config s.store) (hg : ∀ e ∈ es, e.balance.IsNumber)
    (hm : es.filterMap Customer.id ⊆ named)
    (hf : Fresh named s ((es.mapM ((repository config).importRow ctx force)).leaves s)) :
    ∃ records, (repository config).Appends records s.store
      ((es.mapM ((repository config).importRow ctx force)).leaves s).store ∧
        RowsTrail config ctx force es s records := by
  revert hs hg
  refine fun hs => importRows_induction idKey_not_registered (motive := fun es s t => Settled config s.store →
    (∀ e ∈ es, e.balance.IsNumber) → ∃ records,
      (repository config).Appends records s.store t.store ∧ RowsTrail config ctx force es s records)
    (fun s _ _ => ⟨[], .nothing rfl, .done s⟩) ?_ ?_ hs.sound hm hf hs
  · intro e es s t fault _ hme hf hx hs _
    obtain ⟨records, happ, hr⟩ := row_trail hdef ha hs hme (by rw [Action.leaves_error hx]; exact hf)
    rw [Action.leaves_error hx] at happ
    exact ⟨records, happ, .failed hx happ hr⟩
  · intro e es s u t result _ hme hf hx hrest hs hg
    rw [List.forall_mem_cons] at hg
    have hrow : Effects (repository config) ⟨named, fun e => e.balance.IsNumber, True⟩ s
        (((repository config).importRow ctx force e).leaves s) := importRow_effects hs.sound.wf hg.1 hme
    rw [Action.leaves_ok hx] at hrow
    obtain ⟨records, happ, hr⟩ := row_trail hdef ha hs hme (by rw [Action.leaves_ok hx]; exact hf)
    rw [Action.leaves_ok hx] at happ
    obtain ⟨more, happ', hmore⟩ := hrest (hs.effects hdef ha (fun _ h => h) hrow hf.distinct) hg.2
    exact ⟨records ++ more, happ.trans happ', .row hx happ hr hmore⟩

/-! ## Deletions -/

theorem softDelete_trail (hs : Settled config s.store)
    (hf : Fresh [] s (((repository config).softDeleteById id ctx).leaves s)) : ∃ records,
      (repository config).Appends records s.store (((repository config).softDeleteById id ctx).leaves s).store ∧
        SoftDeletionTrail config id ctx s records := by
  unfold SoftDeletionTrail
  cases hx : (repository config).softDeleteById id ctx s with
  | error fault t =>
    rw [Action.leaves_error hx] at hf ⊢
    rcases softDeleteById_error hs.sound.wf hx with rfl | h
    · exact ⟨[], .nothing rfl, rfl⟩
    cases h with
    | refused hg hact hr =>
      exact (Effects.not_refused idKey_not_registered hs.sound hr hf (.single (.deactivates hg))).elim
    | @unread existing _ hg hact hr hc =>
      -- the customer can still be read
      refine (hc { existing with active := false } (DocumentSet.get?_of_doc ?_ (ofValue?_toValue _))).elim
      rw [hr.left, show (repository config).entities.name = Stored.collection Customer from rfl,
        collection_recorded ha.symm]
      change (((repository config).deactivateRow id s.store).collection _).get? id = _
      rw [deactivateRow_eq hs.sound hs.canonical hdef hg]
      obtain ⟨row, hmem, rfl, -⟩ := DocumentSet.get?_some hs.sound.wf hg
      exact hs.sound.wf.get?_putRow ((hs.sound.wf _).contains_of_mem hmem) _
  | ok c t =>
    rw [Action.leaves_ok hx]
    obtain ⟨existing, hg, happ⟩ := (softDeleteById_ok hs.sound.wf hx).appends ha
    obtain ⟨row, hmem, rfl, he⟩ := DocumentSet.get?_some hs.sound.wf hg
    have hdoc := document?_of_row hs.sound.wf hmem ((hs.canonical row hmem).doc_eq he).2.1
    refine ⟨_, happ, _, existing, hdoc, ?_, ?_⟩
    · rw [← toValue_eq, ofValue?_toValue]
    · unfold deactivationRecord
      rw [show (repository config).config.activeField = "active" from hdef.activeField]
      rfl

omit hdef in
theorem delete_trail (hs : Settled config s.store)
    (hf : Fresh [] s (((repository config).deleteById id ctx).leaves s)) : ∃ records,
      (repository config).Appends records s.store (((repository config).deleteById id ctx).leaves s).store ∧
        DeletionTrail config id ctx s records := by
  unfold DeletionTrail
  cases hx : (repository config).deleteById id ctx s with
  | error fault t =>
    rw [Action.leaves_error hx] at hf ⊢
    rcases deleteById_error hx with rfl | ⟨existing, hg, hr⟩
    · exact ⟨[], .nothing rfl, rfl⟩
    · exact (Effects.not_refused idKey_not_registered hs.sound hr hf (.single (.drops id))).elim
  | ok u t =>
    rw [Action.leaves_ok hx]
    obtain ⟨existing, hg, happ⟩ := (deleteById_ok hx).appends ha
    obtain ⟨row, hmem, rfl, he⟩ := DocumentSet.get?_some hs.sound.wf hg
    have hdoc := document?_of_row hs.sound.wf hmem ((hs.canonical row hmem).doc_eq he).2.1
    refine ⟨_, happ, _, existing, hdoc, ?_, rfl⟩
    rw [← toValue_eq, ofValue?_toValue]

/-! ## Calls -/

theorem import_trail {es : List Customer} (hs : Settled config s.store) (hg : ∀ e ∈ es, e.balance.IsNumber)
    (hf : Fresh (es.filterMap Customer.id) s (((repository config).bulkImport es ctx force).leaves s)) : ∃ records,
      (repository config).Appends records s.store (((repository config).bulkImport es ctx force).leaves s).store ∧
        CallTrail config s records (.bulkImport es ctx force) := by
  unfold CallTrail
  dsimp only
  unfold bulkImport at hf ⊢
  rw [Action.leaves_bind] at hf ⊢
  cases hv : es.forM Entity.validate with
  | error fault => exact ⟨[], .nothing rfl, rfl⟩
  | ok u =>
    rw [hv] at hf
    exact rows_trail hdef ha hs hg (List.Subset.refl _) hf

/-- Every call keeps the log as it was and appends exactly the records of what it has done. -/
theorem log_of_call (h : Reachable (repository config) Call.Numeric s) {c : Call Customer} (hc : c.Numeric)
    (hf : Fresh c.named s (c.after (repository config) s)) : ∃ records,
      (repository config).Appends records s.store (c.after (repository config) s).store ∧
        CallTrail config s records c := by
  have hs := settled_of_reachable hdef ha h
  cases c with
  | write w ctx => exact write_trail hdef ha hs hf
  | bulkImport es ctx force => exact import_trail hdef ha hs hc hf
  | softDelete id ctx => exact softDelete_trail hdef ha hs hf
  | delete id ctx => exact delete_trail ha hs hf
  | patchMany filter requested properties =>
    refine ⟨[], .nothing ?_, rfl⟩
    unfold Call.after
    dsimp only
    cases hx : (repository config).patchMany filter requested properties s with
    | ok n t =>
      obtain ⟨values, hl, ht⟩ := patchMany_ok hs.sound.wf hx
      rw [Action.leaves_ok hx, ht]
      exact Store.rows_reviseRows_other ha _
    | error fault t => rw [Action.leaves_error hx, patchMany_error hx]
  | reserve counter increment =>
    obtain ⟨counters, hr⟩ := leaves_reserve counter increment s
    exact ⟨[], .nothing (by unfold Call.after; dsimp only; rw [hr]; rfl), rfl⟩
  | assignSlugs es =>
    obtain ⟨counters, hr⟩ := leaves_assignSlugs (repository config) es s
    exact ⟨[], .nothing (by unfold Call.after; dsimp only; rw [hr]; rfl), rfl⟩

omit hdef ha

theorem zero_isNumber : Double.IsNumber .zero := by unfold Double.IsNumber; decide

/-- The state in which the first customer has been created. -/
def enrolled : State := afterCalls {} [.write (.save { ann with city := some "Bonn" }) morning]

/-- The customer gets another city; the name is handed in too, but not to be changed. -/
def move : Call Customer := .write (.patchById (.ofNat 1) { bob with city := some "Rome" } ["city"]) evening

/-- What the log says of the move. -/
def moved : ChangeRecord where
  id := none
  entityCollection := "customers"
  entityId := .ofNat 1
  entitySlug := none
  action := .update
  source := .interactive
  property := some "city"
  oldValue := some "Bonn"
  newValue := some "Rome"
  changedBy := "carol"
  changedAt := 9000

theorem log_of_move : (repository {}).Appends [moved] enrolled.store (move.after (repository {}) enrolled).store ∧
    CallTrail {} enrolled [moved] move ∧
    ((move.after (repository {}) enrolled).store.rows "change_records").map (·.doc) =
      (enrolled.store.rows "change_records").map (·.doc) ++ [.document
        [("id", .uuid (.ofNat 3)), ("entity_collection", .string "customers"), ("entity_id", .uuid (.ofNat 1)),
          ("action", .string "update"), ("source", .string "interactive"), ("prop_changed", .string "city"),
          ("old_value", .string "Bonn"), ("new_value", .string "Rome"), ("changed_by", .string "carol"),
          ("changed_at", .dateTime 9000)]] := by
  have hreach : Reachable (repository {}) Call.Numeric enrolled := by
    refine reachable_afterCalls (fun c hc e he => ?_) (by decide +kernel)
    rw [List.mem_singleton.1 hc] at he
    rw [List.mem_singleton.1 he]
    exact zero_isNumber
  have hnumeric : move.Numeric := by
    intro e he
    rw [List.mem_singleton.1 he]
    exact zero_isNumber
  have happends : (repository {}).Appends [moved] enrolled.store (move.after (repository {}) enrolled).store :=
    ⟨[_], [.ofNat 3], by with_unfolding_all rfl, by with_unfolding_all rfl, rfl⟩
  obtain ⟨records, happ, htrail⟩ := log_of_call .default (by decide) hreach hnumeric (by decide +kernel)
  have hwrite : WriteTrail {} (.patchById (.ofNat 1) { bob with city := some "Rome" } ["city"]) evening enrolled
      records := htrail
  cases happ.unique happends (hwrite.unnumbered (List.nodup_singleton _)) (List.forall_mem_singleton.2 rfl)
  exact ⟨happends, htrail, by with_unfolding_all rfl⟩

end Dossier.Customer
