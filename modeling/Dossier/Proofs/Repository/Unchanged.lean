/-
Importing what is stored already. A batch of active entities that are stored as they are is merged into itself, and
every row is ignored, unless an entity holds NaN: then it differs from itself, and its row counts as a change.
-/
import Dossier.Proofs.Diff.Itself
import Dossier.Proofs.Entity.Patchable
import Dossier.Proofs.Entity.Rereading
import Dossier.Proofs.Repository.Customers
import Dossier.Proofs.Repository.Import

namespace Dossier.Repository

variable {E : Type} [Entity E] {r : Repository E} {e existing incoming c : E} {ctx : AuditContext} {s t : State}

/-! ## Rows that are ignored -/

theorem planImport_stored {id : Uuid} (hi : Stored.id? e = some id)
    (hg : r.entities.get? id s.store = .ok (some existing)) (ha : Entity.isActive existing = true) :
    r.planImport e s = .ok (.overwrite existing e) s := by
  have hstored : r.storedVersion? e s = .ok (some existing) s := by
    unfold storedVersion?
    rw [hi]
    exact Action.read_run hg
  unfold planImport
  refine (Action.bind_run hstored).trans ?_
  rw [hi]
  dsimp only
  rw [ha]
  rfl

/-- A row is ignored only if it brings no changes, and then nothing at all happens. -/
theorem importOver_ok_ignored (h : r.importOver existing incoming ctx false s = .ok (c, .ignored) t) :
    c = existing ∧ t = s ∧ ∃ own updated, r.MergedVersion existing incoming own updated [] := by
  unfold importOver at h
  obtain ⟨own, ho, h⟩ := Action.bind_ofExcept_ok h
  obtain ⟨updated, hu, h⟩ := Action.bind_ofExcept_ok h
  obtain ⟨changes, hd, h⟩ := Action.bind_ofExcept_ok h
  cases changes with
  | nil =>
    cases h
    exact ⟨rfl, rfl, own, updated, Stored.requireId_ok ho, hu, hd⟩
  | cons change more =>
    -- a row with changes is reported as an update, whatever else happens to it
    obtain ⟨_, _, -, h⟩ := Action.bind_ok h
    obtain ⟨_, _, -, h⟩ := Action.bind_ok h
    obtain ⟨_, _, -, h⟩ := Action.bind_ok h
    cases h

/-! ## Stored entities -/

/-- An active entity that is stored, as it is, under its own identifier. -/
structure HoldsActive (r : Repository E) (store : Store) (e : E) : Prop where
  active : Entity.isActive e = true
  stored : ∃ id, Stored.id? e = some id ∧ r.entities.get? id store = .ok (some e)

theorem HoldsActive.read {store : Store} (h : r.HoldsActive store e) : ∃ doc, Stored.ofValue? doc = some e := by
  obtain ⟨id, -, hg⟩ := h.stored
  obtain ⟨doc, -, hv⟩ := DocumentSet.get?_doc hg
  exact ⟨doc, hv⟩

variable [Rereadable E]

theorem HoldsActive.proper {store : Store} (h : r.HoldsActive store e) :
    (Value.document (Stored.entries e)).Proper := by
  obtain ⟨doc, hv⟩ := h.read
  rw [← toValue_entries]
  exact Rereadable.proper hv

/-- An entity that is merged into itself stays as it is. -/
theorem HoldsActive.merged_self {store : Store} (h : r.HoldsActive store e) : r.merged e e = .ok e := by
  obtain ⟨doc, hv⟩ := h.read
  unfold merged
  rw [toDocument_entries]
  change Stored.ofValue (.document (mergeDocuments _ (Stored.entries e) (Stored.entries e))) = _
  rw [mergeDocuments_eq_self fun entry he => Entries.lookup_of_mem h.proper.keys_nodup he, ← toValue_entries]
  unfold Stored.ofValue
  rw [Rereadable.reread hv]

theorem HoldsActive.version_iff (h : r.HoldsActive s.store e) :
    (∃ own updated, r.MergedVersion e e own updated []) ↔ r.differ.Numeric (Stored.entries e) := by
  rw [← Differ.diffDocuments_self_nil_iff h.proper, ← changes_entries]
  constructor
  · rintro ⟨own, updated, hv⟩
    cases h.merged_self.symm.trans hv.version
    exact hv.changes_eq
  · intro hc
    obtain ⟨id, hi, -⟩ := h.stored
    exact ⟨id, e, hi, h.merged_self, hc⟩

theorem HoldsActive.importRow_iff (h : r.HoldsActive s.store e) :
    r.importRow ctx false e s = .ok (c, .ignored) t ↔ c = e ∧ t = s ∧ r.differ.Numeric (Stored.entries e) := by
  obtain ⟨id, hi, hg⟩ := h.stored
  unfold importRow
  rw [Action.bind_run (planImport_stored hi hg h.active), ← h.version_iff]
  constructor
  · exact importOver_ok_ignored
  · rintro ⟨rfl, rfl, own, updated, hv⟩
    exact importOver_ignored hv

theorem importRows_iff {es : List E} (h : ∀ e ∈ es, r.HoldsActive s.store e) :
    es.mapM (r.importRow ctx false) s = .ok (es.map (·, .ignored)) s ↔
      ∀ e ∈ es, r.differ.Numeric (Stored.entries e) := by
  induction es with
  | nil => exact iff_of_true rfl nofun
  | cons e es ih =>
    rw [List.forall_mem_cons] at h
    rw [List.forall_mem_cons, ← ih h.2]
    constructor
    · intro hx
      obtain ⟨result, u, results, hrow, hrest, hr⟩ := Action.mapM_cons_ok hx
      rw [List.map_cons, List.cons.injEq] at hr
      obtain ⟨rfl, rfl⟩ := hr
      obtain ⟨-, rfl, hnum⟩ := h.1.importRow_iff.1 hrow
      exact ⟨hnum, hrest⟩
    · rintro ⟨hnum, hrest⟩
      exact Action.mapM_cons_run (h.1.importRow_iff.2 ⟨rfl, rfl, hnum⟩) hrest

/-- Active entities that are stored as they are, imported again, are all ignored, and nothing changes, if and only if
each passes its own check and none holds NaN in a property that is compared. -/
theorem bulkImport_iff {es : List E} (h : ∀ e ∈ es, r.HoldsActive s.store e) :
    r.bulkImport es ctx false s = .ok (es.map (·, .ignored)) s ↔
      ∀ e ∈ es, Entity.validate e = .ok () ∧ r.differ.Numeric (Stored.entries e) := by
  rw [forall₂_and, ← importRows_iff h, ← except_forM_ok]
  unfold bulkImport
  constructor
  · intro hx
    obtain ⟨_, hv, hrows⟩ := Action.bind_ofExcept_ok hx
    exact ⟨hv, hrows⟩
  · rintro ⟨hv, hrows⟩
    exact (Action.bind_ofExcept_run hv).trans hrows

/-- What comes of what is unchanged. A document differs from itself in exactly the compared properties that hold NaN at
some depth, each of which is listed or, if it cannot be shown, makes the comparison fail; without one there are no
changes. Active entities that are imported as they are stored are ignored exactly if they are valid and there is no
such property. -/
theorem unchanged_iff_numeric (r : Repository E) :
    (∀ (d : Differ) (doc : Document), (Value.document doc).Proper →
      (d.diffDocuments doc doc none = .ok [] ↔ d.Numeric doc) ∧
      (∀ changes, d.diffDocuments doc doc none = .ok changes → changes.map (·.property) =
        Entries.keys (doc.filter fun entry => !d.isIdentity entry.1 && entry.2.hasNaN)) ∧
      ((∃ fault, d.diffDocuments doc doc none = .error fault) ↔ ∃ entry ∈ doc,
        d.isIdentity entry.1 = false ∧ entry.2.hasNaN = true ∧ ∃ fault, d.render entry.2 = .error fault)) ∧
    ∀ (es : List E) (ctx : AuditContext) (s : State), (∀ e ∈ es, r.HoldsActive s.store e) →
      (r.bulkImport es ctx false s = .ok (es.map (·, .ignored)) s ↔
        ∀ e ∈ es, Entity.validate e = .ok () ∧ r.differ.Numeric (Stored.entries e)) := by
  refine ⟨fun d doc h => ⟨Differ.diffDocuments_self_nil_iff h, fun changes hc => ?_,
    Differ.diffDocuments_self_error_iff h⟩, fun es ctx s => bulkImport_iff⟩
  rw [(Differ.changesOf_ok hc).1, Differ.differing_self h]

end Dossier.Repository

namespace Dossier.Customer

open Repository

/-- Bob as he is stored next to Ann, who has been retired. -/
def remainingBob : Customer := stamp morning true { bob with id := some (.ofNat 3) }

theorem holdsActive_remainingBob : (repository {}).HoldsActive annRetired.store remainingBob := by
  refine ⟨rfl, .ofNat 3, rfl, DocumentSet.get?_of_doc ?_ (ofValue?_toValue remainingBob)⟩
  with_unfolding_all rfl

/-- Bob is ignored when he comes again. -/
theorem unchanged_remainingBob :
    ({} : Differ).diffDocuments remainingBob.document remainingBob.document none = .ok [] ∧
    (repository {}).bulkImport [remainingBob] evening false annRetired = .ok [(remainingBob, .ignored)] annRetired := by
  obtain ⟨hdiff, himport⟩ := unchanged_iff_numeric (repository {})
  have hproper : (Value.document remainingBob.document).Proper := .flat (by decide) (by decide)
  have hnumeric : ({} : Differ).Numeric remainingBob.document := by decide
  constructor
  · exact (hdiff {} _ hproper).1.2 hnumeric
  · refine (himport [remainingBob] evening annRetired ?_).2 ?_
    · rw [List.forall_mem_singleton]
      exact holdsActive_remainingBob
    · rw [List.forall_mem_singleton, entries_eq]
      exact ⟨rfl, hnumeric⟩

end Dossier.Customer
