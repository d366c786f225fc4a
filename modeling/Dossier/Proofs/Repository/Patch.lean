/-
Patches and deletions, taken apart: what state each leaves when it succeeds, and at which of its
steps it can stop when it fails.
-/
import Dossier.Proofs.Repository.Save
import Dossier.Repository.Delete
import Dossier.Repository.Patch

namespace Dossier.Repository

variable {E : Type} [Entity E] {r : Repository E} {existing requested c : E} {properties : List String}
  {ctx : AuditContext} {s t : State} {fault : Fault} {id : Uuid}

/-! ## Finding -/

theorem orMissing_ok {key : String} {found : Except Fault (Option E)} (h : r.orMissing key found = .ok c) :
    found = .ok (some c) := by
  unfold orMissing at h
  split at h
  · cases h; rfl
  · cases h
  · cases h

theorem getById_ok (h : r.getById id s = .ok c t) : r.entities.get? id s.store = .ok (some c) ∧ t = s := by
  obtain ⟨hg, rfl⟩ := Action.read_ok h
  exact ⟨orMissing_ok hg, rfl⟩

theorem bind_getById_ok {α : Type} {g : E → Action α} {a : α} (h : (r.getById id >>= g) s = .ok a t) :
    ∃ e, r.entities.get? id s.store = .ok (some e) ∧ g e s = .ok a t := by
  obtain ⟨e, u, hf, hg⟩ := Action.bind_ok h
  obtain ⟨he, rfl⟩ := getById_ok hf
  exact ⟨e, he, hg⟩

theorem bind_getById_error {α : Type} {g : E → Action α} (h : (r.getById id >>= g) s = .error fault t) :
    t = s ∨ ∃ e, r.entities.get? id s.store = .ok (some e) ∧ g e s = .error fault t := by
  rcases Action.bind_error h with h | ⟨e, u, hf, hg⟩
  · exact Or.inl (Action.read_error h).2
  · obtain ⟨he, rfl⟩ := getById_ok hf
    exact Or.inr ⟨e, he, hg⟩

/-- A look-up of one entity: it reads the store only, and what it finds is stored. -/
structure Finds (r : Repository E) (find : Action E) : Prop where
  found {s t : State} {e : E} : s.store.WF → find s = .ok e t →
    t = s ∧ ∃ row ∈ s.store.rows (Stored.collection E), Stored.ofValue? row.doc = some e
  failed {s t : State} {fault : Fault} : find s = .error fault t → t = s

theorem finds_getById (r : Repository E) (id : Uuid) : r.Finds (r.getById id) where
  found hw h := by
    obtain ⟨hg, rfl⟩ := getById_ok h
    obtain ⟨row, hr, -, hv⟩ := DocumentSet.get?_some hw hg
    exact ⟨rfl, row, hr, hv⟩
  failed h := (Action.read_error h).2

theorem finds_first (r : Repository E) (key : String) (filter : Expr) :
    r.Finds (Action.read fun store => r.orMissing key (r.entities.find? filter store)) where
  found _ h := by
    obtain ⟨hg, rfl⟩ := Action.read_ok h
    obtain ⟨row, rest, hs, hv⟩ := DocumentSet.find?_some (orMissing_ok hg)
    exact ⟨rfl, row, (DocumentSet.first_selected hs).1, hv⟩
  failed h := (Action.read_error h).2

/-! ## Patching -/

/-- The version that a patch is about to write, under the identifier of the stored one. -/
structure PatchedVersion (r : Repository E) (existing requested : E) (properties : List String) (own : Uuid)
    (updated : E) : Prop where
  own_eq : Stored.id? existing = some own
  version : r.registry.copyAll properties requested existing = .ok updated
  valid : Entity.validate updated = .ok ()

/-- The store with fields set in the documents that have an identifier. -/
def patchRow (r : Repository E) (own : Uuid) (values : Document) (store : Store) : Store :=
  store.reviseRows (Stored.collection E) (Store.fieldsSet (r.byId own) values)

/-- What a patch yields and leaves. -/
inductive Patched (r : Repository E) (existing requested : E) (properties : List String) (ctx : AuditContext)
    (s : State) : E → State → Prop
  | same {own : Uuid} {updated : E} {cleared : Store}
      (hv : r.PatchedVersion existing requested properties own updated)
      (hc : Cleared r updated (some own) s.store cleared)
      (hd : r.changes existing updated (some properties) = .ok []) :
      Patched r existing requested properties ctx s existing (s.withStore cleared)
  | changed {own : Uuid} {updated : E} {cleared : Store} {changes : List PropertyChange} {values : Document}
      {t : State}
      (hv : r.PatchedVersion existing requested properties own updated)
      (hc : Cleared r updated (some own) s.store cleared)
      (hd : r.changes existing updated (some properties) = .ok changes) (hne : changes ≠ [])
      (hl : r.registry.readAll updated (changes.map (·.property)) = .ok values)
      (hr : r.Recorded (r.changeRecords updated own changes ctx) (s.withStore (r.patchRow own values cleared)) t) :
      Patched r existing requested properties ctx s updated t

/-- What a patch leaves when it stops after duplicates have made way. -/
inductive PatchFailed (r : Repository E) (existing requested : E) (properties : List String) (ctx : AuditContext)
    (s : State) : State → Prop
  | unrendered {own : Uuid} {updated : E} {cleared : Store} {fault : Fault}
      (hv : r.PatchedVersion existing requested properties own updated)
      (hc : Cleared r updated (some own) s.store cleared)
      (hd : r.changes existing updated (some properties) = .error fault) :
      PatchFailed r existing requested properties ctx s (s.withStore cleared)
  | unread {own : Uuid} {updated : E} {cleared : Store} {changes : List PropertyChange} {fault : Fault}
      (hv : r.PatchedVersion existing requested properties own updated)
      (hc : Cleared r updated (some own) s.store cleared)
      (hd : r.changes existing updated (some properties) = .ok changes)
      (hl : r.registry.readAll updated (changes.map (·.property)) = .error fault) :
      PatchFailed r existing requested properties ctx s (s.withStore cleared)
  | refused {own : Uuid} {updated : E} {cleared : Store} {changes : List PropertyChange} {values : Document}
      {t : State}
      (hv : r.PatchedVersion existing requested properties own updated)
      (hc : Cleared r updated (some own) s.store cleared)
      (hd : r.changes existing updated (some properties) = .ok changes)
      (hl : r.registry.readAll updated (changes.map (·.property)) = .ok values)
      (hr : r.Refused (r.changeRecords updated own changes ctx) (s.withStore (r.patchRow own values cleared)) t) :
      PatchFailed r existing requested properties ctx s t

theorem updateFields_byId_ok {own : Uuid} {values : Document} {n : Nat} (hw : s.store.WF)
    (h : r.entities.updateFields (r.byId own) values s = .ok n t) :
    t = s.withStore (r.patchRow own values s.store) :=
  DocumentSet.updateFields_ok hw h

/-- Whether a document has an identifier is always decided. -/
theorem updateFields_byId_error {own : Uuid} {values : Document}
    (h : r.entities.updateFields (r.byId own) values s = .error fault t) : False :=
  (DocumentSet.updateFields_error h).2 fun _ _ => ⟨_, Expr.eval_eq ..⟩

theorem applyPatch_ok (hw : s.store.WF) (h : r.applyPatch existing requested properties ctx s = .ok c t) :
    Patched r existing requested properties ctx s c t := by
  unfold applyPatch at h
  obtain ⟨own, ho, h⟩ := Action.bind_ofExcept_ok h
  obtain ⟨updated, hu, h⟩ := Action.bind_ofExcept_ok h
  obtain ⟨_, hval, h⟩ := Action.bind_ofExcept_ok h
  have hv : r.PatchedVersion existing requested properties own updated := ⟨Stored.requireId_ok ho, hu, hval⟩
  obtain ⟨cleared, hc, h⟩ := bind_resolveDuplicate_ok h
  have hcw : (s.withStore cleared).store.WF := hc.wf hw
  obtain ⟨changes, hd, h⟩ := Action.bind_ofExcept_ok h
  by_cases he : changes.isEmpty = true
  · rw [if_pos he] at h
    cases h
    rw [List.isEmpty_iff.1 he] at hd
    exact .same hv hc hd
  · rw [if_neg he] at h
    obtain ⟨values, hl, h⟩ := Action.bind_ofExcept_ok h
    obtain ⟨n, s₂, hup, h⟩ := Action.bind_ok h
    rw [updateFields_byId_ok hcw hup, recordIfActive_eq] at h
    obtain ⟨_, s₃, hr, h⟩ := Action.bind_ok h
    cases h
    exact .changed hv hc hd (fun hn => he (List.isEmpty_iff.2 hn)) hl (record_ok hr)

theorem applyPatch_error (hw : s.store.WF)
    (h : r.applyPatch existing requested properties ctx s = .error fault t) :
    t = s ∨ PatchFailed r existing requested properties ctx s t := by
  unfold applyPatch at h
  rcases Action.bind_ofExcept_error h with ⟨-, rfl⟩ | ⟨own, ho, h⟩
  · exact Or.inl rfl
  rcases Action.bind_ofExcept_error h with ⟨-, rfl⟩ | ⟨updated, hu, h⟩
  · exact Or.inl rfl
  rcases Action.bind_ofExcept_error h with ⟨-, rfl⟩ | ⟨_, hval, h⟩
  · exact Or.inl rfl
  have hv : r.PatchedVersion existing requested properties own updated := ⟨Stored.requireId_ok ho, hu, hval⟩
  rcases bind_resolveDuplicate_error h with ⟨ht, -⟩ | ⟨cleared, hc, h⟩
  · exact Or.inl ht
  have hcw : (s.withStore cleared).store.WF := hc.wf hw
  right
  rcases Action.bind_ofExcept_error h with ⟨hd, rfl⟩ | ⟨changes, hd, h⟩
  · exact .unrendered hv hc hd
  by_cases he : changes.isEmpty = true
  · rw [if_pos he] at h; cases h
  rw [if_neg he] at h
  rcases Action.bind_ofExcept_error h with ⟨hl, rfl⟩ | ⟨values, hl, h⟩
  · exact .unread hv hc hd hl
  rcases Action.bind_error h with h | ⟨n, s₂, hup, h⟩
  · exact (updateFields_byId_error h).elim
  rw [updateFields_byId_ok hcw hup, recordIfActive_eq] at h
  rcases Action.bind_error h with h | ⟨_, s₃, hr, h⟩
  · exact .refused hv hc hd hl (record_error h)
  · cases h

theorem patch_ok {find : Action E} (hf : r.Finds find) (hw : s.store.WF)
    (h : r.patch find requested properties ctx s = .ok c t) :
    ∃ existing row, find s = .ok existing s ∧ row ∈ s.store.rows (Stored.collection E) ∧
      Stored.ofValue? row.doc = some existing ∧ Patched r existing requested properties ctx s c t := by
  unfold patch at h
  obtain ⟨_, -, h⟩ := Action.bind_ofExcept_ok h
  obtain ⟨existing, s₁, hfs, hp⟩ := Action.bind_ok h
  obtain ⟨rfl, row, hr, he⟩ := hf.found hw hfs
  exact ⟨existing, row, hfs, hr, he, applyPatch_ok hw hp⟩

theorem patch_error {find : Action E} (hf : r.Finds find) (hw : s.store.WF)
    (h : r.patch find requested properties ctx s = .error fault t) :
    t = s ∨ ∃ existing row, find s = .ok existing s ∧ row ∈ s.store.rows (Stored.collection E) ∧
      Stored.ofValue? row.doc = some existing ∧ PatchFailed r existing requested properties ctx s t := by
  unfold patch at h
  rcases Action.bind_ofExcept_error h with ⟨-, rfl⟩ | ⟨_, -, h⟩
  · exact Or.inl rfl
  rcases Action.bind_error h with h | ⟨existing, s₁, hfs, hp⟩
  · exact Or.inl (hf.failed h)
  obtain ⟨rfl, row, hr, he⟩ := hf.found hw hfs
  exact (applyPatch_error hw hp).imp (fun h => h) fun hp => ⟨existing, row, hfs, hr, he, hp⟩

/-! ## Patching many -/

theorem patchMany_ok {filter : Expr} {n : Nat} (hw : s.store.WF)
    (h : r.patchMany filter requested properties s = .ok n t) :
    ∃ values, r.registry.readAll requested properties = .ok values ∧
      t = s.withStore (s.store.reviseRows (Stored.collection E) (Store.fieldsSet filter values)) := by
  unfold patchMany at h
  obtain ⟨_, -, h⟩ := Action.bind_ofExcept_ok h
  obtain ⟨values, hl, h⟩ := Action.bind_ofExcept_ok h
  exact ⟨values, hl, DocumentSet.updateFields_ok hw h⟩

theorem patchMany_error {filter : Expr} (h : r.patchMany filter requested properties s = .error fault t) :
    t = s := by
  unfold patchMany at h
  rcases Action.bind_ofExcept_error h with ⟨-, rfl⟩ | ⟨_, -, h⟩
  · rfl
  rcases Action.bind_ofExcept_error h with ⟨-, rfl⟩ | ⟨values, -, h⟩
  · rfl
  exact (DocumentSet.updateFields_error h).1

/-! ## Deleting -/

/-- The record of a soft deletion. -/
def deactivationRecord (r : Repository E) (existing : E) (id : Uuid) (ctx : AuditContext) : ChangeRecord :=
  .ofProperty (Stored.collection E) id (Entity.slug? existing) .delete (deactivation r.config.activeField) ctx

/-- What taking the activity flag away leaves, before the record of it. -/
def deactivateRow (r : Repository E) (id : Uuid) (store : Store) : Store :=
  r.patchRow id [(r.config.activeField, .boolean false)] store

/-- What a soft deletion yields and leaves. -/
inductive SoftDeleted (r : Repository E) (id : Uuid) (ctx : AuditContext) (s : State) : E → State → Prop
  | inactive {existing : E} (hg : r.entities.get? id s.store = .ok (some existing))
      (ha : Entity.isActive existing = false) : SoftDeleted r id ctx s existing s
  | active {existing c : E} {t : State} (hg : r.entities.get? id s.store = .ok (some existing))
      (ha : Entity.isActive existing = true)
      (hr : r.Recorded [r.deactivationRecord existing id ctx] (s.withStore (r.deactivateRow id s.store)) t)
      (hc : r.entities.get? id t.store = .ok (some c)) : SoftDeleted r id ctx s c t

/-- What a soft deletion leaves when it stops after having taken the flag away. -/
inductive SoftDeleteFailed (r : Repository E) (id : Uuid) (ctx : AuditContext) (s : State) : State → Prop
  | refused {existing : E} {t : State} (hg : r.entities.get? id s.store = .ok (some existing))
      (ha : Entity.isActive existing = true)
      (hr : r.Refused [r.deactivationRecord existing id ctx] (s.withStore (r.deactivateRow id s.store)) t) :
      SoftDeleteFailed r id ctx s t
  | unread {existing : E} {t : State} (hg : r.entities.get? id s.store = .ok (some existing))
      (ha : Entity.isActive existing = true)
      (hr : r.Recorded [r.deactivationRecord existing id ctx] (s.withStore (r.deactivateRow id s.store)) t)
      (hc : ∀ c, r.entities.get? id t.store ≠ .ok (some c)) : SoftDeleteFailed r id ctx s t

theorem softDeleteById_ok (hw : s.store.WF) (h : r.softDeleteById id ctx s = .ok c t) :
    SoftDeleted r id ctx s c t := by
  unfold softDeleteById at h
  obtain ⟨existing, hg, h⟩ := bind_getById_ok h
  by_cases ha : Entity.isActive existing = true
  · simp only [ha, Bool.not_true, Bool.false_eq_true, if_false] at h
    obtain ⟨n, s₂, hup, h⟩ := Action.bind_ok h
    rw [updateFields_byId_ok hw hup] at h
    obtain ⟨_, s₃, hr, h⟩ := Action.bind_ok h
    obtain ⟨hc, rfl⟩ := getById_ok h
    exact .active hg ha (record_ok hr) hc
  · simp only [ha, Bool.not_false, if_true] at h
    cases h
    exact .inactive hg (by simpa using ha)

theorem softDeleteById_error (hw : s.store.WF) (h : r.softDeleteById id ctx s = .error fault t) :
    t = s ∨ SoftDeleteFailed r id ctx s t := by
  unfold softDeleteById at h
  rcases bind_getById_error h with h | ⟨existing, hg, h⟩
  · exact Or.inl h
  by_cases ha : Entity.isActive existing = true
  · right
    simp only [ha, Bool.not_true, Bool.false_eq_true, if_false] at h
    rcases Action.bind_error h with h | ⟨n, s₂, hup, h⟩
    · exact (updateFields_byId_error h).elim
    rw [updateFields_byId_ok hw hup] at h
    rcases Action.bind_error h with h | ⟨_, s₃, hr, h⟩
    · exact .refused hg ha (record_error h)
    · obtain ⟨hm, rfl⟩ := Action.read_error h
      refine .unread hg ha (record_ok hr) fun c hc => ?_
      unfold orMissing at hm
      rw [hc] at hm; cases hm
  · simp only [ha, Bool.not_false, if_true] at h; cases h

/-- The records of a deletion for good. -/
def deletionRecords (existing : E) (id : Uuid) (ctx : AuditContext) : List ChangeRecord :=
  recordsOf existing [.ofEntity (Stored.collection E) id (Entity.slug? existing) .delete ctx]

/-- What a deletion for good leaves. -/
inductive Deleted (r : Repository E) (id : Uuid) (ctx : AuditContext) (s : State) : State → Prop
  | intro {existing : E} {t : State} (hg : r.entities.get? id s.store = .ok (some existing))
      (hr : r.Recorded (deletionRecords existing id ctx)
        (s.withStore (s.store.dropRow (Stored.collection E) id)) t) :
      Deleted r id ctx s t

theorem deleteById_ok {u : Unit} (h : r.deleteById id ctx s = .ok u t) : Deleted r id ctx s t := by
  unfold deleteById at h
  obtain ⟨existing, hg, h⟩ := bind_getById_ok h
  obtain ⟨_, s₂, hd, hr⟩ := Action.bind_ok h
  obtain ⟨-, rfl⟩ := DocumentSet.delete_ok hd
  rw [recordIfActive_eq] at hr
  exact .intro hg (record_ok hr)

theorem deleteById_error (h : r.deleteById id ctx s = .error fault t) : t = s ∨
    ∃ existing, r.entities.get? id s.store = .ok (some existing) ∧ r.Refused (deletionRecords existing id ctx)
      (s.withStore (s.store.dropRow (Stored.collection E) id)) t := by
  unfold deleteById at h
  rcases bind_getById_error h with h | ⟨existing, hg, h⟩
  · exact Or.inl h
  rcases Action.bind_error h with h | ⟨_, s₂, hd, hr⟩
  · exact Or.inl (DocumentSet.delete_error h).1
  obtain ⟨-, rfl⟩ := DocumentSet.delete_ok hd
  rw [recordIfActive_eq] at hr
  exact Or.inr ⟨existing, hg, record_error hr⟩

end Dossier.Repository
