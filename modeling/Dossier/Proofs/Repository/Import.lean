/-
Import, taken apart row by row: which plan is made for a row, and what carrying it out leaves.
-/
import Dossier.Proofs.Repository.Save
import Dossier.Repository.Import

namespace Dossier.Repository

variable {E : Type} [Entity E] {r : Repository E} {e c existing incoming : E} {ctx : AuditContext} {force : Bool}
  {s t : State} {fault : Fault}

/-! ## Planning -/

/-- No entity is stored under the identifier of a row. -/
def Unstored (r : Repository E) (e : E) (store : Store) : Prop :=
  ∀ id, Stored.id? e = some id → r.entities.get? id store = .ok none

/-- How the plan for a row is made. -/
inductive Planned (r : Repository E) (e : E) (store : Store) : ImportPlan E → Prop
  | overwriteStored {id : Uuid} {existing : E} (hi : Stored.id? e = some id)
      (hg : r.entities.get? id store = .ok (some existing)) (ha : Entity.isActive existing = true) :
      Planned r e store (.overwrite existing e)
  | replaceStored {id : Uuid} {existing : E} (hi : Stored.id? e = some id)
      (hg : r.entities.get? id store = .ok (some existing)) (ha : Entity.isActive existing = false) :
      Planned r e store (.replace id e)
  | overwriteMatch {filter : Expr} {existing : E} (hg : r.Unstored e store)
      (hf : Entity.duplicateFilter? e = some filter) (hm : r.entities.find? filter store = .ok (some existing))
      (ha : Entity.isActive existing = true) : Planned r e store (.overwrite existing e)
  | create (hg : r.Unstored e store) : Planned r e store (.create e)

/-- What a row is merged into is stored. -/
theorem Planned.row_of_overwrite {store : Store} (hw : store.WF) (h : Planned r e store (.overwrite existing e)) :
    ∃ row ∈ store.rows (Stored.collection E), Stored.ofValue? row.doc = some existing := by
  cases h with
  | overwriteStored hi hg ha =>
    obtain ⟨row, hr, -, he⟩ := DocumentSet.get?_some hw hg
    exact ⟨row, hr, he⟩
  | overwriteMatch hg hf hm ha =>
    obtain ⟨row, rest, hsel, he⟩ := DocumentSet.find?_some hm
    exact ⟨row, (DocumentSet.first_selected hsel).1, he⟩

/-- The plan for a row whose identifier is not stored. -/
def planUnstored (r : Repository E) (e : E) : Action (ImportPlan E) :=
  match Entity.duplicateFilter? e with
  | none => return .create e
  | some filter => do
    match ← Action.read (r.entities.find? filter) with
    | some existing => return if Entity.isActive existing then .overwrite existing e else .create e
    | none => return .create e

theorem planUnstored_ok {plan : ImportPlan E} (hg : r.Unstored e s.store) (h : r.planUnstored e s = .ok plan t) :
    t = s ∧ Planned r e s.store plan := by
  unfold planUnstored at h
  cases hd : Entity.duplicateFilter? e with
  | none => rw [hd] at h; cases h; exact ⟨rfl, .create hg⟩
  | some filter =>
    rw [hd] at h
    obtain ⟨found, hm, h⟩ := Action.bind_read_ok h
    cases found with
    | none => cases h; exact ⟨rfl, .create hg⟩
    | some existing =>
      cases ha : Entity.isActive existing
      · simp only [ha] at h; cases h; exact ⟨rfl, .create hg⟩
      · simp only [ha] at h; cases h; exact ⟨rfl, .overwriteMatch hg hd hm ha⟩

/-- The plan for a row whose identifier is not stored is made by duplicates. -/
theorem planImport_unstored (hg : r.Unstored e s.store) : r.planImport e s = r.planUnstored e s := by
  have hstored : r.storedVersion? e s = .ok none s := by
    unfold storedVersion?
    cases hi : Stored.id? e with
    | none => rfl
    | some id => exact Action.read_run (hg id hi)
  unfold planImport
  refine (Action.bind_run hstored).trans ?_
  cases Stored.id? e <;> rfl

/-- A row whose address is that of an active entity is going to be merged into it. -/
theorem planImport_match {filter : Expr} (hg : r.Unstored e s.store) (hf : Entity.duplicateFilter? e = some filter)
    (hm : r.entities.find? filter s.store = .ok (some existing)) (ha : Entity.isActive existing = true) :
    r.planImport e s = .ok (.overwrite existing e) s := by
  rw [planImport_unstored hg]
  unfold planUnstored
  rw [hf]
  refine (Action.bind_read_run hm).trans ?_
  dsimp only
  rw [ha]
  rfl

theorem planUnstored_error (h : r.planUnstored e s = .error fault t) : t = s := by
  unfold planUnstored at h
  cases hd : Entity.duplicateFilter? e with
  | none => rw [hd] at h; cases h
  | some filter =>
    rw [hd] at h
    rcases Action.bind_read_error h with h | ⟨found, hm, h⟩
    · exact h
    · cases found <;> cases h

theorem planImport_ok {plan : ImportPlan E} (h : r.planImport e s = .ok plan t) :
    t = s ∧ Planned r e s.store plan := by
  unfold planImport at h
  obtain ⟨found, s₁, hs, hp⟩ := Action.bind_ok h
  obtain ⟨rfl, ⟨hi, rfl⟩ | ⟨id, hi, hg⟩⟩ := storedVersion?_ok hs
  · rw [hi] at hp
    exact planUnstored_ok (fun id hid => by rw [hi] at hid; cases hid) hp
  · rw [hi] at hp
    cases found with
    | none => exact planUnstored_ok (fun id' hid => by rw [hi] at hid; cases hid; exact hg) hp
    | some existing =>
      cases ha : Entity.isActive existing
      · simp only [ha] at hp; cases hp; exact ⟨rfl, .replaceStored hi hg ha⟩
      · simp only [ha] at hp; cases hp; exact ⟨rfl, .overwriteStored hi hg ha⟩

theorem planImport_error (h : r.planImport e s = .error fault t) : t = s := by
  unfold planImport at h
  rcases Action.bind_error h with h | ⟨found, s₁, hs, hp⟩
  · exact (storedVersion?_error h).1
  obtain ⟨rfl, ⟨hi, rfl⟩ | ⟨id, hi, -⟩⟩ := storedVersion?_ok hs
  · rw [hi] at hp; exact planUnstored_error hp
  · rw [hi] at hp
    cases found with
    | none => exact planUnstored_error hp
    | some existing => cases hp

/-! ## Merging into an active entity -/

/-- The version that a row is merged into, under the identifier of the stored one, with its changes. -/
structure MergedVersion (r : Repository E) (existing incoming : E) (own : Uuid) (updated : E)
    (changes : List PropertyChange) : Prop where
  own_eq : Stored.id? existing = some own
  version : r.merged existing incoming = .ok updated
  changes_eq : r.changes existing updated none = .ok changes

/-- What merging a row yields and leaves. -/
inductive Merged (r : Repository E) (existing incoming : E) (ctx : AuditContext) (force : Bool) (s : State) :
    E × ImportOutcome → State → Prop
  | ignored {own : Uuid} {updated : E} (hv : r.MergedVersion existing incoming own updated [])
      (hf : force = false) :
      Merged r existing incoming ctx force s (existing, .ignored) s
  | updated {own : Uuid} {updated : E} {cleared : Store} {changes : List PropertyChange} {t : State}
      (hv : r.MergedVersion existing incoming own updated changes) (hne : changes ≠ [] ∨ force = true)
      (hc : Cleared r updated (some own) s.store cleared)
      (hw : Written r (Entity.stamp ctx false updated) own changes ctx (s.withStore cleared) t) :
      Merged r existing incoming ctx force s (Entity.stamp ctx false updated, .updated) t

/-- What merging a row leaves when it stops after duplicates have made way. -/
inductive MergeFailed (r : Repository E) (existing incoming : E) (ctx : AuditContext) (s : State) : State → Prop
  | unwritten {own : Uuid} {updated : E} {cleared : Store} {changes : List PropertyChange} {t : State}
      (hv : r.MergedVersion existing incoming own updated changes)
      (hc : Cleared r updated (some own) s.store cleared)
      (hw : WriteFailed r (Entity.stamp ctx false updated) own changes ctx (s.withStore cleared) t) :
      MergeFailed r existing incoming ctx s t

theorem importOver_ok {result : E × ImportOutcome} (hw : s.store.WF)
    (h : r.importOver existing incoming ctx force s = .ok result t) :
    Merged r existing incoming ctx force s result t := by
  unfold importOver at h
  obtain ⟨own, ho, h⟩ := Action.bind_ofExcept_ok h
  obtain ⟨updated, hu, h⟩ := Action.bind_ofExcept_ok h
  obtain ⟨changes, hd, h⟩ := Action.bind_ofExcept_ok h
  have hv : r.MergedVersion existing incoming own updated changes := ⟨Stored.requireId_ok ho, hu, hd⟩
  by_cases he : (changes.isEmpty && !force) = true
  · rw [if_pos he] at h
    cases h
    rw [Bool.and_eq_true, List.isEmpty_iff, Bool.not_eq_true'] at he
    obtain ⟨rfl, hf⟩ := he
    exact .ignored hv hf
  · rw [if_neg he] at h
    obtain ⟨cleared, hc, h⟩ := bind_resolveDuplicate_ok h
    have hcw : (s.withStore cleared).store.WF := hc.wf hw
    obtain ⟨rfl, hwr⟩ := written_ok hcw h
    refine .updated hv ?_ hc hwr
    cases force
    · exact Or.inl fun hn => he (by rw [hn]; rfl)
    · exact Or.inr rfl

/-- A row that changes nothing is left alone. -/
theorem importOver_ignored {own : Uuid} {updated : E} (h : r.MergedVersion existing incoming own updated []) :
    r.importOver existing incoming ctx false s = .ok (existing, .ignored) s := by
  unfold importOver
  rw [Action.bind_ofExcept_run (Stored.requireId_of_id h.own_eq "import"), Action.bind_ofExcept_run h.version,
    Action.bind_ofExcept_run h.changes_eq]
  rfl

/-- What merging a row looks for duplicates of, and the identifier that is its own. -/
def mergeCandidate (r : Repository E) (existing incoming : E) : Except Fault (E × Uuid) := do
  let own ← Stored.requireId "import" existing
  let updated ← r.merged existing incoming
  let _ ← r.changes existing updated none
  return (updated, own)

theorem MergedVersion.mergeCandidate {own : Uuid} {updated : E} {changes : List PropertyChange}
    (h : r.MergedVersion existing incoming own updated changes) :
    r.mergeCandidate existing incoming = .ok (updated, own) := by
  unfold Repository.mergeCandidate
  rw [Stored.requireId_of_id h.own_eq, h.version]
  change (r.changes existing updated none >>= _) = _
  rw [h.changes_eq]
  rfl

theorem mergeCandidate_ok {candidate : E × Uuid} (h : r.mergeCandidate existing incoming = .ok candidate) :
    ∃ changes, r.MergedVersion existing incoming candidate.2 candidate.1 changes := by
  obtain ⟨own, ho, h⟩ := except_bind_ok h
  obtain ⟨updated, hu, h⟩ := except_bind_ok h
  obtain ⟨changes, hd, h⟩ := except_bind_ok h
  cases h
  exact ⟨changes, Stored.requireId_ok ho, hu, hd⟩

theorem importOver_error (hw : s.store.WF) (h : r.importOver existing incoming ctx force s = .error fault t) :
    t = s ∧ (∀ updated own, r.mergeCandidate existing incoming = .ok (updated, own) →
      r.Barred updated (some own) s.store) ∨ MergeFailed r existing incoming ctx s t := by
  unfold importOver at h
  rcases Action.bind_ofExcept_error h with ⟨hn, rfl⟩ | ⟨own, ho, h⟩
  · refine Or.inl ⟨rfl, fun updated own hc => ?_⟩
    obtain ⟨_, hv⟩ := mergeCandidate_ok hc
    rw [Stored.requireId_of_id hv.own_eq] at hn; cases hn
  rcases Action.bind_ofExcept_error h with ⟨hn, rfl⟩ | ⟨updated, hu, h⟩
  · refine Or.inl ⟨rfl, fun updated own hc => ?_⟩
    obtain ⟨_, hv⟩ := mergeCandidate_ok hc
    rw [hv.version] at hn; cases hn
  rcases Action.bind_ofExcept_error h with ⟨hn, rfl⟩ | ⟨changes, hd, h⟩
  · refine Or.inl ⟨rfl, fun updated' own' hc => ?_⟩
    obtain ⟨_, hv⟩ := mergeCandidate_ok hc
    have hsame := Except.ok.inj (hu.symm.trans hv.version)
    subst hsame
    rw [hv.changes_eq] at hn; cases hn
  have hv : r.MergedVersion existing incoming own updated changes := ⟨Stored.requireId_ok ho, hu, hd⟩
  by_cases he : (changes.isEmpty && !force) = true
  · rw [if_pos he] at h; cases h
  rw [if_neg he] at h
  rcases bind_resolveDuplicate_error h with ⟨rfl, hb⟩ | ⟨cleared, hc, h⟩
  · refine Or.inl ⟨rfl, fun updated' own' hc => ?_⟩
    rw [hv.mergeCandidate] at hc
    cases hc
    exact hb
  have hcw : (s.withStore cleared).store.WF := hc.wf hw
  exact Or.inr (.unwritten hv hc (written_error hcw h))

/-! ## Rows -/

/-- What importing a row yields and leaves. -/
inductive Imported (r : Repository E) (e : E) (ctx : AuditContext) (force : Bool) (s : State) :
    E × ImportOutcome → State → Prop
  | created {c : E} {t : State} (hp : Planned r e s.store (.create e)) (h : Created r e ctx s c t) :
      Imported r e ctx force s (c, .created) t
  | replaced {stale : Uuid} {c : E} {t : State} (hp : Planned r e s.store (.replace stale e))
      (h : Created r e ctx (s.withStore (s.store.dropRow (Stored.collection E) stale)) c t) :
      Imported r e ctx force s (c, .created) t
  | merged {existing : E} {result : E × ImportOutcome} {t : State}
      (hp : Planned r e s.store (.overwrite existing e))
      (h : Merged r existing e ctx force s result t) : Imported r e ctx force s result t

/-- What importing a row leaves when it stops after something has made way. -/
inductive ImportFailed (r : Repository E) (e : E) (ctx : AuditContext) (s : State) : State → Prop
  | creating {t : State} (hp : Planned r e s.store (.create e)) (h : CreateFailed r e ctx s t) :
      ImportFailed r e ctx s t
  | replacing {stale : Uuid} {t : State} (hp : Planned r e s.store (.replace stale e))
      (h : t = s.withStore (s.store.dropRow (Stored.collection E) stale) ∨
        CreateFailed r e ctx (s.withStore (s.store.dropRow (Stored.collection E) stale)) t) :
      ImportFailed r e ctx s t
  | merging {existing : E} {t : State} (hp : Planned r e s.store (.overwrite existing e))
      (h : MergeFailed r existing e ctx s t) : ImportFailed r e ctx s t

variable [LawfulEntity E]

theorem importRow_ok {result : E × ImportOutcome} (hw : s.store.WF)
    (h : r.importRow ctx force e s = .ok result t) :
    Imported r e ctx force s result t := by
  unfold importRow at h
  obtain ⟨plan, s₁, hs, he⟩ := Action.bind_ok h
  obtain ⟨rfl, hp⟩ := planImport_ok hs
  cases hp with
  | create hg =>
    obtain ⟨c, u, hc, he⟩ := Action.bind_ok he
    cases he
    exact .created (.create hg) (createNew_ok hc)
  | replaceStored hi hg ha =>
    obtain ⟨_, s₂, hd, he⟩ := Action.bind_ok he
    obtain ⟨-, rfl⟩ := DocumentSet.delete_ok hd
    obtain ⟨c, u, hc, he⟩ := Action.bind_ok he
    cases he
    exact .replaced (.replaceStored hi hg ha) (createNew_ok hc)
  | overwriteStored hi hg ha => exact .merged (.overwriteStored hi hg ha) (importOver_ok hw he)
  | overwriteMatch hg hf hm ha => exact .merged (.overwriteMatch hg hf hm ha) (importOver_ok hw he)

theorem importRow_error (hw : s.store.WF) (h : r.importRow ctx force e s = .error fault t) :
    t = s ∨ ImportFailed r e ctx s t := by
  unfold importRow at h
  rcases Action.bind_error h with h | ⟨plan, s₁, hs, he⟩
  · exact Or.inl (planImport_error h)
  obtain ⟨rfl, hp⟩ := planImport_ok hs
  cases hp with
  | create hg =>
    rcases Action.bind_error he with he | ⟨c, u, hc, he⟩
    · exact (createNew_error he).imp And.left (.creating (.create hg))
    · cases he
  | replaceStored hi hg ha =>
    rcases Action.bind_error he with he | ⟨_, s₂, hd, he⟩
    · exact Or.inl (DocumentSet.delete_error he).1
    obtain ⟨-, rfl⟩ := DocumentSet.delete_ok hd
    rcases Action.bind_error he with he | ⟨c, u, hc, he⟩
    · exact Or.inr (.replacing (.replaceStored hi hg ha) ((createNew_error he).imp And.left fun h => h))
    · cases he
  | overwriteStored hi hg ha =>
    exact (importOver_error hw he).imp And.left (.merging (.overwriteStored hi hg ha))
  | overwriteMatch hg hf hm ha =>
    exact (importOver_error hw he).imp And.left (.merging (.overwriteMatch hg hf hm ha))

end Dossier.Repository
