/-
Saving, taken apart: what state a save leaves when it succeeds, and at which of its steps it can
stop when it fails.
-/
import Dossier.Proofs.Entity.Lawful
import Dossier.Proofs.Repository.Duplicate
import Dossier.Proofs.Repository.Recording
import Dossier.Repository.Save

namespace Dossier.Repository

variable {E : Type} [Entity E] {r : Repository E} {e c existing incoming : E} {ctx : AuditContext} {s t : State}
  {fault : Fault}

/-! ## Slugs and identifiers -/

/-- What giving a slug yields and leaves. -/
inductive Slugged (r : Repository E) (e : E) (s : State) : E → State → Prop
  | kept (h : r.config.slugPrefix = none ∨ Entity.needsSlug e = false) : Slugged r e s e s
  | given {stem : String} {number : Int64} {store : Store} (hp : r.config.slugPrefix = some stem)
      (hn : Entity.needsSlug e = true) (hs : Store.nextInSequence r.slugCounter 1 s.store = .ok number store) :
      Slugged r e s (Entity.withSlug e (slugText stem number.toInt) number) (s.withStore store)

theorem assignSlug_ok {flag : Bool} (h : r.assignSlug e s = .ok (c, flag) t) : Slugged r e s c t := by
  unfold assignSlug at h
  cases hp : r.config.slugPrefix with
  | none =>
    rw [hp] at h
    cases h
    exact .kept (Or.inl hp)
  | some stem =>
    rw [hp] at h
    by_cases hn : Entity.needsSlug e = true
    · simp only [hn, if_true] at h
      obtain ⟨number, u, hs, h⟩ := Action.bind_ok h
      obtain ⟨hs, hu⟩ := Action.change_ok hs
      cases h
      rw [State.withStore_of_ids hu]
      exact .given hp hn hs
    · simp only [hn] at h
      cases h
      exact .kept (Or.inr (by simpa using hn))

theorem assignSlug_error (h : r.assignSlug e s = .error fault t) :
    t = s ∧ Entity.needsSlug e = true ∧ fault = .validation (.counterOverflow r.slugCounter 1) := by
  unfold assignSlug at h
  cases hp : r.config.slugPrefix with
  | none => rw [hp] at h; cases h
  | some stem =>
    rw [hp] at h
    by_cases hn : Entity.needsSlug e = true
    · simp only [hn, if_true] at h
      rcases Action.bind_error h with h | ⟨number, u, hs, h⟩
      · obtain ⟨hs, ht⟩ := Action.change_error h
        obtain ⟨hst, hf⟩ := Store.nextInSequence_error hs
        exact ⟨by rw [State.withStore_of_ids ht, hst]; rfl, hn, hf.resolve_left (by decide)⟩
      · cases h
    · simp only [hn] at h; cases h

/-- What giving an identifier yields and leaves. -/
inductive Identified (e : E) (s : State) : E → Uuid → State → Prop
  | kept {id : Uuid} (h : Stored.id? e = some id) : Identified e s e id s
  | given (h : Stored.id? e = none) :
      Identified e s (Stored.withId e (s.ids.stream s.ids.drawn)) (s.ids.stream s.ids.drawn) (s.drawing 1)

theorem withIdentifier_ok {id : Uuid} (h : withIdentifier e s = .ok (c, id) t) : Identified e s c id t := by
  unfold withIdentifier at h
  cases hi : Stored.id? e with
  | some id' => rw [hi] at h; cases h; exact .kept hi
  | none => rw [hi] at h; cases h; exact .given hi

theorem withIdentifier_error (h : withIdentifier e s = .error fault t) : False := by
  unfold withIdentifier at h
  cases hi : Stored.id? e with
  | some id' => rw [hi] at h; cases h
  | none => rw [hi] at h; cases h

theorem Identified.id_eq [LawfulEntity E] {id : Uuid} (h : Identified e s c id t) : Stored.id? c = some id := by
  cases h with
  | kept h => exact h
  | given h => exact LawfulEntity.id_withId ..

/-- An entity that slugs, identifiers and stamps have been given to. -/
inductive Dressed (e : E) : E → Prop
  | bare : Dressed e e
  | slug {c : E} (slug : String) (number : Int64) (h : Dressed e c) : Dressed e (Entity.withSlug c slug number)
  | identifier {c : E} (id : Uuid) (h : Dressed e c) : Dressed e (Stored.withId c id)
  | stamp {c : E} (ctx : AuditContext) (created : Bool) (h : Dressed e c) : Dressed e (Entity.stamp ctx created c)

theorem Slugged.dressed (h : Slugged r e s c t) : Dressed e c := by
  cases h with
  | kept h => exact .bare
  | given hp hn hs => exact .slug _ _ .bare

theorem Dressed.identified {d : E} {id : Uuid} (h : Dressed e c) (hi : Identified c s d id t) : Dressed e d := by
  cases hi with
  | kept hi => exact h
  | given hi => exact .identifier _ h

/-! ## Creating -/

/-- The records of a creation: of an active entity one, which says who has created it, when and where from. -/
def creationRecords (c : E) (id : Uuid) (ctx : AuditContext) : List ChangeRecord :=
  recordsOf c [{
    id := none
    entityCollection := Stored.collection E
    entityId := id
    entitySlug := Entity.slug? c
    action := .create
    source := ctx.source
    property := none
    oldValue := none
    newValue := none
    changedBy := ctx.user
    changedAt := ctx.timestamp }]

/-- What creating an entity yields and leaves. -/
inductive Created (r : Repository E) (e : E) (ctx : AuditContext) (s : State) : E → State → Prop
  | intro {cleared : Store} {slugged identified : E} {id : Uuid} {u v t : State}
      (hc : Cleared r e (Stored.id? e) s.store cleared) (hs : Slugged r e (s.withStore cleared) slugged u)
      (hi : Identified slugged u identified id v)
      (hn : (v.store.collection (Stored.collection E)).contains id = false)
      (hr : r.Recorded (creationRecords (Entity.stamp ctx true identified) id ctx)
        (v.withStore (v.store.addRows (Stored.collection E)
          [(id, Stored.toValue (Entity.stamp ctx true identified))])) t) :
      Created r e ctx s (Entity.stamp ctx true identified) t

theorem Created.dressed (h : Created r e ctx s c t) : Dressed e c := by
  cases h with
  | intro hc hs hi hn hr => exact .stamp _ _ (hs.dressed.identified hi)

/-- What creating an entity leaves when it stops after duplicates have made way. -/
inductive CreateFailed (r : Repository E) (e : E) (ctx : AuditContext) (s : State) : State → Prop
  | exhausted {cleared : Store} (hc : Cleared r e (Stored.id? e) s.store cleared)
      (hn : Entity.needsSlug e = true) :
      CreateFailed r e ctx s (s.withStore cleared)
  | taken {cleared : Store} {slugged identified : E} {id : Uuid} {u v : State}
      (hc : Cleared r e (Stored.id? e) s.store cleared) (hs : Slugged r e (s.withStore cleared) slugged u)
      (hi : Identified slugged u identified id v)
      (hin : (v.store.collection (Stored.collection E)).contains id = true) : CreateFailed r e ctx s v
  | refused {cleared : Store} {slugged identified : E} {id : Uuid} {u v t : State}
      (hc : Cleared r e (Stored.id? e) s.store cleared) (hs : Slugged r e (s.withStore cleared) slugged u)
      (hi : Identified slugged u identified id v)
      (hn : (v.store.collection (Stored.collection E)).contains id = false)
      (hr : r.Refused (creationRecords (Entity.stamp ctx true identified) id ctx)
        (v.withStore (v.store.addRows (Stored.collection E)
          [(id, Stored.toValue (Entity.stamp ctx true identified))])) t) :
      CreateFailed r e ctx s t

theorem createNew_ok [LawfulEntity E] (h : r.createNew e ctx s = .ok c t) : Created r e ctx s c t := by
  unfold createNew at h
  obtain ⟨cleared, hc, h⟩ := bind_resolveDuplicate_ok h
  obtain ⟨⟨slugged, flag⟩, u, hs, h⟩ := Action.bind_ok h
  obtain ⟨⟨identified, id⟩, v, hi, h⟩ := Action.bind_ok h
  have hi := withIdentifier_ok hi
  obtain ⟨_, w, hins, h⟩ := Action.bind_ok h
  obtain ⟨id', hid, hn, rfl⟩ := DocumentSet.insert_ok hins
  rw [LawfulEntity.id_stamp, hi.id_eq] at hid
  cases hid
  rw [recordIfActive_eq] at h
  obtain ⟨_, w, hr, h⟩ := Action.bind_ok h
  cases h
  exact .intro hc (assignSlug_ok hs) hi hn (record_ok hr)

theorem createNew_error [LawfulEntity E] (h : r.createNew e ctx s = .error fault t) :
    t = s ∧ r.Barred e (Stored.id? e) s.store ∨ CreateFailed r e ctx s t := by
  unfold createNew at h
  rcases bind_resolveDuplicate_error h with h | ⟨cleared, hc, h⟩
  · exact Or.inl h
  right
  rcases Action.bind_error h with h | ⟨⟨slugged, flag⟩, u, hs, h⟩
  · obtain ⟨rfl, hn, -⟩ := assignSlug_error h
    exact .exhausted hc hn
  have hs := assignSlug_ok hs
  rcases Action.bind_error h with h | ⟨⟨identified, id⟩, v, hi, h⟩
  · exact (withIdentifier_error h).elim
  have hi := withIdentifier_ok hi
  have hid : Stored.id? (Entity.stamp ctx true identified) = some id := by rw [LawfulEntity.id_stamp, hi.id_eq]
  rcases Action.bind_error h with h | ⟨_, w, hins, h⟩
  · obtain ⟨rfl, hin⟩ := DocumentSet.insert_error h
    exact .taken hc hs hi (hin id hid)
  obtain ⟨id', hid', hn, rfl⟩ := DocumentSet.insert_ok hins
  rw [hid] at hid'
  cases hid'
  rw [recordIfActive_eq] at h
  rcases Action.bind_error h with h | ⟨_, w, hr, h⟩
  · exact .refused hc hs hi hn (record_error h)
  · cases h

/-! ## Writing a new version -/

/-- The records of the changes between two versions. -/
def changeRecords (r : Repository E) (c : E) (id : Uuid) (changes : List PropertyChange) (ctx : AuditContext) :
    List ChangeRecord :=
  recordsOf c (r.updateRecords id (Entity.slug? c) changes ctx)

theorem changeRecords_nil (r : Repository E) (c : E) (id : Uuid) (ctx : AuditContext) :
    r.changeRecords c id [] ctx = [] := by
  unfold changeRecords recordsOf; split <;> rfl

/-- A version has been put into the row of its identifier and its changes have been recorded. -/
inductive Written (r : Repository E) (c : E) (own : Uuid) (changes : List PropertyChange) (ctx : AuditContext)
    (s : State) : State → Prop
  | intro {id : Uuid} {t : State} (hi : Stored.id? c = some id)
      (hin : (s.store.collection (Stored.collection E)).contains id = true)
      (hr : r.Recorded (r.changeRecords c own changes ctx)
        (s.withStore (s.store.putRow (Stored.collection E) id (Stored.toValue c))) t) :
          Written r c own changes ctx s t

/-- A version could not be put into the row of its identifier, or its changes could not be recorded. -/
inductive WriteFailed (r : Repository E) (c : E) (own : Uuid) (changes : List PropertyChange) (ctx : AuditContext)
    (s : State) : State → Prop
  | missing (h : ∀ id, Stored.id? c = some id → (s.store.collection (Stored.collection E)).contains id = false) :
      WriteFailed r c own changes ctx s s
  | refused {id : Uuid} {t : State} (hi : Stored.id? c = some id)
      (hin : (s.store.collection (Stored.collection E)).contains id = true)
      (hr : r.Refused (r.changeRecords c own changes ctx)
        (s.withStore (s.store.putRow (Stored.collection E) id (Stored.toValue c))) t) :
          WriteFailed r c own changes ctx s t

theorem written_ok {α : Type} {own : Uuid} {changes : List PropertyChange} {a b : α} (hw : s.store.WF)
    (h : (r.entities.update [c] >>= fun _ => r.recordIfActive c (r.updateRecords own (Entity.slug? c) changes ctx)
      >>= fun _ => pure a) s = .ok b t) : b = a ∧ Written r c own changes ctx s t := by
  obtain ⟨_, s₁, hu, h⟩ := Action.bind_ok h
  obtain ⟨id, hi, hin, rfl⟩ := DocumentSet.update_ok hw hu
  obtain ⟨_, s₂, hr, h⟩ := Action.bind_ok h
  rw [recordIfActive_eq] at hr
  obtain ⟨rfl, rfl⟩ := Action.pure_ok h
  exact ⟨rfl, .intro hi hin (record_ok hr)⟩

theorem written_error {α : Type} {own : Uuid} {changes : List PropertyChange} {a : α} (hw : s.store.WF)
    (h : (r.entities.update [c] >>= fun _ => r.recordIfActive c (r.updateRecords own (Entity.slug? c) changes ctx)
      >>= fun _ => pure a) s = .error fault t) : WriteFailed r c own changes ctx s t := by
  rcases Action.bind_error h with h | ⟨_, s₁, hu, h⟩
  · obtain ⟨rfl, hm⟩ := DocumentSet.update_error h
    exact .missing fun id hi => (hm id hi).1
  obtain ⟨id, hi, hin, rfl⟩ := DocumentSet.update_ok hw hu
  rw [recordIfActive_eq] at h
  rcases Action.bind_error h with h | ⟨_, s₂, hr, h⟩
  · exact .refused hi hin (record_error h)
  · cases h

/-! ## Overwriting -/

/-- The version that an overwrite is about to write, under the identifier of the stored one. -/
structure NewVersion (r : Repository E) (existing incoming : E) (own : Uuid) (updated : E) : Prop where
  valid : Entity.validate incoming = .ok ()
  own_eq : Stored.id? existing = some own
  version : r.overwritten existing incoming = .ok updated

/-- What an overwrite yields and leaves. -/
inductive Overwritten (r : Repository E) (existing incoming : E) (ctx : AuditContext) (s : State) : E → State → Prop
  | same {own : Uuid} {updated : E} {cleared : Store} (hv : r.NewVersion existing incoming own updated)
      (hc : Cleared r updated (some own) s.store cleared) (hd : r.changes existing updated none = .ok []) :
      Overwritten r existing incoming ctx s existing (s.withStore cleared)
  | changed {own : Uuid} {updated : E} {cleared : Store} {changes : List PropertyChange} {t : State}
      (hv : r.NewVersion existing incoming own updated) (hc : Cleared r updated (some own) s.store cleared)
      (hd : r.changes existing updated none = .ok changes) (hne : changes ≠ [])
      (hw : Written r (Entity.stamp ctx false updated) own changes ctx (s.withStore cleared) t) :
      Overwritten r existing incoming ctx s (Entity.stamp ctx false updated) t

/-- What an overwrite leaves when it stops after duplicates have made way. -/
inductive OverwriteFailed (r : Repository E) (existing incoming : E) (ctx : AuditContext) (s : State) : State → Prop
  | unrendered {own : Uuid} {updated : E} {cleared : Store} {fault : Fault}
      (hv : r.NewVersion existing incoming own updated) (hc : Cleared r updated (some own) s.store cleared)
      (hd : r.changes existing updated none = .error fault) :
        OverwriteFailed r existing incoming ctx s (s.withStore cleared)
  | unwritten {own : Uuid} {updated : E} {cleared : Store} {changes : List PropertyChange} {t : State}
      (hv : r.NewVersion existing incoming own updated) (hc : Cleared r updated (some own) s.store cleared)
      (hd : r.changes existing updated none = .ok changes)
      (hw : WriteFailed r (Entity.stamp ctx false updated) own changes ctx (s.withStore cleared) t) :
      OverwriteFailed r existing incoming ctx s t

theorem overwrite_ok (hw : s.store.WF) (h : r.overwrite existing incoming ctx s = .ok c t) :
    Overwritten r existing incoming ctx s c t := by
  unfold overwrite at h
  obtain ⟨_, hval, h⟩ := Action.bind_ofExcept_ok h
  obtain ⟨own, ho, h⟩ := Action.bind_ofExcept_ok h
  obtain ⟨updated, hu, h⟩ := Action.bind_ofExcept_ok h
  have hv : r.NewVersion existing incoming own updated := ⟨hval, Stored.requireId_ok ho, hu⟩
  obtain ⟨cleared, hc, h⟩ := bind_resolveDuplicate_ok h
  obtain ⟨changes, hd, h⟩ := Action.bind_ofExcept_ok h
  by_cases he : changes.isEmpty = true
  · rw [if_pos he] at h
    cases h
    rw [List.isEmpty_iff.1 he] at hd
    exact .same hv hc hd
  · rw [if_neg he] at h
    have hcw : (s.withStore cleared).store.WF := hc.wf hw
    obtain ⟨rfl, hwr⟩ := written_ok hcw h
    exact .changed hv hc hd (fun hn => he (List.isEmpty_iff.2 hn)) hwr

theorem overwrite_error (hw : s.store.WF) (h : r.overwrite existing incoming ctx s = .error fault t) :
    t = s ∧ (∀ own updated, r.NewVersion existing incoming own updated → r.Barred updated (some own) s.store) ∨
      OverwriteFailed r existing incoming ctx s t := by
  unfold overwrite at h
  rcases Action.bind_ofExcept_error h with ⟨hn, rfl⟩ | ⟨_, hval, h⟩
  · exact Or.inl ⟨rfl, fun own updated hv => by rw [hv.valid] at hn; cases hn⟩
  rcases Action.bind_ofExcept_error h with ⟨hn, rfl⟩ | ⟨own, ho, h⟩
  · exact Or.inl ⟨rfl, fun own updated hv => by rw [Stored.requireId_of_id hv.own_eq] at hn; cases hn⟩
  rcases Action.bind_ofExcept_error h with ⟨hn, rfl⟩ | ⟨updated, hu, h⟩
  · exact Or.inl ⟨rfl, fun own updated hv => by rw [hv.version] at hn; cases hn⟩
  have hv : r.NewVersion existing incoming own updated := ⟨hval, Stored.requireId_ok ho, hu⟩
  rcases bind_resolveDuplicate_error h with ⟨rfl, hb⟩ | ⟨cleared, hc, h⟩
  · -- there is one new version only
    refine Or.inl ⟨rfl, fun own' updated' hv' => ?_⟩
    rw [← Option.some.inj (hv.own_eq.symm.trans hv'.own_eq), ← Except.ok.inj (hv.version.symm.trans hv'.version)]
    exact hb
  right
  rcases Action.bind_ofExcept_error h with ⟨hd, rfl⟩ | ⟨changes, hd, h⟩
  · exact .unrendered hv hc hd
  by_cases he : changes.isEmpty = true
  · rw [if_pos he] at h; cases h
  · rw [if_neg he] at h
    exact .unwritten hv hc hd (written_error (hc.wf hw) h)

/-! ## Saving -/

/-- What a save looks for duplicates of, and the identifier that is its own, given what it has found. -/
def candidateOver (r : Repository E) (e : E) : Option E → Except Fault (E × Option Uuid)
  | some existing => do
    Entity.validate e
    let own ← Stored.requireId "overwrite" existing
    let updated ← r.overwritten existing e
    return (updated, some own)
  | none => do
    Entity.validate e
    return (e, Stored.id? e)

def candidate (r : Repository E) (e : E) (store : Store) : Except Fault (E × Option Uuid) :=
  match Stored.id? e with
  | some id => r.entities.get? id store >>= r.candidateOver e
  | none => r.candidateOver e none

theorem candidateOver_none (hv : Entity.validate e = .ok ()) : r.candidateOver e none = .ok (e, Stored.id? e) := by
  unfold candidateOver; rw [hv]; rfl

theorem NewVersion.candidateOver {own : Uuid} {updated : E} (h : r.NewVersion existing e own updated) :
    r.candidateOver e (some existing) = .ok (updated, some own) := by
  unfold Repository.candidateOver
  dsimp only
  rw [h.valid, Stored.requireId_of_id h.own_eq, h.version]
  rfl

theorem candidateOver_some {candidate : E × Option Uuid} (h : r.candidateOver e (some existing) = .ok candidate) :
    ∃ own, candidate.2 = some own ∧ r.NewVersion existing e own candidate.1 := by
  obtain ⟨_, hv, h⟩ := except_bind_ok h
  obtain ⟨own, ho, h⟩ := except_bind_ok h
  obtain ⟨updated, hu, h⟩ := except_bind_ok h
  cases h
  exact ⟨own, rfl, hv, Stored.requireId_ok ho, hu⟩

theorem candidate_eq {found : Option E} {store : Store}
    (hf : Stored.id? e = none ∧ found = none ∨ ∃ id, Stored.id? e = some id ∧
      r.entities.get? id store = .ok found) :
    r.candidate e store = r.candidateOver e found := by
  unfold candidate
  rcases hf with ⟨hi, rfl⟩ | ⟨id, hi, hg⟩
  · rw [hi]
  · rw [hi]; dsimp only; rw [hg]; rfl

theorem storedVersion?_ok {found : Option E} (h : r.storedVersion? e s = .ok found t) : t = s ∧
    (Stored.id? e = none ∧ found = none ∨ ∃ id, Stored.id? e = some id ∧
      r.entities.get? id s.store = .ok found) := by
  unfold storedVersion? at h
  cases hi : Stored.id? e with
  | none => rw [hi] at h; cases h; exact ⟨rfl, Or.inl ⟨rfl, rfl⟩⟩
  | some id =>
    rw [hi] at h
    obtain ⟨hg, rfl⟩ := Action.read_ok h
    exact ⟨rfl, Or.inr ⟨id, rfl, hg⟩⟩

theorem storedVersion?_error (h : r.storedVersion? e s = .error fault t) :
    t = s ∧ ∃ fault, r.candidate e s.store = .error fault := by
  unfold storedVersion? at h
  unfold candidate
  cases hi : Stored.id? e with
  | none => rw [hi] at h; cases h
  | some id =>
    rw [hi] at h
    obtain ⟨hg, rfl⟩ := Action.read_error h
    exact ⟨rfl, fault, by dsimp only; rw [hg]; rfl⟩

/-- What a save yields and leaves. -/
inductive Saved (r : Repository E) (e : E) (ctx : AuditContext) (s : State) : E → State → Prop
  | created {c : E} {t : State} (hv : Entity.validate e = .ok ())
      (hg : ∀ id, Stored.id? e = some id → r.entities.get? id s.store = .ok none) (h : Created r e ctx s c t) :
      Saved r e ctx s c t
  | overwritten {id : Uuid} {existing c : E} {t : State} (hi : Stored.id? e = some id)
      (hg : r.entities.get? id s.store = .ok (some existing)) (h : Overwritten r existing e ctx s c t) :
      Saved r e ctx s c t

/-- What a save leaves when it stops after duplicates have made way. -/
inductive SaveFailed (r : Repository E) (e : E) (ctx : AuditContext) (s : State) : State → Prop
  | creating {t : State} (hv : Entity.validate e = .ok ())
      (hg : ∀ id, Stored.id? e = some id → r.entities.get? id s.store = .ok none) (h : CreateFailed r e ctx s t) :
      SaveFailed r e ctx s t
  | overwriting {id : Uuid} {existing : E} {t : State} (hi : Stored.id? e = some id)
      (hg : r.entities.get? id s.store = .ok (some existing)) (h : OverwriteFailed r existing e ctx s t) :
      SaveFailed r e ctx s t

theorem createOrOverwrite_ok [LawfulEntity E] (hw : s.store.WF) (h : r.createOrOverwrite e ctx s = .ok c t) :
    Saved r e ctx s c t := by
  unfold createOrOverwrite at h
  obtain ⟨found, s₁, hs, h⟩ := Action.bind_ok h
  obtain ⟨rfl, hf⟩ := storedVersion?_ok hs
  cases found with
  | none =>
    obtain ⟨_, hv, h⟩ := Action.bind_ofExcept_ok h
    refine .created hv (fun id hi => ?_) (createNew_ok h)
    rcases hf with ⟨hn, -⟩ | ⟨id', hi', hg⟩
    · rw [hn] at hi; cases hi
    · rw [hi'] at hi; cases hi; exact hg
  | some existing =>
    rcases hf with ⟨-, hn⟩ | ⟨id, hi, hg⟩
    · cases hn
    · exact .overwritten hi hg (overwrite_ok hw h)

theorem createOrOverwrite_error [LawfulEntity E] (hw : s.store.WF)
    (h : r.createOrOverwrite e ctx s = .error fault t) :
    t = s ∧ (∀ c own, r.candidate e s.store = .ok (c, own) → r.Barred c own s.store) ∨ SaveFailed r e ctx s t := by
  unfold createOrOverwrite at h
  rcases Action.bind_error h with h | ⟨found, s₁, hs, h⟩
  · obtain ⟨rfl, f, hf⟩ := storedVersion?_error h
    exact Or.inl ⟨rfl, fun c own hc => by rw [hf] at hc; cases hc⟩
  obtain ⟨rfl, hf⟩ := storedVersion?_ok hs
  rw [candidate_eq hf]
  cases found with
  | none =>
    rcases Action.bind_ofExcept_error h with ⟨hn, rfl⟩ | ⟨_, hv, h⟩
    · exact Or.inl ⟨rfl, fun c own hc => by unfold candidateOver at hc; rw [hn] at hc; cases hc⟩
    rw [candidateOver_none hv]
    rcases createNew_error h with ⟨ht, hb⟩ | h
    · exact Or.inl ⟨ht, fun c own hc => by cases hc; exact hb⟩
    refine Or.inr (.creating hv (fun id hi => ?_) h)
    rcases hf with ⟨hn, -⟩ | ⟨id', hi', hg⟩
    · rw [hn] at hi; cases hi
    · rw [hi'] at hi; cases hi; exact hg
  | some existing =>
    rcases hf with ⟨-, hn⟩ | ⟨id, hi, hg⟩
    · cases hn
    rcases overwrite_error hw h with ⟨ht, hb⟩ | h
    · refine Or.inl ⟨ht, fun c own hc => ?_⟩
      obtain ⟨own, rfl, hv⟩ := candidateOver_some hc
      exact hb own c hv
    · exact Or.inr (.overwriting hi hg h)

end Dossier.Repository
