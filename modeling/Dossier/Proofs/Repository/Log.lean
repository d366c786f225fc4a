/-
The log of changes as a sequence: records are appended to it in order, and nothing that operations
do to the collection of entities touches it.
-/
import Dossier.Proofs.Repository.Sound

namespace Dossier.Repository

variable {E : Type} {r : Repository E} {records more : List ChangeRecord} {s t u : Store}

/-- Records, with identifiers, have been added at the end of the log, and what was there has not been touched. -/
def Appends (r : Repository E) (records : List ChangeRecord) (s t : Store) : Prop :=
  ∃ added ids, t.rows r.config.auditCollection = s.rows r.config.auditCollection ++ added ∧
    added.map (fun row => (row.id, row.doc)) = logEntries records ids ∧ ids.length = records.length

theorem Appends.nothing (h : t.rows r.config.auditCollection = s.rows r.config.auditCollection) :
    r.Appends [] s t :=
  ⟨[], [], by rw [h, List.append_nil], rfl, rfl⟩

theorem logEntries_append {ids moreIds : List Uuid} (h : ids.length = records.length) :
    logEntries (records ++ more) (ids ++ moreIds) = logEntries records ids ++ logEntries more moreIds :=
  List.zipWith_append h.symm

theorem Appends.trans (h : r.Appends records s u) (h' : r.Appends more u t) : r.Appends (records ++ more) s t := by
  obtain ⟨added, ids, hr, hd, hl⟩ := h
  obtain ⟨added', ids', hr', hd', hl'⟩ := h'
  refine ⟨added ++ added', ids ++ ids', by rw [hr', hr, List.append_assoc], ?_, ?_⟩
  · rw [List.map_append, hd, hd', logEntries_append hl]
  · rw [List.length_append, List.length_append, hl, hl']

theorem numbered_of_logEntries (records : List ChangeRecord) (ids : List Uuid) :
    (logEntries records ids).map (fun written => ChangeRecord.ofValue? written.2) =
      (numbered records ids).map some := by
  unfold logEntries numbered
  rw [List.map_zipWith, List.map_zipWith]
  simp only [ChangeRecord.ofValue?_toValue]

/-- Records that have had no identifier are told from what they are numbered. -/
theorem unnumbered : ∀ {records : List ChangeRecord} {ids : List Uuid}, records.length = ids.length →
    (∀ record ∈ records, record.id = none) →
    (numbered records ids).map (fun record => { record with id := none }) = records
  | [], [], _, _ => rfl
  | record :: records, id :: ids, hl, hn => by
    rw [List.forall_mem_cons] at hn
    have hrest := unnumbered (Nat.succ.inj hl) hn.2
    unfold numbered at hrest ⊢
    rw [List.zipWith_cons_cons, List.map_cons, hrest, ← hn.1]

/-- The log tells which records have been appended to it. -/
theorem Appends.unique (h : r.Appends records s t) (h' : r.Appends more s t)
    (hn : ∀ record ∈ records, record.id = none) (hn' : ∀ record ∈ more, record.id = none) : records = more := by
  obtain ⟨added, ids, hr, hd, hl⟩ := h
  obtain ⟨added', ids', hr', hd', hl'⟩ := h'
  cases List.append_cancel_left (hr.symm.trans hr')
  have hsame : numbered records ids = numbered more ids' := by
    refine (List.map_inj_right fun _ _ => Option.some.inj).1 ?_
    rw [← numbered_of_logEntries, ← numbered_of_logEntries, ← hd, ← hd']
  rw [← unnumbered hl.symm hn, ← unnumbered hl'.symm hn', hsame]

/-- What comes before the records are appended may change other collections. -/
theorem Appends.of_rows_eq (h : r.Appends records u t)
    (hu : u.rows r.config.auditCollection = s.rows r.config.auditCollection) : r.Appends records s t := by
  simpa using (Appends.nothing hu).trans h

theorem Recorded.appends {s t : State} (h : r.Recorded records s t) : r.Appends records s.store t.store := by
  rw [h.left]
  unfold recorded
  split
  · rename_i he
    rw [List.isEmpty_iff.1 he]
    exact .nothing rfl
  · obtain ⟨added, hr, hd⟩ := s.store.rows_addRows r.config.auditCollection
      (logEntries records (s.ids.upcoming records.length))
    exact ⟨added, _, hr, hd, s.ids.length_upcoming _⟩

/-- Recording touches no other collection. -/
theorem collection_recorded {s : State} {name : String} (h : name ≠ r.config.auditCollection) :
    (r.recorded records s).store.collection name = s.store.collection name := by
  unfold recorded
  split
  · rfl
  · exact (Store.collection_addRows ..).trans (if_neg h)

theorem Recorded.rows_other {s t : State} {name : String} (h : r.Recorded records s t)
    (hn : name ≠ r.config.auditCollection) : t.store.rows name = s.store.rows name := by
  unfold Store.rows
  rw [h.left, collection_recorded hn]

/-! ## Operations -/

variable [Entity E] {e c : E} {own : Option Uuid} {ctx : AuditContext} {id : Uuid}

theorem Cleared.rows_other {name : String} (h : Cleared r e own s t) (hn : name ≠ Stored.collection E) :
    t.rows name = s.rows name := by
  rcases h.eq_or_drop with rfl | ⟨id, rfl⟩
  · rfl
  · exact Store.rows_dropRow_other hn id

variable {s t : State}

/-- A creation puts the entity under an identifier that was not in use. -/
theorem Created.not_stored [LawfulEntity E] {named : List Uuid} (hm : (Stored.id? e).toList ⊆ named)
    (hf : Fresh named s t)
    (hn : ∀ id, Stored.id? e = some id → (s.store.collection (Stored.collection E)).contains id = false)
    (h : Created r e ctx s c t) : ∃ id, Stored.id? c = some id ∧
      (s.store.collection (Stored.collection E)).contains id = false := by
  cases h with
  | @intro cleared slugged identified id u v _ hc hs hi hnew hr =>
    refine ⟨id, by rw [LawfulEntity.id_stamp, hi.id_eq], ?_⟩
    -- the identifier was drawn before those of the records
    have hfirst : Effects r (.free named) s _ := .single (.ofIdentified ctx hc hs hi hnew trivial (@hm _))
    exact hi.not_stored hs (hfirst.fresh_first (.single (.logs hr)) hf) rfl hn

/-- A creation logs its record under an identifier that was not in use. -/
theorem Created.appends [LawfulEntity E] (ha : r.config.auditCollection ≠ Stored.collection E)
    {named : List Uuid} (hm : (Stored.id? e).toList ⊆ named) (hf : Fresh named s t)
    (hn : ∀ id, Stored.id? e = some id → (s.store.collection (Stored.collection E)).contains id = false)
    (h : Created r e ctx s c t) : ∃ id, Stored.id? c = some id ∧
      (s.store.collection (Stored.collection E)).contains id = false ∧
        r.Appends (creationRecords c id ctx) s.store t.store := by
  obtain ⟨id, hid, hnew⟩ := h.not_stored hm hf hn
  refine ⟨id, hid, hnew, ?_⟩
  cases h with
  | intro hc hs hi _ hr =>
    rw [LawfulEntity.id_stamp, hi.id_eq] at hid
    cases hid
    refine hr.appends.of_rows_eq ?_
    obtain ⟨counters, rfl⟩ := hs.frame
    obtain ⟨n, rfl, -⟩ := hi.frame
    exact (Store.rows_addRows_other ha _).trans (hc.rows_other ha)

/-- A deletion for good logs its record. -/
theorem Deleted.appends (ha : r.config.auditCollection ≠ Stored.collection E) (h : Deleted r id ctx s t) :
    ∃ existing, r.entities.get? id s.store = .ok (some existing) ∧
      r.Appends (deletionRecords existing id ctx) s.store t.store := by
  cases h with
  | intro hg hr => exact ⟨_, hg, hr.appends.of_rows_eq (Store.rows_dropRow_other ha id)⟩

/-- A soft deletion logs its record if the entity was active. -/
theorem SoftDeleted.appends (ha : r.config.auditCollection ≠ Stored.collection E)
    (h : SoftDeleted r id ctx s c t) :
    ∃ existing, r.entities.get? id s.store = .ok (some existing) ∧
      r.Appends (recordsOf existing [r.deactivationRecord existing id ctx]) s.store t.store := by
  cases h with
  | inactive hg hi => exact ⟨_, hg, by unfold recordsOf; rw [hi]; exact .nothing rfl⟩
  | active hg hact hr hc =>
    refine ⟨_, hg, ?_⟩
    unfold recordsOf
    rw [hact]
    exact hr.appends.of_rows_eq (Store.rows_reviseRows_other ha _)

end Dossier.Repository
