/-
Recording changes. Records are numbered with the identifiers that come next and appended to the log
in one step, so what recording does is a function of the state, unless an identifier that comes next
is in use.
-/
import Dossier.Proofs.Entity.Set
import Dossier.Repository.Basic

namespace Dossier

/-! ## The supply of identifiers -/

namespace IdSupply

/-- The supply after more identifiers have been given out. -/
def advance (ids : IdSupply) (n : Nat) : IdSupply := { ids with drawn := ids.drawn + n }

/-- The identifiers that come next. -/
def upcoming (ids : IdSupply) (n : Nat) : List Uuid := (List.range' ids.drawn n).map ids.stream

theorem upcoming_succ (ids : IdSupply) (n : Nat) :
    ids.upcoming (n + 1) = ids.stream ids.drawn :: (ids.advance 1).upcoming n := by
  unfold upcoming advance
  rw [List.range'_succ, List.map_cons]

theorem length_upcoming (ids : IdSupply) (n : Nat) : (ids.upcoming n).length = n := by
  unfold upcoming
  rw [List.length_map, List.length_range']

end IdSupply

/-- The state after more identifiers have been given out. -/
def State.drawing (s : State) (n : Nat) : State := { s with ids := s.ids.advance n }

end Dossier

namespace Dossier.Repository

variable {E : Type} {r : Repository E} {s t : State} {fault : Fault} {records : List ChangeRecord}

/-! ## Numbering -/

/-- Records with identifiers. -/
def numbered (records : List ChangeRecord) (ids : List Uuid) : List ChangeRecord :=
  List.zipWith (fun record id => { record with id := some id }) records ids

/-- The documents of numbered records. -/
def logEntries (records : List ChangeRecord) (ids : List Uuid) : List (Uuid × Value) :=
  List.zipWith (fun record id => (id, { record with id := some id }.toValue)) records ids

theorem numberRecords_run : ∀ (records : List ChangeRecord) (s : State), numberRecords records s =
    .ok (numbered records (s.ids.upcoming records.length)) (s.drawing records.length)
  | [], _ => rfl
  | record :: records, s => by
    have hf : Action.freshId s = .ok (s.ids.stream s.ids.drawn) (s.drawing 1) := rfl
    refine (Action.bind_run hf).trans ((Action.bind_run (numberRecords_run records (s.drawing 1))).trans ?_)
    have hd : (s.drawing 1).drawing records.length = s.drawing (records.length + 1) := by
      unfold State.drawing IdSupply.advance
      rw [Nat.add_assoc, Nat.add_comm 1]
    rw [hd, List.length_cons, IdSupply.upcoming_succ]
    rfl

theorem withIds_numbered (operation : String) : ∀ (records : List ChangeRecord) (ids : List Uuid),
    DocumentSet.withIds operation (numbered records ids) = .ok (logEntries records ids)
  | [], _ => rfl
  | _ :: _, [] => rfl
  | record :: records, id :: ids => by
    have ih := withIds_numbered operation records ids
    unfold DocumentSet.withIds numbered logEntries at *
    rw [List.zipWith_cons_cons, List.mapM_cons, ih]
    rfl

theorem logEntries_ids : ∀ {records : List ChangeRecord} {ids : List Uuid}, records.length = ids.length →
    (logEntries records ids).map (·.1) = ids
  | [], [], _ => rfl
  | _ :: _, id :: _, h => congrArg (id :: ·) (logEntries_ids (Nat.succ.inj h))

theorem mem_logEntries {d : Uuid × Value} : ∀ {records : List ChangeRecord} {ids : List Uuid},
    d ∈ logEntries records ids → ∃ record ∈ records, d.2 = ({ record with id := some d.1 } : ChangeRecord).toValue
  | record :: records, id :: ids, h => by
    rcases List.mem_cons.1 (by unfold logEntries at h; exact h) with rfl | h
    · exact ⟨record, List.mem_cons_self .., rfl⟩
    · obtain ⟨other, ho, hd⟩ := mem_logEntries h
      exact ⟨other, List.mem_cons_of_mem _ ho, hd⟩

/-! ## Recording -/

/-- The state after records have been appended to the log. -/
def recorded (r : Repository E) (records : List ChangeRecord) (s : State) : State :=
  if records.isEmpty then s
  else
    (s.drawing records.length).withStore
      (s.store.addRows r.config.auditCollection (logEntries records (s.ids.upcoming records.length)))

/-- Recording adds the rows of the records, with identifiers, to the log and nothing else. -/
theorem mem_rows_recorded_of {name : String} {row : Row} (h : row ∈ (r.recorded records s).store.rows name) :
    row ∈ s.store.rows name ∨ name = r.config.auditCollection ∧
      ∃ record ∈ records, row.doc = ({ record with id := some row.id } : ChangeRecord).toValue := by
  unfold recorded at h
  split at h
  · exact Or.inl h
  · exact (Store.mem_rows_addRows h).imp id fun ⟨ha, hm⟩ => ⟨ha, mem_logEntries hm⟩

theorem mem_rows_recorded {name : String} {row : Row} (h : row ∈ (r.recorded records s).store.rows name) :
    row ∈ s.store.rows name ∨
      name = r.config.auditCollection ∧ ∃ record : ChangeRecord, record.id = some row.id ∧
        row.doc = record.toValue :=
  (mem_rows_recorded_of h).imp id fun ⟨ha, _, _, hd⟩ => ⟨ha, _, rfl, hd⟩

/-- Appending records has succeeded: none of the identifiers that come next was in use. -/
structure Recorded (r : Repository E) (records : List ChangeRecord) (s t : State) : Prop where
  left : t = r.recorded records s
  vacant : ∀ id ∈ s.ids.upcoming records.length, (s.store.collection r.config.auditCollection).contains id = false

/-- Recording leaves the rows that are there. -/
theorem Recorded.mem_rows {name : String} {row : Row} (h : r.Recorded records s t) (hr : row ∈ s.store.rows name) :
    row ∈ t.store.rows name := by
  rw [h.left]
  unfold recorded
  split
  · exact hr
  · exact Store.mem_addRows hr

/-- Appending records has failed since one of the identifiers that come next is in use. -/
structure Refused (r : Repository E) (records : List ChangeRecord) (s t : State) : Prop where
  left : t = s.drawing records.length
  clash : ∃ id ∈ s.ids.upcoming records.length, (s.store.collection r.config.auditCollection).contains id = true

theorem record_ok {u : Unit} (h : r.record records s = .ok u t) : r.Recorded records s t := by
  unfold record at h
  split at h
  · rename_i he
    rw [List.isEmpty_iff] at he
    subst he
    exact ⟨(Action.pure_ok h).2, by simp [IdSupply.upcoming]⟩
  · rename_i he
    obtain ⟨_, s₁, hn, hi⟩ := Action.bind_ok h
    rw [numberRecords_run] at hn
    cases hn
    obtain ⟨docs, hd, hi⟩ := Action.bind_ofExcept_ok hi
    rw [withIds_numbered] at hd
    cases hd
    obtain ⟨hc, ht⟩ := Action.change_ok hi
    obtain ⟨hfree, hs⟩ := Store.insertDocuments_ok hc
    refine ⟨by unfold recorded; rw [if_neg he, State.withStore_of_ids ht, hs]; rfl, fun id hm => ?_⟩
    rw [← logEntries_ids (s.ids.length_upcoming records.length).symm] at hm
    obtain ⟨d, hd, rfl⟩ := List.mem_map.1 hm
    exact hfree d hd

theorem record_error (h : r.record records s = .error fault t) : r.Refused records s t := by
  unfold record at h
  split at h
  · cases h
  · rcases Action.bind_error h with h | ⟨_, s₁, hn, hi⟩
    · rw [numberRecords_run] at h; cases h
    · rw [numberRecords_run] at hn
      cases hn
      rcases Action.bind_ofExcept_error hi with ⟨hd, -⟩ | ⟨docs, hd, hi⟩
      · rw [withIds_numbered] at hd; cases hd
      · rw [withIds_numbered] at hd
        cases hd
        obtain ⟨hc, ht⟩ := Action.change_error hi
        obtain ⟨hs, d, hd, hin⟩ := Store.insertDocuments_error hc
        refine ⟨by rw [State.withStore_of_ids ht, hs]; rfl, d.1, ?_, hin⟩
        rw [← logEntries_ids (s.ids.length_upcoming records.length).symm]
        exact List.mem_map_of_mem hd

variable [Entity E]

/-- The records that are kept about an entity: all of them if it is active, none otherwise. -/
def recordsOf (e : E) (records : List ChangeRecord) : List ChangeRecord :=
  if Entity.isActive e then records else []

theorem recordIfActive_eq (r : Repository E) (e : E) (records : List ChangeRecord) :
    r.recordIfActive e records = r.record (recordsOf e records) := by
  unfold recordIfActive recordsOf
  split <;> rfl

end Dossier.Repository
