/-
What an import leaves when it fails. The rows before the one that fails have been imported; the row
itself leaves what it has found, less whoever has made way for it.
-/
import Dossier.Proofs.Repository.FailedWrite

namespace Dossier

/-- Dropping rows one after the other leaves all others. -/
theorem Store.WF.contains_dropRows {name : String} (id : Uuid) : ∀ {gone : List Uuid} {s : Store}, s.WF →
    ((gone.foldl (fun s id => s.dropRow name id) s).collection name).contains id =
      ((s.collection name).contains id && gone.all (id != ·))
  | [], s, _ => by simp
  | first :: gone, s, hw => by
    rw [List.foldl_cons, (hw.dropRow name first).contains_dropRows id, collection_dropRow, if_pos rfl,
      (hw name).contains_remove, List.all_cons, Bool.and_assoc]

namespace Repository

variable {E : Type} [Entity E] {r : Repository E} {e : E} {ctx : AuditContext} {force : Bool}
  {plan : ImportPlan E} {s t : State} {fault : Fault} {named : List Uuid}

/-! ## Who makes way -/

/-- Who makes way, one after the other, when the plan for a row is carried out. -/
def yielding (r : Repository E) (store : Store) : ImportPlan E → List Uuid
  | .create e => (r.retired? e (Stored.id? e) store).toList
  | .replace stale e =>
    stale :: (r.retired? e (Stored.id? e) (store.dropRow (Stored.collection E) stale)).toList
  | .overwrite existing incoming =>
    match r.mergeCandidate existing incoming with
    | .ok (updated, own) => (r.retired? updated (some own) store).toList
    | .error _ => []

/-- Who makes way for a row, if there is a plan for it. -/
def yieldingTo (r : Repository E) (e : E) (s : State) : List Uuid :=
  match r.planImport e s with
  | .ok plan _ => r.yielding s.store plan
  | .error _ _ => []

/-- A store without some of the entities. -/
def without (_ : Repository E) (gone : List Uuid) (store : Store) : Store :=
  gone.foldl (fun store id => store.dropRow (Stored.collection E) id) store

theorem without_toList (r : Repository E) (gone : Option Uuid) (store : Store) :
    r.without gone.toList store = gone.elim store (store.dropRow (Stored.collection E)) := by
  cases gone <;> rfl

theorem counters_without (r : Repository E) : ∀ (gone : List Uuid) (store : Store),
    (r.without gone store).counters = store.counters
  | [], _ => rfl
  | id :: gone, store => counters_without r gone (store.dropRow (Stored.collection E) id)

theorem rows_without {name : String} (ho : name ≠ Stored.collection E) (r : Repository E) :
    ∀ (gone : List Uuid) (store : Store), (r.without gone store).rows name = store.rows name
  | [], _ => rfl
  | id :: gone, store =>
    (rows_without ho r gone (store.dropRow (Stored.collection E) id)).trans (Store.rows_dropRow_other ho id)

/-- Nothing is dropped only if nobody is there to be dropped. -/
theorem Sound.without_eq_self {gone : List Uuid} (hs : r.Sound s.store)
    (hg : ∀ id ∈ gone, (s.store.collection (Stored.collection E)).contains id = true)
    (h : r.without gone s.store = s.store) : gone = [] := by
  cases gone with
  | nil => rfl
  | cons first gone =>
    have hin := hg first (List.mem_cons_self ..)
    rw [← h] at hin
    unfold without at hin
    rw [hs.wf.contains_dropRows first, List.all_cons] at hin
    simp at hin

variable [LawfulEntity E]

/-- Whoever makes way is there. -/
theorem Sound.contains_yielding (hs : r.Sound s.store) (hp : Planned r e s.store plan) {id : Uuid}
    (hi : id ∈ r.yielding s.store plan) : (s.store.collection (Stored.collection E)).contains id = true := by
  cases hp with
  | create hg => exact hs.contains_retired (Option.mem_toList.1 hi)
  | @replaceStored stale existing hid hg ha =>
    rcases List.mem_cons.1 hi with rfl | hi
    · obtain ⟨row, hr, rfl, -⟩ := DocumentSet.get?_some hs.wf hg
      exact (hs.wf _).contains_of_mem hr
    · have hin := (hs.dropRow stale).contains_retired (Option.mem_toList.1 hi)
      rw [Store.collection_dropRow, if_pos rfl, (hs.wf _).contains_remove, Bool.and_eq_true] at hin
      exact hin.1
  | overwriteStored hid hg ha =>
    unfold yielding at hi
    dsimp only at hi
    split at hi
    · exact hs.contains_retired (Option.mem_toList.1 hi)
    · cases hi
  | overwriteMatch hg hf hm ha =>
    unfold yielding at hi
    dsimp only at hi
    split at hi
    · exact hs.contains_retired (Option.mem_toList.1 hi)
    · cases hi

/-! ## Rows -/

theorem store_of_failed_create (hid : idKey ∉ r.registry.names) (hs : r.Sound s.store)
    (hn : ∀ id, Stored.id? e = some id → (s.store.collection (Stored.collection E)).contains id = false)
    (hm : (Stored.id? e).toList ⊆ named) (hf : Fresh named s t) (h : r.createNew e ctx s = .error fault t) :
    t.store = r.without (r.retired? e (Stored.id? e) s.store).toList s.store := by
  rw [without_toList]
  rcases createNew_error h with ⟨rfl, hb⟩ | h
  · rw [hs.retired?_eq_none hb]; rfl
  · obtain ⟨cleared, hc, ht⟩ := h.left hid hs hn hm hf
    rw [ht, hc.eq_elim]

theorem store_of_failed_merge {existing incoming : E} (hid : idKey ∉ r.registry.names) (hs : r.Sound s.store)
    (hf : Fresh named s t) (h : r.importOver existing incoming ctx force s = .error fault t) :
    t.store = r.without (r.yielding s.store (.overwrite existing incoming)) s.store := by
  unfold yielding
  dsimp only
  rcases importOver_error hs.wf h with ⟨rfl, hb⟩ | h
  · split
    · rename_i updated own hc
      rw [without_toList, hs.retired?_eq_none (hb updated own hc)]; rfl
    · rfl
  cases h with
  | unwritten hv hc hw =>
    rw [hv.mergeCandidate]
    dsimp only
    rw [without_toList, hw.left hid hs hf hv.own_eq (Or.inr hv.version) hc, hc.eq_elim]

omit [LawfulEntity E] in
/-- An entity that has been dropped is not stored any more. -/
theorem Sound.not_stored_of_dropped {stale : Uuid} (hs : r.Sound s.store) (hi : Stored.id? e = some stale) :
    ∀ id, Stored.id? e = some id →
      ((s.store.dropRow (Stored.collection E) stale).collection (Stored.collection E)).contains id = false := by
  intro id hid
  cases hi.symm.trans hid
  rw [Store.collection_dropRow, if_pos rfl, (hs.wf _).contains_remove]
  simp

theorem store_of_failed_plan (hid : idKey ∉ r.registry.names) (hs : r.Sound s.store)
    (hp : Planned r e s.store plan) (hm : (Stored.id? e).toList ⊆ named) (hf : Fresh named s t)
    (h : r.executeImport ctx force plan s = .error fault t) :
    t.store = r.without (r.yielding s.store plan) s.store := by
  cases hp with
  | create hg =>
    rcases Action.bind_error h with h | ⟨c, u, hc, h⟩
    · exact store_of_failed_create hid hs (fun id hi => DocumentSet.get?_none hs.wf (hg id hi)) hm hf h
    · cases h
  | @replaceStored stale existing hi hg ha =>
    rcases Action.bind_error h with h | ⟨_, u, hd, h⟩
    · -- the entity that is replaced is there to be dropped
      obtain ⟨row, hr, rfl, -⟩ := DocumentSet.get?_some hs.wf hg
      exact (Bool.false_ne_true ((DocumentSet.delete_error h).2.symm.trans ((hs.wf _).contains_of_mem hr))).elim
    obtain ⟨-, rfl⟩ := DocumentSet.delete_ok hd
    rcases Action.bind_error h with h | ⟨c, u, hc, h⟩
    · have hdrop : Effects r (.free named) s _ := .single (.drops stale)
      have hrest : Effects r (.free named) (s.withStore (s.store.dropRow (Stored.collection E) stale)) t := by
        rcases createNew_error h with ⟨rfl, -⟩ | h
        · exact .refl
        · exact h.effects trivial hm
      exact store_of_failed_create hid (hs.dropRow stale) (hs.not_stored_of_dropped hi) hm
        (hdrop.fresh_rest hid hs hrest hf) h
    · cases h
  | overwriteStored hi hg ha => exact store_of_failed_merge hid hs hf h
  | overwriteMatch hg hd hm' ha => exact store_of_failed_merge hid hs hf h

/-- A row that fails leaves what it has found, less whoever has made way for it. -/
theorem store_of_failed_row (hid : idKey ∉ r.registry.names) (hs : r.Sound s.store)
    (hm : (Stored.id? e).toList ⊆ named) (hf : Fresh named s t)
    (h : r.importRow ctx force e s = .error fault t) :
    t.store = r.without (r.yieldingTo e s) s.store ∧ (t.store = s.store ↔ r.yieldingTo e s = []) := by
  unfold yieldingTo
  rcases Action.bind_error h with h | ⟨plan, u, hplan, he⟩
  · rw [h, planImport_error h]
    exact ⟨rfl, fun _ => rfl, fun _ => rfl⟩
  rw [hplan]
  dsimp only
  obtain ⟨rfl, hp⟩ := planImport_ok hplan
  have hleft := store_of_failed_plan hid hs hp hm hf he
  refine ⟨hleft, fun hsame => ?_, fun hn => by rw [hleft, hn]; rfl⟩
  exact hs.without_eq_self (fun id hi => hs.contains_yielding hp hi) (hleft.symm.trans hsame)

/-! ## Batches -/

/-- A batch fails at a row, after the rows before it have been imported. -/
theorem rows_of_failed_batch {es : List E} (hid : idKey ∉ r.registry.names) (hs : r.Sound s.store)
    (hm : es.filterMap Stored.id? ⊆ named) (hf : Fresh named s t)
    (h : es.mapM (r.importRow ctx force) s = .error fault t) : ∃ before e later results u,
      es = before ++ e :: later ∧ before.mapM (r.importRow ctx force) s = .ok results u ∧
        r.importRow ctx force e u = .error fault t ∧
        t.store = r.without (r.yieldingTo e u) u.store ∧ (t.store = u.store ↔ r.yieldingTo e u = []) := by
  obtain ⟨before, e, later, results, u, rfl, hb, hrow⟩ := Action.mapM_error h
  rw [List.filterMap_append] at hm
  have hme := (named_of_cons fun id hi => hm (List.mem_append_right _ hi)).1
  obtain ⟨n, hn⟩ := advances_importRow r e ctx force u
  rw [Action.leaves_error hrow] at hn
  obtain ⟨hu, hfu⟩ := sound_after_rows hid hs (fun id hi => hm (List.mem_append_left _ hi)) hb ⟨n, hn⟩
    (fun hu => Action.leaves_error hrow ▸ importRow_effects hu.wf trivial hme) hf
  exact ⟨before, e, later, results, u, rfl, hb, hrow, store_of_failed_row hid hu hme hfu hrow⟩

/-- What a failed import leaves. An invalid row stops it before anything is done; otherwise it leaves what the
rows before the failing one leave when they are imported by themselves, less whoever has made way for the
failing one. -/
theorem left_by_failed_import {es : List E} (hid : idKey ∉ r.registry.names) (hs : r.Sound s.store)
    (hf : Fresh (Call.bulkImport es ctx force).named s t) (h : r.bulkImport es ctx force s = .error fault t) :
    ((∃ e ∈ es, Entity.validate e ≠ .ok ()) → t = s) ∧
      ((∀ e ∈ es, Entity.validate e = .ok ()) → ∃ before e later results u, es = before ++ e :: later ∧
        r.bulkImport before ctx force s = .ok results u ∧
          r.importRow (ctx.withSource .imported) force e u = .error fault t ∧
            t.store = r.without (r.yieldingTo e u) u.store ∧ (t.store = u.store ↔ r.yieldingTo e u = [])) := by
  unfold bulkImport at h
  rcases Action.bind_ofExcept_error h with ⟨hv, rfl⟩ | ⟨_, hv, h⟩
  · exact ⟨fun _ => rfl, fun hall => by rw [except_forM_ok.2 hall] at hv; cases hv⟩
  have hall := except_forM_ok.1 hv
  refine ⟨fun ⟨e, he, hne⟩ => (hne (hall e he)).elim, fun _ => ?_⟩
  obtain ⟨before, e, later, results, u, rfl, hb, hrow, hleft⟩ :=
    rows_of_failed_batch hid hs (List.Subset.refl _) hf h
  refine ⟨before, e, later, results, u, rfl, ?_, hrow, hleft⟩
  -- the rows before the failing one are valid, too
  have hvb : before.forM Entity.validate = .ok () :=
    except_forM_ok.2 fun b hb => hall b (List.mem_append_left _ hb)
  unfold bulkImport
  rw [hvb]
  exact hb

end Repository

namespace Customer

open Repository

variable {config : Config} {ctx : AuditContext} {force : Bool} {s t : State} {fault : Fault}

/-- What a failed import of customers leaves, in every reachable state and under every configuration. -/
theorem store_of_failed_import {allowed : Call Customer → Prop} {es : List Customer}
    (h : Reachable (repository config) allowed s) (hf : Fresh (Call.bulkImport es ctx force).named s t)
    (hx : (repository config).bulkImport es ctx force s = .error fault t) :
    ((∃ e ∈ es, Entity.validate e ≠ .ok ()) → t = s) ∧
      ((∀ e ∈ es, Entity.validate e = .ok ()) → ∃ before e later results u, es = before ++ e :: later ∧
        (repository config).bulkImport before ctx force s = .ok results u ∧
          (repository config).importRow (ctx.withSource .imported) force e u = .error fault t ∧
            t.store = (repository config).without ((repository config).yieldingTo e u) u.store ∧
              (t.store = u.store ↔ (repository config).yieldingTo e u = [])) :=
  left_by_failed_import idKey_not_registered (h.sound idKey_not_registered) hf hx

/-! ## A row that takes the place of an imported one -/

/-- The state in which Bob is stored. -/
def bobStored : State := afterCalls {} [.write (.save bob) morning]

theorem reachable_bobStored : Reachable (repository {}) (fun _ => True) bobStored :=
  reachable_afterCalls (fun _ _ => trivial) (by decide +kernel)

/-- An inactive customer with an identifier of her own. -/
def former : Customer := { ann with id := some (.ofNat 10), active := false }

/-- A customer with that identifier and with the address of Bob. -/
def successor : Customer := { cyd with id := some (.ofNat 10), email := some "b@x" }

theorem import_former : ∃ results u, (repository {}).bulkImport [former] morning false bobStored = .ok results u ∧
    (u.store.rows "customers").length = 2 ∧ (repository {}).yieldingTo successor u = [.ofNat 10] := by
  have h : (match (repository {}).bulkImport [former] morning false bobStored with
    | .ok _ u => some ((u.store.rows "customers").length, (repository {}).yieldingTo successor u)
    | .error _ _ => none) = some (2, [.ofNat 10]) := by decide +kernel
  split at h
  · rename_i results u hr
    rw [Option.some.injEq, Prod.mk.injEq] at h
    exact ⟨results, u, hr, h.1, h.2⟩
  · cases h

theorem import_both : ∃ t, (repository {}).bulkImport [former, successor] morning false bobStored =
      .error (.alreadyExists (Uuid.ofNat 1).text "customers") t ∧
    Fresh (Call.bulkImport [former, successor] morning false).named bobStored t ∧
    (t.store.rows "customers").length = 1 := by
  have h : (match (repository {}).bulkImport [former, successor] morning false bobStored with
    | .ok _ _ => none
    | .error fault t => some (fault,
      decide (Fresh (Call.bulkImport [former, successor] morning false).named bobStored t),
      (t.store.rows "customers").length)) =
      some (.alreadyExists (Uuid.ofNat 1).text "customers", true, 1) := by decide +kernel
  split at h
  · cases h
  · rename_i fault t hr
    rw [Option.some.injEq, Prod.mk.injEq, Prod.mk.injEq] at h
    exact ⟨t, by rw [hr, h.1], of_decide_eq_true h.2.1, h.2.2⟩

/-- It is the second of the two rows that fails. -/
theorem failing_row {before later : List Customer} {e : Customer} {results : List (Customer × ImportOutcome)}
    {u : State} (hes : [former, successor] = before ++ e :: later)
    (hb : (repository {}).bulkImport before morning false bobStored = .ok results u)
    (hrow : (repository {}).importRow (morning.withSource .imported) false e u = .error fault t) :
    before = [former] ∧ e = successor := by
  rcases before with _ | ⟨first, _ | ⟨second, more⟩⟩
  · cases hes
    cases hb
    have hok : (match (repository {}).importRow (morning.withSource .imported) false former bobStored with
      | .ok _ _ => true
      | .error _ _ => false) = true := by decide +kernel
    rw [hrow] at hok
    cases hok
  · cases hes
    exact ⟨rfl, rfl⟩
  · have hl := congrArg List.length hes
    simp only [List.length_cons, List.length_append, List.length_nil] at hl
    omega

theorem valid_both : ∀ e ∈ [former, successor], Entity.validate e = .ok () := by
  rw [List.forall_mem_cons, List.forall_mem_singleton]
  exact ⟨by decide +kernel, by decide +kernel⟩

/-- The customer that has been imported first is gone again. -/
theorem store_of_replacing_import : ∃ results u t,
    (repository {}).bulkImport [former] morning false bobStored = .ok results u ∧
      (repository {}).bulkImport [former, successor] morning false bobStored =
        .error (.alreadyExists (Uuid.ofNat 1).text "customers") t ∧
      t.store = u.store.dropRow "customers" (.ofNat 10) := by
  obtain ⟨t, hx, hf, -⟩ := import_both
  obtain ⟨before, e, later, results, u, hes, hb, hrow, hleft, -⟩ :=
    (store_of_failed_import reachable_bobStored hf hx).2 valid_both
  obtain ⟨rfl, rfl⟩ := failing_row hes hb hrow
  obtain ⟨_, u', hb', -, hy⟩ := import_former
  cases hb'.symm.trans hb
  exact ⟨results, u, t, hb, hx, by rw [hleft, hy]; rfl⟩

/-- A row that fails can have removed a customer that has been imported before it. -/
theorem not_prefix_of_failed_import : ¬ ∀ (config : Config) (es : List Customer) (ctx : AuditContext)
    (force : Bool) (fault : Fault) (s t : State), Reachable (repository config) (fun _ => True) s →
      Fresh (Call.bulkImport es ctx force).named s t → (∀ e ∈ es, Entity.validate e = .ok ()) →
      (repository config).bulkImport es ctx force s = .error fault t →
      ∃ before e later results u, es = before ++ e :: later ∧
        (repository config).bulkImport before ctx force s = .ok results u ∧
        (repository config).importRow (ctx.withSource .imported) force e u = .error fault t ∧
        t.store = u.store := by
  intro h
  obtain ⟨t, hx, hf, hone⟩ := import_both
  obtain ⟨before, e, later, results, u, hes, hb, hrow, hsame⟩ :=
    h _ _ _ _ _ _ t reachable_bobStored hf valid_both hx
  obtain ⟨rfl, rfl⟩ := failing_row hes hb hrow
  obtain ⟨_, u', hb', htwo, -⟩ := import_former
  cases hb'.symm.trans hb
  rw [hsame, htwo] at hone
  cases hone

end Customer

end Dossier
