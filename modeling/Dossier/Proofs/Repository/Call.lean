/-
Calls of a repository and the states that they lead to from an empty store. Calls may fail; the state
they leave then is reached as well. Fresh identifiers are assumed to be new.
-/
import Dossier.Proofs.Repository.Supply

namespace Dossier

open Repository

variable {E : Type} [Entity E]

/-- A call that writes one entity. -/
inductive Write (E : Type) where
  | save (e : E)
  | patchById (id : Uuid) (requested : E) (properties : List String)
  | patchBySlug (slug : String) (requested : E) (properties : List String)
  | patchByFilter (filter : Expr) (requested : E) (properties : List String)

/-- Carries out a write. -/
def Write.run (r : Repository E) (ctx : AuditContext) : Write E → Action E
  | save e => r.createOrOverwrite e ctx
  | patchById id requested properties => r.patchById id requested properties ctx
  | patchBySlug slug requested properties => r.patchBySlug slug requested properties ctx
  | patchByFilter filter requested properties => r.patchByFilter filter requested properties ctx

/-- The properties that a write names. -/
def Write.names : Write E → List String
  | save _ => []
  | patchById _ _ properties => properties
  | patchBySlug _ _ properties => properties
  | patchByFilter _ _ properties => properties

/-- Whether a write saves an entity as a whole. -/
def Write.IsSave : Write E → Prop
  | save _ => True
  | _ => False

/-- A write saves an entity or patches the one that is found. -/
theorem Write.save_or_patch (r : Repository E) (ctx : AuditContext) (w : Write E) : (∃ e, w = save e) ∨
    ¬ w.IsSave ∧ ∃ find requested, r.Finds find ∧ w.run r ctx = r.patch find requested w.names ctx := by
  cases w with
  | save e => exact Or.inl ⟨e, rfl⟩
  | patchById id requested properties => exact Or.inr ⟨nofun, _, requested, finds_getById r id, rfl⟩
  | patchBySlug slug requested properties => exact Or.inr ⟨nofun, _, requested, finds_first r _ _, rfl⟩
  | patchByFilter filter requested properties => exact Or.inr ⟨nofun, _, requested, finds_first r _ _, rfl⟩

/-- A call that may change the state. -/
inductive Call (E : Type) where
  | write (w : Write E) (ctx : AuditContext)
  | bulkImport (es : List E) (ctx : AuditContext) (force : Bool)
  | patchMany (filter : Expr) (requested : E) (properties : List String)
  | softDelete (id : Uuid) (ctx : AuditContext)
  | delete (id : Uuid) (ctx : AuditContext)
  /-- A block of numbers is reserved from a counter. -/
  | reserve (counter : String) (increment : Int64)
  | assignSlugs (es : List E)

namespace Call

/-- The state that a call leaves, whether it succeeds or fails. -/
def after (r : Repository E) (s : State) : Call E → State
  | write w ctx => (w.run r ctx).leaves s
  | bulkImport es ctx force => (r.bulkImport es ctx force).leaves s
  | patchMany filter requested properties => (r.patchMany filter requested properties).leaves s
  | softDelete id ctx => (r.softDeleteById id ctx).leaves s
  | delete id ctx => (r.deleteById id ctx).leaves s
  | reserve counter increment => (Action.change (Store.nextInSequence counter increment)).leaves s
  | assignSlugs es => (r.assignSlugs es).leaves s

/-- The identifiers that a call names for new entities. -/
def named : Call E → List Uuid
  | write (.save e) _ => (Stored.id? e).toList
  | bulkImport es _ _ => es.filterMap Stored.id?
  | _ => []

/-- The entities that a call hands in to be stored, as a whole or in part. -/
def given : Call E → List E
  | write (.save e) _ => [e]
  | write (.patchById _ requested _) _ => [requested]
  | write (.patchBySlug _ requested _) _ => [requested]
  | write (.patchByFilter _ requested _) _ => [requested]
  | bulkImport es _ _ => es
  | patchMany _ requested _ => [requested]
  | _ => []

/-- Whether a call changes entities without looking for duplicates. -/
def IsPatchMany : Call E → Prop
  | patchMany .. => True
  | _ => False

/-- What a call has to do with. -/
def scope (c : Call E) : Scope E := ⟨c.named, (· ∈ c.given), c.IsPatchMany⟩

/-- The state that calls leave, one after the other. -/
def afterAll (r : Repository E) (s : State) : List (Call E) → State
  | [] => s
  | c :: calls => afterAll r (c.after r s) calls

/-- Whether all identifiers that calls draw are new. -/
def AllFresh (r : Repository E) (s : State) : List (Call E) → Prop
  | [] => True
  | c :: calls => Fresh c.named s (c.after r s) ∧ AllFresh r (c.after r s) calls

instance decidableAllFresh (r : Repository E) :
    ∀ (s : State) (calls : List (Call E)), Decidable (AllFresh r s calls)
  | _, [] => isTrue trivial
  | s, c :: calls =>
    have := decidableAllFresh r (c.after r s) calls
    inferInstanceAs (Decidable (Fresh c.named s (c.after r s) ∧ AllFresh r (c.after r s) calls))

theorem afterAll_append (r : Repository E) : ∀ (before calls : List (Call E)) (s : State),
    afterAll r s (before ++ calls) = afterAll r (afterAll r s before) calls
  | [], _, _ => rfl
  | c :: before, calls, s => afterAll_append r before calls (c.after r s)

theorem AllFresh.append {r : Repository E} : ∀ {before calls : List (Call E)} {s : State},
    AllFresh r s (before ++ calls) → AllFresh r s before ∧ AllFresh r (afterAll r s before) calls
  | [], _, _, h => ⟨trivial, h⟩
  | c :: before, calls, s, h => by
    have hrest : AllFresh r (c.after r s) (before ++ calls) := h.2
    obtain ⟨hbefore, hcalls⟩ := hrest.append
    exact ⟨⟨h.1, hbefore⟩, hcalls⟩

end Call

/-- The states that allowed calls lead to from an empty store, when the identifiers that they draw
are new. -/
inductive Reachable (r : Repository E) (allowed : Call E → Prop) : State → Prop
  | empty (ids : IdSupply) : Reachable r allowed { ids }
  | call {s : State} (c : Call E) (hs : Reachable r allowed s) (ha : allowed c)
      (hf : Fresh c.named s (c.after r s)) : Reachable r allowed (c.after r s)

namespace Repository

variable {r : Repository E} {scope : Scope E} {s : State}

theorem run_effects [LawfulEntity E] {w : Write E} {ctx : AuditContext} (hw : s.store.WF) :
    Effects r (Call.write w ctx).scope s ((w.run r ctx).leaves s) := by
  cases w with
  | save e => exact createOrOverwrite_effects hw (List.mem_singleton_self e) (List.Subset.refl _)
  | patchById id requested properties =>
    exact patch_effects (finds_getById r id) hw (List.mem_singleton_self requested)
  | patchBySlug slug requested properties =>
    exact patch_effects (finds_first r _ _) hw (List.mem_singleton_self requested)
  | patchByFilter filter requested properties =>
    exact patch_effects (finds_first r _ _) hw (List.mem_singleton_self requested)

theorem named_of_cons {e : E} {es : List E} {named : List Uuid} (hm : (e :: es).filterMap Stored.id? ⊆ named) :
    (Stored.id? e).toList ⊆ named ∧ es.filterMap Stored.id? ⊆ named := by
  cases hi : Stored.id? e with
  | none => rw [List.filterMap_cons_none hi] at hm; exact ⟨by simp, hm⟩
  | some id =>
    rw [List.filterMap_cons_some hi] at hm
    exact ⟨by simpa using hm (List.mem_cons_self ..), fun x hx => hm (List.mem_cons_of_mem _ hx)⟩

theorem importRows_effects [LawfulEntity E] (hid : idKey ∉ r.registry.names) {ctx : AuditContext} {force : Bool} :
    ∀ {es : List E} {s : State}, r.Sound s.store → (∀ e ∈ es, scope.given e) →
      es.filterMap Stored.id? ⊆ scope.named →
      (s.drawnUntil ((es.mapM (r.importRow ctx force)).leaves s)).Nodup →
      Effects r scope s ((es.mapM (r.importRow ctx force)).leaves s)
  | [], _, _, _, _, _ => .refl
  | e :: es, s, hs, hg, hm, hn => by
    have hme := named_of_cons hm
    rw [List.forall_mem_cons] at hg
    have hrow : Effects r scope s ((r.importRow ctx force e).leaves s) := importRow_effects hs.wf hg.1 hme.1
    rw [Action.leaves_mapM_cons] at hn ⊢
    cases hx : r.importRow ctx force e s with
    | error fault t =>
      rw [Action.leaves_error hx] at hrow
      exact hrow
    | ok result u =>
      rw [Action.leaves_ok hx] at hrow
      rw [hx] at hn
      dsimp only at hn ⊢
      -- what the first row draws and what the others draw are distinct, too
      obtain ⟨m, hm'⟩ := hrow.advances
      obtain ⟨n, hn'⟩ := Action.Advances.mapM (advances_importRow r · ctx force) es u
      rw [State.drawnUntil_append hm' hn', List.nodup_append] at hn
      exact hrow.trans (importRows_effects hid (Effects.sound hid hrow hn.1 hs) hg.2 hme.2 hn.2.1)

/-- Rows are imported one after the other, each from a sound store and with new identifiers, up to the first that
fails. -/
theorem importRows_induction [LawfulEntity E] (hid : idKey ∉ r.registry.names) {ctx : AuditContext} {force : Bool}
    {named : List Uuid} {motive : List E → State → State → Prop} (nil : ∀ s, motive [] s s)
    (failed : ∀ {e es s t fault}, r.Sound s.store → (Stored.id? e).toList ⊆ named → Fresh named s t →
      r.importRow ctx force e s = .error fault t → motive (e :: es) s t)
    (row : ∀ {e es s u t result}, r.Sound s.store → (Stored.id? e).toList ⊆ named → Fresh named s u →
      r.importRow ctx force e s = .ok result u → motive es u t → motive (e :: es) s t) :
    ∀ {es : List E} {s : State}, r.Sound s.store → es.filterMap Stored.id? ⊆ named →
      Fresh named s ((es.mapM (r.importRow ctx force)).leaves s) →
      motive es s ((es.mapM (r.importRow ctx force)).leaves s)
  | [], s, _, _, _ => nil s
  | e :: es, s, hs, hm, hf => by
    obtain ⟨hme, hmes⟩ := named_of_cons hm
    rw [Action.leaves_mapM_cons] at hf ⊢
    cases hx : r.importRow ctx force e s with
    | error fault t =>
      rw [hx] at hf
      exact failed hs hme hf hx
    | ok result u =>
      rw [hx] at hf
      have hrow : Effects r (.free named) s ((r.importRow ctx force e).leaves s) :=
        importRow_effects hs.wf trivial hme
      rw [Action.leaves_ok hx] at hrow
      obtain ⟨hu, hfirst, hrest⟩ := hrow.fresh_split hid hs
        (Action.Advances.mapM (advances_importRow r · ctx force) es u)
        (fun hu hn => importRows_effects hid hu (fun _ _ => trivial) hmes hn) hf
      exact row hs hme hfirst hx (importRows_induction hid nil failed row hu hmes hrest)

/-- After the first rows of an import the store is sound, and what comes next draws new identifiers. -/
theorem sound_after_rows [LawfulEntity E] (hid : idKey ∉ r.registry.names) {ctx : AuditContext} {force : Bool}
    {es : List E} {results : List (E × ImportOutcome)} {named : List Uuid} {u t : State} (hs : r.Sound s.store)
    (hm : es.filterMap Stored.id? ⊆ named) (h : es.mapM (r.importRow ctx force) s = .ok results u)
    (ha : ∃ n, t.ids = u.ids.advance n) (h' : r.Sound u.store → Effects r (.free named) u t)
    (hf : Fresh named s t) : r.Sound u.store ∧ Fresh named u t := by
  obtain ⟨m, hm'⟩ := Action.Advances.mapM (advances_importRow r · ctx force) es s
  obtain ⟨n, hn⟩ := ha
  rw [Action.leaves_ok h] at hm'
  have hd := hf.distinct
  rw [State.drawnUntil_append hm' hn, List.nodup_append] at hd
  have hrows : Effects r (.free named) s u := by
    have hrows : Effects r (.free named) s ((es.mapM (r.importRow ctx force)).leaves s) :=
      importRows_effects hid hs (fun _ _ => trivial) hm (by rw [Action.leaves_ok h]; exact hd.1)
    rwa [Action.leaves_ok h] at hrows
  obtain ⟨hu, -, hft⟩ := hrows.fresh_split hid hs ⟨n, hn⟩ (fun hu _ => h' hu) hf
  exact ⟨hu, hft⟩

theorem bulkImport_effects [LawfulEntity E] (hid : idKey ∉ r.registry.names) {es : List E} {ctx : AuditContext}
    {force : Bool} (hs : r.Sound s.store) (hg : ∀ e ∈ es, scope.given e)
    (hm : es.filterMap Stored.id? ⊆ scope.named)
    (hn : (s.drawnUntil ((r.bulkImport es ctx force).leaves s)).Nodup) :
    Effects r scope s ((r.bulkImport es ctx force).leaves s) := by
  unfold bulkImport at hn ⊢
  rw [Action.leaves_bind] at hn ⊢
  cases hv : es.forM Entity.validate with
  | error fault => exact .refl
  | ok u => rw [hv] at hn; exact importRows_effects hid hs hg hm hn

theorem leaves_reserve (counter : String) (increment : Int64) (s : State) : ∃ counters,
    (Action.change (Store.nextInSequence counter increment)).leaves s = s.withStore { s.store with counters } := by
  cases hx : Action.change (Store.nextInSequence counter increment) s with
  | ok value t =>
    obtain ⟨hc, ht⟩ := Action.change_ok hx
    obtain ⟨-, -, hs⟩ := Store.nextInSequence_ok hc
    rw [Action.leaves_ok hx, State.withStore_of_ids ht, hs]
    exact ⟨_, rfl⟩
  | error fault t =>
    obtain ⟨hc, ht⟩ := Action.change_error hx
    rw [Action.leaves_error hx, State.withStore_of_ids ht, (Store.nextInSequence_error hc).1]
    exact ⟨s.store.counters, rfl⟩

/-- Assigning slugs changes counters only. -/
theorem leaves_assignSlugs (r : Repository E) (es : List E) (s : State) : ∃ counters,
    (r.assignSlugs es).leaves s = s.withStore { s.store with counters } := by
  unfold assignSlugs
  cases r.config.slugPrefix with
  | none => exact ⟨s.store.counters, rfl⟩
  | some stem =>
    dsimp only
    split
    · exact ⟨s.store.counters, rfl⟩
    · obtain ⟨counters, hr⟩ := leaves_reserve r.slugCounter (Int64.ofNat (es.countP Entity.needsSlug)) s
      refine ⟨counters, ?_⟩
      rw [← hr, Action.leaves_bind]
      unfold Action.leaves
      cases Action.change (Store.nextInSequence r.slugCounter (Int64.ofNat (es.countP Entity.needsSlug))) s <;> rfl

/-- Every call leads to the state it leaves by effects. -/
theorem after_effects [LawfulEntity E] (hid : idKey ∉ r.registry.names) {c : Call E} (hs : r.Sound s.store)
    (hn : (s.drawnUntil (c.after r s)).Nodup) : Effects r c.scope s (c.after r s) := by
  cases c with
  | write w ctx => exact run_effects hs.wf
  | bulkImport es ctx force => exact bulkImport_effects hid hs (fun _ h => h) (List.Subset.refl _) hn
  | patchMany filter requested properties =>
    exact patchMany_effects hs.wf trivial (List.mem_singleton_self requested)
  | softDelete id ctx => exact softDeleteById_effects hs.wf
  | delete id ctx => exact deleteById_effects
  | reserve counter increment =>
    obtain ⟨counters, hr⟩ := leaves_reserve counter increment s
    exact (show Call.after r s (.reserve counter increment) = _ from hr) ▸ .single (.counts counters)
  | assignSlugs es =>
    obtain ⟨counters, hr⟩ := leaves_assignSlugs r es s
    exact (show Call.after r s (.assignSlugs es) = _ from hr) ▸ .single (.counts counters)

end Repository

/-! ## What all documents have in common -/

namespace Repository

variable {r : Repository E} {scope : Scope E} {s t : State} {P : Uuid → Value → Prop}

/-- A property of keys and the documents under them that all documents have when they are written, and keep. -/
structure KeptByWrites (r : Repository E) (P : Uuid → Value → Prop) : Prop where
  entity (e : E) (id : Uuid) (h : Stored.id? e = some id) : P id (Stored.toValue e)
  properties (u : E) (names : List String) (values : Document) (h : r.registry.readAll u names = .ok values)
    (id : Uuid) (doc : Value) (hd : P id doc) : P id (Store.withFields values doc)
  flag (id : Uuid) (doc : Value) (hd : P id doc) :
    P id (Store.withFields [(r.config.activeField, .boolean false)] doc)
  record (record : ChangeRecord) (id : Uuid) (h : record.id = some id) : P id record.toValue

theorem fieldsSet_rows {store : Store} {fields : Document} (filter : Expr)
    (hset : ∀ id doc, P id doc → P id (Store.withFields fields doc))
    (h : ∀ row ∈ store.rows (Stored.collection E), P row.id row.doc) :
    ∀ row ∈ (store.reviseRows (Stored.collection E) (Store.fieldsSet filter fields)).rows (Stored.collection E),
      P row.id row.doc := by
  intro row hr
  rw [Store.rows_reviseRows] at hr
  obtain ⟨old, ho, rfl⟩ := List.mem_map.1 hr
  show P old.id (Store.fieldsSet filter fields old)
  unfold Store.fieldsSet
  split
  · exact hset _ _ (h old ho)
  · exact h old ho

theorem Effect.rows [LawfulEntity E] (hP : r.KeptByWrites P) (h : Effect r scope s t) (hw : s.store.WF)
    (hs : ∀ row ∈ s.store.rows (Stored.collection E), P row.id row.doc) :
    ∀ row ∈ t.store.rows (Stored.collection E), P row.id row.doc := by
  have hcleared : ∀ {e : E} {own : Option Uuid} {cleared : Store}, Cleared r e own s.store cleared →
      ∀ row ∈ cleared.rows (Stored.collection E), P row.id row.doc :=
    fun hc row hr => hs row (hc.mem_rows hw hr)
  cases h with
  | draws n => exact hs
  | counts counters => exact hs
  | drops id => exact fun row hr => hs row (hw.mem_of_dropRow hr)
  | creates counters hg hc hd hi ho hv hid =>
    intro row hr
    rcases Store.mem_rows_addRows hr with hr | ⟨-, hm⟩
    · exact hcleared hc row hr
    · rw [List.mem_singleton, Prod.mk.injEq] at hm
      rw [hm.1, hm.2]
      exact hP.entity _ _ hi
  | replaces ctx hg ho hv hc hi =>
    intro row hr
    rcases Store.mem_rows_putRow hr with ⟨he, hd⟩ | hr
    · rw [he, hd]
      exact hP.entity _ _ (by rw [LawfulEntity.id_stamp, hi])
    · exact hcleared hc row hr
  | patches hg hr he hv hc hd hl => exact fieldsSet_rows _ (hP.properties _ _ _ hl) (hcleared hc)
  | patchesMany filter hm hg hl => exact fieldsSet_rows filter (hP.properties _ _ _ hl) hs
  | deactivates hg => exact fieldsSet_rows _ hP.flag hs
  | logs hr =>
    intro row hm
    rw [hr.left] at hm
    rcases mem_rows_recorded hm with hm | ⟨-, record, hi, hd⟩
    · exact hs row hm
    · rw [hd]; exact hP.record record _ hi

end Repository

namespace Reachable

variable {r : Repository E} {allowed : Call E → Prop} {s : State}

/-- An invariant of every effect of an allowed call holds of every reachable state. -/
theorem invariant [LawfulEntity E] (hid : idKey ∉ r.registry.names) {P : Store → Prop} (empty : P {})
    (step : ∀ c, allowed c → ∀ {u v : State}, Effect r c.scope u v → r.Sound u.store → P u.store → P v.store)
    (h : Reachable r allowed s) : r.Sound s.store ∧ P s.store := by
  induction h with
  | empty ids => exact ⟨sound_empty r, empty⟩
  | @call s c hs ha hf ih =>
    exact (after_effects hid ih.1 hf.distinct).preserve (P := fun store => r.Sound store ∧ P store)
      (fun h hn hi => ⟨h.sound hid hn hi.1, step c ha h hi.1 hi.2⟩) hf.distinct ih

theorem run : ∀ {calls : List (Call E)} {s : State}, Reachable r allowed s → (∀ c ∈ calls, allowed c) →
    Call.AllFresh r s calls → Reachable r allowed (Call.afterAll r s calls)
  | [], _, h, _, _ => h
  | c :: calls, s, h, ha, hf => by
    rw [List.forall_mem_cons] at ha
    exact (h.call c ha.1 hf.1).run ha.2 hf.2

/-- Every state along a run can be reached. -/
theorem before {ids : IdSupply} {calls first : List (Call E)} (hf : Call.AllFresh r { ids } calls)
    (hfirst : first <+: calls) : Reachable r (fun _ => True) (Call.afterAll r { ids } first) := by
  obtain ⟨later, rfl⟩ := hfirst
  exact (empty ids).run (fun _ _ => trivial) hf.append.1

theorem sound [LawfulEntity E] (hid : idKey ∉ r.registry.names) (h : Reachable r allowed s) : r.Sound s.store :=
  (h.invariant hid (P := fun _ => True) trivial fun _ _ _ _ _ _ _ => trivial).1

/-- A property that all documents have when they are written, and keep, is one of all stored documents. -/
theorem rows [LawfulEntity E] (hid : idKey ∉ r.registry.names) {P : Uuid → Value → Prop} (hP : r.KeptByWrites P)
    (h : Reachable r allowed s) : ∀ row ∈ s.store.rows (Stored.collection E), P row.id row.doc :=
  (h.invariant hid (P := fun store => ∀ row ∈ store.rows (Stored.collection E), P row.id row.doc) nofun
    fun _ _ _ _ he hs hrows => he.rows hP hs.wf hrows).2

end Reachable

end Dossier
