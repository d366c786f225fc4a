/-
Validity of what is stored. Every operation on customers keeps blank names out of the store, except
patches of many, which write what they are given without checking it.
-/
import Dossier.Proofs.Entity.Reading
import Dossier.Proofs.Repository.Customers

namespace Dossier

/-- A document in which nothing that is read as a name is blank. -/
def Value.Titled (v : Value) : Prop :=
  ∀ es name, v = .document es → Field.required Value.text? "name" es = some name → isBlankText name = false

namespace Customer

open Repository

variable {config : Config} {c e existing incoming updated requested : Customer} {properties : List String}
  {ctx : AuditContext} {force : Bool} {row : Row} {store : Store} {s t : State}

/-! ## Documents -/

/-- The only rule for a customer is that its name is not blank. -/
theorem validate_ok_iff : Entity.validate c = .ok () ↔ isBlankText c.name = false := by
  have hv : Entity.violation? c = if isBlankText c.name then some "customer name must not be blank" else none := rfl
  unfold Entity.validate
  rw [hv]
  cases isBlankText c.name <;> simp

theorem titled_toValue (h : isBlankText c.name = false) : c.toValue.Titled := by
  rintro es name he hn
  rw [toValue_eq] at he
  cases he
  rw [(reads_document c).name] at hn
  cases hn
  exact h

theorem titled_record (record : ChangeRecord) : record.toValue.Titled := by
  rintro es name he hn
  rw [ChangeRecord.toValue_eq] at he
  cases he
  unfold Field.required at hn
  rw [ChangeRecord.lookup_document] at hn
  cases hn

/-- What is read from a document without a blank name has none. -/
theorem name_of_titled {v : Value} (h : v.Titled) (hc : ofValue? v = some c) : isBlankText c.name = false := by
  obtain ⟨es, rfl, hr⟩ := ofValue?_eq_some_iff.1 hc
  exact h es c.name rfl hr.name

/-- Setting fields puts no blank name into a document if there is none among the fields. -/
theorem titled_withFields {v : Value} {fields : Document} (h : v.Titled) (hn : (Entries.keys fields).Nodup)
    (hf : ∀ w name, fields.lookup "name" = some w → w.text? = some name → isBlankText name = false) :
    (Store.withFields fields v).Titled := by
  intro es name he hr
  cases v with
  | document entries =>
    cases he
    unfold Field.required at hr
    rw [Entries.lookup_insertAll "name" hn] at hr
    cases hl : fields.lookup "name" with
    | some w =>
      rw [hl] at hr
      exact hf w name hl hr
    | none =>
      rw [hl, Option.none_or] at hr
      exact h entries name rfl hr
  | _ => cases he

/-- The name among the values of properties is that of the customer they are read from. -/
theorem name_of_readAll {names : List String} {values : Document} (hl : registry.readAll c names = .ok values) :
    values.lookup "name" = if "name" ∈ names then some (.string c.name) else none := by
  rw [lookup_readAll hl]
  split
  · rw [lookup_document]; rfl
  · rfl

theorem titled_of_readAll {names : List String} {values : Document} (hl : registry.readAll c names = .ok values)
    (hc : "name" ∈ names → isBlankText c.name = false) {v : Value} (h : v.Titled) :
    (Store.withFields values v).Titled := by
  refine titled_withFields h (Registry.readAll_nodup hl) fun w name hw hn => ?_
  rw [name_of_readAll hl] at hw
  split at hw
  · rename_i hm
    cases hw
    cases hn
    exact hc hm
  · cases hw

/-! ## New versions -/

theorem name_of_dressed (h : Dressed e c) : c.name = e.name := by
  induction h with
  | bare => rfl
  | slug slug number h ih => exact ih
  | identifier id h ih => exact ih
  | stamp ctx created h ih => cases created <;> exact ih

theorem name_of_lookup {doc : Document} (h : Stored.ofValue (.document doc) = .ok updated)
    (hl : doc.lookup "name" = c.document.lookup "name") : updated.name = c.name := by
  obtain ⟨_, hd, hr⟩ := ofValue?_eq_some_iff.1 (Stored.ofValue_ok h)
  cases hd
  exact Option.some.inj (hr.name.symm.trans ((Field.required_congr hl).trans (reads_document c).name))

/-- A new version has the name of the incoming one, or keeps that of the stored one. -/
theorem name_of_version {r : Repository Customer}
    (h : r.overwritten existing incoming = .ok updated ∨ r.merged existing incoming = .ok updated) :
    updated.name = incoming.name ∨ updated.name = existing.name := by
  rcases h with h | h
  · unfold overwritten at h
    rw [toDocument_eq, toDocument_eq] at h
    have hl := lookup_keepIdentity existing.document "name" r.config.identityFields incoming.document
    split at hl
    · exact Or.inr (name_of_lookup h hl)
    · exact Or.inl (name_of_lookup h hl)
  · unfold merged at h
    rw [toDocument_eq, toDocument_eq] at h
    have hl : (mergeDocuments r.config.identityFields existing.document incoming.document).lookup "name" = _ :=
      lookup_mergeDocuments _ _ (keys_document_nodup incoming)
    have hn : incoming.document.lookup "name" = some (.string incoming.name) := by rw [lookup_document]; rfl
    split at hl
    · exact Or.inr (name_of_lookup h hl)
    · rw [hn] at hl
      exact Or.inl (name_of_lookup h (hl.trans hn.symm))

/-! ## Stores -/

/-- No document of the collection has a blank name. -/
def AllTitled (store : Store) : Prop := ∀ row ∈ store.rows (Stored.collection Customer), row.doc.Titled

/-- Every stored customer passes its own checks. -/
def AllValid (config : Config) (store : Store) : Prop :=
  ∀ id c, (repository config).entities.get? id store = .ok (some c) → Entity.validate c = .ok ()

namespace AllTitled

theorem of_subset {other : Store} (h : AllTitled store)
    (hr : ∀ row ∈ other.rows (Stored.collection Customer), row ∈ store.rows (Stored.collection Customer)) :
    AllTitled other :=
  fun row hm => h row (hr row hm)

theorem valid (h : AllTitled store) (hw : store.WF) : AllValid config store := by
  intro id c hg
  obtain ⟨row, hr, -, hc⟩ := DocumentSet.get?_some hw hg
  exact validate_ok_iff.2 (name_of_titled (h row hr) hc)

theorem cleared {own : Option Uuid} {left : Store} (h : AllTitled store) (hw : store.WF)
    (hc : Cleared (repository config) e own store left) : AllTitled left :=
  h.of_subset fun _ hr => hc.mem_rows hw hr

theorem addRow (h : AllTitled store) (id : Uuid) (hv : isBlankText c.name = false) :
    AllTitled (store.addRows (Stored.collection Customer) [(id, c.toValue)]) := by
  intro row hr
  rcases Store.mem_rows_addRows hr with hr | ⟨-, hm⟩
  · exact h row hr
  · rw [List.mem_singleton, Prod.mk.injEq] at hm
    rw [hm.2]
    exact titled_toValue hv

theorem putRow (h : AllTitled store) (id : Uuid) (hv : isBlankText c.name = false) :
    AllTitled (store.putRow (Stored.collection Customer) id c.toValue) := by
  intro row hr
  rcases Store.mem_rows_putRow hr with ⟨-, hd⟩ | hr
  · rw [hd]; exact titled_toValue hv
  · exact h row hr

theorem fieldsSet (h : AllTitled store) (filter : Expr) {fields : Document}
    (hf : ∀ v : Value, v.Titled → (Store.withFields fields v).Titled) :
    AllTitled (store.reviseRows (Stored.collection Customer) (Store.fieldsSet filter fields)) :=
  fieldsSet_rows (P := fun _ v => v.Titled) filter (fun _ => hf) h

theorem recorded {records : List ChangeRecord} (h : AllTitled s.store)
    (hr : (repository config).Recorded records s t) : AllTitled t.store := by
  intro row hm
  rw [hr.left] at hm
  rcases mem_rows_recorded hm with hm | ⟨-, record, -, hd⟩
  · exact h row hm
  · rw [hd]; exact titled_record record

theorem refused {records : List ChangeRecord} (h : AllTitled s.store)
    (hr : (repository config).Refused records s t) : AllTitled t.store := by
  rw [hr.left]; exact h

theorem deactivated (h : AllTitled store) (id : Uuid) : AllTitled ((repository config).deactivateRow id store) := by
  refine h.fieldsSet _ fun v hv => titled_withFields hv (List.nodup_singleton _) fun w name hl hn => ?_
  -- a flag is not read as a name
  have hw := Entries.mem_of_lookup hl
  rw [List.mem_singleton, Prod.mk.injEq] at hw
  rw [hw.2] at hn
  cases hn

end AllTitled

/-! ## Operations -/

theorem identified_titled {slugged identified : Customer} {left : Store} {id : Uuid} {u v : State}
    (hs : Slugged (repository config) e (s.withStore left) slugged u) (hi : Identified slugged u identified id v)
    (h : AllTitled left) : AllTitled v.store :=
  h.of_subset fun _ hr => hi.rows_eq hs (Stored.collection Customer) ▸ hr

theorem created_titled (h : Created (repository config) e ctx s c t) (hw : s.store.WF) (ht : AllTitled s.store)
    (hv : isBlankText e.name = false) : AllTitled t.store := by
  have hname := name_of_dressed h.dressed
  cases h with
  | intro hc hs hi hn hr =>
    have hleft := identified_titled hs hi (ht.cleared hw hc)
    exact AllTitled.recorded (hleft.addRow _ (hname ▸ hv)) hr

theorem createFailed_titled (h : CreateFailed (repository config) e ctx s t) (hw : s.store.WF)
    (ht : AllTitled s.store) (hv : isBlankText e.name = false) : AllTitled t.store := by
  cases h with
  | exhausted hc hn => exact ht.cleared hw hc
  | taken hc hs hi hin => exact identified_titled hs hi (ht.cleared hw hc)
  | @refused left slugged identified id u v t hc hs hi hn hr =>
    have hleft := identified_titled hs hi (ht.cleared hw hc)
    have hname := name_of_dressed (.stamp ctx true (hs.dressed.identified hi))
    exact AllTitled.refused (hleft.addRow id (hname ▸ hv)) hr

section
variable {own : Uuid} {left : Store} {changes : List PropertyChange}

/-- A new version has no blank name if neither the incoming nor the stored one has. -/
theorem name_of_stamped (hv : (repository config).overwritten existing incoming = .ok updated ∨
      (repository config).merged existing incoming = .ok updated)
    (hi : isBlankText incoming.name = false) (he : isBlankText existing.name = false) :
    isBlankText (Entity.stamp ctx false updated).name = false := by
  rcases name_of_version hv with hn | hn
  · exact hn ▸ hi
  · exact hn ▸ he

theorem written_titled (h : Written (repository config) c own changes ctx (s.withStore left) t)
    (ht : AllTitled left) (hn : isBlankText c.name = false) : AllTitled t.store := by
  cases h with
  | intro hid hin hr => exact AllTitled.recorded (ht.putRow _ hn) hr

theorem writeFailed_titled (h : WriteFailed (repository config) c own changes ctx (s.withStore left) t)
    (ht : AllTitled left) (hn : isBlankText c.name = false) : AllTitled t.store := by
  cases h with
  | missing h => exact ht
  | refused hid hin hr => exact AllTitled.refused (ht.putRow _ hn) hr

end

theorem name_of_get? {id : Uuid} (hw : store.WF) (ht : AllTitled store)
    (hg : (repository config).entities.get? id store = .ok (some existing)) : isBlankText existing.name = false :=
  validate_ok_iff.1 (ht.valid hw id existing hg)

theorem save_titled (hw : s.store.WF) (ht : AllTitled s.store) :
    AllTitled (((repository config).createOrOverwrite e ctx).leaves s).store := by
  cases hx : (repository config).createOrOverwrite e ctx s with
  | ok c t =>
    rw [Action.leaves_ok hx]
    cases createOrOverwrite_ok hw hx with
    | created hv hg h => exact created_titled h hw ht (validate_ok_iff.1 hv)
    | overwritten hi hg h =>
      cases h with
      | same hv hc hd => exact ht.cleared hw hc
      | changed hv hc hd hne hwr =>
        exact written_titled hwr (ht.cleared hw hc)
          (name_of_stamped (Or.inl hv.version) (validate_ok_iff.1 hv.valid) (name_of_get? hw ht hg))
  | error fault t =>
    rw [Action.leaves_error hx]
    rcases createOrOverwrite_error hw hx with ⟨rfl, -⟩ | h
    · exact ht
    cases h with
    | creating hv hg h => exact createFailed_titled h hw ht (validate_ok_iff.1 hv)
    | overwriting hi hg h =>
      cases h with
      | unrendered hv hc hd => exact ht.cleared hw hc
      | unwritten hv hc hd hwr =>
        exact writeFailed_titled hwr (ht.cleared hw hc)
          (name_of_stamped (Or.inl hv.version) (validate_ok_iff.1 hv.valid) (name_of_get? hw ht hg))

/-- The rows of an import are checked before the first one is imported. -/
theorem importRow_titled (hw : s.store.WF) (ht : AllTitled s.store) (he : isBlankText e.name = false) :
    AllTitled (((repository config).importRow ctx force e).leaves s).store := by
  have hdrop : ∀ id, AllTitled (s.store.dropRow (Stored.collection Customer) id) := fun id =>
    ht.of_subset fun _ hr => hw.mem_of_dropRow hr
  have hstored : ∀ {existing}, Planned (repository config) e s.store (.overwrite existing e) →
      isBlankText existing.name = false := fun hp => by
    obtain ⟨row, hr, hc⟩ := hp.row_of_overwrite hw
    exact name_of_titled (ht row hr) hc
  cases hx : (repository config).importRow ctx force e s with
  | ok result t =>
    rw [Action.leaves_ok hx]
    cases importRow_ok hw hx with
    | created hp h => exact created_titled h hw ht he
    | replaced hp h => exact created_titled h (hw.dropRow _ _) (hdrop _) he
    | merged hp h =>
      cases h with
      | ignored hv hf => exact ht
      | updated hv hne hc hwr =>
        exact written_titled hwr (ht.cleared hw hc) (name_of_stamped (Or.inr hv.version) he (hstored hp))
  | error fault t =>
    rw [Action.leaves_error hx]
    rcases importRow_error hw hx with rfl | h
    · exact ht
    cases h with
    | creating hp h => exact createFailed_titled h hw ht he
    | replacing hp h =>
      rcases h with rfl | h
      · exact hdrop _
      · exact createFailed_titled h (hw.dropRow _ _) (hdrop _) he
    | merging hp h =>
      cases h with
      | unwritten hv hc hwr =>
        exact writeFailed_titled hwr (ht.cleared hw hc) (name_of_stamped (Or.inr hv.version) he (hstored hp))

theorem importRows_titled : ∀ {es : List Customer} {s : State}, (repository config).Sound s.store →
    AllTitled s.store → (∀ e ∈ es, Entity.validate e = .ok ()) →
    (s.drawnUntil ((es.mapM ((repository config).importRow ctx force)).leaves s)).Nodup →
    AllTitled ((es.mapM ((repository config).importRow ctx force)).leaves s).store
  | [], _, _, ht, _, _ => ht
  | e :: es, s, hs, ht, hv, hn => by
    rw [List.forall_mem_cons] at hv
    have hrow : AllTitled (((repository config).importRow ctx force e).leaves s).store :=
      importRow_titled hs.wf ht (validate_ok_iff.1 hv.1)
    have heff : Effects (repository config) (.free (Stored.id? e).toList) s
        (((repository config).importRow ctx force e).leaves s) := importRow_effects hs.wf trivial (List.Subset.refl _)
    rw [Action.leaves_mapM_cons] at hn ⊢
    cases hx : (repository config).importRow ctx force e s with
    | error fault t => rwa [Action.leaves_error hx] at hrow
    | ok result u =>
      rw [Action.leaves_ok hx] at hrow heff
      rw [hx] at hn
      dsimp only at hn ⊢
      -- what the first row draws and what the others draw are distinct
      obtain ⟨m, hm⟩ := heff.advances
      obtain ⟨n, hn'⟩ := Action.Advances.mapM (advances_importRow (repository config) · ctx force) es u
      rw [State.drawnUntil_append hm hn', List.nodup_append] at hn
      exact importRows_titled (heff.sound idKey_not_registered hn.1 hs) hrow hv.2 hn.2.1

theorem bulkImport_titled {es : List Customer} (hs : (repository config).Sound s.store) (ht : AllTitled s.store)
    (hn : (s.drawnUntil (((repository config).bulkImport es ctx force).leaves s)).Nodup) :
    AllTitled (((repository config).bulkImport es ctx force).leaves s).store := by
  unfold bulkImport at hn ⊢
  rw [Action.leaves_bind] at hn ⊢
  cases hv : es.forM Entity.validate with
  | error fault => exact ht
  | ok u =>
    rw [hv] at hn
    exact importRows_titled hs ht (except_forM_ok.1 hv) hn

/-- A patch checks the version that it is about to write. -/
theorem patchRow_titled {own : Uuid} {names : List String} {values : Document} {left : Store}
    (hv : (repository config).PatchedVersion existing requested properties own updated)
    (hl : (repository config).registry.readAll updated names = .ok values) (ht : AllTitled left) :
    AllTitled ((repository config).patchRow own values left) :=
  ht.fieldsSet _ fun _ hd => titled_of_readAll hl (fun _ => validate_ok_iff.1 hv.valid) hd

theorem patch_titled {find : Action Customer} (hf : (repository config).Finds find) (hw : s.store.WF)
    (ht : AllTitled s.store) :
    AllTitled (((repository config).patch find requested properties ctx).leaves s).store := by
  cases hx : (repository config).patch find requested properties ctx s with
  | ok c t =>
    rw [Action.leaves_ok hx]
    obtain ⟨existing, row, -, hr, he, h⟩ := patch_ok hf hw hx
    cases h with
    | same hv hc hd => exact ht.cleared hw hc
    | changed hv hc hd hne hl hrec => exact AllTitled.recorded (patchRow_titled hv hl (ht.cleared hw hc)) hrec
  | error fault t =>
    rw [Action.leaves_error hx]
    rcases patch_error hf hw hx with rfl | ⟨existing, row, -, hr, he, h⟩
    · exact ht
    cases h with
    | unrendered hv hc hd => exact ht.cleared hw hc
    | unread hv hc hd hl => exact ht.cleared hw hc
    | refused hv hc hd hl hrec => exact AllTitled.refused (patchRow_titled hv hl (ht.cleared hw hc)) hrec

theorem softDelete_titled {id : Uuid} (hw : s.store.WF) (ht : AllTitled s.store) :
    AllTitled (((repository config).softDeleteById id ctx).leaves s).store := by
  cases hx : (repository config).softDeleteById id ctx s with
  | ok c t =>
    rw [Action.leaves_ok hx]
    cases softDeleteById_ok hw hx with
    | inactive hg ha => exact ht
    | active hg ha hr hc => exact AllTitled.recorded (ht.deactivated id) hr
  | error fault t =>
    rw [Action.leaves_error hx]
    rcases softDeleteById_error hw hx with rfl | h
    · exact ht
    cases h with
    | refused hg ha hr => exact AllTitled.refused (ht.deactivated id) hr
    | unread hg ha hr hc => exact AllTitled.recorded (ht.deactivated id) hr

theorem delete_titled {id : Uuid} (hw : s.store.WF) (ht : AllTitled s.store) :
    AllTitled (((repository config).deleteById id ctx).leaves s).store := by
  have hdrop : AllTitled (s.store.dropRow (Stored.collection Customer) id) :=
    ht.of_subset fun _ hr => hw.mem_of_dropRow hr
  cases hx : (repository config).deleteById id ctx s with
  | ok u t =>
    rw [Action.leaves_ok hx]
    cases deleteById_ok hx with
    | intro hg hr => exact AllTitled.recorded hdrop hr
  | error fault t =>
    rw [Action.leaves_error hx]
    rcases deleteById_error hx with rfl | ⟨existing, hg, hr⟩
    · exact ht
    · exact AllTitled.refused hdrop hr

/-! ## Patches of many -/

/-- A patch of many that writes a blank name into at least one document. -/
def Blanks (config : Config) (s : State) : Call Customer → Prop
  | .patchMany filter requested properties =>
    isBlankText requested.name = true ∧ "name" ∈ properties ∧
      ∃ n t, (repository config).patchMany filter requested properties s = .ok n t ∧ 0 < n
  | _ => False

/-- A patch of many changes as many documents as satisfy the predicate. -/
theorem patchMany_count {filter : Expr} {n : Nat}
    (h : (repository config).patchMany filter requested properties s = .ok n t) :
    n = ((s.store.rows (Stored.collection Customer)).filter fun row => filter.holds row.doc).length := by
  unfold patchMany at h
  obtain ⟨_, -, h⟩ := Action.bind_ofExcept_ok h
  obtain ⟨values, -, h⟩ := Action.bind_ofExcept_ok h
  exact Store.updateFields_count (Action.change_ok h).1

theorem titled_patchMany_iff {filter : Expr} (hs : (repository config).Sound s.store) (ht : AllTitled s.store) :
    AllTitled (((repository config).patchMany filter requested properties).leaves s).store ↔
      ¬ Blanks config s (.patchMany filter requested properties) := by
  cases hx : (repository config).patchMany filter requested properties s with
  | error fault t =>
    rw [Action.leaves_error hx, patchMany_error hx]
    refine ⟨fun _ hb => ?_, fun _ => ht⟩
    obtain ⟨-, -, n, t, hok, -⟩ := hb
    rw [hx] at hok; cases hok
  | ok n t =>
    rw [Action.leaves_ok hx]
    obtain ⟨values, hl, rfl⟩ := patchMany_ok hs.wf hx
    constructor
    · rintro hafter ⟨hblank, hm, n', t', hok, hpos⟩
      rw [hx] at hok
      cases hok
      -- the first document that satisfies the predicate now has the name that was asked for
      rw [patchMany_count hx] at hpos
      obtain ⟨row, hrow⟩ := List.exists_mem_of_length_pos hpos
      obtain ⟨hr, hh⟩ := List.mem_filter.1 hrow
      obtain ⟨es, hdoc, -⟩ := hs.keyed row hr
      have hnew := hafter { row with doc := Store.fieldsSet filter values row } <| by
        change _ ∈ (s.store.reviseRows _ _).rows _
        rw [Store.rows_reviseRows]
        exact List.mem_map.2 ⟨row, hr, rfl⟩
      have hname : Field.required Value.text? "name" (Entries.insertAll es values) = some requested.name := by
        unfold Field.required
        rw [lookup_insertAll_readAll hl, if_pos hm, lookup_document]
        rfl
      have hfalse := hnew (Entries.insertAll es values) requested.name
        (by show Store.fieldsSet filter values row = _; rw [Store.fieldsSet, if_pos hh, hdoc]; rfl) hname
      rw [hblank] at hfalse; cases hfalse
    · intro hb row hr
      by_cases hm : "name" ∈ properties ∧ isBlankText requested.name = true
      · -- no document satisfies the predicate
        have hn : n = 0 := by
          by_contra hpos
          exact hb ⟨hm.2, hm.1, n, _, hx, Nat.pos_of_ne_zero hpos⟩
        rw [patchMany_count hx, List.length_eq_zero_iff, List.filter_eq_nil_iff] at hn
        change row ∈ (s.store.reviseRows _ _).rows _ at hr
        rw [Store.rows_reviseRows] at hr
        obtain ⟨old, ho, rfl⟩ := List.mem_map.1 hr
        show (Store.fieldsSet filter values old).Titled
        rw [Store.fieldsSet, if_neg (hn old ho)]
        exact ht old ho
      · refine ht.fieldsSet filter (fun v hv => titled_of_readAll hl (fun hn => ?_) hv) row hr
        rw [← Bool.not_eq_true]
        exact fun hblank => hm ⟨hn, hblank⟩

/-- Every call keeps blank names out of the store, unless it is a patch of many that writes one. -/
theorem titled_after_iff {call : Call Customer} (hs : (repository config).Sound s.store)
    (hf : Fresh call.named s (call.after (repository config) s)) (ht : AllTitled s.store) :
    AllTitled (call.after (repository config) s).store ↔ ¬ Blanks config s call := by
  have kept : AllTitled (call.after (repository config) s).store → ¬ Blanks config s call →
      (AllTitled (call.after (repository config) s).store ↔ ¬ Blanks config s call) :=
    fun h hb => ⟨fun _ => hb, fun _ => h⟩
  cases call with
  | write w ctx =>
    refine kept ?_ fun h => h
    rcases w.save_or_patch (repository config) ctx with ⟨e, rfl⟩ | ⟨-, find, requested, hfind, hrun⟩
    · exact save_titled hs.wf ht
    · unfold Call.after
      dsimp only
      rw [hrun]
      exact patch_titled hfind hs.wf ht
  | bulkImport es ctx force => exact kept (bulkImport_titled hs ht hf.distinct) fun h => h
  | patchMany filter requested properties => exact titled_patchMany_iff hs ht
  | softDelete id ctx => exact kept (softDelete_titled hs.wf ht) fun h => h
  | delete id ctx => exact kept (delete_titled hs.wf ht) fun h => h
  | reserve counter increment =>
    obtain ⟨counters, hr⟩ := leaves_reserve counter increment s
    refine kept ?_ fun h => h
    unfold Call.after
    dsimp only
    rw [hr]
    exact ht
  | assignSlugs es =>
    obtain ⟨counters, hr⟩ := leaves_assignSlugs (repository config) es s
    refine kept ?_ fun h => h
    unfold Call.after
    dsimp only
    rw [hr]
    exact ht

/-! ## Runs -/

variable {ids : IdSupply} {calls : List (Call Customer)}

/-- Along a run there are no blank names as long as no patch of many writes one, and only so long. -/
theorem titled_run_iff (hf : Call.AllFresh (repository config) { ids } calls) :
    (∀ before, before <+: calls → AllTitled (Call.afterAll (repository config) { ids } before).store) ↔
      ∀ before call, before ++ [call] <+: calls →
        ¬ Blanks config (Call.afterAll (repository config) { ids } before) call := by
  have step : ∀ before call, before ++ [call] <+: calls →
      AllTitled (Call.afterAll (repository config) { ids } before).store →
      (AllTitled (Call.afterAll (repository config) { ids } (before ++ [call])).store ↔
        ¬ Blanks config (Call.afterAll (repository config) { ids } before) call) := by
    intro before call hb ht
    have hs := (Reachable.before hf ((List.prefix_append before [call]).trans hb)).sound idKey_not_registered
    obtain ⟨later, rfl⟩ := hb
    rw [Call.afterAll_append]
    exact titled_after_iff hs hf.append.1.append.2.1 ht
  constructor
  · intro h before call hb
    exact (step before call hb (h before ((List.prefix_append before [call]).trans hb))).1 (h _ hb)
  · intro h before
    -- the induction is on the last call
    induction before using List.reverseRecOn with
    | nil => exact fun _ => nofun
    | append_singleton before call ih =>
      intro hb
      exact (step before call hb (ih ((List.prefix_append before [call]).trans hb))).2 (h before call hb)

/-- Under the default fields, with the log elsewhere, every document can be read, so that a blank name is that of a
customer. -/
theorem titled_of_valid (hdef : config.UsesDefaultFields) (ha : config.auditCollection ≠ Stored.collection Customer)
    {allowed : Call Customer → Prop} (h : Reachable (repository config) allowed s) (hv : AllValid config s.store) :
    AllTitled s.store := by
  obtain ⟨hs, hcan⟩ := h.invariant (P := Canonical config fun _ => True) idKey_not_registered nofun
    fun _ _ _ _ he hs hc => hc.effect hdef (fun _ _ => trivial) (fun _ => ha) he hs
  intro row hr
  rcases hcan row hr with ⟨c, -, hdoc, -⟩ | ⟨hlog, -⟩
  · rw [hdoc]
    refine titled_toValue (validate_ok_iff.1 (hv row.id c ?_))
    refine DocumentSet.get?_of_doc ((hs.wf _).get?_eq_some_iff.2 ⟨row, hr, rfl, rfl⟩) ?_
    rw [hdoc]
    exact ofValue?_toValue c
  · exact absurd hlog ha

/-- Along every run every stored customer passes its own checks, unless a patch of many writes a blank name. Under
the default fields, with the log elsewhere, it is also necessary that none does. -/
theorem valid_along_run (hf : Call.AllFresh (repository config) { ids } calls) :
    ((∀ before call, before ++ [call] <+: calls →
        ¬ Blanks config (Call.afterAll (repository config) { ids } before) call) →
      ∀ before, before <+: calls → AllValid config (Call.afterAll (repository config) { ids } before).store) ∧
    (config.UsesDefaultFields → config.auditCollection ≠ Stored.collection Customer →
      (∀ before, before <+: calls → AllValid config (Call.afterAll (repository config) { ids } before).store) →
      ∀ before call, before ++ [call] <+: calls →
        ¬ Blanks config (Call.afterAll (repository config) { ids } before) call) := by
  constructor
  · intro hb before hprefix
    have hs := (Reachable.before hf hprefix).sound idKey_not_registered
    exact ((titled_run_iff hf).2 hb before hprefix).valid hs.wf
  · intro hdef ha hv
    refine (titled_run_iff hf).1 fun before hprefix => ?_
    exact titled_of_valid hdef ha (Reachable.before hf hprefix) (hv before hprefix)

/-- Ann has been created and then renamed by a patch of many. -/
def annRenamed : List (Call Customer) :=
  [.write (.save ann) morning, .patchMany (.eq "name" (.string "Ann")) bob ["name"]]

/-- The renamed customer passes its checks. -/
theorem valid_along_annRenamed : (∀ before, before <+: annRenamed → AllValid {} (afterCalls {} before).store) ∧
    ((repository {}).entities.get? (.ofNat 1) (afterCalls {} annRenamed).store).toOption.join.map (·.name) =
      some "Bob" := by
  have hf : Call.AllFresh (repository {}) { ids := { stream := fun n => .ofNat (n + 1) } } annRenamed :=
    by decide +kernel
  have hnone : ∀ before call, before ++ [call] <+: annRenamed →
      ¬ Blanks {} (afterCalls {} before) call := by
    intro before call hb
    have hm : call ∈ annRenamed := hb.subset (List.mem_append_right _ (List.mem_singleton_self call))
    rcases List.mem_cons.1 hm with rfl | hm
    · exact fun h => h
    · rw [List.mem_singleton.1 hm]
      rintro ⟨hblank, -⟩
      cases hblank
  exact ⟨(valid_along_run hf).1 hnone, by decide +kernel⟩

/-- A patch of many writes a blank name into the record of Ann. -/
def annBlanked : List (Call Customer) :=
  [.write (.save ann) morning, .patchMany (.eq "name" (.string "Ann")) { ann with name := "" } ["name"]]

theorem not_all_valid : ¬ ∀ s : State, Reachable (repository {}) (fun _ => True) s → AllValid {} s.store := by
  intro h
  have hreach : Reachable (repository {}) (fun _ => True) (afterCalls {} annBlanked) :=
    reachable_afterCalls (fun _ _ => trivial) (by decide +kernel)
  have hname : ((repository {}).entities.get? (.ofNat 1) (afterCalls {} annBlanked).store).toOption.join.map
      (·.name) = some "" := by decide +kernel
  obtain ⟨c, hg, hblank⟩ := except_found hname
  have hv := validate_ok_iff.1 (h _ hreach (.ofNat 1) c hg)
  rw [hblank] at hv
  cases hv

end Customer

end Dossier
