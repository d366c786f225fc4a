/-
The course of one operation on customers. Inactive customers make way, then at most one change is
made, then it is recorded. Where an operation stops, it stops before the change.
-/
import Dossier.Proofs.Entity.Reading
import Dossier.Proofs.Repository.FailedImport

namespace Dossier.Customer

open Repository

variable {config : Config} {given : List Customer} {dismissed : Option Uuid} {c e existing updated : Customer}
  {ctx : AuditContext} {id : Uuid} {row : Row} {named : List Uuid} {store left : Store} {s t u : State}
  {fault : Fault}

/-- A new version is the same customer. -/
theorem sameIdentity_of_version (hdef : config.UsesDefaultFields) {incoming : Customer}
    (h : (repository config).overwritten existing incoming = .ok updated ∨
      (repository config).merged existing incoming = .ok updated) : SameIdentity existing updated := by
  have same : ∀ {doc : Document}, Stored.ofValue (.document doc) = .ok updated →
      (∀ key ∈ defaultIdentityFields, doc.lookup key = existing.document.lookup key) →
      SameIdentity existing updated := by
    intro doc h hl
    obtain ⟨doc', hd, hr⟩ := ofValue?_eq_some_iff.1 (Stored.ofValue_ok h)
    cases hd
    exact (reads_document existing).sameIdentity hr fun key hk => (hl key hk).symm
  rcases h with h | h
  · unfold overwritten at h
    rw [toDocument_eq, toDocument_eq] at h
    exact same h fun key hk => by rw [lookup_keepIdentity, if_pos (hdef.mem_identityFields.2 hk)]
  · unfold merged at h
    rw [toDocument_eq, toDocument_eq] at h
    refine same h fun key hk => ?_
    have hi : (key == "_id" || (repository config).config.identityFields.contains key) = true := by
      rw [Bool.or_eq_true, List.contains_iff_mem]
      exact Or.inr (hdef.mem_identityFields.2 hk)
    rw [lookup_mergeDocuments _ _ (keys_document_nodup incoming), if_pos hi]

/-! ## Making way -/

/-- An inactive customer is stored under an identifier. -/
def Inactive (id : Uuid) (store : Store) : Prop :=
  ∃ row ∈ store.rows (Stored.collection Customer), row.id = id ∧
    ∃ c, ofValue? row.doc = some c ∧ c.active = false

/-- Customers have been removed that are inactive, or whose removal has been asked for. -/
inductive Vacated (dismissed : Option Uuid) (store : Store) : Store → Prop
  | refl : Vacated dismissed store store
  | drop {left : Store} {id : Uuid} (h : Vacated dismissed store left)
      (hi : dismissed = some id ∨ Inactive id left) :
      Vacated dismissed store (left.dropRow (Stored.collection Customer) id)

namespace Vacated

theorem wf (h : Vacated dismissed store left) (hw : store.WF) : left.WF := by
  induction h with
  | refl => exact hw
  | drop h hi ih => exact ih.dropRow _ _

theorem counters_eq (h : Vacated dismissed store left) : left.counters = store.counters := by
  induction h with
  | refl => rfl
  | drop h hi ih => exact ih

theorem mem_rows (h : Vacated dismissed store left) (hw : store.WF)
    (hr : row ∈ left.rows (Stored.collection Customer)) : row ∈ store.rows (Stored.collection Customer) := by
  induction h with
  | refl => exact hr
  | drop h hi ih => exact ih ((h.wf hw).mem_of_dropRow hr)

/-- Active customers stay, unless their removal has been asked for. -/
theorem spares (h : Vacated dismissed store left) (hw : store.WF)
    (hr : row ∈ store.rows (Stored.collection Customer)) (hc : ofValue? row.doc = some c) (ha : c.active = true)
    (hd : dismissed ≠ some row.id) : row ∈ left.rows (Stored.collection Customer) := by
  induction h with
  | refl => exact hr
  | @drop left id h hi ih =>
    rw [(h.wf hw).rows_dropRow, List.mem_filter, decide_eq_true_iff]
    refine ⟨ih, ?_⟩
    rintro rfl
    rcases hi with hi | ⟨gone, hgone, hid, d, hread, hinactive⟩
    · exact hd hi
    · -- the customer that has been removed would be this one
      rw [((h.wf hw) _).row_ext hgone ih hid, hc] at hread
      cases hread
      rw [ha] at hinactive; cases hinactive

theorem trans {middle : Store} (h : Vacated dismissed store middle) (h' : Vacated dismissed middle left) :
    Vacated dismissed store left := by
  induction h' with
  | refl => exact h
  | drop _ hi ih => exact ih.drop hi

theorem ofCleared {own : Option Uuid} (hs : (repository config).Sound store)
    (h : Cleared (repository config) e own store left) : Vacated dismissed store left := by
  cases h with
  | unkeyed => exact .refl
  | unmatched => exact .refl
  | @retired filter stale id hf hm hi ha hin =>
    obtain ⟨first, others, -, hr, hid, hc⟩ := hs.find?_some hm hi
    exact .drop .refl (Or.inr ⟨first, hr, hid, stale, hc, ha⟩)

end Vacated

/-! ## The course of an operation -/

/-- No active customer is stored under the identifier of an entity. -/
def Unoccupied (config : Config) (store : Store) (e : Customer) : Prop :=
  ∀ id c, e.id = some id → (repository config).entities.get? id store = .ok (some c) → c.active = false

/-- The one change of an operation. -/
inductive Change (config : Config) (given : List Customer) (dismissed : Option Uuid) (s : State) : State → Prop
  | vacates {t : State} (h : Vacated dismissed s.store t.store) : Change config given dismissed s t
  | creates {e slugged identified : Customer} {left : Store} {id : Uuid} {u v : State} (ctx : AuditContext)
      (hg : e ∈ given) (ho : Unoccupied config s.store e) (hv : Vacated dismissed s.store left)
      (hs : Slugged (repository config) e (s.withStore left) slugged u) (hi : Identified slugged u identified id v)
      (hn : (v.store.collection (Stored.collection Customer)).contains id = false) :
      Change config given dismissed s
        (v.withStore (v.store.addRows (Stored.collection Customer) [(id, (stamp ctx true identified).toValue)]))
  | rewrites {existing updated : Customer} {left : Store} {row : Row} (ctx : AuditContext)
      (hv : Vacated dismissed s.store left) (hr : row ∈ s.store.rows (Stored.collection Customer))
      (he : ofValue? row.doc = some existing) (hu : SameIdentity existing updated) :
      Change config given dismissed s
        (s.withStore (left.putRow (Stored.collection Customer) row.id (stamp ctx false updated).toValue))
  | sets {u : Customer} {names : List String} {values : Document} {left : Store} (filter : Expr)
      (hv : Vacated dismissed s.store left) (hl : registry.readAll u names = .ok values) :
      Change config given dismissed s
        (s.withStore (left.reviseRows (Stored.collection Customer) (Store.fieldsSet filter values)))

/-- An operation makes a change, which is then recorded. -/
def Course (config : Config) (given : List Customer) (dismissed : Option Uuid) (s t : State) : Prop :=
  ∃ v records, Change config given dismissed s v ∧ (repository config).Recorded records v t

theorem Change.course (h : Change config given dismissed s t) : Course config given dismissed s t :=
  ⟨t, [], h, rfl, nofun⟩

theorem Course.stays : Course config given dismissed s s := (Change.vacates .refl).course

/-! ## Saves -/

theorem Created.course (store : Store) (ho : Unoccupied config s.store e) (hg : e ∈ given)
    (hv : Vacated dismissed s.store store) (hs : (repository config).Sound store)
    (h : Created (repository config) e ctx (s.withStore store) c t) :
    Course config given dismissed s t := by
  cases h with
  | intro hc hsl hi hn hr => exact ⟨_, _, .creates ctx hg ho (hv.trans (.ofCleared hs hc)) hsl hi hn, hr⟩

theorem Written.course {own : Uuid} {cleared : Store} {changes : List PropertyChange} {incoming : Customer}
    (hdef : config.UsesDefaultFields) (hs : (repository config).Sound s.store)
    (hr : row ∈ s.store.rows (Stored.collection Customer)) (he : ofValue? row.doc = some existing)
    (hv : (repository config).overwritten existing incoming = .ok updated ∨
      (repository config).merged existing incoming = .ok updated)
    (hc : Cleared (repository config) updated (some own) s.store cleared)
    (h : Written (repository config) (Entity.stamp ctx false updated) own changes ctx (s.withStore cleared) t) :
    Course config given dismissed s t := by
  have hsame := sameIdentity_of_version hdef hv
  cases h with
  | @intro id _ hi hin hrec =>
    -- the row that is written is the one that the stored version has been read from
    have hid : id = row.id := by
      have hown := (hs.keyed row hr).id_eq (e := existing) he
      exact Option.some.inj (hi.symm.trans (hsame.id.symm.trans hown))
    subst hid
    exact ⟨_, _, .rewrites ctx (.ofCleared hs hc) hr he hsame, hrec⟩

theorem save_course (hdef : config.UsesDefaultFields) (hs : (repository config).Sound s.store)
    (hf : Fresh (Stored.id? e).toList s (((repository config).createOrOverwrite e ctx).leaves s)) :
    Course config [e] none s (((repository config).createOrOverwrite e ctx).leaves s) := by
  cases hx : (repository config).createOrOverwrite e ctx s with
  | ok c t =>
    rw [Action.leaves_ok hx]
    cases createOrOverwrite_ok hs.wf hx with
    | created hv hg h =>
      refine Created.course s.store (fun id c hi hget => ?_) (List.mem_singleton_self e) .refl hs h
      rw [hg id hi] at hget; cases hget
    | overwritten hi hg h =>
      obtain ⟨row, hr, -, he⟩ := DocumentSet.get?_some hs.wf hg
      cases h with
      | same hv hc hd => exact (Change.vacates (.ofCleared hs hc)).course
      | changed hv hc hd hne hw => exact Written.course hdef hs hr he (Or.inl hv.version) hc hw
  | error fault t =>
    rw [Action.leaves_error hx] at hf ⊢
    rcases createOrOverwrite_error hs.wf hx with ⟨rfl, -⟩ | h
    · exact .stays
    obtain ⟨c, own, cleared, -, hc, ht⟩ := h.left idKey_not_registered hs hf
    exact (Change.vacates (ht ▸ .ofCleared hs hc)).course

/-! ## Rows of an import -/

theorem unoccupied_of_unstored (h : (repository config).Unstored e store) : Unoccupied config store e := by
  intro id c hi hget
  rw [h id hi] at hget; cases hget

theorem unoccupied_of_inactive (hi : Stored.id? e = some id)
    (hg : (repository config).entities.get? id store = .ok (some existing)) (ha : existing.active = false) :
    Unoccupied config store e := by
  intro id' c hi' hget
  cases hi.symm.trans hi'
  cases hg.symm.trans hget
  exact ha

theorem Vacated.ofInactive (hw : store.WF)
    (hg : (repository config).entities.get? id store = .ok (some existing)) (ha : existing.active = false) :
    Vacated dismissed store (store.dropRow (Stored.collection Customer) id) := by
  obtain ⟨row, hr, hid, he⟩ := DocumentSet.get?_some hw hg
  exact .drop .refl (Or.inr ⟨row, hr, hid, existing, he, ha⟩)

theorem importRow_course {force : Bool} (hdef : config.UsesDefaultFields) (hs : (repository config).Sound s.store)
    (hm : (Stored.id? e).toList ⊆ named) (hf : Fresh named s (((repository config).importRow ctx force e).leaves s)) :
    Course config [e] none s (((repository config).importRow ctx force e).leaves s) := by
  cases hx : (repository config).importRow ctx force e s with
  | ok result t =>
    rw [Action.leaves_ok hx]
    cases importRow_ok hs.wf hx with
    | created hp h =>
      cases hp with
      | create hg =>
        exact Created.course s.store (unoccupied_of_unstored hg) (List.mem_singleton_self e) .refl hs h
    | replaced hp h =>
      cases hp with
      | replaceStored hi hg ha =>
        exact Created.course _ (unoccupied_of_inactive hi hg ha) (List.mem_singleton_self e) (.ofInactive hs.wf hg ha)
          (hs.dropRow _) h
    | merged hp h =>
      obtain ⟨row, hr, he⟩ := hp.row_of_overwrite hs.wf
      cases h with
      | ignored hv hforce => exact .stays
      | updated hv hne hc hw => exact Written.course hdef hs hr he (Or.inr hv.version) hc hw
  | error fault t =>
    rw [Action.leaves_error hx] at hf ⊢
    rcases importRow_error hs.wf hx with rfl | h
    · exact .stays
    cases h with
    | creating hp h =>
      cases hp with
      | create hg =>
        obtain ⟨cleared, hc, ht⟩ := h.left idKey_not_registered hs
          (fun id hi => DocumentSet.get?_none hs.wf (hg id hi)) hm hf
        exact (Change.vacates (ht ▸ .ofCleared hs hc)).course
    | @replacing stale _ hp h =>
      cases hp with
      | @replaceStored _ existing hi hg ha =>
        have hgone : Vacated none s.store (s.store.dropRow (Stored.collection Customer) stale) :=
          .ofInactive hs.wf hg ha
        rcases h with rfl | h
        · exact (Change.vacates hgone).course
        -- identifiers that are drawn after the stale customer has gone are still new
        have hdrop : Effects (repository config) (.free named) s _ := .single (.drops stale)
        obtain ⟨cleared, hc, ht⟩ := h.left idKey_not_registered (hs.dropRow stale) (hs.not_stored_of_dropped hi) hm
          (hdrop.fresh_rest idKey_not_registered hs (h.effects trivial hm) hf)
        exact (Change.vacates (ht ▸ hgone.trans (.ofCleared (hs.dropRow stale) hc))).course
    | merging hp h =>
      cases h with
      | unwritten hv hc hw =>
        have ht := hw.left idKey_not_registered hs hf hv.own_eq (Or.inr hv.version) hc
        exact (Change.vacates (ht ▸ .ofCleared hs hc)).course

/-! ## Patches -/

theorem patch_course {find : Action Customer} {requested : Customer} {properties : List String}
    (hfind : (repository config).Finds find) (hs : (repository config).Sound s.store)
    (hf : Fresh named s (((repository config).patch find requested properties ctx).leaves s)) :
    Course config given dismissed s (((repository config).patch find requested properties ctx).leaves s) := by
  cases hx : (repository config).patch find requested properties ctx s with
  | ok c t =>
    rw [Action.leaves_ok hx]
    obtain ⟨existing, row, -, hr, he, h⟩ := patch_ok hfind hs.wf hx
    cases h with
    | same hv hc hd => exact (Change.vacates (.ofCleared hs hc)).course
    | changed hv hc hd hne hl hrec => exact ⟨_, _, .sets _ (.ofCleared hs hc) hl, hrec⟩
  | error fault t =>
    rw [Action.leaves_error hx] at hf ⊢
    rcases patch_error hfind hs.wf hx with rfl | ⟨existing, row, -, hr, he, h⟩
    · exact .stays
    · exact (patch_completes hs hf hr he h).elim

theorem write_course {w : Write Customer} (hdef : config.UsesDefaultFields) (hs : (repository config).Sound s.store)
    (hf : Fresh (Call.write w ctx).named s ((w.run (repository config) ctx).leaves s)) :
    Course config (Call.write w ctx).given none s ((w.run (repository config) ctx).leaves s) := by
  rcases w.save_or_patch (repository config) ctx with ⟨e, rfl⟩ | ⟨-, find, requested, hfind, hrun⟩
  · exact save_course hdef hs hf
  · rw [hrun] at hf ⊢
    exact patch_course hfind hs hf

theorem patchMany_course {filter : Expr} {requested : Customer} {properties : List String}
    (hs : (repository config).Sound s.store) :
    Course config given dismissed s (((repository config).patchMany filter requested properties).leaves s) := by
  cases hx : (repository config).patchMany filter requested properties s with
  | ok n t =>
    rw [Action.leaves_ok hx]
    obtain ⟨values, hl, rfl⟩ := patchMany_ok hs.wf hx
    exact (Change.sets filter .refl hl).course
  | error fault t =>
    rw [Action.leaves_error hx, patchMany_error hx]
    exact .stays

/-! ## Deletions -/

/-- Taking the activity flag away sets a property. -/
theorem Change.ofDeactivation (hdef : config.UsesDefaultFields) :
    Change config given dismissed s (s.withStore ((repository config).deactivateRow id s.store)) := by
  have hl : registry.readAll { name := "", balance := .zero, active := false } ["active"] =
      .ok [("active", .boolean false)] := rfl
  unfold deactivateRow patchRow
  rw [show (repository config).config.activeField = "active" from hdef.activeField]
  exact .sets _ .refl hl

theorem softDelete_course (hdef : config.UsesDefaultFields) (hs : (repository config).Sound s.store)
    (hf : Fresh named s (((repository config).softDeleteById id ctx).leaves s)) :
    Course config given dismissed s (((repository config).softDeleteById id ctx).leaves s) := by
  cases hx : (repository config).softDeleteById id ctx s with
  | ok c t =>
    rw [Action.leaves_ok hx]
    cases softDeleteById_ok hs.wf hx with
    | inactive hg ha => exact .stays
    | active hg ha hr hc => exact ⟨_, _, .ofDeactivation hdef, hr⟩
  | error fault t =>
    rw [Action.leaves_error hx] at hf ⊢
    rcases softDeleteById_error hs.wf hx with rfl | h
    · exact .stays
    cases h with
    | refused hg ha hr =>
      exact (Effects.not_refused idKey_not_registered hs hr hf (.single (.deactivates hg))).elim
    | unread hg ha hr hc => exact ⟨_, _, .ofDeactivation hdef, hr⟩

theorem delete_course (hs : (repository config).Sound s.store)
    (hf : Fresh named s (((repository config).deleteById id ctx).leaves s)) :
    Course config given (some id) s (((repository config).deleteById id ctx).leaves s) := by
  cases hx : (repository config).deleteById id ctx s with
  | ok u t =>
    rw [Action.leaves_ok hx]
    cases deleteById_ok hx with
    | intro hg hr => exact ⟨_, _, .vacates (.drop .refl (Or.inl rfl)), hr⟩
  | error fault t =>
    rw [Action.leaves_error hx] at hf ⊢
    rcases deleteById_error hx with rfl | ⟨existing, hg, hr⟩
    · exact .stays
    · exact (Effects.not_refused idKey_not_registered hs hr hf (.single (.drops id))).elim

end Dossier.Customer
