/-
What a write leaves when it fails. A patch leaves the store as it was. A save may stop after an
inactive duplicate has made way, and then leaves the store without it and without the entity.
-/
import Dossier.Proofs.Repository.Customers

namespace Dossier

namespace Repository

variable {E : Type} [Entity E] [LawfulEntity E] {r : Repository E} {e existing : E} {ctx : AuditContext}
  {s t : State}
  {fault : Fault}

/-! ## Saves -/

/-- A creation stops with nothing changed but the duplicate that has made way. -/
theorem CreateFailed.left (hid : idKey ∉ r.registry.names) (hs : r.Sound s.store)
    (hn : ∀ id, Stored.id? e = some id → (s.store.collection (Stored.collection E)).contains id = false)
    {named : List Uuid} (hm : (Stored.id? e).toList ⊆ named) (hf : Fresh named s t)
    (h : CreateFailed r e ctx s t) :
    ∃ cleared, Cleared r e (Stored.id? e) s.store cleared ∧ t.store = cleared := by
  cases h with
  | exhausted hc hneeds => exact ⟨_, hc, rfl⟩
  | @taken cleared slugged identified id u _ hc hsl hi hin =>
    exfalso
    -- the identifier was not in the store, and making way adds none
    have hnew := hi.not_stored hsl hf rfl hn
    obtain ⟨counters, rfl⟩ := hsl.frame
    obtain ⟨n, rfl, -⟩ := hi.frame
    have hstored : (s.store.collection (Stored.collection E)).contains id = true := hc.contains hs.wf hin
    exact Bool.false_ne_true (hnew.symm.trans hstored)
  | @refused cleared slugged identified id u v _ hc hsl hi hnew hr =>
    exact (Effects.not_refused hid hs hr hf (.single (.ofIdentified ctx hc hsl hi hnew trivial (@hm _)))).elim

/-- A new version is not written at all if writing it fails. -/
theorem WriteFailed.left (hid : idKey ∉ r.registry.names) (hs : r.Sound s.store) {named : List Uuid}
    (hf : Fresh named s t) {incoming updated : E} {own : Uuid} {cleared : Store} {changes : List PropertyChange}
    (ho : Stored.id? existing = some own)
    (hv : r.overwritten existing incoming = .ok updated ∨ r.merged existing incoming = .ok updated)
    (hc : Cleared r updated (some own) s.store cleared)
    (h : WriteFailed r (Entity.stamp ctx false updated) own changes ctx (s.withStore cleared) t) :
      t.store = cleared := by
  cases h with
  | missing => rfl
  | refused hi hin hr =>
    rw [LawfulEntity.id_stamp] at hi
    exact (Effects.not_refused hid hs hr hf (.single (.replaces ctx trivial ho hv hc hi))).elim

/-- An overwrite stops with nothing changed but the duplicate that has made way. -/
theorem OverwriteFailed.left (hid : idKey ∉ r.registry.names) (hs : r.Sound s.store) {named : List Uuid}
    (hf : Fresh named s t) (h : OverwriteFailed r existing e ctx s t) : ∃ own updated cleared,
      r.NewVersion existing e own updated ∧ Cleared r updated (some own) s.store cleared ∧ t.store = cleared := by
  cases h with
  | unrendered hv hc hd => exact ⟨_, _, _, hv, hc, rfl⟩
  | unwritten hv hc hd hw => exact ⟨_, _, _, hv, hc, hw.left hid hs hf hv.own_eq (Or.inl hv.version) hc⟩

theorem SaveFailed.left (hid : idKey ∉ r.registry.names) (hs : r.Sound s.store)
    (hf : Fresh (Stored.id? e).toList s t) (h : SaveFailed r e ctx s t) : ∃ c own cleared,
      r.candidate e s.store = .ok (c, own) ∧ Cleared r c own s.store cleared ∧ t.store = cleared := by
  cases h with
  | creating hv hn h =>
    obtain ⟨cleared, hc, ht⟩ := h.left hid hs (fun id hi => DocumentSet.get?_none hs.wf (hn id hi))
      (List.Subset.refl _) hf
    refine ⟨_, _, cleared, ?_, hc, ht⟩
    cases hi : Stored.id? e with
    | none => rw [candidate_eq (Or.inl ⟨hi, rfl⟩), candidateOver_none hv, hi]
    | some id => rw [candidate_eq (Or.inr ⟨id, hi, hn id hi⟩), candidateOver_none hv, hi]
  | overwriting hi hg h =>
    obtain ⟨own, updated, cleared, hv, hc, ht⟩ := h.left hid hs hf
    exact ⟨_, _, cleared, by rw [candidate_eq (Or.inr ⟨_, hi, hg⟩), hv.candidateOver], hc, ht⟩

/-- Who would make way for a save. -/
def retiredBySave? (r : Repository E) (e : E) (store : Store) : Option Uuid :=
  match r.candidate e store with
  | .ok (c, own) => r.retired? c own store
  | .error _ => none

theorem store_of_failed_save (hid : idKey ∉ r.registry.names) (hs : r.Sound s.store)
    (hf : Fresh (Stored.id? e).toList s t) (h : r.createOrOverwrite e ctx s = .error fault t) :
    t.store = (r.retiredBySave? e s.store).elim s.store (s.store.dropRow (Stored.collection E)) := by
  unfold retiredBySave?
  rcases createOrOverwrite_error hs.wf h with ⟨rfl, hb⟩ | h
  · cases hc : r.candidate e t.store with
    | error f => rfl
    | ok candidate =>
      obtain ⟨c, own⟩ := candidate
      dsimp only
      rw [hs.retired?_eq_none (hb c own hc)]
      rfl
  · obtain ⟨c, own, cleared, hc, hcl, ht⟩ := h.left hid hs hf
    rw [hc, ht, hcl.eq_elim]

end Repository

/-- Who would make way for a write; patches that fail have removed nobody. -/
def Write.retired? {E : Type} [Entity E] (r : Repository E) (store : Store) : Write E → Option Uuid
  | save e => r.retiredBySave? e store
  | _ => none

theorem Write.retired?_of_patch {E : Type} [Entity E] {r : Repository E} {store : Store} (w : Write E)
    (hw : ¬ w.IsSave) : w.retired? r store = none := by
  cases w with
  | save e => exact (hw trivial).elim
  | patchById => rfl
  | patchBySlug => rfl
  | patchByFilter => rfl

theorem Repository.Sound.contains_retiredByWrite {E : Type} [Entity E] [LawfulEntity E] {r : Repository E}
    {store : Store}
    {w : Write E} {gone : Uuid} (h : r.Sound store) (hg : w.retired? r store = some gone) :
    (store.collection (Stored.collection E)).contains gone = true := by
  unfold Write.retired? at hg
  split at hg
  · unfold retiredBySave? at hg
    split at hg
    · exact h.contains_retired hg
    · cases hg
  · cases hg

namespace Customer

open Repository

variable {config : Config} {c existing requested : Customer} {properties : List String}
  {ctx : AuditContext} {s t : State}
  {fault : Fault}

/-! ## Patches -/

/-- The properties of a customer can always be rendered. -/
theorem renders_property (d : Differ) {key : String} (hk : key ∈ registry.names) (c : Customer) :
    ∃ text, d.renderSide (Differ.valueAt c.document key) = .ok text := by
  obtain ⟨p, hp, rfl⟩ := List.mem_map.1 hk
  unfold Differ.valueAt
  rw [(property_registry hp c c).2]
  clear hk
  revert p
  rw [← List.forall_iff_forall_mem]
  refine ⟨⟨_, rfl⟩, ?_, ?_, ⟨_, rfl⟩, ⟨_, rfl⟩⟩
  · show ∃ text, d.renderSide ((some (Value.ofOption (c.email.map .string))).filter _) = .ok text
    cases c.email <;> exact ⟨_, rfl⟩
  · show ∃ text, d.renderSide ((some (Value.ofOption (c.city.map .string))).filter _) = .ok text
    cases c.city <;> exact ⟨_, rfl⟩

/-- Versions can always be compared in registered properties. -/
theorem changes_of_registered (config : Config) {names : List String} (hn : ∀ name ∈ names, name ∈ registry.names)
    (x c : Customer) :
    ∃ changes, (repository config).changes x c (some names) = .ok changes := by
  rw [changes_eq]
  cases hd : (repository config).differ.diffDocuments x.document c.document (some names) with
  | ok changes => exact ⟨changes, rfl⟩
  | error fault =>
    obtain ⟨key, hk, -, hb | ha⟩ := Differ.changesOf_error hd
    · obtain ⟨text, ht⟩ := renders_property (repository config).differ (hn key hk) x
      rw [ht] at hb; cases hb
    · obtain ⟨text, ht⟩ := renders_property (repository config).differ (hn key hk) c
      rw [ht] at ha; cases ha

/-- A patch does not stop once duplicates have made way. -/
theorem patch_completes (hs : (repository config).Sound s.store) {named : List Uuid} (hf : Fresh named s t)
    {row : Row} (hr : row ∈ s.store.rows (Stored.collection Customer)) (he : ofValue? row.doc = some existing)
    (h : PatchFailed (repository config) existing requested properties ctx s t) : False := by
  cases h with
  | unrendered hv hc hd =>
    obtain ⟨changes, hchanges⟩ := changes_of_registered config (copyAll_ok hv.version).2 existing _
    cases hchanges.symm.trans hd
  | unread hv hc hd hl =>
    -- every property with a change has been named, and so is registered
    rw [changes_eq] at hd
    have hn := (Differ.changesOf_ok hd).1
    rw [hn] at hl
    obtain ⟨values, hval⟩ := Registry.readAll_of_registered fun name hm =>
      (copyAll_ok hv.version).2 name (List.mem_of_mem_filter hm)
    have herr := hval.symm.trans hl
    cases herr
  | refused hv hc hd hl hrec =>
    exact Effects.not_refused idKey_not_registered hs hrec hf (.single (.patches trivial hr he hv hc hd hl))

theorem left_by_failed_write {w : Write Customer} (hs : (repository config).Sound s.store)
    (hf : Fresh (Call.write w ctx).named s t) (hw : w.run (repository config) ctx s = .error fault t) :
    t.store = (w.retired? (repository config) s.store).elim s.store
      (s.store.dropRow (Stored.collection Customer)) := by
  rcases w.save_or_patch (repository config) ctx with ⟨e, rfl⟩ | ⟨hw', find, requested, hfind, hrun⟩
  · exact store_of_failed_save idKey_not_registered hs hf hw
  · rw [w.retired?_of_patch hw']
    rw [hrun] at hw
    rcases patch_error hfind hs.wf hw with rfl | ⟨existing, row, -, hr, he, hfail⟩
    · rfl
    · exact (patch_completes hs hf hr he hfail).elim

/-- What a failed write leaves: the store without the inactive customer that has made way for a save, if there
is one, and otherwise the store as it was. -/
theorem store_of_failed_write {allowed : Call Customer → Prop} {w : Write Customer}
    (h : Reachable (repository config) allowed s) (hf : Fresh (Call.write w ctx).named s t)
    (hw : w.run (repository config) ctx s = .error fault t) :
    t.store = (w.retired? (repository config) s.store).elim s.store
      (s.store.dropRow (Stored.collection Customer)) ∧
      (t.store = s.store ↔ w.retired? (repository config) s.store = none) := by
  have hs := h.sound idKey_not_registered
  have hleft := left_by_failed_write hs hf hw
  refine ⟨hleft, fun hsame => ?_, fun hn => by rw [hleft, hn]; rfl⟩
  cases hg : w.retired? (repository config) s.store with
  | none => rfl
  | some gone =>
    have hin := hs.contains_retiredByWrite hg
    rw [← hsame, hleft, hg, Option.elim_some, Store.collection_dropRow, if_pos rfl,
      (hs.wf _).contains_remove] at hin
    simp at hin

/-- A customer with a slug is retired, and the counter of slugs is used up. -/
def exhausting : List (Call Customer) :=
  [.write (.save ann) morning, .softDelete (.ofNat 1) morning, .reserve "customers" 9223372036854775806]

theorem reachable_exhausting :
    Reachable (repository { slugPrefix := "U" }) (fun _ => True) (afterCalls { slugPrefix := "U" } exhausting) :=
  reachable_afterCalls (fun _ _ => trivial) (by decide +kernel)

theorem save_cyd_exhausted : ∃ t, (Write.save cyd).run (repository { slugPrefix := "U" }) morning
      (afterCalls { slugPrefix := "U" } exhausting) = .error (.validation (.counterOverflow "customers" 1)) t ∧
    Fresh (Call.write (.save cyd) morning).named (afterCalls { slugPrefix := "U" } exhausting) t ∧
    t.store.rows "customers" = [] := by
  have h : (match (Write.save cyd).run (repository { slugPrefix := "U" }) morning
      (afterCalls { slugPrefix := "U" } exhausting) with
    | .ok _ _ => none
    | .error fault t => some (fault, decide (Fresh (Call.write (.save cyd) morning).named
      (afterCalls { slugPrefix := "U" } exhausting) t), t.store.rows "customers")) =
      some (.validation (.counterOverflow "customers" 1), true, []) := by with_unfolding_all rfl
  split at h
  · cases h
  · rename_i fault t hr
    rw [Option.some.injEq, Prod.mk.injEq, Prod.mk.injEq] at h
    exact ⟨t, by rw [hr, h.1], of_decide_eq_true h.2.1, h.2.2⟩

theorem store_of_exhausted_save : ∃ t, (Write.save cyd).run (repository { slugPrefix := "U" }) morning
      (afterCalls { slugPrefix := "U" } exhausting) = .error (.validation (.counterOverflow "customers" 1)) t ∧
    t.store = (afterCalls { slugPrefix := "U" } exhausting).store.dropRow "customers" (.ofNat 1) := by
  obtain ⟨t, hw, hf, -⟩ := save_cyd_exhausted
  have hg : (Write.save cyd).retired? (repository { slugPrefix := "U" })
      (afterCalls { slugPrefix := "U" } exhausting).store = some (.ofNat 1) := by decide +kernel
  exact ⟨t, hw, by rw [(store_of_failed_write reachable_exhausting hf hw).1, hg]; rfl⟩

/-- A save can fail after an inactive customer has made way for it. -/
theorem not_unchanged_by_failure : ¬ ∀ (config : Config) (w : Write Customer) (ctx : AuditContext) (fault : Fault)
    (s t : State), Reachable (repository config) (fun _ => True) s → Fresh (Call.write w ctx).named s t →
      w.run (repository config) ctx s = .error fault t → t.store = s.store := by
  intro h
  obtain ⟨t, hw, hf, hr⟩ := save_cyd_exhausted
  rw [h _ _ _ _ _ t reachable_exhausting hf hw] at hr
  have hl := congrArg List.length hr
  have hone : ((afterCalls { slugPrefix := "U" } exhausting).store.rows "customers").length = 1 := by decide +kernel
  rw [hone] at hl
  cases hl

end Customer

end Dossier
