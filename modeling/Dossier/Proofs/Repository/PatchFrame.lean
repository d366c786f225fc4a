/-
What a patch touches. The stored document of the customer that is found gets the requested values under the
names of the patch, where they differ, and keeps everything else, its keys and their order included. The
rest of the store stays.
-/
import Dossier.Proofs.Repository.Merge
import Dossier.Proofs.Repository.Rewriting

namespace Dossier

open Repository

/-- The look-up of a write that is a patch, and the entity whose properties are asked for. -/
def Write.patch? {E : Type} [Entity E] (r : Repository E) : Write E → Option (Action E × E)
  | save _ => none
  | patchById id requested _ => some (r.getById id, requested)
  | patchBySlug slug requested _ => some (r.getBySlug slug, requested)
  | patchByFilter filter requested _ => some (r.getByFilter filter, requested)

theorem Write.patch?_some {E : Type} [Entity E] {r : Repository E} {w : Write E} {find : Action E} {requested : E}
    (h : w.patch? r = some (find, requested)) (ctx : AuditContext) :
    r.Finds find ∧ w.run r ctx = r.patch find requested w.names ctx := by
  cases w with
  | save e => cases h
  | patchById id _ _ => cases h; exact ⟨finds_getById r id, rfl⟩
  | patchBySlug slug _ _ => cases h; exact ⟨finds_first r _ _, rfl⟩
  | patchByFilter filter _ _ => cases h; exact ⟨finds_first r _ _, rfl⟩

namespace Customer

variable {config : Config} {P : Double → Prop} {c requested updated x : Customer} {names : List String}
  {changes : List PropertyChange} {key : String} {ctx : AuditContext} {row : Row} {s t : State}

/-- A document differs from an earlier one in the named properties only, and there it has the requested values. -/
structure Touched (names : List String) (requested before after : Document) : Prop where
  /-- Neither the identifier nor a stamp can be named. -/
  registered : ∀ key ∈ names, key ∈ registry.names
  keys : Entries.keys after = Entries.keys before
  named : ∀ key ∈ names, ∃ v asked, after.lookup key = some v ∧ requested.lookup key = some asked ∧
    v.same asked = true
  unnamed : ∀ key, key ∉ names → after.lookup key = before.lookup key

/-- Properties of customers that agree are equal, since null is the only one that counts as absent. -/
theorem same_of_agree {a b : Customer} (hk : key ∈ registry.names)
    (h : Differ.agree (Differ.valueAt a.document key) (Differ.valueAt b.document key) = true) :
    ∃ v w, a.document.lookup key = some v ∧ b.document.lookup key = some w ∧ v.same w = true := by
  obtain ⟨p, hp, rfl⟩ := List.mem_map.1 hk
  have hread : ∀ c : Customer, c.document.lookup p.name = some (p.read c) := fun c => (property_registry hp c c).2
  refine ⟨p.read a, p.read b, hread a, hread b, ?_⟩
  unfold Differ.valueAt at h
  rw [hread, hread, Option.filter_some, Option.filter_some] at h
  cases ha : (p.read a).isNothing <;> cases hb : (p.read b).isNothing <;> rw [ha, hb] at h
  · exact h
  · cases h
  · cases h
  · rw [isNothing_property hp a ha, isNothing_property hp b hb]
    rfl

/-- Writing the properties that differ touches the named ones only. -/
theorem touched_of_changes (hdef : config.UsesDefaultFields)
    (hv : (repository config).registry.copyAll names requested x = .ok updated)
    (hd : (repository config).changes x updated (some names) = .ok changes) (hb : requested.balance.isNaN = false) :
    Touched names requested.document x.document (overlay (changes.map (·.property)) updated x).document := by
  obtain ⟨hcopied, hregistered⟩ := copyAll_ok hv
  have hchanged : ∀ key ∈ changes.map (·.property), key ∈ names := by
    rw [changes_eq] at hd
    rw [(Differ.changesOf_ok hd).1]
    exact fun key hk => List.mem_of_mem_filter hk
  refine ⟨hregistered, keys_overlay .., fun key hk => same_of_agree (hregistered key hk) ?_, fun key hk => ?_⟩
  · have hi : (repository config).differ.isIdentity key = false := by
      rw [hdef.isIdentity_eq]
      exact not_identity_of_property (hregistered key hk)
    have hasked : Differ.valueAt updated.document key = Differ.valueAt requested.document key :=
      Differ.valueAt_congr (by rw [hcopied, lookup_overlay, if_pos ⟨hk, hregistered key hk⟩])
    rcases valueAt_overlay_changes hi hcopied hd with h | h
    · rw [h, hasked]
      exact agree_self hb key
    · rwa [hasked] at h
  · rw [lookup_overlay, if_neg fun h => hk (hchanged key h.1)]

/-- A patch touches the named properties of one customer. -/
theorem Patched.touches (hdef : config.UsesDefaultFields) (ha : config.auditCollection ≠ Stored.collection Customer)
    (hs : (repository config).Sound s.store) (hc : Canonical config P s.store)
    (hr : row ∈ s.store.rows (Stored.collection Customer)) (he : ofValue? row.doc = some x)
    (hb : requested.balance.isNaN = false) (h : Patched (repository config) x requested names ctx s c t) :
    ∃ y, Touched names requested.document x.document y.document ∧ Rewritten config row.id y s.store t.store := by
  obtain ⟨hx, hdoc, -⟩ := (hc row hr).doc_eq he
  cases h with
  | @same own updated cleared hv hcl hd =>
    cases Option.some.inj (hv.own_eq.symm.trans hx)
    -- nothing is written, which is the same as writing no property
    have hnothing : overlay ([].map PropertyChange.property) updated c = c := rfl
    have htouched := touched_of_changes hdef hv.version hd hb
    have hemail := email_overlay_changes hdef (copyAll_ok hv.version).1 hd
    rw [hnothing] at htouched hemail
    have hm : MadeWay row.id updated.email s.store cleared := .ofCleared hdef.idField hs hc hcl
    exact ⟨c, htouched, MadeWay.kept ha (hemail ▸ hm) (hcl.wf hs.wf) hr hdoc⟩
  | @changed own updated cleared changes values _ hv hcl hd hne hl hrec =>
    cases Option.some.inj (hv.own_eq.symm.trans hx)
    have hm : MadeWay row.id c.email s.store cleared := .ofCleared hdef.idField hs hc hcl
    rw [patchRow_eq (hs.cleared hcl) (hc.cleared hs.wf hcl) hdef.idField hl
      (row_of_cleared hs.wf hc hcl hr he hx)] at hrec
    refine ⟨_, touched_of_changes hdef hv.version hd hb, MadeWay.written ha ?_ (hcl.wf hs.wf) hr hrec⟩
    rw [email_overlay_changes hdef (copyAll_ok hv.version).1 hd]
    exact hm

/-- A patch that succeeds touches nothing but the named properties of the stored customer that it finds: the rest of
its document, all other records and all counters are as they were, except for one inactive customer that may have had
the patched address. -/
theorem patch_touches_named {allowed : Call Customer → Prop} (hdef : config.UsesDefaultFields)
    (ha : config.auditCollection ≠ Stored.collection Customer) (h : Reachable (repository config) allowed s)
    {w : Write Customer} {find : Action Customer} (hw : w.patch? (repository config) = some (find, requested))
    (hb : requested.balance.isNaN = false) (hx : w.run (repository config) ctx s = .ok c t) :
    ∃ x y id, find s = .ok x s ∧ x.id = some id ∧ s.store.document? id = some x.document ∧
      t.store.document? id = some y.document ∧ Touched w.names requested.document x.document y.document ∧
      Rewritten config id y s.store t.store := by
  obtain ⟨hs, hc⟩ := canonical_of_reachable (P := fun _ => True) hdef ha (fun _ _ _ _ => trivial) h
  obtain ⟨hfind, hrun⟩ := Write.patch?_some hw ctx
  rw [hrun] at hx
  obtain ⟨x, row, hfound, hr, he, hp⟩ := patch_ok hfind hs.wf hx
  obtain ⟨y, htouched, hrewritten⟩ := Patched.touches hdef ha hs hc hr he hb hp
  obtain ⟨hid, hdoc, -⟩ := (hc row hr).doc_eq he
  exact ⟨x, y, row.id, hfound, hid, document?_of_row hs.wf hr hdoc, document?_of_get? hrewritten.stored, htouched,
    hrewritten⟩

/-- A patch of Bob that asks for another name and the address of Ann, but names the address only. -/
def bobMoves : Write Customer := .patchById (.ofNat 3) { bob with name := "Rob", email := some "a@x" } ["email"]

theorem bob_keeps_name : ∃ (c : Customer) (t : State) (x y : Customer) (id : Uuid),
    bobMoves.run (repository {}) evening annRetired = .ok c t ∧
    annRetired.store.document? id = some x.document ∧ t.store.document? id = some y.document ∧
    y.document.lookup "name" = x.document.lookup "name" ∧ Rewritten {} id y annRetired.store t.store := by
  have hreach : Reachable (repository {}) (fun _ => True) annRetired :=
    reachable_afterCalls (fun _ _ => trivial) (by decide +kernel)
  have hrun : ((bobMoves.run (repository {}) evening).result? annRetired).isSome = true := by decide +kernel
  obtain ⟨⟨c, t⟩, hr⟩ := Option.isSome_iff_exists.1 hrun
  have hx := Action.run_of_result? hr
  obtain ⟨x, y, id, -, -, hbefore, hafter, htouched, hrewritten⟩ :=
    patch_touches_named .default (by decide) hreach (w := bobMoves) rfl (by decide) hx
  exact ⟨c, t, x, y, id, hx, hbefore, hafter, htouched.unnamed "name" (by decide), hrewritten⟩

end Customer

end Dossier
