/-
What a patch returns and what it stores. All properties that are named are copied to the entity that is
returned, but those that are identity fields are not compared, and so are not written. The entity that is
stored is the one that is returned only as far as none of these would have changed.
-/
import Dossier.Proofs.Diff
import Dossier.Proofs.Repository.Items
import Dossier.Proofs.Repository.Version

namespace Dossier

/-- An entity that equals itself: nothing in it is NaN. -/
def Stored.EqualsItself {E : Type} [Stored E] (e : E) : Prop :=
  (Stored.toValue e).same (Stored.toValue e) = true

/-- A store whose entities all equal themselves. -/
def Store.EqualsItself (E : Type) [Stored E] (store : Store) : Prop :=
  ∀ row ∈ store.rows (Stored.collection E), ∀ e : E, Stored.ofValue? row.doc = some e → Stored.EqualsItself e

/-- What an entity holds under a key, null counting as nothing. -/
def Stored.valueAt {E : Type} [Stored E] (e : E) (key : String) : Option Value := Differ.valueAt (Stored.entries e) key

namespace Repository

variable {E : Type} [Entity E] {r : Repository E} {names : List String} {s t : State} {id : Uuid}
  {existing requested returned stored : E} {changes : List PropertyChange} {ctx : AuditContext}

/-- What is stored when a patch has returned an entity. -/
structure PatchReturns (r : Repository E) (names : List String) (s t : State) (existing returned stored : E) :
    Prop where
  /-- The entity under the identifier of the one that is returned was `existing`, and is `stored` afterwards. -/
  found : ∃ id, Stored.id? returned = some id ∧ r.getById id s = .ok existing s ∧ r.getById id t = .ok stored t
  /-- Identity fields that the patch names have not been written. -/
  kept (key : String) (hk : key ∈ names ∧ r.differ.isIdentity key = true) :
    Stored.valueAt stored key = Stored.valueAt existing key
  /-- Everything else is stored as it is returned. -/
  written (key : String) (hk : ¬ (key ∈ names ∧ r.differ.isIdentity key = true)) :
    Differ.agree (Stored.valueAt stored key) (Stored.valueAt returned key) = true
  /-- The entity that is stored equals the one that is returned if and only if no identity field that the patch names
  would have changed. -/
  equal_iff : (∀ key, Differ.agree (Stored.valueAt stored key) (Stored.valueAt returned key) = true) ↔
    ∀ key ∈ names, r.differ.isIdentity key = true →
      Differ.agree (Stored.valueAt existing key) (Stored.valueAt returned key) = true
  /-- What has been added to the log carries the slug of the entity that is returned. -/
  logged (row : Row) (hr : row ∈ t.store.rows r.config.auditCollection)
    (hnew : (s.store.collection r.config.auditCollection).contains row.id = false) :
    ∃ record : ChangeRecord, row.doc = record.toValue ∧ record.entitySlug = Entity.slug? returned
  /-- This is the slug of the entity that is stored, unless a new one has been asked for that is an identity field. -/
  slug_iff : Entity.slug? stored = Entity.slug? returned ↔
    ("slug" ∈ names → r.differ.isIdentity "slug" = true → Entity.slug? existing = Entity.slug? returned)

/-! ## Rows -/

theorem getById_of_row {row : Row} (hw : s.store.WF) (hr : row ∈ s.store.rows (Stored.collection E))
    (he : Stored.ofValue? row.doc = some existing) : r.getById row.id s = .ok existing s := by
  refine Action.read_run ?_
  rw [show r.entities.get? row.id s.store = .ok (some existing) from
    DocumentSet.get?_of_doc ((hw _).get?_eq_some_iff.2 ⟨row, hr, rfl, rfl⟩) he]
  rfl

/-- Making way and setting fields puts no row under a new identifier. -/
theorem contains_of_mem_patchRow {e : E} {own : Option Uuid} {cleared : Store} {values : Document} {name : String}
    {row : Row} (hw : s.store.WF) (hc : Cleared r e own s.store cleared)
    (hr : row ∈ (r.patchRow id values cleared).rows name) : (s.store.collection name).contains row.id = true := by
  have hold : ∃ old ∈ cleared.rows name, old.id = row.id := by
    unfold patchRow at hr
    by_cases hn : name = Stored.collection E
    · subst hn
      rw [Store.rows_reviseRows] at hr
      obtain ⟨old, ho, rfl⟩ := List.mem_map.1 hr
      exact ⟨old, ho, rfl⟩
    · rw [Store.rows_reviseRows_other hn] at hr
      exact ⟨row, hr, rfl⟩
  obtain ⟨old, ho, hi⟩ := hold
  exact hi ▸ hc.contains hw ((hc.wf hw _).contains_of_mem ho)

/-- The row of a patched entity, after the fields have been set. -/
theorem mem_rows_patchRow [LawfulEntity E] {cleared : Store} {values : Document} {row : Row} {e : E}
    (hid : r.config.idField = idKey) (hs : r.Sound s.store) (hc : Cleared r e (some row.id) s.store cleared)
    (hr : row ∈ s.store.rows (Stored.collection E)) (he : Stored.ofValue? row.doc = some existing) :
    { row with doc := Store.withFields values row.doc } ∈
      (r.patchRow row.id values cleared).rows (Stored.collection E) := by
  have hholds : (r.byId row.id).holds row.doc = true := by
    unfold byId
    rw [hid]
    exact (hs.keyed row hr).holds_of_read he
  unfold patchRow
  rw [Store.rows_reviseRows]
  refine List.mem_map.2 ⟨row, hs.mem_rows_cleared hid hc hr he, ?_⟩
  rw [Store.fieldsSet, if_pos hholds]

theorem slug_of_changeRecords {record : ChangeRecord} (h : record ∈ r.changeRecords returned id changes ctx) :
    record.entitySlug = Entity.slug? returned := by
  unfold changeRecords recordsOf at h
  split at h
  · obtain ⟨change, -, rfl⟩ := List.mem_map.1 h
    rfl
  · cases h

/-! ## Values -/

section
variable [Patchable E]

theorem agree_self (h : Stored.EqualsItself existing) (key : String) :
    Differ.agree (Stored.valueAt existing key) (Stored.valueAt existing key) = true := by
  unfold Stored.EqualsItself at h
  rw [toValue_entries] at h
  exact Differ.agree_self_of_same h key

theorem valueAt_slug (e : E) : Stored.valueAt e "slug" = (Entity.slug? e).map .string :=
  Differ.valueAt_text (Patchable.lookup_slug e)

/-- Where identity fields stay as they are and the rest is as it is returned, it is told from these fields whether
everything is. -/
theorem equal_of_kept (hkept : ∀ key, key ∈ names ∧ r.differ.isIdentity key = true →
      Stored.valueAt stored key = Stored.valueAt existing key)
    (hwritten : ∀ key, ¬ (key ∈ names ∧ r.differ.isIdentity key = true) →
      Differ.agree (Stored.valueAt stored key) (Stored.valueAt returned key) = true) :
    ((∀ key, Differ.agree (Stored.valueAt stored key) (Stored.valueAt returned key) = true) ↔
      ∀ key ∈ names, r.differ.isIdentity key = true →
        Differ.agree (Stored.valueAt existing key) (Stored.valueAt returned key) = true) ∧
    (Entity.slug? stored = Entity.slug? returned ↔
      ("slug" ∈ names → r.differ.isIdentity "slug" = true → Entity.slug? existing = Entity.slug? returned)) := by
  refine ⟨⟨fun h key hk hi => hkept key ⟨hk, hi⟩ ▸ h key, fun h key => ?_⟩, ?_⟩
  · by_cases hk : key ∈ names ∧ r.differ.isIdentity key = true
    · rw [hkept key hk]
      exact h key hk.1 hk.2
    · exact hwritten key hk
  · by_cases hk : "slug" ∈ names ∧ r.differ.isIdentity "slug" = true
    · have hslug := hkept "slug" hk
      rw [valueAt_slug, valueAt_slug] at hslug
      have hslug : Entity.slug? stored = Entity.slug? existing :=
        Option.map_injective (fun a b hab => by cases hab; rfl) hslug
      rw [hslug]
      exact ⟨fun h _ _ => h, fun h => h hk.1 hk.2⟩
    · have hslug := hwritten "slug" hk
      rw [valueAt_slug, valueAt_slug] at hslug
      exact ⟨fun _ hn hi => (hk ⟨hn, hi⟩).elim, fun _ => Differ.agree_texts hslug⟩

/-- What is stored when the properties that differ are written. -/
theorem valueAt_stored (hreg : r.registry = Patchable.registry)
    (hv : r.registry.copyAll names requested existing = .ok returned)
    (hd : r.changes existing returned (some names) = .ok changes)
    (hl : ∀ key, (Stored.entries stored).lookup key =
      (Stored.entries (if key ∈ changes.map (·.property) then requested else existing)).lookup key)
    (he : Stored.EqualsItself existing) (hr : Stored.EqualsItself requested) (key : String) :
    (key ∈ names ∧ r.differ.isIdentity key = true → Stored.valueAt stored key = Stored.valueAt existing key) ∧
    (¬ (key ∈ names ∧ r.differ.isIdentity key = true) →
      Differ.agree (Stored.valueAt stored key) (Stored.valueAt returned key) = true) := by
  rw [hreg] at hv
  rw [changes_entries] at hd
  have hcopied := (Patchable.copyAll_ok hv).2 key
  have hstored := hl key
  -- a key is written if it is named, compared and has another value
  have hchanged : key ∈ changes.map (·.property) ↔ key ∈ names ∧
      r.differ.differs (Stored.entries existing) (Stored.entries returned) key = true := by
    rw [(Differ.changesOf_ok hd).1, List.mem_filter]
    rfl
  unfold Differ.differs at hchanged
  constructor
  · rintro ⟨-, hi⟩
    rw [hi] at hchanged
    rw [if_neg fun hm => Bool.false_ne_true (hchanged.1 hm).2] at hstored
    exact Differ.valueAt_congr hstored
  · intro hk
    by_cases hm : key ∈ changes.map (·.property)
    · rw [if_pos hm] at hstored
      rw [if_pos (hchanged.1 hm).1] at hcopied
      rw [Stored.valueAt, Stored.valueAt, Differ.valueAt_congr hstored, Differ.valueAt_congr hcopied]
      exact agree_self hr key
    · rw [if_neg hm] at hstored
      by_cases hn : key ∈ names
      · have hi : r.differ.isIdentity key = false := Bool.eq_false_iff.2 fun hi => hk ⟨hn, hi⟩
        rw [Stored.valueAt, Stored.valueAt, Differ.valueAt_congr hstored]
        by_contra hdiff
        exact hm (hchanged.2 ⟨hn, by simpa [hi] using hdiff⟩)
      · rw [if_neg hn] at hcopied
        rw [Stored.valueAt, Stored.valueAt, Differ.valueAt_congr hstored, Differ.valueAt_congr hcopied]
        exact agree_self he key

/-! ## Patches -/

theorem Patched.returns {row : Row} {v : Value} (hreg : r.registry = Patchable.registry)
    (hid : r.config.idField = idKey) (hs : r.Sound s.store) (ht : r.Sound t.store)
    (hr : row ∈ s.store.rows (Stored.collection E)) (he : Stored.ofValue? row.doc = some existing)
    (hread : Stored.ofValue? v = some requested) (hself : Stored.EqualsItself existing)
    (hself' : Stored.EqualsItself requested) (h : Patched r existing requested names ctx s returned t) :
    ∃ stored, PatchReturns r names s t existing returned stored := by
  have hown : Stored.id? existing = some row.id := (hs.keyed row hr).id_eq he
  cases h with
  | @same own updated cleared hv hc hd =>
    cases Option.some.inj (hown.symm.trans hv.own_eq)
    have hr' := hs.mem_rows_cleared hid hc hr he
    have hkept : ∀ key, key ∈ names ∧ r.differ.isIdentity key = true →
      Stored.valueAt existing key = Stored.valueAt existing key := fun _ _ => rfl
    obtain ⟨hequal, hslug⟩ := equal_of_kept hkept fun key _ => agree_self hself key
    refine ⟨existing, ⟨row.id, hown, getById_of_row hs.wf hr he, getById_of_row ht.wf hr' he⟩, hkept,
      fun key _ => agree_self hself key, hequal, fun new hn hnew => ?_, hslug⟩
    rw [hc.contains hs.wf ((hc.wf hs.wf _).contains_of_mem hn)] at hnew
    cases hnew
  | @changed own updated cleared changes values _ hv hc hd hne hl hrec =>
    cases Option.some.inj (hown.symm.trans hv.own_eq)
    have hcopy := hv.version
    rw [hreg] at hcopy hl
    have hcopied := (Patchable.copyAll_ok hcopy).2
    -- what is written are properties of the requested entity
    have hnames : ∀ key ∈ changes.map (·.property), key ∈ names := by
      rw [changes_entries] at hd
      rw [(Differ.changesOf_ok hd).1]
      exact fun key hk => List.mem_of_mem_filter hk
    rw [Patchable.readAll_congr (w := requested) fun key hk => by rw [hcopied, if_pos (hnames key hk)]] at hl
    obtain ⟨stored, hstored, hlookup⟩ := Patchable.ofValue?_withFields he hread hl
    have hvalues := valueAt_stored hreg hv.version hd hlookup hself hself'
    obtain ⟨hequal, hslug⟩ := equal_of_kept (fun key => (hvalues key).1) fun key => (hvalues key).2
    have hrow := hrec.mem_rows (mem_rows_patchRow hid hs hc hr he)
    have hfound := getById_of_row (r := r) ht.wf hrow hstored
    refine ⟨stored, ⟨row.id, ?_, getById_of_row hs.wf hr he, hfound⟩, fun key => (hvalues key).1,
      fun key => (hvalues key).2, hequal, fun new hn hnew => ?_, hslug⟩
    · rw [Patchable.id_of_copyAll hcopy, hown]
    · rw [hrec.left] at hn
      rcases mem_rows_recorded_of hn with hn | ⟨-, record, hm, hd⟩
      · rw [contains_of_mem_patchRow hs.wf hc hn] at hnew
        cases hnew
      · have hrecord : record.entitySlug = Entity.slug? returned := slug_of_changeRecords hm
        exact ⟨_, hd, hrecord⟩

end

end Repository

open Repository

/-- The repository of a type of entities under a configuration. -/
def Patchable.repository (E : Type) [Entity E] [Patchable E] (config : Config) : Repository E := ⟨config, registry⟩

section
variable {E : Type} [Entity E] [Patchable E] {config : Config} {allowed : Call E → Prop} {s t : State} {c : E}
  {ctx : AuditContext}

/-- Whatever identity fields are configured: when a patch returns an entity, the entity that is stored under its
identifier is the one that was there, with those named properties of the one that is returned that are compared. -/
theorem Reachable.patch_returns (hid : config.idField = idKey)
    (h : Reachable (Patchable.repository E config) allowed s) (hstate : s.store.EqualsItself E)
    {w : Write E} (hw : ¬ w.IsSave) (hgiven : ∀ requested ∈ (Call.write w ctx).given,
      (∃ v, Stored.ofValue? v = some requested) ∧ Stored.EqualsItself requested)
    (hx : w.run (Patchable.repository E config) ctx s = .ok c t) (hf : Fresh (Call.write w ctx).named s t) :
    ∃ existing stored, PatchReturns (Patchable.repository E config) w.names s t existing c stored := by
  have hreg : idKey ∉ (Patchable.repository E config).registry.names := Patchable.idKey_not_registered
  have hs := h.sound hreg
  have heff : Effects (Patchable.repository E config) (Call.write w ctx).scope s
      ((w.run (Patchable.repository E config) ctx).leaves s) := run_effects hs.wf
  rw [Action.leaves_ok hx] at heff
  have ht := heff.sound hreg hf.distinct hs
  have returns : ∀ {find : Action E} {requested : E} {names : List String},
      (Patchable.repository E config).Finds find → requested ∈ (Call.write w ctx).given →
      (Patchable.repository E config).patch find requested names ctx s = .ok c t →
      ∃ existing stored, PatchReturns (Patchable.repository E config) names s t existing c stored := by
    intro find requested names hfind hm hp
    obtain ⟨existing, row, -, hr, he, hpatched⟩ := patch_ok hfind hs.wf hp
    obtain ⟨⟨v, hread⟩, hself⟩ := hgiven requested hm
    obtain ⟨stored, hreturns⟩ := hpatched.returns rfl hid hs ht hr he hread (hstate row hr existing he) hself
    exact ⟨existing, stored, hreturns⟩
  cases w with
  | save e => exact (hw trivial).elim
  | patchById id requested properties => exact returns (finds_getById _ id) (List.mem_singleton_self _) hx
  | patchBySlug slug requested properties => exact returns (finds_first _ _ _) (List.mem_singleton_self _) hx
  | patchByFilter filter requested properties => exact returns (finds_first _ _ _) (List.mem_singleton_self _) hx

end

namespace Item

/-- A patch of the first item. -/
def patch (requested : Item) (names : List String) : Action Item :=
  (Write.patchById (.ofNat 1) requested names).run (repository {}) { user := "alice", timestamp := 1000 }

theorem equalsItself_oneStored : oneStored.store.EqualsItself Item := by
  have hall : (oneStored.store.rows (Stored.collection Item)).all (fun row =>
      (Stored.ofValue? (E := Item) row.doc).all fun i => i.toValue.same i.toValue) := by decide +kernel
  intro row hr i hi
  have hrow := List.all_eq_true.1 hall row hr
  rw [hi] at hrow
  exact hrow

/-- A patch of the name returns what is stored. -/
theorem patch_returns_renamed : ∃ returned t stored, patch { name := "b" } ["name"] oneStored = .ok returned t ∧
    returned.name = "b" ∧ (repository {}).getById (.ofNat 1) t = .ok stored t ∧
    ∀ key, Differ.agree (Stored.valueAt stored key) (Stored.valueAt returned key) = true := by
  have hrun : ((patch { name := "b" } ["name"]).result? oneStored).map
      (fun r => (decide (Fresh [] oneStored r.2), r.1.id, r.1.name)) = some (true, some (.ofNat 1), "b") := by
    decide +kernel
  obtain ⟨⟨returned, t⟩, hr, hfacts⟩ := Option.map_eq_some_iff.1 hrun
  simp only [Prod.mk.injEq, decide_eq_true_eq] at hfacts
  obtain ⟨hf, hid, hname⟩ := hfacts
  have hx := Action.run_of_result? hr
  have hread : ofValue? ({ name := "b" } : Item).toValue = some { name := "b" } := by with_unfolding_all rfl
  have hself : Stored.EqualsItself ({ name := "b" } : Item) := by
    unfold Stored.EqualsItself
    decide +kernel
  obtain ⟨existing, stored, h⟩ := Reachable.patch_returns (E := Item) (show ({} : Config).idField = idKey from rfl)
    reachable_oneStored equalsItself_oneStored (w := .patchById (.ofNat 1) { name := "b" } ["name"])
    (fun h => h) (List.forall_mem_singleton.2 ⟨⟨_, hread⟩, hself⟩) hx hf
  obtain ⟨id, hid', -, hstored⟩ := h.found
  cases Option.some.inj (hid'.symm.trans hid)
  have hcompared : ∀ key ∈ ["name"], (repository {}).differ.isIdentity key = false := by decide
  refine ⟨returned, t, stored, hx, hname, hstored, h.equal_iff.2 fun key hk hi => ?_⟩
  exact (Bool.false_ne_true ((hcompared key hk).symm.trans hi)).elim

/-- The slug of an item is an identity field, and a property that may be named. -/
theorem not_all_returned_stored : ¬ ∀ (s t : State) (requested returned : Item) (names : List String),
    Reachable (repository {}) (fun _ => True) s → s.store.EqualsItself Item → Stored.EqualsItself requested →
      patch requested names s = .ok returned t →
        ∃ stored, (repository {}).getById (.ofNat 1) t = .ok stored t ∧
          ∀ key, Differ.agree (Stored.valueAt stored key) (Stored.valueAt returned key) = true := by
  intro h
  have hrun : ((patch { name := "b", slug := some "X" } ["name", "slug"]).result? oneStored).map
      (fun r => (r.1.slug, (((repository {}).getById (.ofNat 1)).result? r.2).map fun q => q.1.slug)) =
    some (some "X", some none) := by decide +kernel
  obtain ⟨⟨returned, t⟩, hr, hfacts⟩ := Option.map_eq_some_iff.1 hrun
  simp only [Prod.mk.injEq, Option.map_eq_some_iff] at hfacts
  obtain ⟨hreturned, ⟨stored, u⟩, hg, hstored⟩ := hfacts
  have hself : Stored.EqualsItself ({ name := "b", slug := some "X" } : Item) := by
    unfold Stored.EqualsItself
    decide +kernel
  obtain ⟨found, hfound, hagree⟩ := h _ _ _ _ _ reachable_oneStored equalsItself_oneStored hself
    (Action.run_of_result? hr)
  cases hfound.symm.trans (Action.run_of_result? hg)
  have hslug := hagree "slug"
  rw [valueAt_slug, valueAt_slug] at hslug
  have hslug : stored.slug = returned.slug := Differ.agree_texts hslug
  rw [hstored, hreturned] at hslug
  cases hslug

end Item

end Dossier
