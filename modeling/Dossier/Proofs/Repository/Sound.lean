/-
What holds of every store that operations leave, whatever the configuration: collections are
well-formed and entities are kept under their identifiers. It needs the identifiers that are drawn
to be distinct. If they are also new, no record is ever refused.
-/
import Dossier.Proofs.Audit.Record
import Dossier.Proofs.Repository.Effect

namespace Dossier

/-! ## Identifiers drawn between two states -/

theorem IdSupply.advance_advance (ids : IdSupply) (m n : Nat) :
    (ids.advance m).advance n = ids.advance (m + n) := by
  unfold advance; rw [Nat.add_assoc]

theorem IdSupply.upcoming_add (ids : IdSupply) (m n : Nat) :
    ids.upcoming (m + n) = ids.upcoming m ++ (ids.advance m).upcoming n := by
  unfold upcoming advance
  rw [← List.map_append, List.range'_append_1]

/-- The identifiers drawn between two states. -/
def State.drawnUntil (s t : State) : List Uuid := s.ids.upcoming (t.ids.drawn - s.ids.drawn)

theorem State.drawnUntil_advance {s t : State} {n : Nat} (h : t.ids = s.ids.advance n) :
    s.drawnUntil t = s.ids.upcoming n := by
  unfold drawnUntil
  rw [h, IdSupply.advance, Nat.add_sub_cancel_left]

theorem State.drawnUntil_append {s t u : State} {m n : Nat} (hm : u.ids = s.ids.advance m)
    (hn : t.ids = u.ids.advance n) : s.drawnUntil t = s.drawnUntil u ++ u.drawnUntil t := by
  rw [drawnUntil_advance hm, drawnUntil_advance hn, hm, ← IdSupply.upcoming_add,
    drawnUntil_advance (by rw [hn, hm, IdSupply.advance_advance])]

/-- The identifiers drawn between two states are new: they are distinct, none is in use in the first
state, and none has been named. -/
structure Fresh (named : List Uuid) (s t : State) : Prop where
  distinct : (s.drawnUntil t).Nodup
  unused : ∀ id ∈ s.drawnUntil t, ¬ s.store.InUse id
  unnamed : ∀ id ∈ s.drawnUntil t, id ∉ named

instance (named : List Uuid) (s t : State) : Decidable (Fresh named s t) :=
  decidable_of_iff ((s.drawnUntil t).Nodup ∧ (∀ id ∈ s.drawnUntil t, ¬ s.store.InUse id) ∧
    ∀ id ∈ s.drawnUntil t, id ∉ named) ⟨fun ⟨hd, hu, hn⟩ => ⟨hd, hu, hn⟩, fun ⟨hd, hu, hn⟩ => ⟨hd, hu, hn⟩⟩

namespace Repository

theorem Recorded.nodup {E : Type} {r : Repository E} {records : List ChangeRecord} {s t : State}
    (h : r.Recorded records s t) (hn : (s.drawnUntil t).Nodup) : (s.ids.upcoming records.length).Nodup := by
  rw [h.left] at hn
  unfold recorded at hn
  split at hn
  · rename_i he
    rw [List.isEmpty_iff.1 he]; exact List.nodup_nil
  · rwa [State.drawnUntil_advance (n := records.length) rfl] at hn

/-- With new identifiers no record is refused. -/
theorem Refused.not_fresh {E : Type} {r : Repository E} {records : List ChangeRecord} {named : List Uuid}
    {s t : State}
    (hr : r.Refused records s t) (hf : Fresh named s t) : False := by
  obtain ⟨id, hi, hc⟩ := hr.clash
  have hd : s.drawnUntil t = s.ids.upcoming records.length := State.drawnUntil_advance (by rw [hr.left]; rfl)
  exact hf.unused id (hd ▸ hi) (Store.inUse_of_contains hc)

variable {E : Type} [Entity E] {r : Repository E} {scope : Scope E} {s t u : State} {id : Uuid}

/-- An entity that is new gets an identifier that no stored entity has. -/
theorem Identified.not_stored [LawfulEntity E] {e slugged identified : E} {cleared : Store} {named : List Uuid}
    {v : State}
    (hs : Slugged r e (s.withStore cleared) slugged u) (hi : Identified slugged u identified id v)
    (hf : Fresh named s t) (ht : t.ids = v.ids)
    (hn : ∀ id, Stored.id? e = some id → (s.store.collection (Stored.collection E)).contains id = false) :
    (s.store.collection (Stored.collection E)).contains id = false := by
  obtain ⟨counters, rfl⟩ := hs.frame
  obtain ⟨n, rfl, hid⟩ := hi.frame
  rw [hs.id_eq] at hid
  rcases hid with ⟨hown, -⟩ | ⟨-, hdrawn, rfl⟩
  · exact hn id hown
  · rw [Bool.eq_false_iff]
    intro hin
    refine hf.unused id ?_ (Store.inUse_of_contains hin)
    rw [State.drawnUntil_advance (show t.ids = s.ids.advance 1 from ht), hdrawn]
    exact List.mem_singleton_self _

theorem Effect.advances (h : Effect r scope s t) : ∃ n, t.ids = s.ids.advance n := by
  cases h with
  | draws n => exact ⟨n, rfl⟩
  | creates => exact ⟨_, rfl⟩
  | logs hr =>
    rw [hr.left]
    unfold recorded
    split
    · exact ⟨0, rfl⟩
    · exact ⟨_, rfl⟩
  | _ => exact ⟨0, rfl⟩

theorem Effects.advances (h : Effects r scope s t) : ∃ n, t.ids = s.ids.advance n := by
  induction h with
  | refl => exact ⟨0, rfl⟩
  | tail _ h ih =>
    obtain ⟨m, hm⟩ := ih
    obtain ⟨n, hn⟩ := h.advances
    exact ⟨m + n, by rw [hn, hm, IdSupply.advance_advance]⟩

theorem Effects.drawnUntil_append (h : Effects r scope s u) (h' : Effects r scope u t) :
    s.drawnUntil t = s.drawnUntil u ++ u.drawnUntil t := by
  obtain ⟨m, hm⟩ := h.advances
  obtain ⟨n, hn⟩ := h'.advances
  exact State.drawnUntil_append hm hn

/-- What every effect preserves is preserved by operations, as long as they draw distinct identifiers. -/
theorem Effects.preserve {P : Store → Prop}
    (step : ∀ {u v : State}, Effect r scope u v → (u.drawnUntil v).Nodup → P u.store → P v.store)
    (h : Effects r scope s t) (hn : (s.drawnUntil t).Nodup) (hs : P s.store) : P t.store := by
  induction h with
  | refl => exact hs
  | tail h h' ih =>
    rw [Effects.drawnUntil_append h (.single h'), List.nodup_append] at hn
    exact step h' hn.2.1 (ih hn.1)

/-! ## Soundness -/

/-- Collections are well-formed and entities are kept under their identifiers. -/
structure Sound (r : Repository E) (store : Store) : Prop where
  wf : store.WF
  keyed : ∀ row ∈ store.rows (Stored.collection E), row.doc.Keyed row.id

theorem sound_empty (r : Repository E) : r.Sound {} := ⟨Store.empty_wf, nofun⟩

variable {store : Store}

theorem Sound.dropRow (h : r.Sound store) (id : Uuid) : r.Sound (store.dropRow (Stored.collection E) id) where
  wf := h.wf.dropRow _ id
  keyed row hr := h.keyed row (h.wf.mem_of_dropRow hr)

theorem Sound.cleared {e : E} {own : Option Uuid} {cleared : Store} (h : r.Sound store)
    (hc : Cleared r e own store cleared) : r.Sound cleared := by
  rcases hc.eq_or_drop with rfl | ⟨id, rfl⟩
  · exact h
  · exact h.dropRow id

/-- What is found is kept under its identifier. -/
theorem Sound.find?_some [LawfulEntity E] {filter : Expr} {e : E} (h : r.Sound store)
    (hm : r.entities.find? filter store = .ok (some e)) (hi : Stored.id? e = some id) : ∃ first others,
      r.entities.selection filter store = first :: others ∧ first ∈ store.rows (Stored.collection E) ∧
        first.id = id ∧
        Stored.ofValue? first.doc = some e := by
  obtain ⟨first, others, hsel, hv⟩ := DocumentSet.find?_some hm
  have hr := (DocumentSet.first_selected hsel).1
  exact ⟨first, others, hsel, hr, Option.some.inj (((h.keyed first hr).id_eq hv).symm.trans hi), hv⟩

/-- Whoever would make way is there. -/
theorem Sound.contains_retired [LawfulEntity E] {e : E} {own : Option Uuid} {gone : Uuid} (h : r.Sound store)
    (hg : r.retired? e own store = some gone) : (store.collection (Stored.collection E)).contains gone = true := by
  unfold retired? at hg
  split at hg
  · cases hg
  split at hg
  · rename_i stale hm
    split at hg
    · cases hg
    obtain ⟨first, -, -, hr, rfl, -⟩ := h.find?_some hm hg
    exact (h.wf _).contains_of_mem hr
  · cases hg

/-- An entity is no duplicate of itself. -/
theorem Sound.not_holds_own [LawfulEntity E] (hid : r.config.idField = idKey) (h : r.Sound store) {e c : E}
    {filter : Expr} {row : Row} (hf : r.duplicateFilter? e (some row.id) = some filter)
    (hr : row ∈ store.rows (Stored.collection E)) (hc : Stored.ofValue? row.doc = some c) :
    filter.holds row.doc = false := by
  obtain ⟨first, -, rfl⟩ := Option.map_eq_some_iff.1 hf
  have hown : (Expr.eq idKey (.uuid row.id)).holds row.doc = true := (h.keyed row hr).holds_of_read hc
  have hne : (Expr.ne idKey (.uuid row.id)).eval row.doc = .ok false := by
    rw [Expr.eval_ne]
    rw [Expr.holds_of_eval (Expr.eval_eq ..)] at hown
    rw [hown]
    rfl
  rw [hid]
  unfold Expr.holds
  cases hfirst : first.eval row.doc with
  | error fault => simp [Expr.eval, Expr.evalAll, hfirst]
  | ok b => cases b <;> simp [Expr.eval, Expr.evalAll, hfirst, hne]

/-- The own row does not make way. -/
theorem Sound.mem_rows_cleared [LawfulEntity E] (hid : r.config.idField = idKey) (h : r.Sound store) {e c : E}
    {cleared : Store} {row : Row} (hcl : Cleared r e (some row.id) store cleared)
    (hr : row ∈ store.rows (Stored.collection E)) (hc : Stored.ofValue? row.doc = some c) :
    row ∈ cleared.rows (Stored.collection E) := by
  cases hcl with
  | unkeyed hf => exact hr
  | unmatched hf hm => exact hr
  | @retired filter stale gone hf hm hi ha hin =>
    rw [h.wf.rows_dropRow, List.mem_filter, decide_eq_true_iff]
    refine ⟨hr, fun hgone => ?_⟩
    obtain ⟨first, others, hsel, hfr, hfirst, -⟩ := h.find?_some hm hi
    have hh := (DocumentSet.first_selected hsel).2
    rw [(h.wf _).row_ext hfr hr (hfirst.trans hgone.symm)] at hh
    exact Bool.false_ne_true ((h.not_holds_own hid hf hr hc).symm.trans hh)

theorem Sound.retired?_eq_none [LawfulEntity E] {e : E} {own : Option Uuid} (h : r.Sound store)
    (hb : r.Barred e own store) : r.retired? e own store = none := by
  cases hg : r.retired? e own store with
  | none => rfl
  | some gone => exact (Bool.false_ne_true ((hb gone hg).symm.trans (h.contains_retired hg))).elim

theorem Sound.counters (h : r.Sound store) (counters : List (String × Int64)) : r.Sound { store with counters } :=
  ⟨h.wf, h.keyed⟩

theorem Sound.addRows (h : r.Sound store) {name : String} {docs : List (Uuid × Value)}
    (hn : (docs.map (·.1)).Nodup)
    (hc : ∀ d ∈ docs, (store.collection name).contains d.1 = false) (hk : ∀ d ∈ docs, d.2.Keyed d.1) :
    r.Sound (store.addRows name docs) where
  wf := h.wf.addRows hn hc
  keyed row hr := by
    rcases Store.mem_rows_addRows hr with hr | ⟨-, hd⟩
    · exact h.keyed row hr
    · exact hk _ hd

theorem Sound.reviseRows (h : r.Sound store) {change : Row → Value}
    (hk : ∀ row ∈ store.rows (Stored.collection E), (change row).Keyed row.id) :
    r.Sound (store.reviseRows (Stored.collection E) change) where
  wf := h.wf.reviseRows _ change
  keyed row hr := by
    rw [Store.rows_reviseRows] at hr
    obtain ⟨old, ho, rfl⟩ := List.mem_map.1 hr
    exact hk old ho

theorem Sound.fieldsSet (h : r.Sound store) (filter : Expr) {fields : Document}
    (hf : ∀ v id, Value.Keyed v id → (Store.withFields fields v).Keyed id) :
    r.Sound (store.reviseRows (Stored.collection E) (Store.fieldsSet filter fields)) := by
  refine h.reviseRows fun row hr => ?_
  unfold Store.fieldsSet
  split
  · exact hf _ _ (h.keyed row hr)
  · exact h.keyed row hr

theorem Sound.recorded {records : List ChangeRecord} (h : r.Sound s.store) (hr : r.Recorded records s t)
    (hn : (s.drawnUntil t).Nodup) : r.Sound t.store := by
  have hids := logEntries_ids (s.ids.length_upcoming records.length).symm
  have hn := hr.nodup hn
  rw [hr.left]
  unfold Repository.recorded
  split
  · exact h
  · refine h.addRows (by rw [hids]; exact hn) (fun d hd => ?_) fun d hd => ?_
    · exact hr.vacant _ (hids ▸ List.mem_map_of_mem hd)
    · obtain ⟨record, -, hd⟩ := mem_logEntries hd
      rw [hd]; exact ChangeRecord.keyed_toValue rfl

/-- Every effect preserves soundness, unless a patch can name the identifier. -/
theorem Effect.sound [LawfulEntity E] (hid : idKey ∉ r.registry.names) (h : Effect r scope s t)
    (hn : (s.drawnUntil t).Nodup) (hs : r.Sound s.store) : r.Sound t.store := by
  cases h with
  | draws n => exact hs
  | counts counters => exact hs.counters counters
  | drops id => exact hs.dropRow id
  | creates counters hg hc hd hi ho hv hid' =>
    refine ((hs.cleared hc).counters counters).addRows (List.nodup_singleton _) ?_ ?_
    · intro d hd
      rw [List.mem_singleton.1 hd]; exact hv
    · intro d hd
      rw [List.mem_singleton.1 hd]; exact keyed_toValue hi
  | replaces ctx hg ho hv hc hi =>
    refine (hs.cleared hc).reviseRows fun row hr => ?_
    split
    · rename_i he
      subst he
      exact keyed_toValue (by rw [LawfulEntity.id_stamp, hi])
    · exact (hs.cleared hc).keyed row hr
  | patches hg hr he hv hc hd hl =>
    exact (hs.cleared hc).fieldsSet _ fun v id hk => hk.withFields fun hm => hid (Registry.keys_readAll hl hm)
  | patchesMany filter hm hg hl =>
    exact hs.fieldsSet _ fun v id hk => hk.withFields fun hm => hid (Registry.keys_readAll hl hm)
  | deactivates hg => exact hs.fieldsSet _ fun v id hk => hk.withFlag _ _
  | logs hr => exact hs.recorded hr hn

theorem Effects.sound [LawfulEntity E] (hid : idKey ∉ r.registry.names) (h : Effects r scope s t)
    (hn : (s.drawnUntil t).Nodup) (hs : r.Sound s.store) : r.Sound t.store :=
  h.preserve (P := r.Sound) (fun he => he.sound hid) hn hs

/-! ## Identifiers in use -/

theorem Cleared.inUse {e : E} {own : Option Uuid} {cleared : Store} (h : Cleared r e own store cleared)
    (hw : store.WF)
    (hu : cleared.InUse id) : store.InUse id := by
  rcases h.eq_or_drop with rfl | ⟨gone, rfl⟩
  · exact hu
  · exact hw.inUse_dropRow hu

/-- Identifiers in use after an effect were in use before it, or have been named or drawn. -/
theorem Effect.inUse (hw : s.store.WF) (h : Effect r scope s t) (hu : t.store.InUse id) :
    s.store.InUse id ∨ id ∈ scope.named ∨ id ∈ s.drawnUntil t := by
  cases h with
  | draws n => exact Or.inl hu
  | counts counters => exact Or.inl hu
  | drops gone => exact Or.inl (hw.inUse_dropRow hu)
  | creates counters hg hc hd hi ho hv hid =>
    -- the identifier of the new row has been named or drawn
    rcases Store.inUse_addRows hu with hu | hm
    · exact Or.inl (hc.inUse hw hu)
    rw [List.map_singleton, List.mem_singleton] at hm
    subst hm
    rcases hid with ⟨hm, -⟩ | ⟨rfl, rfl⟩
    · exact Or.inr (Or.inl hm)
    · refine Or.inr (Or.inr ?_)
      rw [State.drawnUntil_advance (n := 1) rfl]
      exact List.mem_singleton_self _
  | replaces ctx hg ho hv hc hi => exact Or.inl (hc.inUse hw (Store.inUse_reviseRows hu))
  | patches hg hr he hv hc hd hl => exact Or.inl (hc.inUse hw (Store.inUse_reviseRows hu))
  | patchesMany filter hm hg hl => exact Or.inl (Store.inUse_reviseRows hu)
  | deactivates hg => exact Or.inl (Store.inUse_reviseRows hu)
  | @logs records _ hr =>
    rw [hr.left] at hu ⊢
    unfold recorded at hu ⊢
    split at hu
    · exact Or.inl hu
    · rename_i he
      rw [if_neg he, State.drawnUntil_advance (n := records.length) rfl]
      rcases Store.inUse_addRows hu with hu | hm
      · exact Or.inl hu
      · rw [logEntries_ids (s.ids.length_upcoming records.length).symm] at hm
        exact Or.inr (Or.inr hm)

theorem Effects.inUse [LawfulEntity E] (hid : idKey ∉ r.registry.names) (h : Effects r scope s t)
    (hn : (s.drawnUntil t).Nodup) (hs : r.Sound s.store) (hu : t.store.InUse id) :
    s.store.InUse id ∨ id ∈ scope.named ∨ id ∈ s.drawnUntil t := by
  induction h with
  | refl => exact Or.inl hu
  | tail h h' ih =>
    have ha := Effects.drawnUntil_append h (.single h')
    rw [ha, List.nodup_append] at hn
    rw [ha, List.mem_append]
    rcases h'.inUse (Effects.sound hid h hn.1 hs).wf hu with hu | hm | hm
    · rcases ih hn.1 hu with hu | hm | hm
      · exact Or.inl hu
      · exact Or.inr (Or.inl hm)
      · exact Or.inr (Or.inr (Or.inl hm))
    · exact Or.inr (Or.inl hm)
    · exact Or.inr (Or.inr (Or.inr hm))

/-- The identifiers that are drawn in a later part are new where that part starts. -/
theorem Effects.fresh_rest [LawfulEntity E] (hid : idKey ∉ r.registry.names) (hs : r.Sound s.store)
    (h : Effects r scope s u) (h' : Effects r scope u t) (hf : Fresh scope.named s t) : Fresh scope.named u t := by
  have ha := h.drawnUntil_append h'
  have hn := hf.distinct
  rw [ha, List.nodup_append] at hn
  have hm : ∀ id ∈ u.drawnUntil t, id ∈ s.drawnUntil t := fun id hi => ha ▸ List.mem_append_right _ hi
  refine ⟨hn.2.1, fun id hi hu => ?_, fun id hi => hf.unnamed id (hm id hi)⟩
  rcases h.inUse hid hn.1 hs hu with hu | hu | hu
  · exact hf.unused id (hm id hi) hu
  · exact hf.unnamed id (hm id hi) hu
  · exact hn.2.2 id hu id hi rfl

/-- With new identifiers no record is refused, whatever has been done before. -/
theorem Effects.not_refused [LawfulEntity E] {records : List ChangeRecord} {named : List Uuid}
    (hid : idKey ∉ r.registry.names) (hs : r.Sound s.store) (hr : r.Refused records u t) (hf : Fresh named s t)
    (h : Effects r (.free named) s u) : False :=
  hr.not_fresh (h.fresh_rest hid hs (.ofRefused hr) hf)

theorem Effects.fresh_first (h : Effects r scope s u) (h' : Effects r scope u t) (hf : Fresh scope.named s t) :
    Fresh scope.named s u := by
  have ha := h.drawnUntil_append h'
  have hm : ∀ id ∈ s.drawnUntil u, id ∈ s.drawnUntil t := fun id hi => ha ▸ List.mem_append_left _ hi
  exact ⟨(List.nodup_append.1 (ha ▸ hf.distinct)).1, fun id hi => hf.unused id (hm id hi),
    fun id hi => hf.unnamed id (hm id hi)⟩

/-- New identifiers over two parts are new over each of them. The first part leaves a sound store, which is
all that the second needs to be made of effects. -/
theorem Effects.fresh_split [LawfulEntity E] (hid : idKey ∉ r.registry.names) (hs : r.Sound s.store)
    (h : Effects r scope s u) (ha : ∃ n, t.ids = u.ids.advance n)
    (h' : r.Sound u.store → (u.drawnUntil t).Nodup → Effects r scope u t) (hf : Fresh scope.named s t) :
    r.Sound u.store ∧ Fresh scope.named s u ∧ Fresh scope.named u t := by
  obtain ⟨m, hm⟩ := h.advances
  obtain ⟨n, hn⟩ := ha
  have hd := hf.distinct
  rw [State.drawnUntil_append hm hn, List.nodup_append] at hd
  have hu := h.sound hid hd.1 hs
  have hrest := h' hu hd.2.1
  exact ⟨hu, h.fresh_first hrest hf, h.fresh_rest hid hs hrest hf⟩

end Repository

end Dossier
