/-
Patches that name a property more than once. To check, to copy, to read and to set properties, one mention counts: a
patch comes to the same store as with each property named once. Only the comparison takes every mention for itself, so
that a property that changes is recorded as often as it is named.
-/
import Dossier.Proofs.Diff.Exact
import Dossier.Proofs.Repository.PatchFrame

namespace Dossier

/-! ## First mentions -/

section
variable {α β ε : Type} [BEq α] {l : List α}

/-- Induction along the first mentions: each is followed by what is left of the list without its repetitions. -/
theorem eraseDups_induct {motive : List α → Prop} (nil : motive [])
    (cons : ∀ a as, motive (as.filter fun b => !b == a) → motive (a :: as)) : ∀ l, motive l
  | [] => nil
  | a :: as =>
    have : (as.filter fun b => !b == a).length < as.length + 1 := Nat.lt_succ_of_le (List.length_filter_le ..)
    cons a as (eraseDups_induct nil cons _)
termination_by l => l.length

theorem length_eraseDups_le (l : List α) : l.eraseDups.length ≤ l.length := by
  induction l using eraseDups_induct with
  | nil => exact Nat.le_refl _
  | cons a as ih =>
    rw [List.eraseDups_cons]
    exact Nat.succ_le_succ (Nat.le_trans ih (List.length_filter_le ..))

variable [LawfulBEq α]

theorem filter_eraseDups (p : α → Bool) (l : List α) : l.eraseDups.filter p = (l.filter p).eraseDups := by
  induction l using eraseDups_induct with
  | nil => rfl
  | cons a as ih =>
    rw [List.eraseDups_cons]
    cases hp : p a with
    | true =>
      rw [List.filter_cons_of_pos hp, List.filter_cons_of_pos hp, List.eraseDups_cons, ih, List.filter_filter,
        List.filter_filter]
      simp only [Bool.and_comm]
    | false =>
      rw [List.filter_cons_of_neg (by simp [hp]), List.filter_cons_of_neg (by simp [hp]), ih, List.filter_filter]
      -- what is left out by the test needs not be left out as a repetition
      refine congrArg List.eraseDups (List.filter_congr fun b _ => ?_)
      by_cases hb : b = a
      · rw [hb, hp, Bool.false_and]
      · simp [hb]

theorem nodup_eraseDups (l : List α) : l.eraseDups.Nodup := by
  induction l using eraseDups_induct with
  | nil => exact List.nodup_nil
  | cons a as ih =>
    rw [List.eraseDups_cons, List.nodup_cons, List.mem_eraseDups, List.mem_filter]
    exact ⟨by simp, ih⟩

theorem eraseDups_eq_self_iff : l.eraseDups = l ↔ l.Nodup := by
  constructor
  · intro h
    exact h ▸ nodup_eraseDups l
  · intro h
    induction l with
    | nil => rfl
    | cons a as ih =>
      obtain ⟨ha, has⟩ := List.nodup_cons.1 h
      have hfilter : (as.filter fun b => !b == a) = as := by
        rw [List.filter_eq_self]
        intro b hb
        simpa using fun he : b = a => ha (he ▸ hb)
      rw [List.eraseDups_cons, hfilter, ih has]

/-! ## Steps that count once -/

/-- Steps that may fail and count once: another time they do nothing, whatever other steps come in between. -/
structure CountsOnce (f : β → α → Except ε β) : Prop where
  again {a : α} {b b' : β} : f b a = .ok b' → f b' a = .ok b'
  stays {a c : α} {b b' : β} : f b a = .ok b → f b c = .ok b' → f b' a = .ok b'

variable {f : β → α → Except ε β}

/-- A step that has been made may be left out. -/
theorem CountsOnce.foldlM_filter (h : CountsOnce f) {a : α} : ∀ {as : List α} {b : β}, f b a = .ok b →
    (as.filter fun c => !c == a).foldlM f b = as.foldlM f b
  | [], _, _ => rfl
  | c :: as, b, ha => by
    by_cases hc : c = a
    · subst hc
      rw [List.filter_cons_of_neg (by simp), h.foldlM_filter ha, List.foldlM_cons, ha]
      rfl
    · rw [List.filter_cons_of_pos (by simpa using hc), List.foldlM_cons, List.foldlM_cons]
      cases hb : f b c with
      | error e => rfl
      | ok b' => exact h.foldlM_filter (h.stays ha hb)

theorem CountsOnce.foldlM_eraseDups (h : CountsOnce f) (l : List α) (b : β) :
    l.eraseDups.foldlM f b = l.foldlM f b := by
  induction l using eraseDups_induct generalizing b with
  | nil => rfl
  | cons a as ih =>
    rw [List.eraseDups_cons, List.foldlM_cons, List.foldlM_cons]
    cases hb : f b a with
    | error e => rfl
    | ok b' => exact (ih b').trans (h.foldlM_filter (h.again hb))

theorem forM_eraseDups (f : α → Except ε Unit) (l : List α) : l.eraseDups.forM f = l.forM f := by
  have hfold : ∀ l : List α, l.forM f = l.foldlM (fun _ a => f a) () := by
    intro l
    induction l with
    | nil => rfl
    | cons a as ih => exact congrArg (f a >>= ·) (funext fun _ => ih)
  have honce : CountsOnce fun (_ : Unit) a => f a := ⟨fun h => h, fun h _ => h⟩
  rw [hfold, hfold, honce.foldlM_eraseDups]

end

/-! ## Registered properties -/

namespace Registry

variable {E : Type} [Stored E] {r : Registry E} {e : E} {names : List String}

theorem validate_eraseDups (r : Registry E) (names : List String) : r.validate names.eraseDups = r.validate names := by
  unfold validate
  rw [forM_eraseDups]
  cases names <;> simp [List.eraseDups_cons]

theorem countsOnce_read (r : Registry E) (e : E) :
    CountsOnce fun (doc : Document) name => (r.read e name).map fun v => Entries.insert name v doc where
  again {name doc doc'} h := by
    obtain ⟨v, hv, rfl⟩ := except_map_ok h
    rw [hv]
    exact congrArg Except.ok (Entries.insert_of_lookup (Entries.lookup_insert_self ..))
  stays {name other doc doc'} h h' := by
    obtain ⟨v, hv, hdoc⟩ := except_map_ok h
    obtain ⟨w, hw, rfl⟩ := except_map_ok h'
    rw [hv]
    refine congrArg Except.ok (Entries.insert_of_lookup ?_)
    rw [Entries.lookup_insert]
    split
    · rename_i hname
      subst hname
      exact congrArg some (Except.ok.inj (hw.symm.trans hv))
    · rw [← hdoc, Entries.lookup_insert_self]

theorem readAll_eraseDups (r : Registry E) (e : E) (names : List String) :
    r.readAll e names.eraseDups = r.readAll e names :=
  (countsOnce_read r e).foldlM_eraseDups names []

end Registry

/-! ## Patches in two parts -/

namespace Repository

variable {E : Type} {r : Repository E} {s t : State}

theorem Appends.length_rows {records : List ChangeRecord} {s t : Store} (h : r.Appends records s t) :
    (t.rows r.config.auditCollection).length = (s.rows r.config.auditCollection).length + records.length := by
  obtain ⟨added, ids, hrows, hentries, hl⟩ := h
  have hlength := congrArg List.length hentries
  unfold logEntries at hlength
  rw [List.length_map, List.length_zipWith, hl, Nat.min_self] at hlength
  rw [hrows, List.length_append, hlength]

/-- Fewer records can be recorded where more can. -/
theorem Recorded.fewer {records fewer : List ChangeRecord} (h : r.Recorded records s t)
    (hl : fewer.length ≤ records.length) : ∃ t', r.record fewer s = .ok () t' ∧ r.Recorded fewer s t' := by
  cases hx : r.record fewer s with
  | ok _ t' => exact ⟨t', rfl, record_ok hx⟩
  | error fault t' =>
    exfalso
    obtain ⟨id, hi, hc⟩ := (record_error hx).clash
    have hupcoming : id ∈ s.ids.upcoming records.length := by
      rw [← Nat.add_sub_cancel' hl, IdSupply.upcoming_add]
      exact List.mem_append_left _ hi
    exact Bool.false_ne_true ((h.vacant id hupcoming).symm.trans hc)

variable [Entity E] {find : Action E} {requested x version : E} {own : Uuid} {names : List String}
  {ctx : AuditContext}

/-- The first part of a patch, up to where the versions are compared: it yields the stored entity, its identifier and
its new version. -/
def preparePatch (r : Repository E) (find : Action E) (requested : E) (names : List String) :
    Action (E × Uuid × E) := do
  Action.ofExcept (r.registry.validate names)
  let existing ← find
  let id ← Action.ofExcept (Stored.requireId "patch" existing)
  let updated ← Action.ofExcept (r.registry.copyAll names requested existing)
  Action.ofExcept (Entity.validate updated)
  r.resolveDuplicate updated (some id)
  return (existing, id, updated)

/-- The second part of a patch: what differs is written and recorded. -/
def finishPatch (r : Repository E) (names : List String) (ctx : AuditContext) (existing : E) (id : Uuid)
    (updated : E) : Action E := do
  let changes ← Action.ofExcept (r.changes existing updated (some names))
  if changes.isEmpty then return existing
  let values ← Action.ofExcept (r.registry.readAll updated (changes.map (·.property)))
  let _ ← r.entities.updateFields (r.byId id) values
  r.recordIfActive updated (r.updateRecords id (Entity.slug? updated) changes ctx)
  return updated

theorem patch_eq (r : Repository E) (find : Action E) (requested : E) (names : List String) (ctx : AuditContext) :
    r.patch find requested names ctx =
      r.preparePatch find requested names >>= fun p => r.finishPatch names ctx p.1 p.2.1 p.2.2 := by
  unfold patch preparePatch
  simp only [bind_assoc, pure_bind]
  rfl

theorem preparePatch_ok (hf : r.Finds find) (hw : s.store.WF)
    (h : r.preparePatch find requested names s = .ok (x, own, version) t) : find s = .ok x s ∧
      (∃ row ∈ s.store.rows (Stored.collection E), Stored.ofValue? row.doc = some x) ∧
      r.PatchedVersion x requested names own version ∧
      ∃ cleared, Cleared r version (some own) s.store cleared ∧ t = s.withStore cleared := by
  unfold preparePatch at h
  obtain ⟨_, -, h⟩ := Action.bind_ofExcept_ok h
  obtain ⟨existing, u, hfound, hrest⟩ := Action.bind_ok h
  obtain ⟨rfl, row, hr, he⟩ := hf.found hw hfound
  obtain ⟨id, hid, h⟩ := Action.bind_ofExcept_ok hrest
  obtain ⟨updated, hu, h⟩ := Action.bind_ofExcept_ok h
  obtain ⟨_, hv, h⟩ := Action.bind_ofExcept_ok h
  obtain ⟨cleared, hc, h⟩ := bind_resolveDuplicate_ok h
  cases h
  exact ⟨hfound, ⟨row, hr, he⟩, ⟨Stored.requireId_ok hid, hu, hv⟩, cleared, hc, rfl⟩

/-- What the second part does once the changes and the values are known. -/
theorem finishPatch_run {changes : List PropertyChange} {values : Document} (hw : s.store.WF)
    (hd : r.changes x version (some names) = .ok changes) (hne : changes ≠ [])
    (hl : r.registry.readAll version (changes.map (·.property)) = .ok values) :
    r.finishPatch names ctx x own version s =
      (r.record (r.changeRecords version own changes ctx) >>= fun _ => pure version)
        (s.withStore (r.patchRow own values s.store)) := by
  have hempty : ¬ changes.isEmpty = true := fun he => hne (List.isEmpty_iff.1 he)
  have hup : ∃ n, r.entities.updateFields (r.byId own) values s =
      .ok n (s.withStore (r.patchRow own values s.store)) := by
    cases h : r.entities.updateFields (r.byId own) values s with
    | error fault u => exact (updateFields_byId_error h).elim
    | ok n u => exact ⟨n, by rw [updateFields_byId_ok hw h]⟩
  obtain ⟨n, hup⟩ := hup
  unfold finishPatch
  rw [Action.bind_ofExcept_run hd, if_neg hempty, Action.bind_ofExcept_run hl, Action.bind_run hup, recordIfActive_eq]
  rfl

end Repository

/-- The write with each property named once, where it is named first. -/
def Write.namedOnce {E : Type} : Write E → Write E
  | save e => .save e
  | patchById id requested names => .patchById id requested names.eraseDups
  | patchBySlug slug requested names => .patchBySlug slug requested names.eraseDups
  | patchByFilter filter requested names => .patchByFilter filter requested names.eraseDups

theorem Write.patch?_namedOnce {E : Type} [Entity E] {r : Repository E} {w : Write E} {find : Action E} {requested : E}
    (h : w.patch? r = some (find, requested)) :
    w.namedOnce.patch? r = some (find, requested) ∧ w.namedOnce.names = w.names.eraseDups := by
  cases w with
  | save e => cases h
  | patchById id requested names => exact ⟨h, rfl⟩
  | patchBySlug slug requested names => exact ⟨h, rfl⟩
  | patchByFilter filter requested names => exact ⟨h, rfl⟩

namespace Customer

open Repository

variable {config : Config} {w : Write Customer} {find : Action Customer} {c requested x version : Customer}
  {names : List String} {own : Uuid} {changes once : List PropertyChange} {ctx : AuditContext} {s t t' u : State}

/-! ## What counts once -/

/-- A property that can be copied can be copied to every customer. -/
theorem copy_ok {name : String} {t : Customer} (h : registry.copy name requested t = .ok c) :
    c = overlay [name] requested t ∧ ∀ t, registry.copy name requested t = .ok (overlay [name] requested t) := by
  obtain ⟨p, hf, rfl⟩ := except_map_ok h
  obtain ⟨hp, rfl⟩ := Registry.find_ok hf
  refine ⟨(property_registry hp requested t).1, fun t => ?_⟩
  unfold Registry.copy
  rw [hf, ← (property_registry hp requested t).1]
  rfl

theorem overlay_congr {names names' : List String} (h : ∀ key, key ∈ names ↔ key ∈ names') (u t : Customer) :
    overlay names u t = overlay names' u t := by
  unfold overlay
  simp only [h]

theorem countsOnce_copy (requested : Customer) :
    CountsOnce fun (t : Customer) name => registry.copy name requested t where
  again h := by
    obtain ⟨rfl, hcopy⟩ := copy_ok h
    rw [hcopy, overlay_overlay]
  stays {name other t t'} h h' := by
    obtain ⟨hset, hcopy⟩ := copy_ok h
    obtain ⟨rfl, -⟩ := copy_ok h'
    -- the order in which properties are set does not matter
    have hswap : ∀ key, key ∈ [other, name] ↔ key ∈ [name, other] := fun key => (List.Perm.swap ..).mem_iff
    rw [hcopy, overlay_cons, overlay_congr hswap, ← overlay_cons, ← hset]

theorem copyAll_eraseDups (names : List String) (requested t : Customer) :
    registry.copyAll names.eraseDups requested t = registry.copyAll names requested t :=
  (countsOnce_copy requested).foldlM_eraseDups names t

theorem preparePatch_eraseDups (find : Action Customer) (requested : Customer) (names : List String) :
    (repository config).preparePatch find requested names.eraseDups =
      (repository config).preparePatch find requested names := by
  unfold preparePatch
  rw [Registry.validate_eraseDups]
  simp only [show (repository config).registry = registry from rfl, copyAll_eraseDups]

/-! ## What counts every time -/

/-- The properties among those named under which two versions differ. -/
def altered (config : Config) (x version : Customer) (names : List String) : List String :=
  names.filter ((repository config).differ.differs x.document version.document)

theorem altered_eraseDups (config : Config) (x version : Customer) (names : List String) :
    altered config x version names.eraseDups = (altered config x version names).eraseDups := filter_eraseDups ..

/-- Two runs of a patch, one of them with each property named once, that part at the state `u`: what is left is to
record the changes, in the first run one for each mention of a property that differs, in the other one for each such
property. -/
structure PartAtRecords (config : Config) (names : List String) (ctx : AuditContext) (x version : Customer) (own : Uuid)
    (changes once : List PropertyChange) (u t t' : State) : Prop where
  mentions : changes.map (·.property) = altered config x version names
  firsts : once.map (·.property) = altered config x version names.eraseDups
  rendered : ∀ change ∈ changes ++ once, (repository config).differ.Renders x.document version.document change
  recorded : (repository config).Recorded ((repository config).changeRecords version own changes ctx) u t
  recordedOnce : (repository config).Recorded ((repository config).changeRecords version own once ctx) u t'

/-- Changes that are shown for the same properties in the same order are the same. -/
theorem changes_ext {d : Differ} {old new : Document} : ∀ {changes once : List PropertyChange},
    (∀ change ∈ changes ++ once, d.Renders old new change) →
      changes.map (·.property) = once.map (·.property) → changes = once
  | [], [], _, _ => rfl
  | a :: changes, b :: once, hr, hp => by
    obtain ⟨hab, hp⟩ := List.cons_eq_cons.1 hp
    have ha := hr a (List.mem_cons_self ..)
    have hb := hr b (List.mem_append_right _ (List.mem_cons_self ..))
    rw [ha.unique hb hab, changes_ext (fun change hc => hr change ?_) hp]
    rcases List.mem_append.1 hc with hc | hc
    · exact List.mem_append_left _ (List.mem_cons_of_mem _ hc)
    · exact List.mem_append_right _ (List.mem_cons_of_mem _ hc)

theorem PartAtRecords.properties_eq (h : PartAtRecords config names ctx x version own changes once u t t') :
    once.map (·.property) = (changes.map (·.property)).eraseDups := by
  rw [h.firsts, h.mentions, altered_eraseDups]

/-- The records are the same if and only if there are none to keep or no property that differs is named twice. -/
theorem PartAtRecords.records_eq_iff (h : PartAtRecords config names ctx x version own changes once u t t') :
    (repository config).changeRecords version own changes ctx =
      (repository config).changeRecords version own once ctx ↔
        version.active = false ∨ (altered config x version names).Nodup := by
  rw [← h.mentions, ← eraseDups_eq_self_iff, ← h.properties_eq]
  unfold changeRecords recordsOf
  rw [show Entity.isActive version = version.active from rfl]
  cases version.active with
  | false => simp
  | true =>
    simp only [if_true, Bool.true_eq_false, false_or]
    constructor
    · intro hrecords
      have hnames := congrArg (List.map ChangeRecord.property) hrecords
      unfold updateRecords at hnames
      rw [List.map_map, List.map_map] at hnames
      have hsome : (once.map (·.property)).map some = (changes.map (·.property)).map some := by
        rw [List.map_map, List.map_map]
        exact hnames.symm
      exact (List.map_inj_right fun _ _ => Option.some.inj).1 hsome
    · intro hp
      rw [changes_ext h.rendered hp.symm]

theorem PartAtRecords.rows_eq (h : PartAtRecords config names ctx x version own changes once u t t') {name : String}
    (hn : name ≠ config.auditCollection) : t.store.rows name = t'.store.rows name :=
  (h.recorded.rows_other hn).trans (h.recordedOnce.rows_other hn).symm

theorem PartAtRecords.counters_eq (h : PartAtRecords config names ctx x version own changes once u t t') :
    t.store.counters = t'.store.counters :=
  (counters_of_recorded h.recorded).trans (counters_of_recorded h.recordedOnce).symm

theorem length_changeRecords_le (r : Repository Customer) (version : Customer) (own : Uuid) (ctx : AuditContext)
    (h : once.length ≤ changes.length) :
    (r.changeRecords version own once ctx).length ≤ (r.changeRecords version own changes ctx).length := by
  unfold changeRecords recordsOf updateRecords
  split
  · rwa [List.length_map, List.length_map]
  · exact Nat.le_refl _

/-- What the second part of a patch does, told from the properties that differ. -/
theorem finishPatch_registered (config : Config) (ctx : AuditContext) (x version : Customer) (own : Uuid)
    (hw : u.store.WF) (hn : ∀ name ∈ names, name ∈ registry.names) : ∃ changes values,
      (repository config).changes x version (some names) = .ok changes ∧
      changes.map (·.property) = altered config x version names ∧
      (∀ change ∈ changes, (repository config).differ.Renders x.document version.document change) ∧
      registry.readAll version (altered config x version names) = .ok values ∧
      (repository config).finishPatch names ctx x own version u =
        if changes = [] then .ok x u
        else ((repository config).record ((repository config).changeRecords version own changes ctx) >>=
          fun _ => pure version) (u.withStore ((repository config).patchRow own values u.store)) := by
  obtain ⟨changes, hd⟩ := changes_of_registered config hn x version
  have hchanges := hd
  rw [changes_eq] at hchanges
  obtain ⟨hp, hr⟩ := Differ.changesOf_ok hchanges
  change _ = altered config x version names at hp
  have haltered : ∀ name ∈ altered config x version names, name ∈ registry.names := fun name hm =>
    hn name (List.mem_of_mem_filter hm)
  obtain ⟨values, hl⟩ := Registry.readAll_of_registered (e := version) haltered
  refine ⟨changes, values, hd, hp, hr, hl, ?_⟩
  split
  · rename_i hnone
    subst hnone
    unfold finishPatch
    rw [Action.bind_ofExcept_run hd]
    rfl
  · rename_i hne
    exact finishPatch_run hw hd hne (hp ▸ hl)

section
variable (h : once.map (·.property) = (changes.map (·.property)).eraseDups)
include h

theorem nil_iff_of_firsts : once = [] ↔ changes = [] := by
  rw [← List.map_eq_nil_iff (f := (·.property)), h]
  cases changes <;> simp [List.eraseDups_cons]

theorem length_le_of_firsts : once.length ≤ changes.length := by
  have hle := length_eraseDups_le (changes.map (·.property))
  rwa [← h, List.length_map, List.length_map] at hle

end

theorem recorded_nothing (version : Customer) (own : Uuid) (ctx : AuditContext) (h : changes = []) (t : State) :
    (repository config).Recorded ((repository config).changeRecords version own changes ctx) t t := by
  rw [h, changeRecords_nil]
  exact ⟨rfl, nofun⟩

/-- Where the second part of a patch succeeds, it also does with each property named once. -/
theorem finishPatch_namedOnce (hw : u.store.WF) (hn : ∀ name ∈ names, name ∈ registry.names)
    (h : (repository config).finishPatch names ctx x own version u = .ok c t) :
    ∃ t' changes once v, (repository config).finishPatch names.eraseDups ctx x own version u = .ok c t' ∧
      PartAtRecords config names ctx x version own changes once v t t' := by
  have hfirsts : ∀ name ∈ names.eraseDups, name ∈ registry.names := fun name hm => hn name (List.mem_eraseDups.1 hm)
  obtain ⟨changes, values, -, hp, hr, hl, hrun⟩ := finishPatch_registered config ctx x version own hw hn
  obtain ⟨once, values', -, hp', hr', hl', hrun'⟩ :=
    finishPatch_registered config ctx x version own hw hfirsts
  have hrendered : ∀ change ∈ changes ++ once,
      (repository config).differ.Renders x.document version.document change := fun change hc =>
    (List.mem_append.1 hc).elim (hr change) (hr' change)
  -- the same properties differ, and they have the same values
  have hproperties : once.map (·.property) = (changes.map (·.property)).eraseDups := by
    rw [hp', hp, altered_eraseDups]
  rw [altered_eraseDups, Registry.readAll_eraseDups, hl] at hl'
  cases hl'
  have hnone := nil_iff_of_firsts hproperties
  by_cases hc : changes = []
  · rw [hrun, if_pos hc] at h
    rw [hrun', if_pos (hnone.2 hc), h]
    exact ⟨t, changes, once, t, rfl, hp, hp', hrendered, recorded_nothing version own ctx hc t,
      recorded_nothing version own ctx (hnone.2 hc) t⟩
  · rw [hrun, if_neg hc] at h
    rw [hrun', if_neg (hnone.not.2 hc)]
    obtain ⟨_, v, hrec, hpure⟩ := Action.bind_ok h
    obtain ⟨hversion, ht⟩ := Action.pure_ok hpure
    obtain ⟨t', hx, hrec'⟩ := (record_ok hrec).fewer
      (length_changeRecords_le _ version own ctx (length_le_of_firsts hproperties))
    rw [Action.bind_run hx, hversion, ht]
    exact ⟨t', changes, once, _, rfl, hp, hp', hrendered, record_ok hrec, hrec'⟩

/-- The second part of a patch does not fail. -/
theorem finishPatch_completes {row : Row} {cleared : Store} {named : List Uuid} {fault : Fault}
    (hs : (repository config).Sound s.store) (hr : row ∈ s.store.rows (Stored.collection Customer))
    (he : ofValue? row.doc = some x) (hv : (repository config).PatchedVersion x requested names own version)
    (hc : Cleared (repository config) version (some own) s.store cleared) (hf : Fresh named s t)
    (h : (repository config).finishPatch names ctx x own version (s.withStore cleared) = .error fault t) : False := by
  have hw : (s.withStore cleared).store.WF := hc.wf hs.wf
  obtain ⟨changes, values, hd, hp, -, hl, hrun⟩ :=
    finishPatch_registered config ctx x version own hw (copyAll_ok hv.version).2
  rw [hrun] at h
  split at h
  · cases h
  · rcases Action.bind_error h with h | ⟨_, v, -, h⟩
    · exact patch_completes hs hf hr he (.refused hv hc hd (hp ▸ hl) (record_error h))
    · cases h

/-- A patch yields the same as the patch that names each property once, where it is named first, and fails as that
does. Both leave the same documents and counters, records apart: there, a property that differs has one record for each
time that it is named. So the records are the same if and only if there are none to keep or no property that differs
is named twice. -/
theorem patch_named_once {allowed : Call Customer → Prop} (h : Reachable (repository config) allowed s)
    (hp : w.patch? (repository config) = some (find, requested))
    (hf : Fresh (Call.write w ctx).named s ((Call.write w ctx).after (repository config) s)) :
    (∃ fault t, w.run (repository config) ctx s = .error fault t ∧
      w.namedOnce.run (repository config) ctx s = .error fault t) ∨
    ∃ c t t' x version own changes once u, w.run (repository config) ctx s = .ok c t ∧
      w.namedOnce.run (repository config) ctx s = .ok c t' ∧ find s = .ok x s ∧ x.id = some own ∧
      registry.copyAll w.names requested x = .ok version ∧
      PartAtRecords config w.names ctx x version own changes once u t t' ∧
      (∀ name, name ≠ config.auditCollection → t.store.rows name = t'.store.rows name) ∧
      t.store.counters = t'.store.counters ∧
      ((repository config).changeRecords version own changes ctx =
        (repository config).changeRecords version own once ctx ↔
          version.active = false ∨ (altered config x version w.names).Nodup) := by
  have hs := h.sound idKey_not_registered
  obtain ⟨hfind, hrun⟩ := Write.patch?_some hp ctx
  obtain ⟨hp', hnames⟩ := Write.patch?_namedOnce hp
  obtain ⟨-, hrun'⟩ := Write.patch?_some hp' ctx
  change Fresh _ s ((w.run _ ctx).leaves s) at hf
  rw [hnames, patch_eq, preparePatch_eraseDups] at hrun'
  rw [patch_eq] at hrun
  rw [hrun']
  rw [hrun] at hf ⊢
  cases hprepared : (repository config).preparePatch find requested w.names s with
  | error fault t => exact Or.inl ⟨fault, t, Action.bind_run_error hprepared, Action.bind_run_error hprepared⟩
  | ok prepared u =>
    right
    obtain ⟨x, own, version⟩ := prepared
    obtain ⟨hfound, ⟨row, hr, he⟩, hv, cleared, hc, rfl⟩ := preparePatch_ok hfind hs.wf hprepared
    have hw : (s.withStore cleared).store.WF := hc.wf hs.wf
    unfold Action.leaves at hf
    rw [Action.bind_run hprepared] at hf ⊢
    rw [Action.bind_run hprepared]
    cases hfinish : (repository config).finishPatch w.names ctx x own version (s.withStore cleared) with
    | error fault t =>
      dsimp only at hf
      rw [hfinish] at hf
      exact (finishPatch_completes hs hr he hv hc hf hfinish).elim
    | ok c t =>
      obtain ⟨t', changes, once, v, honce, hpart⟩ := finishPatch_namedOnce hw (copyAll_ok hv.version).2 hfinish
      exact ⟨c, t, t', x, version, own, changes, once, v, rfl, honce, hfound, hv.own_eq, hv.version, hpart,
        fun _ hn => hpart.rows_eq hn, hpart.counters_eq, hpart.records_eq_iff⟩

/-- Ann is renamed by a patch that names her name twice. -/
def renamedTwice : Write Customer := .patchById (.ofNat 1) { ann with name := "Rob" } ["name", "name"]

def annAlone : State := afterCalls {} [.write (.save ann) morning]

theorem reachable_annAlone : Reachable (repository {}) (fun _ => True) annAlone :=
  reachable_afterCalls (fun _ _ => trivial) (by decide +kernel)

theorem renamed_named_once : ∃ c t t', renamedTwice.run (repository {}) evening annAlone = .ok c t ∧
    renamedTwice.namedOnce.run (repository {}) evening annAlone = .ok c t' ∧
    (∀ name, name ≠ "change_records" → t.store.rows name = t'.store.rows name) ∧
    t.store.counters = t'.store.counters := by
  have hp : renamedTwice.patch? (repository {}) =
    some ((repository {}).getById (.ofNat 1), { ann with name := "Rob" }) := rfl
  have hrun : ((renamedTwice.run (repository {}) evening).result? annAlone).isSome = true := by decide +kernel
  have hf : Fresh (Call.write renamedTwice evening).named annAlone
      ((Call.write renamedTwice evening).after (repository {}) annAlone) := by decide +kernel
  obtain ⟨⟨c, t⟩, hr⟩ := Option.isSome_iff_exists.1 hrun
  have hx := Action.run_of_result? hr
  rcases patch_named_once reachable_annAlone hp hf with ⟨fault, u, herror, -⟩ | h
  · cases herror.symm.trans hx
  · obtain ⟨c, t, t', _, _, _, _, _, _, hrun, honce, -, -, -, -, hrows, hcounters, -⟩ := h
    exact ⟨c, t, t', hrun, honce, hrows, hcounters⟩

/-- A property that is named twice can have two records. -/
theorem not_named_once : ¬ ∀ (config : Config) (w : Write Customer) (ctx : AuditContext) (c c' : Customer)
    (s t t' : State), Reachable (repository config) (fun _ => True) s → ¬ w.IsSave →
      w.run (repository config) ctx s = .ok c t → w.namedOnce.run (repository config) ctx s = .ok c' t' →
      ∃ records, (repository config).Appends records s.store t.store ∧
        (repository config).Appends records s.store t'.store := by
  intro h
  have htwice : ((renamedTwice.run (repository {}) evening).result? annAlone).map
      (fun r => (r.2.store.rows "change_records").length) = some 3 := by decide +kernel
  have honce : ((renamedTwice.namedOnce.run (repository {}) evening).result? annAlone).map
      (fun r => (r.2.store.rows "change_records").length) = some 2 := by decide +kernel
  obtain ⟨⟨c, t⟩, hr, hthree⟩ := Option.map_eq_some_iff.1 htwice
  obtain ⟨⟨c', t'⟩, hr', htwo⟩ := Option.map_eq_some_iff.1 honce
  obtain ⟨records, ha, ha'⟩ := h {} renamedTwice evening c c' annAlone t t' reachable_annAlone not_false
    (Action.run_of_result? hr) (Action.run_of_result? hr')
  have hsame : (t.store.rows "change_records").length = (t'.store.rows "change_records").length :=
    ha.length_rows.trans ha'.length_rows.symm
  dsimp only at hthree htwo
  rw [hthree, htwo] at hsame
  cases hsame

end Customer

end Dossier
