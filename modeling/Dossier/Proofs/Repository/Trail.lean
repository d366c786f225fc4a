/-
What calls are to log about customers, and what writes do log: a creation by one record, an update by
one record for each property under which the stored document has changed.
-/
import Dossier.Proofs.Repository.FailedWrite
import Dossier.Proofs.Repository.Update

namespace Dossier

/-- Whether a double is a number. -/
def Double.IsNumber (x : Double) : Prop := x.isNaN = false

/-- Whether the balances that a call hands in are numbers. -/
def Call.Numeric (c : Call Customer) : Prop := ∀ e ∈ c.given, e.balance.IsNumber

namespace Customer

open Repository

variable {config : Config} {c e existing requested updated : Customer} {properties : List String}
  {changes : List PropertyChange} {id own : Uuid} {row : Row} {store cleared : Store} {ctx : AuditContext}
  {fault : Fault} {s t : State}

/-! ## Settled stores -/

/-- A store of customers whose balances are numbers. -/
structure Settled (config : Config) (store : Store) : Prop where
  sound : (repository config).Sound store
  canonical : Canonical config Double.IsNumber store

variable (hdef : config.UsesDefaultFields) (ha : config.auditCollection ≠ Stored.collection Customer)

include hdef ha in
theorem Settled.effects {scope : Scope Customer} (hg : ∀ e, scope.given e → e.balance.IsNumber)
    (h : Effects (repository config) scope s t) (hn : (s.drawnUntil t).Nodup) (hs : Settled config s.store) :
    Settled config t.store :=
  h.preserve (P := Settled config) (fun he hn hs => ⟨he.sound idKey_not_registered hn hs.sound,
    hs.canonical.effect hdef hg (fun _ => ha) he hs.sound⟩) hn hs

include hdef ha in
theorem settled_of_reachable (h : Reachable (repository config) Call.Numeric s) : Settled config s.store := by
  obtain ⟨hs, hc⟩ := canonical_of_reachable hdef ha (fun _ hc => hc) h
  exact ⟨hs, hc⟩

/-! ## New versions -/

/-- A stored customer that stays as it is has nothing to log. -/
theorem trail_of_unchanged (hs : Settled config s.store) (hr : row ∈ s.store.rows (Stored.collection Customer))
    (he : ofValue? row.doc = some existing) (hw : t.store.WF)
    (hr' : row ∈ t.store.rows (Stored.collection Customer)) :
    UpdateTrail config ctx row.id s.store t.store [] := by
  obtain ⟨-, hd, hb⟩ := (hs.canonical row hr).doc_eq he
  have h : UpdateTrail config ctx row.id s.store t.store
      ((repository config).changeRecords existing row.id [] ctx) :=
    updateTrail_of_describes (document?_of_row hs.sound.wf hr hd) (document?_of_row hw hr' hd)
      (Differ.describes_nothing (agree_self hb)) rfl rfl
  rwa [changeRecords_nil] at h

include hdef ha

/-- Making way for a version that changes nothing has nothing to log. -/
theorem trail_of_cleared (hs : Settled config s.store) (hr : row ∈ s.store.rows (Stored.collection Customer))
    (he : ofValue? row.doc = some existing)
    (hc : Cleared (repository config) updated (some row.id) s.store cleared) :
    (repository config).Appends [] s.store cleared ∧ UpdateTrail config ctx row.id s.store cleared [] :=
  ⟨.nothing (hc.rows_other ha), trail_of_unchanged (t := s.withStore cleared) hs hr he (hc.wf hs.sound.wf)
    (hs.sound.mem_rows_cleared hdef.idField hc hr he)⟩

/-- A new version that has been written is logged by its changes. -/
theorem Written.trail (hs : Settled config s.store) (hr : row ∈ s.store.rows (Stored.collection Customer))
    (he : ofValue? row.doc = some existing) (hid : updated.id = some row.id)
    (hc : Cleared (repository config) updated (some row.id) s.store cleared)
    (hd : (repository config).changes existing updated none = .ok changes)
    (h : Written (repository config) (stamp ctx false updated) row.id changes ctx (s.withStore cleared) t) :
    ∃ records, (repository config).Appends records s.store t.store ∧
      UpdateTrail config ctx row.id s.store t.store records := by
  cases h with
  | @intro id _ hi hin hrec =>
    have hown : id = row.id :=
      Option.some.inj (hi.symm.trans ((LawfulEntity.id_stamp updated ctx false).trans hid))
    subst hown
    refine ⟨_, hrec.appends.of_rows_eq ((Store.rows_reviseRows_other ha _).trans (hc.rows_other ha)), ?_⟩
    refine updateTrail_of_describes
      (document?_of_row hs.sound.wf hr ((hs.canonical row hr).doc_eq he).2.1) ?_ ?_ rfl rfl
    · unfold Store.document?
      rw [hrec.left, collection_recorded ha.symm]
      exact document?_putRow (hc.wf hs.sound.wf) hin
    · -- stamping comes after comparing, but touches identity fields only
      rw [changes_eq] at hd
      refine (Differ.diffDocuments_ok (keys_document_nodup _) (keys_document_nodup _) hd).of_valueAt
        (fun _ _ => rfl) fun key hk => valueAt_stamp updated ctx ?_
      rw [hdef.isIdentity_eq, Bool.or_eq_false_iff] at hk
      simpa using hk.2

/-- A patch whose names are distinct is logged by its changes. -/
theorem Patched.trail (hs : Settled config s.store) (hr : row ∈ s.store.rows (Stored.collection Customer))
    (he : ofValue? row.doc = some existing)
    (h : Patched (repository config) existing requested properties ctx s c t) :
    c.id = some row.id ∧ ∃ records, (repository config).Appends records s.store t.store ∧
      (properties.Nodup → UpdateTrail config ctx row.id s.store t.store records) := by
  obtain ⟨hid, hdoc, hb⟩ := (hs.canonical row hr).doc_eq he
  cases h with
  | @same own updated cleared hv hc hd =>
    have hown : own = row.id := Option.some.inj (hv.own_eq.symm.trans hid)
    subst hown
    obtain ⟨happ, htrail⟩ := trail_of_cleared hdef ha hs hr he hc
    exact ⟨hid, [], happ, fun _ => htrail⟩
  | @changed own updated cleared changes values _ hv hc hd hne hl hrec =>
    have hown : own = row.id := Option.some.inj (hv.own_eq.symm.trans hid)
    subst hown
    have hcopy := copyAll_ok hv.version
    have hclear := hs.sound.cleared hc
    have hrow := patchRow_eq hclear (hs.canonical.cleared hs.sound.wf hc) hdef.idField hl
      (row_of_cleared hs.sound.wf hs.canonical hc hr he hid)
    have hrow' := hs.sound.mem_rows_cleared hdef.idField hc hr he
    refine ⟨by rw [hcopy.1]; exact hid, _, hrec.appends.of_rows_eq ?_, fun hn => ?_⟩
    · exact (Store.rows_reviseRows_other ha _).trans (hc.rows_other ha)
    -- only the properties that differ are written, and the row is still there to be written to
    refine updateTrail_of_describes (document?_of_row hs.sound.wf hr hdoc) ?_
      (describes_patch hcopy.2 hn hb hd) ?_ ?_
    · unfold Store.document?
      rw [hrec.left, collection_recorded ha.symm]
      change Store.document? ((repository config).patchRow row.id values cleared) row.id = _
      rw [hrow]
      exact document?_putRow hclear.wf ((hclear.wf _).contains_of_mem hrow')
    · exact active_overlay_changes hdef hcopy.1 hd
    · rw [hcopy.1]; rfl

omit hdef ha

/-! ## What calls are to log -/

/-- What is to be logged of the creation of a customer. -/
def creationEntries (c : Customer) (id : Uuid) (ctx : AuditContext) : List ChangeRecord :=
  if c.active then [entry c id ctx .create none none none] else []

/-- What a write is to log: the creation of the customer if there was none under its identifier, and otherwise
its update, when no property is named twice. -/
def WriteTrail (config : Config) (w : Write Customer) (ctx : AuditContext) (s : State)
    (records : List ChangeRecord) : Prop :=
  match w.run (repository config) ctx s with
  | .error _ _ => records = []
  | .ok c t => ∃ id, c.id = some id ∧
    match s.store.document? id with
    | none => records = creationEntries c id ctx
    | some _ => w.names.Nodup → UpdateTrail config ctx id s.store t.store records

/-- What a write is to log has no identifiers; these are given when it is appended. -/
theorem WriteTrail.unnumbered {w : Write Customer} {records : List ChangeRecord}
    (h : WriteTrail config w ctx s records) (hn : w.names.Nodup) : ∀ record ∈ records, record.id = none := by
  unfold WriteTrail at h
  split at h
  · subst h
    exact List.forall_mem_nil _
  obtain ⟨id, -, h⟩ := h
  split at h
  · unfold creationEntries at h
    subst h
    split
    · exact List.forall_mem_singleton.2 rfl
    · exact List.forall_mem_nil _
  · obtain ⟨_, _, c, -, -, -, h⟩ := h hn
    split at h
    · obtain ⟨changes, -, rfl⟩ := h
      intro record hr
      obtain ⟨change, -, rfl⟩ := List.mem_map.1 hr
      rfl
    · subst h
      exact List.forall_mem_nil _

/-- What a row of an import is to log. -/
def RowTrail (config : Config) (ctx : AuditContext) (force : Bool) (e : Customer) (s : State)
    (records : List ChangeRecord) : Prop :=
  match (repository config).importRow ctx force e s with
  | .error _ _ => records = []
  | .ok (c, .created) _ => ∃ id, c.id = some id ∧ records = creationEntries c id ctx
  | .ok (c, .updated) t => ∃ id, c.id = some id ∧ UpdateTrail config ctx id s.store t.store records
  | .ok (_, .ignored) _ => records = []

/-- What the rows of an import are to log, one after the other, up to the first that fails. -/
inductive RowsTrail (config : Config) (ctx : AuditContext) (force : Bool) :
    List Customer → State → List ChangeRecord → Prop
  | done (s : State) : RowsTrail config ctx force [] s []
  | failed {e : Customer} {es : List Customer} {s t : State} {fault : Fault} {records : List ChangeRecord}
      (h : (repository config).importRow ctx force e s = .error fault t)
      (happ : (repository config).Appends records s.store t.store) (hr : RowTrail config ctx force e s records) :
      RowsTrail config ctx force (e :: es) s records
  | row {e : Customer} {es : List Customer} {s u : State} {result : Customer × ImportOutcome}
      {records more : List ChangeRecord} (h : (repository config).importRow ctx force e s = .ok result u)
      (happ : (repository config).Appends records s.store u.store) (hr : RowTrail config ctx force e s records)
      (hm : RowsTrail config ctx force es u more) : RowsTrail config ctx force (e :: es) s (records ++ more)

/-- What a soft deletion is to log: that the flag of an active customer has been taken away. -/
def SoftDeletionTrail (config : Config) (id : Uuid) (ctx : AuditContext) (s : State)
    (records : List ChangeRecord) : Prop :=
  match (repository config).softDeleteById id ctx s with
  | .error _ _ => records = []
  | .ok _ _ => ∃ doc c, s.store.document? id = some doc ∧ ofValue? (.document doc) = some c ∧
    records = if c.active then [entry c id ctx .delete (some "active") (some "true") (some "false")] else []

/-- What a deletion for good is to log: that an active customer is gone. -/
def DeletionTrail (config : Config) (id : Uuid) (ctx : AuditContext) (s : State)
    (records : List ChangeRecord) : Prop :=
  match (repository config).deleteById id ctx s with
  | .error _ _ => records = []
  | .ok _ _ => ∃ doc c, s.store.document? id = some doc ∧ ofValue? (.document doc) = some c ∧
    records = if c.active then [entry c id ctx .delete none none none] else []

/-- What a call is to log. -/
def CallTrail (config : Config) (s : State) (records : List ChangeRecord) : Call Customer → Prop
  | .write w ctx => WriteTrail config w ctx s records
  | .bulkImport es ctx force =>
    match es.forM Entity.validate with
    | .error _ => records = []
    | .ok _ => RowsTrail config { ctx with source := .imported } force es s records
  | .softDelete id ctx => SoftDeletionTrail config id ctx s records
  | .delete id ctx => DeletionTrail config id ctx s records
  | .patchMany .. => records = []
  | .reserve .. => records = []
  | .assignSlugs _ => records = []

/-! ## What calls log -/

theorem document?_none (hw : store.WF) (h : (store.collection (Stored.collection Customer)).contains id = false) :
    store.document? id = none := by
  unfold Store.document?
  rw [(hw _).get?_eq_none_iff.2 h]; rfl

include ha in
/-- A failed write logs nothing. -/
theorem rows_of_failed_write {w : Write Customer} (hs : Settled config s.store)
    (hf : Fresh (Call.write w ctx).named s t) (hw : w.run (repository config) ctx s = .error fault t) :
    t.store.rows config.auditCollection = s.store.rows config.auditCollection := by
  rw [left_by_failed_write hs.sound hf hw]
  cases w.retired? (repository config) s.store with
  | none => rfl
  | some gone => exact Store.rows_dropRow_other ha gone

include hdef ha

theorem Overwritten.trail (hs : Settled config s.store) (hr : row ∈ s.store.rows (Stored.collection Customer))
    (he : ofValue? row.doc = some existing) (h : Overwritten (repository config) existing e ctx s c t) :
    c.id = some row.id ∧ ∃ records, (repository config).Appends records s.store t.store ∧
      UpdateTrail config ctx row.id s.store t.store records := by
  have hid := ((hs.canonical row hr).doc_eq he).1
  have hversion : ∀ {own updated}, (repository config).NewVersion existing e own updated →
      own = row.id ∧ updated.id = some row.id := by
    intro own updated hv
    have hin : "id" ∈ (repository config).config.identityFields := hdef.mem_identityFields.2 (by decide)
    exact ⟨Option.some.inj (hv.own_eq.symm.trans hid), (id_of_version hin (Or.inl hv.version)).trans hid⟩
  cases h with
  | same hv hc hd =>
    obtain ⟨rfl, -⟩ := hversion hv
    exact ⟨hid, [], trail_of_cleared hdef ha hs hr he hc⟩
  | changed hv hc hd hne hw =>
    obtain ⟨rfl, hupd⟩ := hversion hv
    exact ⟨hupd, Written.trail hdef ha hs hr he hupd hc hd hw⟩

theorem patch_trail {find : Action Customer} (hfind : (repository config).Finds find) (hs : Settled config s.store)
    (h : (repository config).patch find requested properties ctx s = .ok c t) : ∃ id doc records, c.id = some id ∧
      s.store.document? id = some doc ∧ (repository config).Appends records s.store t.store ∧
        (properties.Nodup → UpdateTrail config ctx id s.store t.store records) := by
  obtain ⟨existing, row, -, hr, he, hp⟩ := patch_ok hfind hs.sound.wf h
  obtain ⟨hid, records, happ, htrail⟩ := Patched.trail hdef ha hs hr he hp
  have hdoc := document?_of_row hs.sound.wf hr ((hs.canonical row hr).doc_eq he).2.1
  exact ⟨row.id, _, records, hid, hdoc, happ, htrail⟩

theorem save_trail (hs : Settled config s.store) (hf : Fresh (e.id).toList s t)
    (h : (repository config).createOrOverwrite e ctx s = .ok c t) : ∃ id records, c.id = some id ∧
      (repository config).Appends records s.store t.store ∧
        match s.store.document? id with
        | none => records = creationEntries c id ctx
        | some _ => UpdateTrail config ctx id s.store t.store records := by
  cases createOrOverwrite_ok hs.sound.wf h with
  | created hv hn hc =>
    obtain ⟨id, hid, hnew, happ⟩ := hc.appends ha (List.Subset.refl _) hf fun id hi =>
      DocumentSet.get?_none hs.sound.wf (hn id hi)
    refine ⟨id, _, hid, happ, ?_⟩
    rw [document?_none hs.sound.wf hnew]
    rfl
  | overwritten hi hg hover =>
    obtain ⟨row, hr, hid, he⟩ := DocumentSet.get?_some hs.sound.wf hg
    obtain ⟨hc, records, happ, htrail⟩ := Overwritten.trail hdef ha hs hr he hover
    refine ⟨row.id, records, hc, happ, ?_⟩
    rw [document?_of_row hs.sound.wf hr ((hs.canonical row hr).doc_eq he).2.1]
    exact htrail

theorem write_trail {w : Write Customer} (hs : Settled config s.store)
    (hf : Fresh (Call.write w ctx).named s ((w.run (repository config) ctx).leaves s)) : ∃ records,
      (repository config).Appends records s.store ((w.run (repository config) ctx).leaves s).store ∧
        WriteTrail config w ctx s records := by
  cases hx : w.run (repository config) ctx s with
  | error fault t =>
    rw [Action.leaves_error hx] at hf ⊢
    refine ⟨[], .nothing (rows_of_failed_write ha hs hf hx), ?_⟩
    unfold WriteTrail
    rw [hx]
  | ok c t =>
    rw [Action.leaves_ok hx] at hf ⊢
    unfold WriteTrail
    rw [hx]
    rcases w.save_or_patch (repository config) ctx with ⟨e, rfl⟩ | ⟨-, find, requested, hfind, hrun⟩
    · obtain ⟨id, records, hid, happ, htrail⟩ := save_trail hdef ha hs hf hx
      refine ⟨records, happ, id, hid, ?_⟩
      cases hd : s.store.document? id with
      | none => rw [hd] at htrail; exact htrail
      | some doc => rw [hd] at htrail; exact fun _ => htrail
    · rw [hrun] at hx
      obtain ⟨id, doc, records, hid, hdoc, happ, htrail⟩ := patch_trail hdef ha hfind hs hx
      refine ⟨records, happ, id, hid, ?_⟩
      rw [hdoc]
      exact htrail

end Customer

end Dossier
