/-
All that the creation of a customer does. It is stored behind all others as it was handed in, with an identifier, a
slug if one is due, and stamps; one inactive customer with its address may have made way, and nothing else is touched
but the counter of slugs and the log.
-/
import Dossier.Proofs.Repository.MakingWay
import Dossier.Proofs.Repository.Patched
import Dossier.Proofs.Repository.Spending

namespace Dossier.Customer

open Repository

variable {config : Config} {c e r slugged identified : Customer} {ctx : AuditContext} {id : Uuid}
  {store cleared : Store} {named : List Uuid} {s t u v : State}

/-! ## What a new customer is given -/

/-- A customer that has been created is the one that was handed in, but for identifier, slug, number and stamps. -/
theorem eq_of_identified (hs : Slugged (repository config) e s slugged u) (hi : Identified slugged u identified id v)
    (ctx : AuditContext) : stamp ctx true identified = { e with
      id := some id, slug := slugged.slug, sequence := slugged.sequence, createdAt := some ctx.timestamp,
      createdBy := some ctx.user, modifiedAt := some ctx.timestamp, modifiedBy := some ctx.user } := by
  cases hs with
  | kept _ =>
    cases hi with
    | kept h => cases e; cases h; rfl
    | given _ => rfl
  | given _ _ _ =>
    cases hi with
    | kept h => cases e; cases h; rfl
    | given _ => rfl

/-- A slug that is given carries the new number of the counter. -/
theorem Slugged.drawn (h : Slugged (repository config) e s slugged u) (hd : drawsNumber config e = true) :
    ∃ stem number, config.slugPrefix = some stem ∧ number.toInt = u.store.counterValue (slugCounter config) ∧
      slugged.slug = some (slugText stem number.toInt) ∧ slugged.sequence = some number := by
  rcases Slugged.kept_or_given h with ⟨hidle, -, -⟩ | ⟨-, stem, number, store, hp, hs, rfl, rfl⟩
  · cases hidle.symm.trans hd
  · exact ⟨stem, number, hp, (Store.counterValue_nextInSequence hs).2.2.1.symm, rfl, rfl⟩

theorem Slugged.undrawn (h : Slugged (repository config) e s slugged u) (hd : drawsNumber config e = false) :
    slugged = e := by
  rcases Slugged.kept_or_given h with ⟨-, hkept, -⟩ | ⟨hdraws, -⟩
  · exact hkept
  · cases hd.symm.trans hdraws

/-- The identifier of a new customer is its own or a new one. -/
theorem fresh_of_identified (hf : Fresh named s v) (hs : Slugged (repository config) e (s.withStore cleared) slugged u)
    (hi : Identified slugged u identified id v) : e.id = some id ∨ e.id = none ∧ ¬ s.store.InUse id := by
  obtain ⟨counters, rfl⟩ := hs.frame
  obtain ⟨n, rfl, hid⟩ := hi.frame
  rw [hs.id_eq] at hid
  refine hid.imp And.left fun ⟨hnone, hdrawn, hn⟩ => ⟨hnone, hf.unused id ?_⟩
  subst hn
  rw [State.drawnUntil_advance (n := 1) rfl, hdrawn]
  exact List.mem_singleton_self _

/-! ## What a creation leaves -/

/-- What a creation makes of the customer that is handed in and of the store. -/
structure Creation (config : Config) (ctx : AuditContext) (e r : Customer) (id : Uuid) (s t : State) : Prop where
  stamped : r = { e with
    id := some id, slug := r.slug, sequence := r.sequence, createdAt := some ctx.timestamp, createdBy := some ctx.user,
    modifiedAt := some ctx.timestamp, modifiedBy := some ctx.user }
  identified : e.id = some id ∨ e.id = none ∧ ¬ s.store.InUse id
  numbered : drawsNumber config e = true → ∃ stem number, config.slugPrefix = some stem ∧
    number.toInt = t.store.counterValue (slugCounter config) ∧ r.slug = some (slugText stem number.toInt) ∧
    r.sequence = some number
  unnumbered : drawsNumber config e = false → r.slug = e.slug ∧ r.sequence = e.sequence
  counters : s.store.Advanced (slugCounter config) (if drawsNumber config e then 1 else 0) t.store
  /-- What follows is the record of the creation, if the log is kept in the same collection. -/
  rows : ∃ gone position added, (∀ stale ∈ gone, HoldsInactive s.store e.email stale) ∧
    t.store.rows (Stored.collection Customer) =
      ((s.store.rows (Stored.collection Customer)).filter fun row => gone ≠ some row.id) ++
        ⟨position, id, r.toValue⟩ :: added ∧
    (config.auditCollection ≠ Stored.collection Customer → added = []) ∧
    ∀ row ∈ added, ∃ record ∈ creationRecords r id ctx,
      row.doc = ({ record with id := some row.id } : ChangeRecord).toValue
  others : ∀ name, name ≠ Stored.collection Customer → name ≠ config.auditCollection →
    t.store.rows name = s.store.rows name
  logged : config.auditCollection ≠ Stored.collection Customer →
    (repository config).Appends (creationRecords r id ctx) s.store t.store
  found : (repository config).getById id t = .ok r t

/-- Recording adds rows to the log only, one for each record. -/
theorem rows_of_recorded {records : List ChangeRecord} (h : (repository config).Recorded records s t) :
    ∃ added, t.store.rows (Stored.collection Customer) = s.store.rows (Stored.collection Customer) ++ added ∧
      (config.auditCollection ≠ Stored.collection Customer → added = []) ∧
      ∀ row ∈ added, ∃ record ∈ records, row.doc = ({ record with id := some row.id } : ChangeRecord).toValue := by
  by_cases ha : config.auditCollection = Stored.collection Customer
  · obtain ⟨added, ids, hrows, hentries, -⟩ := h.appends
    rw [show (repository config).config.auditCollection = Stored.collection Customer from ha] at hrows
    refine ⟨added, hrows, fun hne => (hne ha).elim, fun row hr => ?_⟩
    have hm : (row.id, row.doc) ∈ logEntries records ids := hentries ▸ List.mem_map_of_mem hr
    exact mem_logEntries hm
  · exact ⟨[], by rw [h.rows_other (Ne.symm ha), List.append_nil], fun _ => rfl, nofun⟩

theorem rows_of_added (store : Store) (id : Uuid) (doc : Value) : ∃ position,
    (store.addRows (Stored.collection Customer) [(id, doc)]).rows (Stored.collection Customer) =
      store.rows (Stored.collection Customer) ++ [⟨position, id, doc⟩] := by
  obtain ⟨added, hrows, hentries⟩ := store.rows_addRows (Stored.collection Customer) [(id, doc)]
  obtain ⟨row, rfl, hrow⟩ := List.map_eq_singleton_iff.1 hentries
  cases hrow
  exact ⟨row.position, hrows⟩

/-- The rows that are left once a customer has been stored and its creation recorded. -/
theorem rows_of_stored (hs : (repository config).Sound s.store) {own : Option Uuid}
    (hc : Cleared (repository config) e own s.store cleared)
    (hv : v.store.rows (Stored.collection Customer) = cleared.rows (Stored.collection Customer))
    (hr : (repository config).Recorded (creationRecords r id ctx)
      (v.withStore (v.store.addRows (Stored.collection Customer) [(id, r.toValue)])) t) :
    ∃ gone position added, (∀ stale ∈ gone, HoldsInactive s.store e.email stale) ∧
      t.store.rows (Stored.collection Customer) =
        ((s.store.rows (Stored.collection Customer)).filter fun row => gone ≠ some row.id) ++
          ⟨position, id, r.toValue⟩ :: added ∧
      (config.auditCollection ≠ Stored.collection Customer → added = []) ∧
      ∀ row ∈ added, ∃ record ∈ creationRecords r id ctx,
        row.doc = ({ record with id := some row.id } : ChangeRecord).toValue := by
  obtain ⟨gone, hgone, hcleared⟩ := rows_of_cleared hs hc
  obtain ⟨position, hnew⟩ := rows_of_added v.store id r.toValue
  obtain ⟨added, hrecorded, hnone, hrecords⟩ := rows_of_recorded hr
  refine ⟨gone, position, added, fun stale hstale => (hgone stale hstale).1, ?_, hnone, hrecords⟩
  calc t.store.rows (Stored.collection Customer)
      = (v.store.addRows (Stored.collection Customer) [(id, r.toValue)]).rows (Stored.collection Customer) ++ added :=
        hrecorded
    _ = v.store.rows (Stored.collection Customer) ++ [⟨position, id, r.toValue⟩] ++ added := by rw [hnew]
    _ = ((s.store.rows (Stored.collection Customer)).filter fun row => gone ≠ some row.id) ++
          ⟨position, id, r.toValue⟩ :: added := by rw [hv, hcleared, List.append_assoc]; rfl

theorem found_of_doc (row : Row) (hw : t.store.WF) (hr : row ∈ t.store.rows (Stored.collection Customer))
    (hd : row.doc = c.toValue) : (repository config).getById row.id t = .ok c t := by
  refine getById_of_row hw hr ?_
  rw [hd]
  exact ofValue?_toValue c

theorem Created.creation (hs : (repository config).Sound s.store) (ht : (repository config).Sound t.store)
    (hf : Fresh (Stored.id? e).toList s t)
    (hn : ∀ id, e.id = some id → (s.store.collection (Stored.collection Customer)).contains id = false)
    (h : Created (repository config) e ctx s r t) : ∃ id, Creation config ctx e r id s t := by
  have hdraws := Created.draws h
  have hlogged := fun ha => h.appends ha (List.Subset.refl _) hf hn
  cases h with
  | @intro cleared slugged identified id u v _ hc hsl hi hvacant hr =>
    have hid : (stamp ctx true identified).id = some id := (LawfulEntity.id_stamp identified ctx true).trans hi.id_eq
    have heq := eq_of_identified hsl hi ctx
    obtain ⟨hslug, hsequence⟩ := slug_of_identified hi ctx
    -- the identifier of the customer is drawn before that of the record
    have hfirst : Effects (repository config) (.free (Stored.id? e).toList) s _ :=
      .single (.ofIdentified ctx hc hsl hi hvacant trivial fun hm => hm)
    have hdrawn := hfirst.fresh_first (.single (.logs hr)) hf
    have hv : Fresh (Stored.id? e).toList s v := ⟨hdrawn.distinct, hdrawn.unused, hdrawn.unnamed⟩
    have hidentified : v.store.counters = u.store.counters := by rw [hi.store_eq]
    have hcounters : t.store.counters = u.store.counters := (counters_of_recorded hr).trans hidentified
    change (repository config).Recorded (creationRecords (stamp ctx true identified) id ctx) _ t at hr
    obtain ⟨gone, position, added, hgone, hrows, hadded⟩ := rows_of_stored hs hc (hi.rows_eq hsl _) hr
    have hnew : (⟨position, id, (stamp ctx true identified).toValue⟩ : Row) ∈
        t.store.rows (Stored.collection Customer) := by
      rw [hrows]
      exact List.mem_append_right _ (List.mem_cons_self ..)
    change ∃ id, Creation config ctx e (stamp ctx true identified) id s t
    refine ⟨id, ?_⟩
    exact {
      stamped := by rw [hslug, hsequence]; exact heq
      identified := fresh_of_identified hv hsl hi
      numbered := fun hd => by
        obtain ⟨stem, number, hp, hnumber, hs, hq⟩ := Slugged.drawn hsl hd
        exact ⟨stem, number, hp, by rw [hnumber, Store.counterValue_congr hcounters], hslug.trans hs,
          hsequence.trans hq⟩
      unnumbered := fun hd => by
        rw [Slugged.undrawn hsl hd] at hslug hsequence
        exact ⟨hslug, hsequence⟩
      counters := hdraws.advanced
      rows := ⟨gone, position, added, hgone, hrows, hadded⟩
      others := fun name hname hlog => by
        rw [hr.rows_other hlog]
        exact (Store.rows_addRows_other hname _).trans ((hi.rows_eq hsl name).trans (hc.rows_other hname))
      logged := fun ha => by
        obtain ⟨id', hid', -, happends⟩ := hlogged ha
        cases hid.symm.trans hid'
        exact happends
      found := found_of_doc ⟨position, id, (stamp ctx true identified).toValue⟩ ht.wf hnew rfl }

/-- Saving a customer that is not stored creates it: it is yielded and stored as it was handed in, except that it gets
an identifier if it had none, a slug with the next number if one is configured and it had neither an identifier nor a
slug, and the stamps of the creation. It is stored behind all others, one inactive customer with its address may be
gone, nothing else is touched but the counter of slugs and the log, and it is found under its identifier. -/
theorem creation_of_save {allowed : Call Customer → Prop} (h : Reachable (repository config) allowed s)
    (hn : ∀ id, e.id = some id → (s.store.collection (Stored.collection Customer)).contains id = false)
    (hf : Fresh (Call.write (.save e) ctx).named s t)
    (hx : (repository config).createOrOverwrite e ctx s = .ok r t) : ∃ id, Creation config ctx e r id s t := by
  have hs := h.sound idKey_not_registered
  have ht : (repository config).Sound t.store := by
    have hleaves : ((Write.save e).run (repository config) ctx).leaves s = t := Action.leaves_ok hx
    have heffects : Effects (repository config) (Call.write (.save e) ctx).scope s t := hleaves ▸ run_effects hs.wf
    exact Effects.sound idKey_not_registered heffects hf.distinct hs
  cases createOrOverwrite_ok hs.wf hx with
  | created hv hg hcreated => exact Created.creation hs ht hf hn hcreated
  | overwritten hi hg hover =>
    obtain ⟨row, hr, rfl, -⟩ := DocumentSet.get?_some hs.wf hg
    exact (Bool.false_ne_true ((hn row.id hi).symm.trans ((hs.wf _).contains_of_mem hr))).elim

/-- Ann, who has been given the first slug, has been retired, and Bob has the second one. -/
def annRetiredNumbered : State :=
  afterCalls { slugPrefix := "U" }
    [.write (.save ann) morning, .write (.save bob) morning, .softDelete (.ofNat 1) morning]

/-- Cyd takes over the address of Ann and gets the third slug. -/
theorem creation_of_cyd : ∃ r t id,
    (repository { slugPrefix := "U" }).createOrOverwrite cyd evening annRetiredNumbered = .ok r t ∧
    r.slug = some "U3" ∧ Creation { slugPrefix := "U" } evening cyd r id annRetiredNumbered t := by
  have hreach : Reachable (repository { slugPrefix := "U" }) (fun _ => True) annRetiredNumbered :=
    reachable_afterCalls (fun _ _ => trivial) (by decide +kernel)
  have hrun : (((repository { slugPrefix := "U" }).createOrOverwrite cyd evening).result? annRetiredNumbered).map
      (fun p => (p.1.slug, decide (Fresh [] annRetiredNumbered p.2))) = some (some "U3", true) := by decide +kernel
  obtain ⟨⟨r, t⟩, hr, hfacts⟩ := Option.map_eq_some_iff.1 hrun
  obtain ⟨hslug, hfresh⟩ := Prod.mk.injEq .. ▸ hfacts
  have hx := Action.run_of_result? hr
  have hf : Fresh (Call.write (.save cyd) evening).named annRetiredNumbered t := of_decide_eq_true hfresh
  obtain ⟨id, hcreation⟩ := creation_of_save hreach (fun id hi => by cases hi) hf hx
  exact ⟨r, t, id, hx, hslug, hcreation⟩

end Dossier.Customer
