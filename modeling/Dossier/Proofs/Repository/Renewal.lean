/-
Stored customers that take on a new version. An overwrite takes everything but the identity from the incoming
customer, a row of an import what it fills in. If no value changes the stored customer stays as it is; otherwise
its row gets the new version, stamped, and the rest of the store stays.
-/
import Dossier.Proofs.Repository.Merge
import Dossier.Proofs.Repository.Rewriting

namespace Dossier.Customer

open Repository

variable {config : Config} {P : Double → Prop} {e x r version : Customer} {ctx : AuditContext} {force : Bool}
  {result : Customer × ImportOutcome} {id : Uuid} {row : Row} {store : Store} {s t : State}

/-! ## New versions -/

/-- A customer that takes everything but its identity from another one. -/
def replacedBy (x e : Customer) : Customer :=
  { x with name := e.name, email := e.email, city := e.city, balance := e.balance, active := e.active }

/-- A customer that takes what another one fills in. -/
def filledInBy (x e : Customer) : Customer :=
  { x with
    name := e.name, email := e.email.or x.email, city := e.city.or x.city, balance := e.balance, active := e.active }

/-- No value that is compared is another one, null counting as absent. -/
def Unaltered (config : Config) (x version : Customer) : Prop :=
  ∀ key, (repository config).differ.differs x.document version.document key = false

/-- What becomes of a stored customer `x` that is about to take on a version: it yields `r`, under the identifier
and at the place of `x`. -/
structure Renewed (config : Config) (ctx : AuditContext) (force : Bool) (x version r : Customer) (s t : Store) :
    Prop where
  rewritten : ∃ id, x.id = some id ∧ (s.collection (Stored.collection Customer)).get? id = some x.toValue ∧
    Rewritten config id r s t
  kept : Unaltered config x version → force = false → r = x
  stamped : ¬ Unaltered config x version ∨ force = true →
    r = { version with modifiedAt := some ctx.timestamp, modifiedBy := some ctx.user }

theorem replacedBy_eq (x e : Customer) : x.replacedBy e = overlay registry.names e x := rfl

theorem filledInBy_eq (x e : Customer) : x.filledInBy e = overlay (present e) e x := by
  have hname : "name" ∈ present e :=
    (mem_present (v := .string e.name) (by decide) (by rw [lookup_document]; rfl)).2 rfl
  have hbalance : "balance" ∈ present e :=
    (mem_present (v := .double e.balance) (by decide) (by rw [lookup_document]; rfl)).2 rfl
  have hactive : "active" ∈ present e :=
    (mem_present (v := .boolean e.active) (by decide) (by rw [lookup_document]; rfl)).2 rfl
  have text : ∀ (key : String) {new : Option String} (old : Option String), key ∈ registry.names →
      e.document.lookup key = some (Value.ofOption (new.map .string)) →
      (if key ∈ present e then new else old) = new.or old := by
    intro key new old hk hl
    have hm := mem_present hk hl
    cases new with
    | none => exact if_neg fun h => Bool.false_ne_true (hm.1 h).symm
    | some text => exact if_pos (hm.2 rfl)
  unfold filledInBy overlay
  rw [if_pos hname, if_pos hbalance, if_pos hactive,
    text "email" x.email (by decide) (by rw [lookup_document]; rfl),
    text "city" x.city (by decide) (by rw [lookup_document]; rfl)]

/-- An overwrite keeps the identity and takes the rest. -/
theorem overwritten_eq (hdef : config.UsesDefaultFields) (x e : Customer) :
    (repository config).overwritten x e = .ok (x.replacedBy e) := by
  unfold overwritten
  rw [toDocument_eq, toDocument_eq]
  change Stored.ofValue (E := Customer) _ = _
  unfold Stored.ofValue
  rw [show Stored.ofValue? (E := Customer) _ = some (x.replacedBy e) from ofValue?_document fun key => ?_]
  rw [lookup_keepIdentity, replacedBy_eq, lookup_overlay]
  by_cases hk : key ∈ registry.names
  · have hi := not_identity_of_property hk
    rw [Bool.or_eq_false_iff, List.contains_eq_mem, decide_eq_false_iff_not] at hi
    rw [if_neg fun hm => hi.2 (hdef.mem_identityFields.1 hm), if_pos ⟨hk, hk⟩]
  · have hnot : ¬ (key ∈ registry.names ∧ key ∈ registry.names) := fun h => hk h.1
    rw [if_neg hnot]
    split
    · rfl
    · rename_i hi
      have hi := mt hdef.mem_identityFields.2 hi
      rw [lookup_document_none hk hi, lookup_document_none hk hi]

theorem unaltered_iff : Unaltered config x version ↔ (repository config).changes x version none = .ok [] := by
  rw [changes_eq]
  exact Differ.diffDocuments_nil_iff.symm

/-- A version that changes no value has the address of the stored customer. -/
theorem email_of_unaltered (hdef : config.UsesDefaultFields) (h : Unaltered config x version) :
    version.email = x.email := by
  have hi : (repository config).differ.isIdentity "email" = false := by rw [hdef.isIdentity_eq]; decide
  have hd := h "email"
  unfold Differ.differs at hd
  rw [hi, valueAt_email, valueAt_email] at hd
  exact (Differ.agree_texts (by simpa using hd)).symm

/-! ## Writing a version -/

section
variable {changes : List PropertyChange} {cleared : Store} {own : Uuid}

/-- A stored customer that is left alone. -/
theorem Renewed.ofKept (ha : config.auditCollection ≠ Stored.collection Customer)
    (hs : (repository config).Sound s.store) (hc : Canonical config P s.store)
    (hr : row ∈ s.store.rows (Stored.collection Customer)) (he : ofValue? row.doc = some x)
    (hu : Unaltered config x version) (hf : force = false) (hm : MadeWay row.id x.email s.store t.store)
    (hw : t.store.WF) : Renewed config ctx force x version x s.store t.store where
  rewritten :=
    have hstored := (hc row hr).doc_eq he
    ⟨row.id, hstored.1, (hs.wf _).get?_eq_some_iff.2 ⟨row, hr, rfl, hstored.2.1⟩, hm.kept ha hw hr hstored.2.1⟩
  kept _ _ := rfl
  stamped h := by
    rcases h with h | h
    · exact (h hu).elim
    · cases hf.symm.trans h

/-- A stored customer whose version is written. -/
theorem Renewed.ofWritten (hdef : config.UsesDefaultFields) (ha : config.auditCollection ≠ Stored.collection Customer)
    (hs : (repository config).Sound s.store) (hc : Canonical config P s.store)
    (hr : row ∈ s.store.rows (Stored.collection Customer)) (he : ofValue? row.doc = some x)
    (hid : version.id = x.id) (hne : ¬ Unaltered config x version ∨ force = true)
    (hcl : Cleared (repository config) version (some row.id) s.store cleared)
    (h : Written (repository config) (stamp ctx false version) own changes ctx (s.withStore cleared) t) :
    Renewed config ctx force x version (stamp ctx false version) s.store t.store where
  rewritten := by
    obtain ⟨hx, hd, -⟩ := (hc row hr).doc_eq he
    refine ⟨row.id, hx, (hs.wf _).get?_eq_some_iff.2 ⟨row, hr, rfl, hd⟩, ?_⟩
    cases h with
    | @intro id _ hi hin hrec =>
      have hown : id = row.id := Option.some.inj (hi.symm.trans (hid.trans hx))
      subst hown
      have hm : MadeWay row.id version.email s.store cleared := .ofCleared hdef.idField hs hc hcl
      exact MadeWay.written (c := stamp ctx false version) ha hm (hcl.wf hs.wf) hr hrec
  kept hu hf := by
    rcases hne with h | h
    · exact (h hu).elim
    · cases hf.symm.trans h
  stamped _ := rfl

end

variable (hdef : config.UsesDefaultFields) (ha : config.auditCollection ≠ Stored.collection Customer)
  (hs : (repository config).Sound s.store) (hc : Canonical config P s.store)

include hdef ha hs hc

theorem Overwritten.renews (hr : row ∈ s.store.rows (Stored.collection Customer)) (he : ofValue? row.doc = some x)
    (h : Overwritten (repository config) x e ctx s r t) :
    Renewed config ctx false x (x.replacedBy e) r s.store t.store := by
  have hx := ((hc row hr).doc_eq he).1
  cases h with
  | @same own updated cleared hv hcl hd =>
    cases Option.some.inj (hv.own_eq.symm.trans hx)
    cases Except.ok.inj (hv.version.symm.trans (overwritten_eq hdef x e))
    have hu := unaltered_iff.2 hd
    have hm : MadeWay row.id (x.replacedBy e).email s.store cleared := .ofCleared hdef.idField hs hc hcl
    exact .ofKept (t := s.withStore cleared) ha hs hc hr he hu rfl (email_of_unaltered hdef hu ▸ hm) (hcl.wf hs.wf)
  | @changed own updated cleared changes _ hv hcl hd hne hw =>
    cases Option.some.inj (hv.own_eq.symm.trans hx)
    cases Except.ok.inj (hv.version.symm.trans (overwritten_eq hdef x e))
    refine .ofWritten hdef ha hs hc hr he rfl (Or.inl fun hu => hne ?_) hcl hw
    exact Except.ok.inj (hd.symm.trans (unaltered_iff.1 hu))

theorem Merged.renews (hr : row ∈ s.store.rows (Stored.collection Customer)) (he : ofValue? row.doc = some x)
    (h : Merged (repository config) x e ctx force s result t) :
    Renewed config ctx force x (x.filledInBy e) result.1 s.store t.store := by
  have hx := ((hc row hr).doc_eq he).1
  have hversion : (repository config).merged x e = .ok (x.filledInBy e) := filledInBy_eq x e ▸ merged_eq hdef x e
  cases h with
  | @ignored own updated hv hf =>
    cases Except.ok.inj (hv.version.symm.trans hversion)
    exact .ofKept ha hs hc hr he (unaltered_iff.2 hv.changes_eq) hf (.refl ..) hs.wf
  | @updated own updated cleared changes _ hv hne hcl hw =>
    cases Option.some.inj (hv.own_eq.symm.trans hx)
    cases Except.ok.inj (hv.version.symm.trans hversion)
    refine .ofWritten hdef ha hs hc hr he rfl (hne.imp_left fun hne hu => hne ?_) hcl hw
    exact Except.ok.inj (hv.changes_eq.symm.trans (unaltered_iff.1 hu))

/-! ## Rows of an import -/

/-- The stored customer that a row of an import is matched to: the active one under its identifier, or else the
first that holds its address, if that is active. -/
inductive Matched (config : Config) (store : Store) (e x : Customer) : Prop
  | byId {id : Uuid} (hi : e.id = some id) (hg : (repository config).entities.get? id store = .ok (some x))
      (hx : x.active = true)
  | byAddress {email : String} (hu : Unoccupied config store e) (he : e.email = some email)
      (hf : (repository config).entities.find? (.eq "email" (.string email)) store = .ok (some x))
      (hx : x.active = true)

omit hdef ha hs hc

/-- Selecting among the rows that are left after one has been dropped. -/
theorem selection_dropRow {filter rest : Expr} {gone : Uuid} (hid : config.idField = "id")
    (hs : (repository config).Sound store) (hf : Entity.duplicateFilter? e = some filter)
    (hr : (repository config).duplicateFilter? e (some gone) = some rest) :
    (repository config).entities.selection rest (store.dropRow (Stored.collection Customer) gone) =
      ((repository config).entities.selection filter store).filter (·.id ≠ gone) := by
  unfold DocumentSet.selection
  rw [show (repository config).entities.name = Stored.collection Customer from rfl, hs.wf.rows_dropRow,
    List.filter_filter, List.filter_filter]
  refine List.filter_congr fun row hrow => ?_
  rw [holds_withoutOwn hid hf hr, Option.all_some, Bool.and_comm]
  by_cases hgone : row.id = gone
  · simp [hgone]
  · have hother : (Expr.eq idKey (.uuid gone)).holds row.doc = false :=
      Bool.eq_false_iff.2 fun h => hgone ((hs.keyed row hrow).eq_of_holds h)
    rw [hother]
    simp [hgone]

/-- A customer cannot be created while an active one holds its address, even after the inactive one under its own
identifier has gone. -/
theorem not_cleared_of_match {email : String} {left : Store} {y : Customer} (hid : config.idField = "id")
    (hs : (repository config).Sound store) (he : e.email = some email)
    (hf : (repository config).entities.find? (.eq "email" (.string email)) store = .ok (some x))
    (hx : x.active = true) (hg : (repository config).entities.get? id store = .ok (some y)) (hy : y.active = false)
    (h : Cleared (repository config) e (some id) (store.dropRow (Stored.collection Customer) id) left) : False := by
  obtain ⟨first, others, hsel, hread⟩ := DocumentSet.find?_some hf
  have hfirst := (DocumentSet.first_selected hsel).1
  have hne : first.id ≠ id := by
    intro hi
    obtain ⟨row, hr, hrow, hrow'⟩ := DocumentSet.get?_some hs.wf hg
    rw [(hs.wf _).row_ext hr hfirst (hrow.trans hi.symm), hread] at hrow'
    cases hrow'
    rw [hx] at hy; cases hy
  have hfilter : Entity.duplicateFilter? e = some (.eq "email" (.string email)) := congrArg (Option.map _) he
  -- the active customer comes first among those who are left, too
  have hleft : ∀ {rest}, (repository config).duplicateFilter? e (some id) = some rest →
      (repository config).entities.selection rest (store.dropRow (Stored.collection Customer) id) =
        first :: others.filter (·.id ≠ id) := fun hr => by
    rw [selection_dropRow hid hs hfilter hr, hsel, List.filter_cons_of_pos (by simpa using hne)]
  cases h with
  | unkeyed hd =>
    unfold Repository.duplicateFilter? at hd
    rw [hfilter] at hd; cases hd
  | unmatched hd hm =>
    have hnone := (DocumentSet.find?_none hm).symm.trans (hleft hd)
    cases hnone
  | retired hd hm hi ha hin =>
    obtain ⟨row, rest, hrow, hread'⟩ := DocumentSet.find?_some hm
    cases hrow.symm.trans (hleft hd)
    rw [hread] at hread'
    cases hread'
    exact Bool.false_ne_true (ha.symm.trans hx)

/-- A row that succeeds is merged into the customer that it is matched to. -/
theorem Matched.merged (hid : config.idField = "id") (hs : (repository config).Sound s.store)
    (hm : Matched config s.store e x) (h : (repository config).importRow ctx force e s = .ok result t) :
    Merged (repository config) x e ctx force s result t := by
  cases importRow_ok hs.wf h with
  | created hp hcreated =>
    cases hp with
    | create hnew =>
      cases hm with
      | byId hi hg hx => cases (hnew _ hi).symm.trans hg
      | byAddress hu he hf hx =>
        -- the row would have been matched
        unfold importRow at h
        rw [Action.bind_run (planImport_match hnew (congrArg (Option.map _) he) hf hx)] at h
        exact importOver_ok hs.wf h
  | replaced hp hcreated =>
    cases hp with
    | replaceStored hi hg hinactive =>
      cases hm with
      | byId hi' hg' hx =>
        cases hi.symm.trans hi'
        cases hg.symm.trans hg'
        cases hinactive.symm.trans hx
      | byAddress hu he hf hx =>
        cases hcreated with
        | intro hc => exact (not_cleared_of_match hid hs he hf hx hg hinactive (hi ▸ hc)).elim
  | merged hp hmerged =>
    cases hp with
    | overwriteStored hi hg hactive =>
      cases hm with
      | byId hi' hg' hx =>
        cases hi.symm.trans hi'
        cases hg.symm.trans hg'
        exact hmerged
      | byAddress hu he hf hx => cases (hu _ _ hi hg).symm.trans hactive
    | overwriteMatch hnew hfilter hf' hactive =>
      cases hm with
      | byId hi hg hx => cases (hnew _ hi).symm.trans hg
      | byAddress hu he hf hx =>
        cases hfilter.symm.trans (congrArg (Option.map _) he)
        cases hf.symm.trans hf'
        exact hmerged

theorem Matched.stored_row (hw : store.WF) (h : Matched config store e x) :
    ∃ row ∈ store.rows (Stored.collection Customer), ofValue? row.doc = some x := by
  cases h with
  | byId hi hg hx =>
    obtain ⟨row, hr, -, he⟩ := DocumentSet.get?_some hw hg
    exact ⟨row, hr, he⟩
  | byAddress hu he hf hx =>
    obtain ⟨row, rest, hsel, hread⟩ := DocumentSet.find?_some hf
    exact ⟨row, (DocumentSet.first_selected hsel).1, hread⟩

theorem Matched.renews (hdef : config.UsesDefaultFields) (ha : config.auditCollection ≠ Stored.collection Customer)
    (hs : (repository config).Sound s.store) (hc : Canonical config P s.store) (hm : Matched config s.store e x)
    (h : (repository config).importRow ctx force e s = .ok result t) :
    Renewed config ctx force x (x.filledInBy e) result.1 s.store t.store := by
  obtain ⟨row, hr, he⟩ := hm.stored_row hs.wf
  exact Merged.renews hdef ha hs hc hr he (hm.merged hdef.idField hs h)

/-- The store stays canonical along the rows of an import. -/
theorem canonical_after_rows {es : List Customer} {done : List (Customer × ImportOutcome)} {u : State}
    (hdef : config.UsesDefaultFields) (hs : (repository config).Sound s.store)
    (hc : Canonical config (fun _ => True) s.store)
    (h : es.mapM ((repository config).importRow ctx force) s = .ok done u)
    (hmore : ∃ n, t.ids = u.ids.advance n) (hn : (s.drawnUntil t).Nodup) :
    (repository config).Sound u.store ∧ Canonical config (fun _ => True) u.store := by
  obtain ⟨m, hm⟩ := Action.Advances.mapM (advances_importRow (repository config) · ctx force) es s
  obtain ⟨n, hn'⟩ := hmore
  rw [Action.leaves_ok h] at hm
  rw [State.drawnUntil_append hm hn', List.nodup_append] at hn
  have heff : Effects (repository config) ⟨es.filterMap Stored.id?, fun _ => True, False⟩ s u := by
    rw [← Action.leaves_ok h] at hn ⊢
    exact importRows_effects idKey_not_registered hs (fun _ _ => trivial) (List.Subset.refl _) hn.1
  exact heff.preserve (P := fun store => (repository config).Sound store ∧ Canonical config (fun _ => True) store)
    (fun he hd hp => ⟨he.sound idKey_not_registered hd hp.1,
      hp.2.effect hdef (fun _ _ => trivial) (fun hmany : False => hmany.elim) he hp.1⟩) hn.1 ⟨hs, hc⟩

/-! ## Saves and imports -/

/-- What a save makes of the customer that is stored under the identifier, and an import of the one that a row is
matched to when it comes to that row. -/
theorem matched_renewed {allowed : Call Customer → Prop} (hdef : config.UsesDefaultFields)
    (ha : config.auditCollection ≠ Stored.collection Customer) (h : Reachable (repository config) allowed s) :
    (∀ e x ctx r t id, e.id = some id → (repository config).entities.get? id s.store = .ok (some x) →
      (repository config).createOrOverwrite e ctx s = .ok r t →
        Renewed config ctx false x (x.replacedBy e) r s.store t.store) ∧
    ∀ es ctx force results t, (repository config).bulkImport es ctx force s = .ok results t →
      Fresh (Call.bulkImport es ctx force).named s t → ∀ before e later, es = before ++ e :: later →
        ∃ done result rest u v,
          before.mapM ((repository config).importRow (ctx.withSource .imported) force) s = .ok done u ∧
          (repository config).importRow (ctx.withSource .imported) force e u = .ok result v ∧
          later.mapM ((repository config).importRow (ctx.withSource .imported) force) v = .ok rest t ∧
          results = done ++ result :: rest ∧
          ∀ x, Matched config u.store e x → Renewed config ctx force x (x.filledInBy e) result.1 u.store v.store := by
  obtain ⟨hs, hc⟩ := canonical_of_reachable (P := fun _ => True) hdef ha (fun _ _ _ _ => trivial) h
  refine ⟨fun e x ctx r t id hi hg hx => ?_, fun es ctx force results t hx hf before e later hes => ?_⟩
  · cases createOrOverwrite_ok hs.wf hx with
    | created hv hn _ => cases (hn id hi).symm.trans hg
    | overwritten hi' hg' hover =>
      cases hi.symm.trans hi'
      cases hg.symm.trans hg'
      obtain ⟨row, hr, -, he⟩ := DocumentSet.get?_some hs.wf hg
      exact Overwritten.renews hdef ha hs hc hr he hover
  · subst hes
    unfold bulkImport at hx
    obtain ⟨_, -, hrows⟩ := Action.bind_ofExcept_ok hx
    obtain ⟨done, u, _, hbefore, hrest, rfl⟩ := Action.mapM_append_ok hrows
    obtain ⟨result, v, rest, hrow, hlater, rfl⟩ := Action.mapM_cons_ok hrest
    have hmore := Action.Advances.mapM (advances_importRow (repository config) · (ctx.withSource .imported) force)
      (e :: later) u
    rw [Action.leaves_ok hrest] at hmore
    obtain ⟨hu, hcu⟩ := canonical_after_rows hdef hs hc hbefore hmore hf.distinct
    refine ⟨done, result, rest, u, v, hbefore, hrow, hlater, rfl, fun x hm => ?_⟩
    have hrenewed := hm.renews hdef ha hu hcu hrow
    -- the source of the context is not stamped
    exact ⟨hrenewed.rewritten, hrenewed.kept, hrenewed.stamped⟩

/-- Bob as he is stored. -/
def storedBob : Customer := stamp morning true { bob with id := some (.ofNat 3) }

/-- Bob takes over the address of Ann, who makes way, or is given a city by a row with his address. -/
theorem bob_renewed :
    (∃ t, (repository {}).createOrOverwrite { bob with id := some (.ofNat 3), email := some "a@x" } evening
        annRetired = .ok (stamp evening false { storedBob with email := some "a@x" }) t ∧
      Rewritten {} (.ofNat 3) (stamp evening false { storedBob with email := some "a@x" }) annRetired.store t.store) ∧
    ∃ outcome t, (repository {}).bulkImport [{ bob with city := some "Rome" }] evening false annRetired =
        .ok [(stamp evening false { storedBob with city := some "Rome" }, outcome)] t ∧
      Rewritten {} (.ofNat 3) (stamp evening false { storedBob with city := some "Rome" }) annRetired.store
        t.store := by
  have hreach : Reachable (repository {}) (fun _ => True) annRetired :=
    reachable_afterCalls (fun _ _ => trivial) (by decide +kernel)
  obtain ⟨hsave, himport⟩ := matched_renewed .default (by decide) hreach
  constructor
  · have hg : (repository {}).entities.get? (.ofNat 3) annRetired.store = .ok (some storedBob) := by decide +kernel
    have hrun : (((repository {}).createOrOverwrite { bob with id := some (.ofNat 3), email := some "a@x" }
        evening).result? annRetired).isSome = true := by decide +kernel
    obtain ⟨⟨r, t⟩, hr⟩ := Option.isSome_iff_exists.1 hrun
    have hx := Action.run_of_result? hr
    have hrenewed := hsave _ _ _ _ _ _ rfl hg hx
    have hr := hrenewed.stamped (Or.inl fun hu => absurd (email_of_unaltered .default hu) (by decide))
    obtain ⟨id, hid, -, hrewritten⟩ := hrenewed.rewritten
    cases hid
    subst hr
    exact ⟨t, hx, hrewritten⟩
  · have hf : (repository {}).entities.find? (.eq "email" (.string "b@x")) annRetired.store = .ok (some storedBob) := by
      with_unfolding_all rfl
    have hrun : (((repository {}).bulkImport [{ bob with city := some "Rome" }] evening false).result? annRetired).map
        (fun p => decide (Fresh [] annRetired p.2)) = some true := by decide +kernel
    obtain ⟨⟨results, t⟩, hr, hfresh⟩ := Option.map_eq_some_iff.1 hrun
    have hx := Action.run_of_result? hr
    obtain ⟨done, ⟨r, outcome⟩, rest, u, v, hdone, hrow, hrest, rfl, hrenews⟩ :=
      himport _ _ _ _ _ hx (of_decide_eq_true hfresh) [] _ [] rfl
    cases hdone
    cases hrest
    have hnew : Unoccupied {} annRetired.store { bob with city := some "Rome" } := fun id c hi => by cases hi
    have hrenewed := hrenews storedBob (.byAddress hnew rfl hf rfl)
    have hr := hrenewed.stamped (Or.inl fun hu => Bool.false_ne_true ((hu "city").symm.trans (by decide +kernel)))
    obtain ⟨id, hid, -, hrewritten⟩ := hrenewed.rewritten
    cases hid
    subst hr
    exact ⟨outcome, t, hx, hrewritten⟩

end Dossier.Customer
