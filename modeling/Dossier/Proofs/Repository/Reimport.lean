/-
Importing a batch twice. What the first import has stored for a row is found again by its address,
merging the row into it changes nothing, and the rows after it have left it alone.
-/
import Dossier.Proofs.Repository.Merge
import Dossier.Proofs.Repository.UniqueEmail
import Mathlib.Data.List.Pairwise

namespace Dossier.Customer

open Repository

variable {config : Config} {c e : Customer} {row : Row} {ctx : AuditContext} {force : Bool}
  {result : Customer × ImportOutcome} {store cleared : Store} {named : List Uuid} {s t u : State}

/-! ## Stores with distinct addresses -/

/-- A sound store of customers, no two of which hold the same address. -/
structure Addressed (config : Config) (store : Store) : Prop where
  sound : (repository config).Sound store
  canonical : Canonical config (fun _ => True) store
  distinct : DistinctEmails store

theorem distinctEmails_of_nodup (h : store.emails.Nodup) : DistinctEmails store := by
  intro a ha b hb email hea heb
  have hp := List.pairwise_filterMap.1 h
  have : Std.Symm fun a b : Row => ∀ x, a.doc.emailAddress? = some x → ∀ y, b.doc.emailAddress? = some y → x ≠ y :=
    ⟨fun _ _ hxy y hy x hx => (hxy x hx y hy).symm⟩
  by_contra hne
  -- two rows with one address would be two entries of the list
  exact hp.forall ha hb (fun he => hne (he ▸ rfl)) email hea email heb rfl

theorem Addressed.effects {scope : Scope Customer} (hdef : config.UsesDefaultFields) (hm : ¬ scope.many)
    (h : Effects (repository config) scope s t) (hn : (s.drawnUntil t).Nodup) (hs : Addressed config s.store) :
    Addressed config t.store :=
  h.preserve (P := Addressed config)
    (fun he hd hp => ⟨he.sound idKey_not_registered hd hp.sound,
      hp.canonical.effect hdef (fun _ _ => trivial) (fun h => (hm h).elim) he hp.sound,
      hp.distinct.effect hdef hm he hp.sound hp.canonical⟩) hn hs

theorem Addressed.after_row (hdef : config.UsesDefaultFields) (hs : Addressed config s.store)
    (hm : (Stored.id? e).toList ⊆ named) (h : (repository config).importRow ctx force e s = .ok result t)
    (hn : (s.drawnUntil t).Nodup) : Addressed config t.store := by
  have heff : Effects (repository config) ⟨named, fun _ => True, False⟩ s t :=
    Action.leaves_ok h ▸ importRow_effects hs.sound.wf trivial hm
  exact hs.effects hdef not_false heff hn

/-! ## A row leaves other addresses alone -/

theorem Addressed.mem_cleared {own : Option Uuid} (hid : config.idField = "id") (hs : Addressed config store)
    (hc : Cleared (repository config) e own store cleared)
    (hr : row ∈ store.rows (Stored.collection Customer)) (hne : row.doc.emailAddress? ≠ e.email) :
    row ∈ cleared.rows (Stored.collection Customer) := by
  cases hc with
  | unkeyed hf => exact hr
  | unmatched hf hm => exact hr
  | @retired filter stale gone hf hm hi ha hin =>
    rw [hs.sound.wf.rows_dropRow, List.mem_filter, decide_eq_true_iff]
    refine ⟨hr, fun hgone => hne ?_⟩
    -- the row that makes way holds the address
    obtain ⟨first, others, hsel, hfr, hfirst, -⟩ := hs.sound.find?_some hm hi
    have hh := (DocumentSet.first_selected hsel).2
    rw [(hs.sound.wf _).row_ext hr hfr (hgone.trans hfirst.symm)]
    exact (((hs.canonical first hfr).holds_duplicateFilter hid hf).1 hh).1

theorem email_overlay_present (existing : Customer) {email : String} (he : e.email = some email) :
    (overlay (present e) e existing).email = e.email := by
  refine if_pos (List.mem_filter.2 ⟨by decide, ?_⟩)
  rw [valueAt_email, he]
  rfl

/-- A row that has no identifier is merged into the customer that holds its address, if into any. -/
theorem address_of_planned {existing : Customer} {email : String} (hs : Addressed config store)
    (hi : e.id = none) (he : e.email = some email) (hp : Planned (repository config) e store (.overwrite existing e)) :
    existing.active = true ∧ existing.email = some email ∧ ∃ row ∈ store.rows (Stored.collection Customer),
      row.doc = existing.toValue ∧ existing.id = some row.id := by
  cases hp with
  | overwriteStored hid hg ha => rw [show Stored.id? e = e.id from rfl, hi] at hid; cases hid
  | @overwriteMatch filter _ hg hf hm ha =>
    obtain ⟨row, rest, hsel, hv⟩ := DocumentSet.find?_some hm
    obtain ⟨hr, hh⟩ := DocumentSet.first_selected hsel
    obtain ⟨hid, hd, -⟩ := (hs.canonical row hr).doc_eq hv
    change e.email.map _ = some filter at hf
    rw [he] at hf
    cases hf
    rw [hd, holds_email, decide_eq_true_iff] at hh
    exact ⟨ha, hh, row, hr, hd, hid⟩

theorem Written.mem_rows_of_ne {own id : Uuid} {changes : List PropertyChange}
    (h : Written (repository config) c own changes ctx s t) (hi : c.id = some id)
    (hr : row ∈ s.store.rows (Stored.collection Customer)) (hne : row.id ≠ id) :
    row ∈ t.store.rows (Stored.collection Customer) := by
  cases h with
  | @intro id' _ hi' hin hrec =>
    cases hi.symm.trans hi'
    exact hrec.mem_rows (Store.mem_putRow_of_ne hr hne)

/-- A row of a batch leaves the customers with other addresses as they are. -/
theorem Addressed.importRow_spares {email : String} (hdef : config.UsesDefaultFields) (hs : Addressed config s.store)
    (hi : e.id = none) (he : e.email = some email)
    (h : (repository config).importRow ctx force e s = .ok result t)
    (hr : row ∈ s.store.rows (Stored.collection Customer)) (hne : row.doc.emailAddress? ≠ e.email) :
    row ∈ t.store.rows (Stored.collection Customer) := by
  cases importRow_ok hs.sound.wf h with
  | created hp h =>
    cases h with
    | @intro cleared slugged identified id u v _ hc hsl hid hn hrec =>
      have hkept := hs.mem_cleared hdef.idField hc hr hne
      obtain ⟨counters, rfl⟩ := hsl.frame
      obtain ⟨n, rfl, -⟩ := hid.frame
      exact hrec.mem_rows (Store.mem_addRows hkept)
  | replaced hp h =>
    cases hp with
    | replaceStored hid => rw [show Stored.id? e = e.id from rfl, hi] at hid; cases hid
  | @merged existing _ _ hp h =>
    obtain ⟨-, hemail, old, hold, hd, hown'⟩ := address_of_planned hs hi he hp
    cases h with
    | ignored hv hf => exact hr
    | @updated own updated cleared changes _ hv hne' hc hw =>
      have hown : own = old.id := Option.some.inj (hv.own_eq.symm.trans hown')
      have hupd := Except.ok.inj ((merged_eq hdef existing e).symm.trans hv.version)
      have hemail' : updated.email = e.email := hupd ▸ email_overlay_present existing he
      have hid : (Entity.stamp ctx false updated).id = some own := by
        rw [← hupd]
        exact hv.own_eq
      refine Written.mem_rows_of_ne hw hid (hs.mem_cleared hdef.idField hc hr (hemail' ▸ hne)) fun hsame => hne ?_
      -- the row that is written has held the address before
      rw [(hs.sound.wf _).row_ext hr hold (hsame.trans hown), hd, emailAddress?_toValue, hemail, he]

/-! ## What a row leaves stored -/

/-- A customer is stored that a row is found by its address and absorbed by. -/
structure Settles (config : Config) (store : Store) (e c : Customer) : Prop where
  row : ∃ row ∈ store.rows (Stored.collection Customer), row.doc = c.toValue ∧ c.id = some row.id
  active : c.active = true
  email : c.email = e.email
  absorbed : Absorbed config e c

theorem Written.stored {own : Uuid} {changes : List PropertyChange} (hw : s.store.WF)
    (h : Written (repository config) c own changes ctx s t) :
    ∃ row ∈ t.store.rows (Stored.collection Customer), row.doc = c.toValue ∧ c.id = some row.id := by
  cases h with
  | @intro id _ hi hin hrec =>
    obtain ⟨row, hr, hid⟩ := (hw _).contains_iff.1 hin
    exact ⟨_, hrec.mem_rows (Store.mem_putRow_self hr hid), rfl, hid ▸ hi⟩

theorem Created.stored {r : Repository Customer} (h : Created r e ctx s c t) :
    ∃ row ∈ t.store.rows (Stored.collection Customer), row.doc = c.toValue ∧ c.id = some row.id := by
  cases h with
  | @intro cleared slugged identified id u v _ hc hsl hi hn hrec =>
    obtain ⟨row, hr, hid, hd⟩ := Store.mem_addRows_new (s := v.store)
      (List.mem_singleton_self (id, Stored.toValue (Entity.stamp ctx true identified)))
    exact ⟨row, hrec.mem_rows hr, hd, (LawfulEntity.id_stamp ..).trans (hi.id_eq.trans (hid ▸ rfl))⟩

/-- What a row of a batch yields is stored, and found and left alone when the row comes again. -/
theorem Addressed.importRow_settles {email : String} (hdef : config.UsesDefaultFields)
    (hs : Addressed config s.store) (hi : e.id = none) (he : e.email = some email) (hact : e.active = true)
    (hb : e.balance.isNaN = false) (h : (repository config).importRow ctx false e s = .ok result t) :
    Settles config t.store e result.1 := by
  cases importRow_ok hs.sound.wf h with
  | @created c _ hp h =>
    have hd := h.dressed
    exact ⟨Created.stored h, (active_of_dressed hd).trans hact, (kept_of_dressed hd).1, absorbed_dressed hd hb⟩
  | replaced hp h =>
    cases hp with
    | replaceStored hid => rw [show Stored.id? e = e.id from rfl, hi] at hid; cases hid
  | @merged existing _ _ hp h =>
    obtain ⟨hactive, hemail, row, hrow⟩ := address_of_planned hs hi he hp
    cases h with
    | @ignored own updated hv hf =>
      refine ⟨⟨row, hrow⟩, hactive, hemail.trans he.symm, ?_⟩
      have hupd := Except.ok.inj ((merged_eq hdef existing e).symm.trans hv.version)
      unfold Absorbed
      rw [hupd]
      exact hv.changes_eq
    | @updated own updated cleared changes _ hv hne' hc hw =>
      have hcw : (s.withStore cleared).store.WF := hc.wf hs.sound.wf
      have hupd := Except.ok.inj ((merged_eq hdef existing e).symm.trans hv.version)
      subst hupd
      refine ⟨Written.stored hcw hw, ?_, email_overlay_present existing he, absorbed_merged existing ctx hb⟩
      show (if "active" ∈ present e then e.active else existing.active) = true
      rw [hact, hactive, ite_self]

/-! ## Rows that come again -/

/-- The address of a stored customer leads to that customer. -/
theorem Addressed.find?_email {email : String} (hs : Addressed config store) (he : c.email = some email)
    (hr : row ∈ store.rows (Stored.collection Customer)) (hd : row.doc = c.toValue) :
    (repository config).entities.find? (.eq "email" (.string email)) store = .ok (some c) := by
  have hrow : row ∈ (repository config).entities.selection (.eq "email" (.string email)) store :=
    DocumentSet.mem_selection.2 ⟨hr, by rw [hd, holds_email, he, decide_eq_true_iff]⟩
  cases hsel : (repository config).entities.selection (.eq "email" (.string email)) store with
  | nil => rw [hsel] at hrow; cases hrow
  | cons first rest =>
    obtain ⟨hfr, hh⟩ := DocumentSet.first_selected hsel
    -- no other row holds the address
    have haddress : first.doc.emailAddress? = some email := by
      rcases hs.canonical first hfr with ⟨d, -, hdoc, -⟩ | ⟨-, record, hdoc⟩
      · rw [hdoc, holds_email, decide_eq_true_iff] at hh
        rw [hdoc, emailAddress?_toValue, hh]
      · rw [hdoc, holds_email_record] at hh; cases hh
    have hsame := hs.distinct first hfr row hr email haddress (by rw [hd, emailAddress?_toValue, he])
    have hfirst := (hs.sound.wf _).row_ext hfr hr hsame
    exact DocumentSet.find?_of_selection (fun _ _ => ⟨_, Expr.eval_eq ..⟩) hsel
      (by rw [hfirst, hd]; exact ofValue?_toValue c)

theorem Addressed.importRow_again {email : String} (hdef : config.UsesDefaultFields) (hs : Addressed config s.store)
    (hi : e.id = none) (he : e.email = some email) (h : Settles config s.store e c) :
    (repository config).importRow ctx false e s = .ok (c, .ignored) s := by
  obtain ⟨row, hr, hd, hid⟩ := h.row
  have hfind := hs.find?_email (h.email.trans he) hr hd
  have hnew : (repository config).Unstored e s.store := fun id hid => by cases hi.symm.trans hid
  have hplan := planImport_match hnew (show Entity.duplicateFilter? e = _ by
    show e.email.map _ = _
    rw [he]; rfl) hfind h.active
  unfold importRow
  rw [Action.bind_run hplan]
  exact importOver_ignored ⟨hid, merged_eq hdef c e, h.absorbed⟩

/-! ## Batches -/

/-- An active customer without an identifier, with an address and with a balance that is a number. -/
structure Newcomer (e : Customer) : Prop where
  unidentified : e.id = none
  active : e.active = true
  address : e.email ≠ none
  numeric : e.balance.isNaN = false

/-- What the rows of a batch yield is stored in the end, and customers with other addresses are as before. -/
theorem Addressed.importRows_settle (hdef : config.UsesDefaultFields) : ∀ {es : List Customer} {s : State}
    {results : List (Customer × ImportOutcome)}, Addressed config s.store → (∀ e ∈ es, Newcomer e) →
      (es.map Customer.email).Nodup → (s.drawnUntil t).Nodup →
      es.mapM ((repository config).importRow ctx false) s = .ok results t →
      Addressed config t.store ∧
        (∀ row ∈ s.store.rows (Stored.collection Customer), row.doc.emailAddress? ∉ es.map Customer.email →
          row ∈ t.store.rows (Stored.collection Customer)) ∧
        List.Forall₂ (fun e (p : Customer × ImportOutcome) => Settles config t.store e p.1) es results
  | [], s, results, hs, _, _, _, h => by
    cases h
    exact ⟨hs, fun row hr _ => hr, .nil⟩
  | e :: es, s, results, hs, hg, hne, hn, h => by
    obtain ⟨result, u, results, hrow, hrest, rfl⟩ := Action.mapM_cons_ok h
    rw [List.forall_mem_cons] at hg
    rw [List.map_cons, List.nodup_cons] at hne
    obtain ⟨email, he⟩ := Option.ne_none_iff_exists'.1 hg.1.address
    -- the identifiers that the first row draws are distinct
    obtain ⟨m, hm⟩ := advances_importRow (repository config) e ctx false s
    obtain ⟨n, hn'⟩ := Action.Advances.mapM (advances_importRow (repository config) · ctx false) es u
    rw [Action.leaves_ok hrow] at hm
    rw [Action.leaves_ok hrest] at hn'
    rw [State.drawnUntil_append hm hn', List.nodup_append] at hn
    have hu := hs.after_row hdef (List.Subset.refl _) hrow hn.1
    obtain ⟨ht, hkept, hsettled⟩ := importRows_settle hdef hu hg.2 hne.2 hn.2.1 hrest
    refine ⟨ht, fun row hr hm => ?_, .cons ?_ hsettled⟩
    · rw [List.map_cons, List.mem_cons, not_or] at hm
      exact hkept row (hs.importRow_spares hdef hg.1.unidentified he hrow hr hm.1) hm.2
    · have hfirst := hs.importRow_settles hdef hg.1.unidentified he hg.1.active hg.1.numeric hrow
      obtain ⟨row, hr, hd, hid⟩ := hfirst.row
      refine ⟨⟨row, hkept row hr ?_, hd, hid⟩, hfirst.active, hfirst.email, hfirst.absorbed⟩
      rw [hd, emailAddress?_toValue, hfirst.email]
      exact hne.1

theorem Addressed.importRows_again (hdef : config.UsesDefaultFields) (hs : Addressed config s.store)
    {es : List Customer} {results : List (Customer × ImportOutcome)} (hg : ∀ e ∈ es, Newcomer e)
    (h : List.Forall₂ (fun e (p : Customer × ImportOutcome) => Settles config s.store e p.1) es results) :
    es.mapM ((repository config).importRow ctx false) s = .ok (results.map fun p => (p.1, .ignored)) s := by
  induction h with
  | nil => rfl
  | cons hfirst _ ih =>
    rw [List.forall_mem_cons] at hg
    obtain ⟨email, he⟩ := Option.ne_none_iff_exists'.1 hg.1.address
    exact Action.mapM_cons_run (hs.importRow_again hdef hg.1.unidentified he hfirst) (ih hg.2)

/-- A batch that has been imported into a store in which no two customers hold the same address is left alone
when it comes again: every row is ignored, and nothing at all changes. -/
theorem reimport_ignored {allowed : Call Customer → Prop} {es : List Customer}
    {results : List (Customer × ImportOutcome)} (hdef : config.UsesDefaultFields)
    (ha : config.auditCollection ≠ Stored.collection Customer) (h : Reachable (repository config) allowed s)
    (hu : s.store.emails.Nodup) (hg : ∀ e ∈ es, Newcomer e) (hne : (es.map Customer.email).Nodup)
    (hf : Fresh (Call.bulkImport es ctx false).named s t)
    (hx : (repository config).bulkImport es ctx false s = .ok results t) (again : AuditContext) :
    (repository config).bulkImport es again false t = .ok (results.map fun p => (p.1, .ignored)) t ∧
      ∀ p ∈ results, ∃ id, p.1.id = some id ∧ (repository config).entities.get? id t.store = .ok (some p.1) := by
  obtain ⟨hsound, hcanonical⟩ := h.invariant (P := Canonical config fun _ => True) idKey_not_registered nofun
    fun c _ _ _ he hs hp => hp.effect hdef (fun _ _ => trivial) (fun _ => ha) he hs
  have hs : Addressed config s.store := ⟨hsound, hcanonical, distinctEmails_of_nodup hu⟩
  unfold bulkImport at hx ⊢
  obtain ⟨_, hv, hrows⟩ := Action.bind_ofExcept_ok hx
  obtain ⟨ht, -, hsettled⟩ := hs.importRows_settle hdef hg hne hf.distinct hrows
  refine ⟨(Action.bind_ofExcept_run hv).trans (ht.importRows_again hdef hg hsettled), fun p hp => ?_⟩
  have hstored : ∀ p ∈ results, ∃ row ∈ t.store.rows (Stored.collection Customer),
      row.doc = p.1.toValue ∧ p.1.id = some row.id :=
    ((List.forall₂_and_left _ _).1 (hsettled.flip.imp fun _ _ h => ⟨h.row, h⟩)).1
  obtain ⟨row, hr, hd, hid⟩ := hstored p hp
  exact ⟨row.id, hid, DocumentSet.get?_of_doc ((ht.sound.wf _).get?_eq_some_iff.2 ⟨row, hr, rfl, hd⟩)
    (ofValue?_toValue p.1)⟩

/-- The state in which Ann has been retired and Bob is active. -/
def oneRetired : State :=
  afterCalls { slugPrefix := "U" }
    [.write (.save ann) morning, .write (.save bob) morning, .softDelete (.ofNat 1) morning]

/-- A row that is merged into Bob, one that takes the address of Ann, and one with a new address. -/
def arrivals : List Customer := [{ bob with city := some "Rome" }, cyd, { cyd with email := some "d@x" }]

theorem newcomer_arrivals : ∀ e ∈ arrivals, Newcomer e := by
  unfold arrivals
  rw [List.forall_mem_cons, List.forall_mem_cons, List.forall_mem_singleton]
  have hzero : Double.zero.isNaN = false := by decide
  exact ⟨⟨rfl, rfl, nofun, hzero⟩, ⟨rfl, rfl, nofun, hzero⟩, ⟨rfl, rfl, nofun, hzero⟩⟩

theorem import_arrivals : ∃ results t,
    (repository { slugPrefix := "U" }).bulkImport arrivals morning false oneRetired = .ok results t ∧
      results.map (·.2) = [.updated, .created, .created] ∧
      Fresh (Call.bulkImport arrivals morning false).named oneRetired t := by
  have h : (match (repository { slugPrefix := "U" }).bulkImport arrivals morning false oneRetired with
    | .ok results t => some (results.map (·.2),
      decide (Fresh (Call.bulkImport arrivals morning false).named oneRetired t))
    | .error _ _ => none) = some ([.updated, .created, .created], true) := by decide +kernel
  split at h
  · rename_i results t hr
    rw [Option.some.injEq, Prod.mk.injEq] at h
    exact ⟨results, t, hr, h.1, of_decide_eq_true h.2⟩
  · cases h

theorem reimport_of_arrivals : ∃ results t,
    (repository { slugPrefix := "U" }).bulkImport arrivals morning false oneRetired = .ok results t ∧
      results.map (·.2) = [.updated, .created, .created] ∧
      (repository { slugPrefix := "U" }).bulkImport arrivals { user := "bob", timestamp := 2000 } false t =
        .ok (results.map fun p => (p.1, .ignored)) t := by
  obtain ⟨results, t, hx, ho, hf⟩ := import_arrivals
  have hreach : Reachable (repository { slugPrefix := "U" }) (fun _ => True) oneRetired :=
    reachable_afterCalls (fun _ _ => trivial) (by decide +kernel)
  have hemails : oneRetired.store.emails = ["a@x", "b@x"] := by decide +kernel
  have hdistinct : (arrivals.map Customer.email).Nodup := by decide
  exact ⟨results, t, hx, ho, (reimport_ignored ⟨rfl, rfl, rfl, rfl, rfl⟩ (by decide) hreach
    (by rw [hemails]; decide) newcomer_arrivals hdistinct hf hx _).1⟩

end Dossier.Customer
