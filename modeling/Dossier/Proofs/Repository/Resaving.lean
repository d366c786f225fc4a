/-
Writes that ask for nothing new. Nothing is written for them and nothing recorded, but they look for duplicates as
any other write does, and before it is known that there is nothing to write: an inactive customer with the same address
makes way. Only patches of many can bring that about.
-/
import Dossier.Proofs.Repository.PatchFrame
import Dossier.Proofs.Repository.Renewal
import Dossier.Proofs.Repository.Rivals

namespace Dossier

namespace Customer

open Repository

variable {config : Config} {w : Write Customer} {c x version : Customer} {ctx : AuditContext} {s t : State}

/-- A write that asks for nothing new of the stored customer `x`: the version that it would become differs from it in
no property that is compared. -/
inductive Idle (config : Config) (s : State) : Write Customer → Customer → Customer → Prop
  | save {e x version : Customer} {id : Uuid} (hi : e.id = some id)
      (hg : (repository config).entities.get? id s.store = .ok (some x))
      (hv : (repository config).overwritten x e = .ok version) (hu : Unaltered config x version) :
      Idle config s (.save e) x version
  | patch {w : Write Customer} {find : Action Customer} {requested x version : Customer}
      (hw : w.patch? (repository config) = some (find, requested)) (hf : find s = .ok x s)
      (hv : (repository config).registry.copyAll w.names requested x = .ok version)
      (hu : ∀ key ∈ w.names, (repository config).differ.differs x.document version.document key = false) :
      Idle config s w x version

/-! ## What they leave -/

/-- All that an idle write does is make way. -/
theorem Idle.cleared (h : Idle config s w x version) (hw : s.store.WF)
    (hx : w.run (repository config) ctx s = .ok c t) :
    c = x ∧ ∃ cleared, Cleared (repository config) version x.id s.store cleared ∧ t = s.withStore cleared := by
  cases h with
  | save hi hg hv hu =>
    cases createOrOverwrite_ok hw hx with
    | created _ hn _ => cases (hn _ hi).symm.trans hg
    | overwritten hi' hg' hover =>
      cases hi.symm.trans hi'
      cases hg.symm.trans hg'
      cases hover with
      | @same own _ cleared hv' hc hd =>
        cases hv.symm.trans hv'.version
        exact ⟨rfl, cleared, by rw [show c.id = some own from hv'.own_eq]; exact hc, rfl⟩
      | changed hv' hc hd hne _ =>
        cases hv.symm.trans hv'.version
        exact (hne (Except.ok.inj (hd.symm.trans (unaltered_iff.1 hu)))).elim
  | patch hp hf hv hu =>
    obtain ⟨hfind, hrun⟩ := Write.patch?_some hp ctx
    rw [hrun] at hx
    obtain ⟨existing, _, hf', -, -, hpatched⟩ := patch_ok hfind hw hx
    cases hf.symm.trans hf'
    cases hpatched with
    | @same own _ cleared hv' hc hd =>
      cases hv.symm.trans hv'.version
      exact ⟨rfl, cleared, by rw [show c.id = some own from hv'.own_eq]; exact hc, rfl⟩
    | changed hv' hc hd hne _ _ =>
      cases hv.symm.trans hv'.version
      rw [changes_eq] at hd
      exact (hne (Except.ok.inj (hd.symm.trans (Differ.changesOf_nil hu)))).elim

/-- A write that asks for nothing new yields the stored customer and leaves the store as it was, less the inactive
customer that has made way for it, if there is one. -/
theorem store_of_idle_write {allowed : Call Customer → Prop} (h : Reachable (repository config) allowed s)
    (hi : Idle config s w x version) (hx : w.run (repository config) ctx s = .ok c t) :
    c = x ∧
    t = s.withStore (((repository config).retired? version x.id s.store).elim s.store
      (s.store.dropRow (Stored.collection Customer))) ∧
    (t.store = s.store ↔ (repository config).retired? version x.id s.store = none) := by
  have hs := h.sound idKey_not_registered
  obtain ⟨hc, cleared, hcl, rfl⟩ := hi.cleared hs.wf hx
  refine ⟨hc, congrArg s.withStore hcl.eq_elim, fun hsame => ?_, fun hn => ?_⟩
  · have hkept : cleared = s.store := hsame
    cases hg : (repository config).retired? version x.id s.store with
    | none => rfl
    | some gone =>
      -- the row that goes was there
      have hin := hs.contains_retired hg
      rw [← hkept, hcl.eq_elim, hg, Option.elim_some, Store.collection_dropRow, if_pos rfl,
        (hs.wf _).contains_remove] at hin
      simp at hin
  · change cleared = s.store
    rw [hcl.eq_elim, hn]
    rfl

/-- Bob, who has been given the address of Ann by a patch of many, is saved as he is stored. -/
def bobAgain : Write Customer := .save { bob with id := some (.ofNat 3), email := some "a@x" }

def sharedBob : Customer := stamp morning true { bob with id := some (.ofNat 3), email := some "a@x" }

theorem idle_bobAgain : Idle {} (afterCalls {} sharing) bobAgain sharedBob sharedBob := by
  refine .save rfl (by decide +kernel) (overwritten_eq .default _ _) fun key => ?_
  unfold Differ.differs
  rw [agree_self rfl, Bool.not_true, Bool.and_false]

/-- Ann makes way though nothing is written. -/
theorem save_bobAgain : ∃ c t, bobAgain.run (repository {}) evening (afterCalls {} sharing) = .ok c t ∧ c = sharedBob ∧
    t = (afterCalls {} sharing).withStore ((afterCalls {} sharing).store.dropRow "customers" (.ofNat 1)) ∧
    t.store ≠ (afterCalls {} sharing).store := by
  have hretired : (repository {}).retired? sharedBob sharedBob.id (afterCalls {} sharing).store = some (.ofNat 1) := by
    decide +kernel
  have hrun : ((bobAgain.run (repository {}) evening).result? (afterCalls {} sharing)).isSome = true := by
    decide +kernel
  obtain ⟨⟨c, t⟩, hr⟩ := Option.isSome_iff_exists.1 hrun
  have hx := Action.run_of_result? hr
  obtain ⟨hc, ht, hiff⟩ := store_of_idle_write reachable_sharing idle_bobAgain hx
  rw [hretired] at ht hiff
  exact ⟨c, t, hx, hc, ht, fun hsame => by cases hiff.1 hsame⟩

/-- A write that asks for nothing new can change the store. -/
theorem not_idle : ¬ ∀ (config : Config) (w : Write Customer) (ctx : AuditContext) (c x version : Customer)
    (s t : State), Reachable (repository config) (fun _ => True) s → Idle config s w x version →
      w.run (repository config) ctx s = .ok c t → t.store = s.store := by
  intro h
  have hgone : ((bobAgain.run (repository {}) evening).result? (afterCalls {} sharing)).map
      (fun r => (r.2.store.rows "customers").length) = some 1 := by decide +kernel
  obtain ⟨⟨c, t⟩, hr, hlength⟩ := Option.map_eq_some_iff.1 hgone
  have hsame := h {} bobAgain evening c _ _ _ t reachable_sharing idle_bobAgain (Action.run_of_result? hr)
  have htwo : ((afterCalls {} sharing).store.rows "customers").length = 2 := by decide +kernel
  dsimp only at hlength
  rw [hsame, htwo] at hlength
  cases hlength

/-! ## While addresses are distinct -/

/-- A patch that asks for nothing new keeps the address. -/
theorem email_of_copied {names : List String} {requested : Customer} (hdef : config.UsesDefaultFields)
    (hv : (repository config).registry.copyAll names requested x = .ok version)
    (hu : ∀ key ∈ names, (repository config).differ.differs x.document version.document key = false) :
    version.email = x.email := by
  have hd : (repository config).changes x version (some names) = .ok [] := by
    rw [changes_eq]
    exact Differ.changesOf_nil hu
  exact (email_overlay_changes hdef (copyAll_ok hv).1 hd).symm

theorem Idle.email_eq (hdef : config.UsesDefaultFields) (h : Idle config s w x version) : version.email = x.email := by
  cases h with
  | save hi hg hv hu => exact email_of_unaltered hdef hu
  | patch hw hf hv hu => exact email_of_copied hdef hv hu

theorem Idle.stored (h : Idle config s w x version) (hw : s.store.WF) :
    ∃ row ∈ s.store.rows (Stored.collection Customer), ofValue? row.doc = some x := by
  cases h with
  | save hi hg hv hu =>
    obtain ⟨row, hr, -, he⟩ := DocumentSet.get?_some hw hg
    exact ⟨row, hr, he⟩
  | patch hp hf hv hu => exact ((Write.patch?_some hp ⟨"", .interactive, 0⟩).1.found hw hf).2

/-- Nobody makes way for a stored customer whose address no other row holds. -/
theorem cleared_eq_of_distinct {P : Double → Prop} {row : Row} {store cleared : Store} (hid : config.idField = "id")
    (hs : (repository config).Sound store) (hc : Canonical config P store) (hu : DistinctEmails store)
    (hr : row ∈ store.rows (Stored.collection Customer)) (he : ofValue? row.doc = some x)
    (hemail : version.email = x.email) (h : Cleared (repository config) version x.id store cleared) :
    cleared = store := by
  cases h with
  | unkeyed hf => rfl
  | unmatched hf hm => rfl
  | @retired filter stale gone hf hm hi ha hin =>
    exfalso
    obtain ⟨first, others, hsel, hfirst, -⟩ := hs.find?_some hm hi
    obtain ⟨haddress, hown⟩ :=
      ((hc first hfirst).holds_duplicateFilter hid hf).1 (DocumentSet.first_selected hsel).2
    obtain ⟨address, haddressed, -⟩ := holds_duplicateFilter hid hf
    obtain ⟨hx, hdoc, -⟩ := (hc row hr).doc_eq he
    -- the own row holds the address too
    have hrow : row.doc.emailAddress? = some address := by
      rw [hdoc, emailAddress?_toValue, ← hemail, haddressed]
    exact hown (hx.trans (congrArg some (hu row hr first hfirst address hrow (haddress.trans haddressed))))

theorem distinct_of_reachable (hdef : config.UsesDefaultFields)
    (h : Reachable (repository config) (fun call => ¬ call.IsPatchMany) s) :
    (repository config).Sound s.store ∧ Canonical config (fun _ => True) s.store ∧ DistinctEmails s.store :=
  h.invariant (P := fun store => Canonical config (fun _ => True) store ∧ DistinctEmails store)
    idKey_not_registered ⟨nofun, nofun⟩ fun _ hcall _ _ he hs hp =>
      ⟨hp.1.effect hdef (fun _ _ => trivial) (fun hm => (hcall hm).elim) he hs, hp.2.effect hdef hcall he hs hp.1⟩

/-- Without patches of many, a write that asks for nothing new changes nothing at all. -/
theorem idle_leaves_all (hdef : config.UsesDefaultFields)
    (h : Reachable (repository config) (fun call => ¬ call.IsPatchMany) s) (hi : Idle config s w x version)
    (hx : w.run (repository config) ctx s = .ok c t) : c = x ∧ t = s := by
  obtain ⟨hs, hc, hu⟩ := distinct_of_reachable hdef h
  obtain ⟨hcx, cleared, hcl, rfl⟩ := hi.cleared hs.wf hx
  obtain ⟨row, hr, he⟩ := hi.stored hs.wf
  refine ⟨hcx, ?_⟩
  rw [cleared_eq_of_distinct hdef.idField hs hc hu hr he (hi.email_eq hdef) hcl]
  rfl

end Customer

end Dossier
