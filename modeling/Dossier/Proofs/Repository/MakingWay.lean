/-
Who makes way. Before a customer is written at most one other goes: it is inactive and is stored with the same address.
-/
import Dossier.Proofs.Repository.Drawing
import Dossier.Proofs.Repository.Log
import Dossier.Proofs.Repository.UniqueEmail

namespace Dossier.Customer

open Repository

variable {config : Config} {P : Double → Prop} {c e : Customer} {email : Option String} {id : Uuid} {row : Row}
  {store left : Store}

/-! ## Selection by an address -/

/-- A document that is read as a customer and is selected by an address has that address. -/
theorem email_of_holds {doc : Value} {address : String} (hc : ofValue? doc = some c)
    (hh : (Expr.eq "email" (.string address)).holds doc = true) : c.email = some address := by
  obtain ⟨es, rfl, hreads⟩ := ofValue?_eq_some_iff.1 hc
  have hemail := hreads.email
  rw [Expr.holds_eq (by decide)] at hh
  unfold Field.optional at hemail
  cases hl : es.lookup "email" with
  | none => rw [hl] at hh; simp [Comparand.ofValue, Comparand.hits, Comparand.same] at hh
  | some v =>
    rw [hl] at hh hemail
    cases v with
    | string text =>
      simp [Comparand.ofValue, Comparand.hits, Comparand.same] at hh
      rw [← Option.some.inj hemail, hh]
    | array items => cases hemail
    | _ => simp [Comparand.ofValue, Comparand.hits, Comparand.same] at hh

/-- What is selected as a duplicate of a customer is selected by its address. -/
theorem holds_address {own : Option Uuid} {filter : Expr} {doc : Value}
    (hf : (repository config).duplicateFilter? e own = some filter) (hh : filter.holds doc = true) :
    ∃ address, e.email = some address ∧ (Expr.eq "email" (.string address)).holds doc = true := by
  obtain ⟨first, hd, hfilter⟩ := Option.map_eq_some_iff.1 hf
  obtain ⟨address, he, rfl⟩ := Option.map_eq_some_iff.1 hd
  refine ⟨address, he, ?_⟩
  subst hfilter
  cases own with
  | none => exact hh
  | some own =>
    dsimp only at hh
    rw [Expr.holds_of_eval (Expr.eval_and_pair (Expr.eval_eq ..) (Expr.eval_ne ..)), Bool.and_eq_true] at hh
    rw [Expr.holds_of_eval (Expr.eval_eq ..)]
    exact hh.1

/-! ## Who makes way -/

/-- An inactive customer with an address is stored under an identifier. -/
def HoldsInactive (store : Store) (email : Option String) (id : Uuid) : Prop :=
  email ≠ none ∧ ∃ doc stale, (store.collection (Stored.collection Customer)).get? id = some doc ∧
    ofValue? doc = some stale ∧ stale.active = false ∧ stale.email = email

/-- Who goes has been selected as a duplicate. -/
theorem rows_of_cleared {own : Option Uuid} (hs : (repository config).Sound store)
    (h : Cleared (repository config) e own store left) :
    ∃ gone : Option Uuid, (∀ stale ∈ gone, HoldsInactive store e.email stale ∧
        ∃ filter, (repository config).duplicateFilter? e own = some filter ∧
          ∃ row ∈ store.rows (Stored.collection Customer), row.id = stale ∧ filter.holds row.doc = true) ∧
      left.rows (Stored.collection Customer) =
        (store.rows (Stored.collection Customer)).filter fun row => gone ≠ some row.id := by
  have hkept : store.rows (Stored.collection Customer) =
      (store.rows (Stored.collection Customer)).filter fun row => none ≠ some row.id :=
    (List.filter_eq_self.2 fun _ _ => rfl).symm
  cases h with
  | unkeyed hf => exact ⟨none, nofun, hkept⟩
  | unmatched hf hm => exact ⟨none, nofun, hkept⟩
  | @retired filter stale gone hf hm hi ha hin =>
    obtain ⟨first, others, hsel, hr, rfl, hv⟩ := hs.find?_some hm hi
    have hholds := (DocumentSet.first_selected hsel).2
    obtain ⟨address, he, hh⟩ := holds_address hf hholds
    refine ⟨some first.id, fun other ho => ?_, ?_⟩
    · cases ho
      refine ⟨⟨he ▸ nofun, first.doc, stale, ?_, hv, ha, (email_of_holds hv hh).trans he.symm⟩,
        filter, hf, first, hr, rfl, hholds⟩
      exact (hs.wf _).get?_eq_some_iff.2 ⟨first, hr, rfl, rfl⟩
    · rw [hs.wf.rows_dropRow]
      refine List.filter_congr fun row _ => ?_
      rw [decide_eq_decide, not_iff_not, Option.some_inj]
      exact eq_comm

/-- At most one customer has made way for the one under an identifier: an inactive one with an address, whose document
is that of a customer. -/
structure MadeWay (id : Uuid) (email : Option String) (store left : Store) : Prop where
  rows : ∃ gone : Option Uuid, (∀ stale ∈ gone, stale ≠ id ∧ HoldsInactive store email stale ∧
      ∃ x : Customer, (store.collection (Stored.collection Customer)).get? stale = some x.toValue) ∧
    left.rows (Stored.collection Customer) =
      (store.rows (Stored.collection Customer)).filter fun row => gone ≠ some row.id
  others : ∀ name, name ≠ Stored.collection Customer → left.rows name = store.rows name
  counters : left.counters = store.counters

theorem MadeWay.refl (id : Uuid) (email : Option String) (store : Store) : MadeWay id email store store where
  rows := ⟨none, nofun, (List.filter_eq_self.2 fun _ _ => rfl).symm⟩
  others _ _ := rfl
  counters := rfl

/-- Who makes way in the check for duplicates is not the customer that is written. -/
theorem MadeWay.ofCleared (hid : config.idField = "id") (hs : (repository config).Sound store)
    (hc : Canonical config P store) (h : Cleared (repository config) e (some id) store left) :
    MadeWay id e.email store left where
  rows := by
    obtain ⟨gone, hgone, hrows⟩ := rows_of_cleared hs h
    refine ⟨gone, fun stale hstale => ?_, hrows⟩
    obtain ⟨hinactive, filter, hf, row, hr, rfl, hholds⟩ := hgone stale hstale
    -- the filter leaves the own row out
    have hown := (((hc row hr).holds_duplicateFilter hid hf).1 hholds).2
    have hget := (hs.wf _).get?_eq_some_iff.2 ⟨row, hr, rfl, rfl⟩
    obtain ⟨doc, x, hdoc, hx, -⟩ := hinactive.2
    cases hget.symm.trans hdoc
    exact ⟨fun hsame => hown (congrArg some hsame.symm), hinactive, x, ((hc row hr).doc_eq hx).2.1 ▸ hget⟩
  others name hn := h.rows_other hn
  counters := counters_of_cleared h

/-- The customer that others make way for stays. -/
theorem MadeWay.mem_rows (h : MadeWay row.id email store left) (hr : row ∈ store.rows (Stored.collection Customer)) :
    row ∈ left.rows (Stored.collection Customer) := by
  obtain ⟨gone, hgone, hrows⟩ := h.rows
  rw [hrows, List.mem_filter, decide_eq_true_iff]
  exact ⟨hr, fun hsame => (hgone row.id hsame).1 rfl⟩

end Dossier.Customer
