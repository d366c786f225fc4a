/-
No two stored customers hold the same email address. The check for duplicates looks at one match
only; it is enough because addresses are distinct among all stored customers, the inactive ones too,
so that there is no second match.
-/
import Dossier.Proofs.Repository.Customers

namespace Dossier

/-- The email address that a stored document holds. -/
def Value.emailAddress? (doc : Value) : Option String := (doc.lookup "email").bind Value.text?

/-- The email addresses of the stored customers, the inactive ones included. -/
def Store.emails (s : Store) : List String := (s.rows "customers").filterMap fun row => row.doc.emailAddress?

namespace Customer

open Repository

variable {config : Config} {P : Double → Prop} {c e : Customer} {id : Uuid} {row : Row}
  {store cleared : Store} {email : String}

theorem emailAddress?_toValue (c : Customer) : c.toValue.emailAddress? = c.email := by
  unfold Value.emailAddress?
  rw [toValue_eq, Value.lookup_name (by decide), lookup_document]
  show (Value.ofOption (c.email.map .string)).text? = c.email
  cases c.email <;> rfl

theorem emailAddress?_record (record : ChangeRecord) : record.toValue.emailAddress? = none := by
  unfold Value.emailAddress?
  rw [ChangeRecord.toValue_eq, Value.lookup_name (by decide), ChangeRecord.lookup_document]
  rfl

/-- Rows that hold the same address are the same row. -/
def DistinctEmails (store : Store) : Prop :=
  ∀ a ∈ store.rows (Stored.collection Customer), ∀ b ∈ store.rows (Stored.collection Customer), ∀ email,
    a.doc.emailAddress? = some email → b.doc.emailAddress? = some email → a.id = b.id

theorem DistinctEmails.nodup (h : DistinctEmails store) (hw : store.WF) : store.emails.Nodup := by
  unfold Store.emails
  have hids : (store.rows "customers").Pairwise fun a b => a.id ≠ b.id := List.pairwise_map.1 (hw "customers").ids
  -- two rows with one address would be one row
  refine List.pairwise_filterMap.2 (hids.imp_of_mem fun ha hb hne email hae email' hbe he => ?_)
  exact hne (h _ ha _ hb email hae (he ▸ hbe))

/-- The filter of a customer selects the rows that hold its address, except its own row. -/
theorem CanonicalRow.holds_duplicateFilter (h : CanonicalRow config P row) (hid : config.idField = "id")
    {own : Option Uuid}
    {filter : Expr} (hf : (repository config).duplicateFilter? e own = some filter) :
    filter.holds row.doc = true ↔ row.doc.emailAddress? = e.email ∧ own ≠ some row.id := by
  obtain ⟨email, he, hc, hr⟩ := Customer.holds_duplicateFilter hid hf
  rcases h with ⟨c, hi, hd, -⟩ | ⟨-, record, hd⟩
  · rw [hd, hc c row.id hi, emailAddress?_toValue, he]
    simp
  · rw [hd, hr, emailAddress?_record, he]
    simp

/-- After duplicates have made way no other row holds the address. -/
theorem unrivalled_of_cleared {own : Option Uuid} (hcl : Cleared (repository config) e own store cleared)
    (hid : config.idField = "id") (hs : (repository config).Sound store) (hc : Canonical config P store)
    (hu : DistinctEmails store) (he : e.email = some email) :
    ∀ row ∈ cleared.rows (Stored.collection Customer), row.doc.emailAddress? = some email → own = some row.id := by
  intro row hr hm
  have hr' := hcl.mem_rows hs.wf hr
  by_contra hown
  cases hcl with
  | unkeyed hf =>
    unfold Repository.duplicateFilter? at hf
    rw [Option.map_eq_none_iff] at hf
    change e.email.map _ = none at hf
    rw [he] at hf; cases hf
  | @unmatched filter hf hm' =>
    have hh := ((hc row hr').holds_duplicateFilter hid hf).2 ⟨hm.trans he.symm, hown⟩
    have hsel : row ∈ (repository config).entities.selection filter store := DocumentSet.mem_selection.2 ⟨hr', hh⟩
    rw [DocumentSet.find?_none hm'] at hsel; cases hsel
  | @retired filter stale gone hf hm' hi ha hin =>
    obtain ⟨first, rest, hsel, hv⟩ := DocumentSet.find?_some hm'
    obtain ⟨hfr, hh⟩ := DocumentSet.first_selected hsel
    -- the match that made way held the address, so it was the only one
    have heq := hu row hr' first hfr email hm ((((hc first hfr).holds_duplicateFilter hid hf).1 hh).1.trans he)
    have hgone : some first.id = some gone := ((hc first hfr).doc_eq hv).1.symm.trans hi
    rw [hs.wf.rows_dropRow, List.mem_filter] at hr
    simp [heq, Option.some.inj hgone] at hr

/-- Addresses stay distinct when one row, which no other row rivals, gets the address of a customer. -/
theorem DistinctEmails.change {t : Store} (target : Uuid) (hu : DistinctEmails cleared)
    (hun : ∀ email, e.email = some email → ∀ row ∈ cleared.rows (Stored.collection Customer),
      row.doc.emailAddress? = some email → row.id = target)
    (hrows : ∀ row ∈ t.rows (Stored.collection Customer), row.id = target ∧ row.doc.emailAddress? = e.email ∨
      ∃ old ∈ cleared.rows (Stored.collection Customer), old.id = row.id ∧
        old.doc.emailAddress? = row.doc.emailAddress?) : DistinctEmails t := by
  intro a ha b hb email hea heb
  rcases hrows a ha with ⟨hia, ha⟩ | ⟨olda, hma, hia, ha⟩ <;>
    rcases hrows b hb with ⟨hib, hb⟩ | ⟨oldb, hmb, hib, hb⟩
  · rw [hia, hib]
  · rw [hia, ← hib, hun email (ha ▸ hea) oldb hmb (hb.trans heb)]
  · rw [hib, ← hia, hun email (hb ▸ heb) olda hma (ha.trans hea)]
  · rw [← hia, ← hib, hu olda hma oldb hmb email (ha.trans hea) (hb.trans heb)]

theorem DistinctEmails.of_cleared {own : Option Uuid} (hu : DistinctEmails store) (hw : store.WF)
    (hc : Cleared (repository config) e own store cleared) : DistinctEmails cleared :=
  fun a ha b hb => hu a (hc.mem_rows hw ha) b (hc.mem_rows hw hb)

theorem DistinctEmails.putRow {target : Uuid} (hu : DistinctEmails store)
    (hun : ∀ email, c.email = some email → ∀ row ∈ store.rows (Stored.collection Customer),
      row.doc.emailAddress? = some email → row.id = target) :
    DistinctEmails (store.putRow (Stored.collection Customer) target c.toValue) := by
  refine hu.change target hun fun row hr => ?_
  rcases Store.mem_rows_putRow hr with ⟨hi, hd⟩ | hr
  · exact Or.inl ⟨hi, by rw [hd, emailAddress?_toValue]⟩
  · exact Or.inr ⟨row, hr, rfl, rfl⟩

theorem valueAt_email (c : Customer) : Differ.valueAt c.document "email" = c.email.map .string := by
  unfold Differ.valueAt
  rw [lookup_document]
  show (some (Value.ofOption (c.email.map .string))).filter _ = _
  cases c.email <;> rfl

/-- What a patch writes under `email` is the address of the patched version. -/
theorem email_overlay_changes {existing requested updated : Customer} {properties : List String}
    {changes : List PropertyChange} (hdef : config.UsesDefaultFields)
    (hv : updated = overlay properties requested existing)
    (hd : (repository config).changes existing updated (some properties) = .ok changes) :
    (overlay (changes.map (·.property)) updated existing).email = updated.email := by
  have hi : (repository config).differ.isIdentity "email" = false := by rw [hdef.isIdentity_eq]; decide
  have hvalue := valueAt_overlay_changes hi hv hd
  rw [valueAt_email, valueAt_email] at hvalue
  rcases hvalue with he | ha
  · exact Option.map_injective (fun a b h => by cases h; rfl) he
  · exact Differ.agree_texts ha

/-- Every effect but patches of many keeps the addresses distinct. -/
theorem DistinctEmails.effect {scope : Scope Customer} {s t : State} (hdef : config.UsesDefaultFields)
    (hm : ¬ scope.many) (h : Effect (repository config) scope s t) (hs : (repository config).Sound s.store)
    (hc : Canonical config P s.store) (hu : DistinctEmails s.store) : DistinctEmails t.store := by
  cases h with
  | draws n => exact hu
  | counts counters => exact hu
  | drops id => exact fun a ha b hb => hu a (hs.wf.mem_of_dropRow ha) b (hs.wf.mem_of_dropRow hb)
  | @creates e c cleared id n counters hg hcl hd hi ho hv hdraw =>
    refine DistinctEmails.change (e := e) id (hu.of_cleared hs.wf hcl) (fun email he row hr hm => ?_)
      fun row hr => ?_
    · exact ho _ (unrivalled_of_cleared hcl hdef.idField hs hc hu he row hr hm)
    · rcases Store.mem_rows_addRows hr with hr | ⟨-, hm⟩
      · exact Or.inr ⟨row, hr, rfl, rfl⟩
      · rw [List.mem_singleton, Prod.mk.injEq] at hm
        exact Or.inl ⟨hm.1, by rw [hm.2]; exact (emailAddress?_toValue c).trans (kept_of_dressed hd).1⟩
  | @replaces existing incoming updated own id cleared ctx hg ho hv hcl hi =>
    have hown : own = id := by
      have hsame := id_of_version (hdef.mem_identityFields.2 (by decide)) hv
      exact Option.some.inj (ho.symm.trans (hsame.symm.trans hi))
    refine (hu.of_cleared hs.wf hcl).putRow fun email he row hr hm => ?_
    exact hown ▸ (Option.some.inj (unrivalled_of_cleared hcl hdef.idField hs hc hu he row hr hm)).symm
  | @patches existing requested updated properties own cleared changes values row hg hr he hv hcl hd hl =>
    have hemail : (overlay (changes.map (·.property)) updated existing).email = updated.email :=
      email_overlay_changes hdef (copyAll_ok hv.version).1 hd
    rw [patchRow_eq (hs.cleared hcl) (hc.cleared hs.wf hcl) hdef.idField hl
      (row_of_cleared hs.wf hc hcl hr he hv.own_eq)]
    refine (hu.of_cleared hs.wf hcl).putRow fun email he row hr hm => ?_
    exact (Option.some.inj (unrivalled_of_cleared hcl hdef.idField hs hc hu (hemail ▸ he) row hr hm)).symm
  | patchesMany filter hmany hg hl => exact (hm hmany).elim
  | @deactivates id existing hg =>
    rw [deactivateRow_eq hs hc hdef hg]
    obtain ⟨stored, hstored, hi, he⟩ := DocumentSet.get?_some hs.wf hg
    refine hu.putRow fun email hemail row hr hm => ?_
    rw [hu row hr stored hstored email hm, hi]
    rw [((hc stored hstored).doc_eq he).2.1, emailAddress?_toValue]
    exact hemail
  | @logs records _ hr =>
    rw [hr.left]
    -- records hold no address
    have hold : ∀ row ∈ ((repository config).recorded records s).store.rows (Stored.collection Customer), ∀ email,
        row.doc.emailAddress? = some email → row ∈ s.store.rows (Stored.collection Customer) := by
      intro row hm email he
      rcases mem_rows_recorded hm with hm | ⟨-, record, -, hd⟩
      · exact hm
      · rw [hd, emailAddress?_record] at he; cases he
    exact fun a ha b hb email hea heb => hu a (hold a ha email hea) b (hold b hb email heb) email hea heb

/-- In every state that calls other than patches of many lead to, no two stored customers hold the
same email address. -/
theorem emails_nodup {s : State} (hdef : config.UsesDefaultFields)
    (h : Reachable (repository config) (fun c => ¬ c.IsPatchMany) s) : s.store.emails.Nodup := by
  have hempty : Canonical config (fun _ => True) {} ∧ DistinctEmails {} := ⟨nofun, nofun⟩
  have hinv := h.invariant (P := fun store => Canonical config (fun _ => True) store ∧ DistinctEmails store)
    idKey_not_registered hempty fun c hc _ _ he hs hp =>
      ⟨hp.1.effect hdef (fun _ _ => trivial) (fun hm => (hc hm).elim) he hs, hp.2.effect hdef hc he hs hp.1⟩
  exact hinv.2.2.nodup hinv.1.wf

/-- Two customers are created, the first is retired, and a third takes its address. -/
def takeover : List (Call Customer) :=
  [.write (.save ann) morning, .write (.save bob) morning, .softDelete (.ofNat 1) morning,
    .write (.save cyd) morning]

theorem emails_takeover : (afterCalls {} takeover).store.emails = ["b@x", "a@x"] ∧
    (afterCalls {} takeover).store.emails.Nodup := by
  refine ⟨by decide +kernel, emails_nodup .default (reachable_afterCalls ?_ ?_)⟩
  · unfold takeover
    simp [Call.IsPatchMany]
  · exact by decide +kernel

end Customer

end Dossier
