/-
Updates of stored customers, told from the documents before and after. The changes that are found by
comparing customers before they are stamped and written are those by which the stored documents
differ.
-/
import Dossier.Proofs.Entity.Rereading
import Dossier.Proofs.Repository.Customers
import Dossier.Proofs.Repository.Log

namespace Dossier

/-- The document that is stored under the identifier of a customer. -/
def Store.document? (s : Store) (id : Uuid) : Option Document :=
  ((s.collection (Stored.collection Customer)).get? id).bind Value.entries?

namespace Customer

open Repository

variable {config : Config} {c existing requested updated : Customer} {properties : List String}
  {changes : List PropertyChange} {id : Uuid} {row : Row} {store : Store} {ctx : AuditContext} {s t : State}

/-! ## Stored documents -/

theorem document?_of_get? (h : (store.collection (Stored.collection Customer)).get? id = some c.toValue) :
    store.document? id = some c.document := by
  unfold Store.document?
  rw [h, toValue_eq]; rfl

theorem document?_of_row (hw : store.WF) (hr : row ∈ store.rows (Stored.collection Customer))
    (hd : row.doc = c.toValue) :
    store.document? row.id = some c.document :=
  document?_of_get? ((hw _).get?_eq_some_iff.2 ⟨row, hr, rfl, hd⟩)

theorem document?_putRow (hw : store.WF)
    (hin : (store.collection (Stored.collection Customer)).contains id = true) :
    (store.putRow (Stored.collection Customer) id c.toValue).document? id = some c.document :=
  document?_of_get? (hw.get?_putRow hin c.toValue)

/-! ## Values -/

/-- Everything in a stored customer equals itself, unless the balance is not a number. -/
theorem agree_self (hb : c.balance.isNaN = false) (key : String) :
    Differ.agree (Differ.valueAt c.document key) (Differ.valueAt c.document key) = true := by
  unfold Differ.valueAt
  rw [lookup_document]
  cases hl : columns.lookup key with
  | none => rfl
  | some read =>
    rw [Option.bind_some]
    cases hv : (read c).filter fun v => !v.isNothing with
    | none => rfl
    | some v =>
      obtain ⟨hatom, hnan⟩ := atom_column c _ (Entries.mem_of_lookup hl) v (Option.filter_eq_some_iff.1 hv).1
      exact (Value.same_self_of_isAtom hatom).2 (hnan hb)

/-- A stamp changes identity fields only. -/
theorem valueAt_stamp (c : Customer) (ctx : AuditContext) {key : String} (hk : key ∉ defaultIdentityFields) :
    Differ.valueAt (stamp ctx false c).document key = Differ.valueAt c.document key := by
  refine congrArg _ (lookup_document_congr fun col hc he => ?_)
  subst he
  unfold defaultIdentityFields at hk
  simp only [columns, List.mem_cons, List.not_mem_nil, or_false] at hc
  rcases hc with rfl | rfl | rfl | rfl | rfl | rfl | rfl | rfl | rfl | rfl | rfl | rfl <;> first | rfl | simp at hk

/-! ## Patches -/

/-- The changes of a patch describe what it does to the stored document. -/
theorem describes_patch (hreg : ∀ name ∈ properties, name ∈ registry.names) (hn : properties.Nodup)
    (hb : existing.balance.isNaN = false)
    (hd : (repository config).changes existing updated (some properties) = .ok changes) :
    (repository config).differ.Describes existing.document
      (overlay (changes.map (·.property)) updated existing).document changes := by
  rw [changes_eq] at hd
  obtain ⟨hp, hr⟩ := Differ.changesOf_ok hd
  have hin : ∀ key ∈ changes.map (·.property), key ∈ registry.names ∧
      (repository config).differ.differs existing.document updated.document key = true := fun key hk => by
    rw [hp, List.mem_filter] at hk
    exact ⟨hreg key hk.1, hk.2⟩
  -- what is written under the keys with a change is the patched version, the rest stays
  have hafter : ∀ key, Differ.valueAt (overlay (changes.map (·.property)) updated existing).document key =
      if key ∈ changes.map (·.property) then Differ.valueAt updated.document key
      else Differ.valueAt existing.document key := by
    intro key
    unfold Differ.valueAt
    rw [lookup_overlay]
    by_cases hk : key ∈ changes.map (·.property)
    · rw [if_pos hk, if_pos ⟨hk, (hin key hk).1⟩]
    · rw [if_neg hk, if_neg fun h => hk h.1]
  refine ⟨hp ▸ hn.filter _, fun key => ⟨fun hk => ?_, fun hdiff => ?_⟩, fun change hc => ?_⟩
  · have hdiff := (hin key hk).2
    unfold Differ.differs at hdiff ⊢
    rwa [hafter, if_pos hk]
  · by_contra hk
    unfold Differ.differs at hdiff
    rw [hafter, if_neg hk, agree_self hb] at hdiff
    simp at hdiff
  · obtain ⟨before, after⟩ := hr change hc
    exact ⟨before, by rw [hafter, if_pos (List.mem_map_of_mem hc), after]⟩

/-- The written version is active if and only if the patched one is. -/
theorem active_overlay_changes (hdef : config.UsesDefaultFields)
    (hv : updated = overlay properties requested existing)
    (hd : (repository config).changes existing updated (some properties) = .ok changes) :
    (overlay (changes.map (·.property)) updated existing).active = updated.active := by
  have hi : (repository config).differ.isIdentity "active" = false := by rw [hdef.isIdentity_eq]; decide
  have hvalue : ∀ c : Customer, Differ.valueAt c.document "active" = some (.boolean c.active) := fun c => by
    unfold Differ.valueAt
    rw [lookup_document]; rfl
  have h := valueAt_overlay_changes hi hv hd
  rw [hvalue, hvalue] at h
  rcases h with he | ha
  · rw [Option.some.injEq, Value.boolean.injEq] at he; exact he
  · simpa [Differ.agree, Value.same] using ha

/-! ## What updates are to log -/

/-- What the log says of something done to a customer: to which one, where from, by whom and when, and for a property
its values before and after as they are shown. It has no identifier yet; that is given to it when it is appended. -/
def entry (c : Customer) (id : Uuid) (ctx : AuditContext) (action : ChangeAction)
    (property oldValue newValue : Option String) : ChangeRecord where
  id := none
  entityCollection := "customers"
  entityId := id
  entitySlug := c.slug
  action := action
  source := ctx.source
  property := property
  oldValue := oldValue
  newValue := newValue
  changedBy := ctx.user
  changedAt := ctx.timestamp

/-- The records of an update of a stored customer: if it is active afterwards, one for each change by which its
stored documents before and after differ, and none otherwise. -/
def UpdateTrail (config : Config) (ctx : AuditContext) (id : Uuid) (s t : Store)
    (records : List ChangeRecord) : Prop :=
  ∃ before after c, s.document? id = some before ∧ t.document? id = some after ∧
    ofValue? (.document after) = some c ∧
    if c.active then
      ∃ changes, (repository config).differ.Describes before after changes ∧
        records = changes.map fun change =>
          entry c id ctx .update (some change.property) change.oldValue change.newValue
    else records = []

theorem updateTrail_of_describes {before after written : Customer} {s t : Store}
    (hs : s.document? id = some before.document) (ht : t.document? id = some after.document)
    (hd : (repository config).differ.Describes before.document after.document changes)
    (ha : after.active = written.active) (hslug : after.slug = written.slug) :
    UpdateTrail config ctx id s t ((repository config).changeRecords written id changes ctx) := by
  refine ⟨_, _, after, hs, ht, by rw [← toValue_eq, ofValue?_toValue], ?_⟩
  have hentries : (repository config).updateRecords id (Entity.slug? written) changes ctx = changes.map
      fun change => entry after id ctx .update (some change.property) change.oldValue change.newValue := by
    unfold entry
    rw [hslug]
    rfl
  unfold changeRecords recordsOf
  rw [ha, hentries, show Entity.isActive written = written.active from rfl]
  cases written.active with
  | true => exact ⟨changes, hd, rfl⟩
  | false => rfl

end Customer

end Dossier
