/-
The repository of customers. Under the default fields every document of the collection is the stored
form of a customer, or of a change record when the log is kept in the same collection; what a
duplicate filter selects is then known exactly.
-/
import Dossier.Proofs.Repository.Call
import Dossier.Proofs.Repository.Version

namespace Dossier

/-- The repository of customers under a configuration. -/
def Customer.repository (config : Config) : Repository Customer := ⟨config, Customer.registry⟩

/-- The fields that operations refer to by name, and the identity fields, are the default ones. -/
structure Config.UsesDefaultFields (config : Config) : Prop where
  idField : config.idField = "id"
  slugField : config.slugField = "slug"
  sequenceField : config.sequenceField = "sequence"
  activeField : config.activeField = "active"
  identityFields : config.identityFields = defaultIdentityFields

namespace Config.UsesDefaultFields

variable {config : Config}

theorem default : UsesDefaultFields {} := ⟨rfl, rfl, rfl, rfl, rfl⟩

theorem mem_identityFields (h : config.UsesDefaultFields) {key : String} :
    key ∈ (Customer.repository config).config.identityFields ↔ key ∈ defaultIdentityFields := by
  rw [← h.identityFields]; rfl

theorem isIdentity_eq (h : config.UsesDefaultFields) (key : String) :
    (Customer.repository config).differ.isIdentity key = (key == "_id" || defaultIdentityFields.contains key) := by
  rw [← h.identityFields]; rfl

end Config.UsesDefaultFields

namespace Customer

open Repository

variable {config : Config} {P : Double → Prop} {c e : Customer} {id : Uuid} {row : Row} {store : Store}

theorem idKey_not_registered : idKey ∉ (repository config).registry.names := by
  show "id" ∉ ["name", "email", "city", "balance", "active"]
  decide

/-! ## Filters on stored customers -/

theorem holds_email (c : Customer) (email : String) :
    (Expr.eq "email" (.string email)).holds c.toValue = decide (c.email = some email) := by
  have hl : (c.document.lookup "email").getD .null = Value.ofOption (c.email.map .string) := by
    rw [lookup_document]; rfl
  rw [toValue_eq, Bool.eq_iff_iff, decide_eq_true_iff]
  refine ⟨Expr.lookup_of_holds_eq_string (by decide) hl, fun he => Expr.holds_eq_string_self (by decide) ?_⟩
  rw [lookup_document]
  show some (Value.ofOption (c.email.map .string)) = _
  rw [he]; rfl

theorem holds_id (h : c.id = some id) (other : Uuid) :
    (Expr.eq "id" (.uuid other)).holds c.toValue = decide (id = other) := by
  rw [toValue_eq]
  refine Expr.holds_eq_uuid (by decide) ?_ other
  rw [lookup_document]
  show c.id.map Value.uuid = _
  rw [h]; rfl

theorem holds_email_record (record : ChangeRecord) (email : String) :
    (Expr.eq "email" (.string email)).holds record.toValue = false := by
  rw [ChangeRecord.toValue_eq, Bool.eq_false_iff]
  intro hh
  have hl : (record.document.lookup "email").getD .null = Value.ofOption ((none : Option String).map .string) := by
    rw [ChangeRecord.lookup_document]; rfl
  cases Expr.lookup_of_holds_eq_string (by decide) hl hh

/-- The check for duplicates leaves out the documents with the own identifier. -/
theorem holds_withoutOwn (hid : config.idField = "id") {own : Option Uuid} {filter rest : Expr}
    (hf : Entity.duplicateFilter? e = some filter) (hr : (repository config).duplicateFilter? e own = some rest)
    (doc : Value) :
    rest.holds doc = (filter.holds doc && own.all fun id => !(Expr.eq idKey (.uuid id)).holds doc) := by
  unfold Repository.duplicateFilter? at hr
  rw [hf, Option.map_some, Option.some.injEq] at hr
  obtain ⟨email, -, rfl⟩ := Option.map_eq_some_iff.1 hf
  subst hr
  cases own with
  | none => exact (Bool.and_true _).symm
  | some own =>
    dsimp only
    rw [show (repository config).config.idField = idKey from hid,
      Expr.holds_of_eval (Expr.eval_and_pair (Expr.eval_eq ..) (Expr.eval_ne ..)),
      Expr.holds_of_eval (Expr.eval_eq ..),
      Option.all_some, Expr.holds_of_eval (Expr.eval_eq ..)]

/-- What the duplicate filter of a customer selects: the customers with its address, except itself. -/
theorem holds_duplicateFilter (hid : config.idField = "id") {own : Option Uuid} {filter : Expr}
    (hf : (repository config).duplicateFilter? e own = some filter) : ∃ email, e.email = some email ∧
      (∀ (c : Customer) id, c.id = some id →
        filter.holds c.toValue = (decide (c.email = some email) && decide (own ≠ some id))) ∧
      ∀ record : ChangeRecord, filter.holds record.toValue = false := by
  obtain ⟨first, hd, -⟩ := Option.map_eq_some_iff.1 hf
  have hw := holds_withoutOwn hid hd hf
  obtain ⟨email, he, rfl⟩ := Option.map_eq_some_iff.1 hd
  refine ⟨email, he, fun c id hi => ?_, fun record => by rw [hw, holds_email_record, Bool.false_and]⟩
  rw [hw, holds_email]
  cases own with
  | none => simp
  | some own =>
    have hown : (Expr.eq idKey (.uuid own)).holds c.toValue = decide (id = own) := holds_id hi own
    rw [Option.all_some, hown]
    simp [eq_comm]

/-! ## Canonical stores -/

/-- A row that keeps a customer with a balance of some kind, or a change record if the log is in the same
collection. -/
def CanonicalRow (config : Config) (P : Double → Prop) (row : Row) : Prop :=
  (∃ c : Customer, c.id = some row.id ∧ row.doc = c.toValue ∧ P c.balance) ∨
    config.auditCollection = Stored.collection Customer ∧ ∃ record : ChangeRecord, row.doc = record.toValue

/-- Every row of the collection is canonical. -/
def Canonical (config : Config) (P : Double → Prop) (store : Store) : Prop :=
  ∀ row ∈ store.rows (Stored.collection Customer), CanonicalRow config P row

/-- A row that is read as a customer keeps that customer. -/
theorem CanonicalRow.doc_eq (h : CanonicalRow config P row) (hc : ofValue? row.doc = some c) :
    c.id = some row.id ∧ row.doc = c.toValue ∧ P c.balance := by
  rcases h with ⟨d, hi, hd, hb⟩ | ⟨-, record, hd⟩
  · rw [hd, ofValue?_toValue] at hc
    cases hc
    exact ⟨hi, hd, hb⟩
  · rw [hd, ChangeRecord.not_customer] at hc; cases hc

theorem Canonical.cleared {r : Repository Customer} {own : Option Uuid} {cleared : Store}
    (h : Canonical config P store)
    (hw : store.WF) (hc : Cleared r e own store cleared) : Canonical config P cleared :=
  fun row hr => h row (hc.mem_rows hw hr)

/-- Setting properties in the row of a customer. -/
theorem fieldsSet_toValue {names : List String} {u : Customer} {values : Document}
    (hl : registry.readAll u names = .ok values) (hc : row.doc = c.toValue) (filter : Expr) :
    Store.fieldsSet filter values row =
      (if filter.holds c.toValue then overlay names u c else c).toValue := by
  unfold Store.fieldsSet
  rw [hc]
  split
  · exact withFields_readAll hl c
  · rfl

/-- Setting properties in the documents that have an identifier puts a customer into one row, if that row
keeps a customer. -/
theorem patchRow_eq (hs : (repository config).Sound store) (hcan : Canonical config P store)
    (hid : config.idField = "id")
    {names : List String} {u : Customer} {values : Document} (hl : registry.readAll u names = .ok values)
    (hc : ∀ row ∈ store.rows (Stored.collection Customer), row.id = id → ofValue? row.doc = some c) :
    (repository config).patchRow id values store =
      store.putRow (Stored.collection Customer) id (overlay names u c).toValue := by
  have hby : (repository config).byId id = .eq idKey (.uuid id) := congrArg (Expr.eq · _) hid
  unfold Repository.patchRow Store.putRow
  refine Store.reviseRows_congr fun row hr => ?_
  rw [hby]
  rcases hcan row hr with ⟨d, hi, hd, -⟩ | ⟨-, record, hd⟩
  · rw [fieldsSet_toValue hl hd, show (Expr.eq idKey (.uuid id)).holds d.toValue = _ from holds_id hi id]
    by_cases he : row.id = id
    · have hr := hc row hr he
      rw [hd, ofValue?_toValue] at hr
      cases hr
      rw [if_pos he, if_pos (decide_eq_true he)]
    · rw [if_neg he, if_neg (by simpa using he), hd]
  · have he : row.id ≠ id := by
      intro he
      have hr := hc row hr he
      rw [hd, ChangeRecord.not_customer] at hr; cases hr
    rw [if_neg he]
    unfold Store.fieldsSet
    rw [if_neg fun hh => he ((hs.keyed row hr).eq_of_holds hh)]

/-- Taking the activity flag away puts the inactive customer into its row. -/
theorem deactivateRow_eq (hs : (repository config).Sound store) (hcan : Canonical config P store)
    (hdef : config.UsesDefaultFields) (hg : (repository config).entities.get? id store = .ok (some c)) :
    (repository config).deactivateRow id store =
      store.putRow (Stored.collection Customer) id { c with active := false }.toValue := by
  obtain ⟨row, hr, hi, he⟩ := DocumentSet.get?_some hs.wf hg
  have hl : registry.readAll { c with active := false } ["active"] = .ok [("active", .boolean false)] := rfl
  have ho : overlay ["active"] { c with active := false } c = { c with active := false } := by simp [overlay]
  unfold Repository.deactivateRow
  rw [show (repository config).config.activeField = "active" from hdef.activeField,
    patchRow_eq hs hcan hdef.idField hl, ho]
  exact fun old hold hi' => (hs.wf _).row_ext hold hr (hi'.trans hi.symm) ▸ he

/-- The row that a patch is about keeps the stored version, also after duplicates have made way. -/
theorem row_of_cleared {r : Repository Customer} {own : Uuid} {cleared : Store} (hw : store.WF)
    (hcan : Canonical config P store)
    (hcl : Cleared r e (some own) store cleared) (hr : row ∈ store.rows (Stored.collection Customer))
    (he : ofValue? row.doc = some c) (ho : c.id = some own) :
    ∀ old ∈ cleared.rows (Stored.collection Customer), old.id = own → ofValue? old.doc = some c := by
  intro old hold hi
  have hid := ((hcan row hr).doc_eq he).1.symm.trans ho
  exact (hw _).row_ext (hcl.mem_rows hw hold) hr (hi.trans (Option.some.inj hid).symm) ▸ he

theorem Canonical.putRow (h : Canonical config P store) (hi : c.id = some id) (hb : P c.balance) :
    Canonical config P (store.putRow (Stored.collection Customer) id c.toValue) := by
  intro row hr
  rcases Store.mem_rows_putRow hr with ⟨he, hd⟩ | hr
  · exact Or.inl ⟨c, he ▸ hi, hd, hb⟩
  · exact h row hr

/-- What is given to a new customer touches neither its address nor its balance. -/
theorem kept_of_dressed (h : Dressed e c) : c.email = e.email ∧ c.balance = e.balance := by
  induction h with
  | bare => exact ⟨rfl, rfl⟩
  | slug slug number h ih => exact ih
  | identifier id h ih => exact ih
  | stamp ctx created h ih => cases created <;> exact ih

/-- A customer with properties of another one has the balance of one of them. -/
theorem balance_overlay {names : List String} {u : Customer} (hu : P u.balance) (hc : P c.balance) :
    P (overlay names u c).balance := by
  show P (if "balance" ∈ names then u.balance else c.balance)
  split
  · exact hu
  · exact hc

/-- Canonical stores stay so if the balances that are handed in are of the same kind, unless patches of many can
reach the log. -/
theorem Canonical.effect {scope : Scope Customer} {s t : State} (hdef : config.UsesDefaultFields)
    (hg : ∀ e, scope.given e → P e.balance) (hm : scope.many → config.auditCollection ≠ Stored.collection Customer)
    (h : Effect (repository config) scope s t) (hs : (repository config).Sound s.store)
    (hc : Canonical config P s.store) : Canonical config P t.store := by
  cases h with
  | draws n => exact hc
  | counts counters => exact hc
  | drops id => exact fun row hr => hc row (hs.wf.mem_of_dropRow hr)
  | @creates e c cleared id n counters hge hcl hd hi ho hv hid =>
    intro row hr
    rcases Store.mem_rows_addRows hr with hr | ⟨-, hm⟩
    · exact hc.cleared hs.wf hcl row hr
    · rw [List.mem_singleton, Prod.mk.injEq] at hm
      exact Or.inl ⟨c, by rw [hm.1]; exact hi, hm.2, (kept_of_dressed hd).2 ▸ hg e hge⟩
  | @replaces existing incoming updated own id cleared ctx hge ho hv hcl hi =>
    have hb : updated.balance = incoming.balance :=
      balance_of_version (mt hdef.mem_identityFields.1 (by decide)) hv
    exact (hc.cleared hs.wf hcl).putRow ((LawfulEntity.id_stamp updated ctx false).trans hi)
      ((kept_of_dressed (.stamp ctx false .bare)).2.trans hb ▸ hg incoming hge)
  | @patches existing requested updated properties own cleared changes values row hge hr he hv hcl hd hl =>
    have hcc := hc.cleared hs.wf hcl
    have hb := ((hc row hr).doc_eq he).2.2
    rw [patchRow_eq (hs.cleared hcl) hcc hdef.idField hl (row_of_cleared hs.wf hc hcl hr he hv.own_eq)]
    refine hcc.putRow hv.own_eq (balance_overlay ?_ hb)
    rw [(copyAll_ok hv.version).1]
    exact balance_overlay (hg requested hge) hb
  | @patchesMany requested properties values filter hmany hge hl =>
    intro row hr
    change row ∈ (s.store.reviseRows _ _).rows _ at hr
    rw [Store.rows_reviseRows] at hr
    obtain ⟨old, hold, rfl⟩ := List.mem_map.1 hr
    rcases hc old hold with ⟨c, hi, hd, hb⟩ | ⟨ha, -⟩
    · refine Or.inl ⟨_, ?_, fieldsSet_toValue hl hd _, ?_⟩
      · split <;> exact hi
      · split
        · exact balance_overlay (hg requested hge) hb
        · exact hb
    · exact absurd ha (hm hmany)
  | @deactivates id existing hget =>
    rw [deactivateRow_eq hs hc hdef hget]
    obtain ⟨row, hr, hi, he⟩ := DocumentSet.get?_some hs.wf hget
    obtain ⟨hid, -, hb⟩ := (hc row hr).doc_eq he
    exact hc.putRow (c := { existing with active := false }) (hid.trans (congrArg some hi)) hb
  | logs hr =>
    intro row hm
    rw [hr.left] at hm
    rcases mem_rows_recorded hm with hm | ⟨ha, record, -, hd⟩
    · exact hc row hm
    · exact Or.inr ⟨ha.symm, record, hd⟩

/-- The states that calls lead to are canonical when the log is kept elsewhere. -/
theorem canonical_of_reachable {allowed : Call Customer → Prop} {s : State} (hdef : config.UsesDefaultFields)
    (ha : config.auditCollection ≠ Stored.collection Customer) (hg : ∀ c, allowed c → ∀ e ∈ c.given, P e.balance)
    (h : Reachable (repository config) allowed s) :
    (repository config).Sound s.store ∧ Canonical config P s.store :=
  h.invariant (P := Canonical config P) idKey_not_registered nofun
    fun c hc _ _ he hs hp => hp.effect hdef (hg c hc) (fun _ => ha) he hs

/-! ## What a patch writes -/

/-- Under a compared property, the version that a patch writes has the value that was asked for, or an equal one. -/
theorem valueAt_overlay_changes {existing requested updated : Customer} {properties : List String}
    {changes : List PropertyChange} {key : String} (hk : (repository config).differ.isIdentity key = false)
    (hv : updated = overlay properties requested existing)
    (hd : (repository config).changes existing updated (some properties) = .ok changes) :
    Differ.valueAt (overlay (changes.map (·.property)) updated existing).document key =
        Differ.valueAt updated.document key ∨
      Differ.agree (Differ.valueAt (overlay (changes.map (·.property)) updated existing).document key)
        (Differ.valueAt updated.document key) = true := by
  rw [changes_eq] at hd
  have hc := (Differ.changesOf_ok hd).1
  by_cases hn : key ∈ changes.map (·.property) ∧ key ∈ registry.names
  · left
    unfold Differ.valueAt
    rw [lookup_overlay, if_pos hn]
  have hold : Differ.valueAt (overlay (changes.map (·.property)) updated existing).document key =
      Differ.valueAt existing.document key := by
    unfold Differ.valueAt
    rw [lookup_overlay, if_neg hn]
  rw [hold]
  by_cases hp : key ∈ properties ∧ key ∈ registry.names
  · -- the property was compared, and no change was found
    right
    have hs : key ∉ changes.map (·.property) := fun hm => hn ⟨hm, hp.2⟩
    rw [hc, List.mem_filter, not_and, Bool.not_eq_true] at hs
    have hdiff := hs hp.1
    unfold Differ.differs at hdiff
    rw [hk] at hdiff
    simpa using hdiff
  · left
    unfold Differ.valueAt
    rw [hv, lookup_overlay, if_neg hp]

/-! ## Runs with three customers -/

def ann : Customer := { name := "Ann", email := some "a@x", balance := .zero }

def bob : Customer := { name := "Bob", email := some "b@x", balance := .zero }

/-- A customer with the address of the first one. -/
def cyd : Customer := { name := "Cyd", email := some "a@x", balance := .zero }

def morning : AuditContext := { user := "alice", timestamp := 1000 }

def evening : AuditContext := { user := "carol", timestamp := 9000 }

/-- The state that calls lead to from an empty store, with identifiers numbered from one. -/
def afterCalls (config : Config) (calls : List (Call Customer)) : State :=
  Call.afterAll (repository config) { ids := { stream := fun n => .ofNat (n + 1) } } calls

/-- The state in which Ann has been retired and Bob is active. -/
def annRetired : State :=
  afterCalls {} [.write (.save ann) morning, .write (.save bob) morning, .softDelete (.ofNat 1) morning]

theorem reachable_afterCalls {allowed : Call Customer → Prop} {calls : List (Call Customer)}
    (ha : ∀ c ∈ calls, allowed c)
    (hf : Call.AllFresh (repository config) { ids := { stream := fun n => .ofNat (n + 1) } } calls) :
    Reachable (repository config) allowed (afterCalls config calls) :=
  (Reachable.empty _).run ha hf

end Customer

end Dossier
