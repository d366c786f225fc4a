/-
Identity is immutable. Whatever an operation does to an active customer, and whether it succeeds or
fails, the customer stays under its key with its slug and its creation, unless its removal has been
asked for.
-/
import Dossier.Proofs.Repository.Course

namespace Dossier.Customer

open Repository

variable {config : Config} {c : Customer} {id : Uuid} {row : Row} {s t : State}

/-! ## Changes -/

/-- The change of an operation leaves every active customer stored as the same one. -/
theorem Change.keeps {given : List Customer} {dismissed : Option Uuid} (hs : (repository config).Sound s.store)
    (h : Change config given dismissed s t)
    (hr : row ∈ s.store.rows (Stored.collection Customer)) (hc : ofValue? row.doc = some c) (ha : c.active = true)
    (hd : dismissed ≠ some row.id) : ∃ kept ∈ t.store.rows (Stored.collection Customer), kept.id = row.id ∧
      ∃ d, ofValue? kept.doc = some d ∧ SameIdentity c d := by
  cases h with
  | vacates hv => exact ⟨row, hv.spares hs.wf hr hc ha hd, rfl, c, hc, .refl c⟩
  | creates ctx hg ho hv hsl hi hn =>
    have hleft := hv.spares hs.wf hr hc ha hd
    rw [← hi.rows_eq hsl] at hleft
    exact ⟨row, Store.mem_addRows hleft, rfl, c, hc, .refl c⟩
  | @rewrites existing updated left old ctx hv hold he hu =>
    have hleft := hv.spares hs.wf hr hc ha hd
    by_cases hid : row.id = old.id
    · -- the customer itself gets a new version
      rw [(hs.wf _).row_ext hr hold hid, he] at hc
      cases hc
      exact ⟨_, Store.mem_putRow_self hleft hid, rfl, _, ofValue?_toValue _, hu.trans (sameIdentity_stamp ctx updated)⟩
    · exact ⟨row, Store.mem_putRow_of_ne hleft hid, rfl, c, hc, .refl c⟩
  | @sets u names values left filter hv hl =>
    have hleft := hv.spares hs.wf hr hc ha hd
    refine ⟨{ row with doc := Store.fieldsSet filter values row }, ?_, rfl, ?_⟩
    · change _ ∈ (left.reviseRows _ _).rows _
      rw [Store.rows_reviseRows]
      exact List.mem_map_of_mem hleft
    · unfold Store.fieldsSet
      dsimp only
      split
      · exact ⟨_, ofValue?_withFields hc hl, sameIdentity_overlay names u c⟩
      · exact ⟨c, hc, .refl c⟩

theorem Course.keeps {given : List Customer} {dismissed : Option Uuid} (hs : (repository config).Sound s.store)
    (h : Course config given dismissed s t)
    (hr : row ∈ s.store.rows (Stored.collection Customer)) (hc : ofValue? row.doc = some c) (ha : c.active = true)
    (hd : dismissed ≠ some row.id) : ∃ kept ∈ t.store.rows (Stored.collection Customer), kept.id = row.id ∧
      ∃ d, ofValue? kept.doc = some d ∧ SameIdentity c d := by
  obtain ⟨v, records, hchange, hrec⟩ := h
  obtain ⟨kept, hk, hid⟩ := hchange.keeps hs hr hc ha hd
  exact ⟨kept, hrec.mem_rows hk, hid⟩

/-! ## Operations -/

/-- An operation on the stored customers; an import is one operation for each row. -/
inductive Operation where
  | write (w : Write Customer) (ctx : AuditContext)
  | importRow (e : Customer) (ctx : AuditContext) (force : Bool)
  | patchMany (filter : Expr) (requested : Customer) (properties : List String)
  | softDelete (id : Uuid) (ctx : AuditContext)
  | delete (id : Uuid) (ctx : AuditContext)

namespace Operation

/-- The state that an operation leaves, whether it succeeds or fails. -/
def after (config : Config) (s : State) : Operation → State
  | write w ctx => (w.run (repository config) ctx).leaves s
  | importRow e ctx force => ((repository config).importRow ctx force e).leaves s
  | patchMany filter requested properties => ((repository config).patchMany filter requested properties).leaves s
  | softDelete id ctx => ((repository config).softDeleteById id ctx).leaves s
  | delete id ctx => ((repository config).deleteById id ctx).leaves s

/-- The identifiers that an operation names for new customers. -/
def named : Operation → List Uuid
  | write w ctx => (Call.write w ctx).named
  | importRow e _ _ => e.id.toList
  | _ => []

/-- The customers that an operation may create. -/
def given : Operation → List Customer
  | write w ctx => (Call.write w ctx).given
  | importRow e _ _ => [e]
  | _ => []

/-- The customer whose removal an operation asks for. -/
def dismissed : Operation → Option Uuid
  | delete id _ => some id
  | _ => none

theorem course {o : Operation} (hdef : config.UsesDefaultFields) (hs : (repository config).Sound s.store)
    (hf : Fresh o.named s (o.after config s)) : Course config o.given o.dismissed s (o.after config s) := by
  cases o with
  | write w ctx => exact write_course hdef hs hf
  | importRow e ctx force => exact importRow_course hdef hs (List.Subset.refl _) hf
  | patchMany filter requested properties => exact patchMany_course hs
  | softDelete id ctx => exact softDelete_course hdef hs hf
  | delete id ctx => exact delete_course hs hf

theorem sound {o : Operation} (hs : (repository config).Sound s.store) (hf : Fresh o.named s (o.after config s)) :
    (repository config).Sound (o.after config s).store := by
  have heff : Effects (repository config) (.free o.named) s (o.after config s) := by
    cases o with
    | write w ctx =>
      rcases w.save_or_patch (repository config) ctx with ⟨e, rfl⟩ | ⟨-, find, requested, hfind, hrun⟩
      · exact createOrOverwrite_effects hs.wf trivial (List.Subset.refl _)
      · unfold after
        dsimp only
        rw [hrun]
        exact patch_effects hfind hs.wf trivial
    | importRow e ctx force => exact importRow_effects hs.wf trivial (List.Subset.refl _)
    | patchMany filter requested properties => exact patchMany_effects hs.wf trivial trivial
    | softDelete id ctx => exact softDeleteById_effects hs.wf
    | delete id ctx => exact deleteById_effects
  exact heff.sound idKey_not_registered hf.distinct hs

end Operation

/-- Every active customer is still stored after every operation, under its key and with its identity, unless the
operation is its deletion. -/
theorem identity_kept {allowed : Call Customer → Prop} (hdef : config.UsesDefaultFields)
    (h : Reachable (repository config) allowed s) (o : Operation) (hf : Fresh o.named s (o.after config s))
    (hg : (repository config).entities.get? id s.store = .ok (some c)) (ha : c.active = true)
    (hd : ∀ ctx, o ≠ .delete id ctx) :
    ∃ d, (repository config).entities.get? id (o.after config s).store = .ok (some d) ∧ SameIdentity c d := by
  have hs := h.sound idKey_not_registered
  obtain ⟨row, hr, rfl, hc⟩ := DocumentSet.get?_some hs.wf hg
  have hdismissed : o.dismissed ≠ some row.id := by
    cases o with
    | delete other ctx =>
      intro he
      cases he
      exact hd ctx rfl
    | _ => exact nofun
  obtain ⟨kept, hk, hid, d, hread, hsame⟩ := (Operation.course hdef hs hf).keeps hs hr hc ha hdismissed
  refine ⟨d, DocumentSet.get?_of_doc (((Operation.sound hs hf).wf _).get?_eq_some_iff.2 ⟨kept, hk, hid, rfl⟩) ?_, hsame⟩
  exact hread

/-- The state in which Ann has been created. -/
def annStored : State := afterCalls { slugPrefix := "U" } [.write (.save ann) morning]

/-- Ann is overwritten by a version that claims another slug and another creation. -/
def takeOver : Operation :=
  .write (.save { bob with id := some (.ofNat 1), slug := some "X9", sequence := some 9, createdAt := some 5,
                           createdBy := some "eve" }) morning

theorem identity_of_takeOver : ∃ d,
    (repository { slugPrefix := "U" }).entities.get? (.ofNat 1) (takeOver.after { slugPrefix := "U" } annStored).store =
      .ok (some d) ∧
    d.slug = some "U1" ∧ d.sequence = some 1 ∧ d.createdAt = some 1000 ∧ d.createdBy = some "alice" := by
  have hann : ((repository { slugPrefix := "U" }).entities.get? (.ofNat 1) annStored.store).toOption.join.map
      (fun c => (c.active, c.slug, c.sequence, c.createdAt, c.createdBy)) =
    some (true, some "U1", some 1, some 1000, some "alice") := by decide +kernel
  have hreach : Reachable (repository { slugPrefix := "U" }) (fun _ => True) annStored :=
    reachable_afterCalls (fun _ _ => trivial) (by decide +kernel)
  have hf : Fresh takeOver.named annStored (takeOver.after { slugPrefix := "U" } annStored) :=
    by decide +kernel
  have hd : ∀ ctx, takeOver ≠ .delete (.ofNat 1) ctx := by
    intro ctx h
    cases h
  obtain ⟨c, hc, hfacts⟩ := Option.map_eq_some_iff.1 hann
  simp only [Prod.mk.injEq] at hfacts
  obtain ⟨ha, hslug, hseq, hat, hby⟩ := hfacts
  cases hg : (repository { slugPrefix := "U" }).entities.get? (.ofNat 1) annStored.store with
  | error fault =>
    rw [hg] at hc
    cases hc
  | ok found =>
    rw [hg] at hc
    have hsome : found = some c := Option.join_eq_some_iff.1 hc |> Option.some.inj
    rw [hsome] at hg
    obtain ⟨d, hd, hsame⟩ := identity_kept ⟨rfl, rfl, rfl, rfl, rfl⟩ hreach takeOver hf hg ha hd
    exact ⟨d, hd, hsame.slug ▸ hslug, hsame.sequence ▸ hseq, hsame.createdAt ▸ hat, hsame.createdBy ▸ hby⟩

end Dossier.Customer
