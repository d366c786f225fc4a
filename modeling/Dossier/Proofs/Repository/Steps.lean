/-
Operations step by step. Whatever their outcome, operations take the state that they find to the one
that they leave by small steps: identifiers are drawn, the collection of entities or a counter changes,
records are logged. A relation between states that these steps build up is one that operations build up.
-/
import Dossier.Proofs.Repository.Import
import Dossier.Proofs.Store.Call
import Dossier.Repository.Delete
import Dossier.Repository.Import
import Dossier.Repository.Patch

namespace Dossier

/-! ## Actions -/

/-- Whatever the outcome of an action, the state that it leaves stands in a relation to the one that it finds. -/
def Action.Moves {α : Type} (R : State → State → Prop) (x : Action α) : Prop := ∀ s, R s (x.leaves s)

namespace Action

variable {α β : Type} {R : State → State → Prop}

theorem Moves.bind (trans : ∀ ⦃s u t⦄, R s u → R u t → R s t) {x : Action α} {f : α → Action β} (hx : x.Moves R)
    (hf : ∀ a, (f a).Moves R) : (x >>= f).Moves R := by
  intro s
  have hs := hx s
  rw [leaves_bind]
  cases h : x s with
  | ok a u =>
    rw [leaves_ok h] at hs
    exact trans hs (hf a u)
  | error fault t =>
    rw [leaves_error h] at hs
    exact hs

theorem Moves.mapM (refl : ∀ s, R s s) (trans : ∀ ⦃s u t⦄, R s u → R u t → R s t) {f : α → Action β}
    (hf : ∀ a, (f a).Moves R) : ∀ as : List α, (as.mapM f).Moves R
  | [] => refl
  | a :: as => by
    rw [List.mapM_cons]
    exact (hf a).bind trans fun _ => (Moves.mapM refl trans hf as).bind trans fun _ => refl

end Action

namespace Repository

variable {E : Type} [Entity E]

/-! ## Relations that steps build up -/

/-- A relation between states that the steps of operations build up when they log such records only. -/
structure BuiltBySteps (r : Repository E) (loggable : ChangeRecord → Prop) (R : State → State → Prop) : Prop where
  refl (s : State) : R s s
  trans ⦃s u t : State⦄ (h : R s u) (h' : R u t) : R s t
  draw (s : State) (n : Nat) : R s (s.drawing n)
  change (s : State) (store : Store)
    (h : ∀ name, name ≠ Stored.collection E → store.collection name = s.store.collection name) : R s (s.withStore store)
  log {s t : State} {records : List ChangeRecord} (h : ∀ record ∈ records, loggable record)
    (hr : r.Recorded records s t) : R s t

namespace BuiltBySteps

variable {α β : Type} {r : Repository E} {loggable other : ChangeRecord → Prop} {ctx : AuditContext}
  {R : State → State → Prop}

theorem mono (h : ∀ record, other record → loggable record) (hR : r.BuiltBySteps loggable R) :
    r.BuiltBySteps other R :=
  { hR with log := fun ho hr => hR.log (fun record hm => h record (ho record hm)) hr }

section Steps

variable (hR : r.BuiltBySteps loggable R)

include hR

theorem pure (a : α) : (Pure.pure a : Action α).Moves R := hR.refl

theorem throw (fault : Fault) : (MonadExcept.throw fault : Action α).Moves R := hR.refl

theorem ofExcept (x : Except Fault α) : (Action.ofExcept x).Moves R := by
  intro s
  unfold Action.leaves Action.ofExcept
  cases x <;> exact hR.refl s

theorem read (f : Store → Except Fault α) : (Action.read f).Moves R := by
  intro s
  unfold Action.leaves Action.read
  cases f s.store <;> exact hR.refl s

theorem freshId : Action.freshId.Moves R := fun s => hR.draw s 1

theorem bind {x : Action α} {f : α → Action β} (hx : x.Moves R) (hf : ∀ a, (f a).Moves R) : (x >>= f).Moves R :=
  hx.bind hR.trans hf

omit hR in
theorem ite {c : Prop} [Decidable c] {x y : Action α} (hx : x.Moves R) (hy : y.Moves R) :
    (if c then x else y).Moves R := by
  split
  · exact hx
  · exact hy

/-- A change of the store that is a call on the collection of entities or on a counter. -/
theorem perform {f : StoreChange α} (call : StoreCall) {reply : α → Reply}
    (hf : ∀ store, Store.perform call store = Store.outcome reply (f store))
    (hc : ∀ name, call.target? = some name → name = Stored.collection E) : (Action.change f).Moves R := by
  intro s
  have hleft : (Action.change f).leaves s = s.withStore (Store.after call s.store) := by
    unfold Action.leaves Action.change Store.after
    rw [hf]
    cases f s.store <;> rfl
  rw [hleft]
  exact hR.change s _ fun name hn => Store.collection_of_lookup_eq (Store.lookup_after fun ht => hn (hc name ht))

theorem reserve (counter : String) (increment : Int64) :
    (Action.change (Store.nextInSequence counter increment)).Moves R := by
  unfold Store.nextInSequence
  split
  · exact hR.refl
  · exact hR.perform (.advance counter increment) (fun _ => rfl) nofun

/-! ## Parts of operations -/

theorem insert (es : List E) : ((DocumentSet.own E).insert es).Moves R :=
  hR.bind (hR.ofExcept _) fun docs =>
    hR.perform (.insert docs (Stored.collection E)) (fun _ => rfl) fun _ ht => (Option.some.inj ht).symm

theorem update (es : List E) : ((DocumentSet.own E).update es).Moves R :=
  hR.bind (hR.ofExcept _) fun docs =>
    hR.perform (.update docs (Stored.collection E)) (fun _ => rfl) fun _ ht => (Option.some.inj ht).symm

theorem delete (ids : List Uuid) : ((DocumentSet.own E).delete ids).Moves R :=
  hR.perform (.delete ids (Stored.collection E)) (fun _ => rfl) fun _ ht => (Option.some.inj ht).symm

theorem updateFields (filter : Expr) (fields : Document) : ((DocumentSet.own E).updateFields filter fields).Moves R :=
  hR.perform (.updateFields filter fields (Stored.collection E)) (fun _ => rfl) fun _ ht =>
    (Option.some.inj ht).symm

theorem record {records : List ChangeRecord} (h : ∀ record ∈ records, loggable record) :
    (r.record records).Moves R := by
  intro s
  cases hx : r.record records s with
  | ok u t =>
    rw [Action.leaves_ok hx]
    exact hR.log h (record_ok hx)
  | error fault t =>
    rw [Action.leaves_error hx, (record_error hx).left]
    exact hR.draw s records.length

theorem recordIfActive (e : E) {records : List ChangeRecord} (h : ∀ record ∈ records, loggable record) :
    (r.recordIfActive e records).Moves R :=
  ite (hR.record h) (hR.pure _)

theorem resolveDuplicate (e : E) (own : Option Uuid) : (r.resolveDuplicate e own).Moves R := by
  unfold Repository.resolveDuplicate
  cases r.duplicateFilter? e own with
  | none => exact hR.pure _
  | some filter =>
    refine hR.bind (hR.read _) fun found => ?_
    cases found with
    | none => exact hR.pure _
    | some stale => exact hR.bind (hR.ofExcept _) fun id => ite (hR.throw _) (hR.delete [id])

theorem assignSlug (e : E) : (r.assignSlug e).Moves R := by
  unfold Repository.assignSlug
  cases r.config.slugPrefix with
  | none => exact hR.pure _
  | some stem => exact ite (hR.bind (hR.reserve _ _) fun _ => hR.pure _) (hR.pure _)

theorem withIdentifier (e : E) : (withIdentifier e).Moves R := by
  unfold Repository.withIdentifier
  cases Stored.id? e with
  | some id => exact hR.pure _
  | none => exact hR.bind hR.freshId fun _ => hR.pure _

theorem storedVersion? (e : E) : (r.storedVersion? e).Moves R := by
  unfold Repository.storedVersion?
  cases Stored.id? e with
  | some id => exact hR.read _
  | none => exact hR.pure _

theorem planUnstored (e : E) : (r.planUnstored e).Moves R := by
  unfold Repository.planUnstored
  cases Entity.duplicateFilter? e with
  | none => exact hR.pure _
  | some filter =>
    refine hR.bind (hR.read _) fun found => ?_
    cases found <;> exact hR.pure _

theorem planImport (e : E) : (r.planImport e).Moves R := by
  refine hR.bind (hR.storedVersion? e) fun found => ?_
  cases Stored.id? e with
  | none => exact hR.planUnstored e
  | some id =>
    cases found with
    | none => exact hR.planUnstored e
    | some existing => exact hR.pure _

theorem patchMany (filter : Expr) (requested : E) (properties : List String) :
    (r.patchMany filter requested properties).Moves R :=
  hR.bind (hR.ofExcept _) fun _ => hR.bind (hR.ofExcept _) fun _ => hR.updateFields _ _

theorem assignSlugs (es : List E) : (r.assignSlugs es).Moves R := by
  unfold Repository.assignSlugs
  cases r.config.slugPrefix with
  | none => exact hR.pure _
  | some stem => exact ite (hR.pure _) (hR.bind (hR.reserve _ _) fun _ => hR.pure _)

end Steps

/-! ## Operations -/

theorem changedAt_updateRecords (r : Repository E) (id : Uuid) (slug : Option String) (changes : List PropertyChange)
    (ctx : AuditContext) : ∀ record ∈ r.updateRecords id slug changes ctx, record.changedAt = ctx.timestamp := by
  intro record hr
  obtain ⟨change, -, rfl⟩ := List.mem_map.1 hr
  rfl

variable (hR : r.BuiltBySteps (·.changedAt = ctx.timestamp) R)

include hR

theorem createNew (e : E) : (r.createNew e ctx).Moves R :=
  hR.bind (hR.resolveDuplicate e _) fun _ => hR.bind (hR.assignSlug e) fun _ => hR.bind (hR.withIdentifier _) fun _ =>
    hR.bind (hR.insert _) fun _ => hR.bind (hR.recordIfActive _ (List.forall_mem_singleton.2 rfl)) fun _ => hR.pure _

theorem overwrite (existing incoming : E) : (r.overwrite existing incoming ctx).Moves R :=
  hR.bind (hR.ofExcept _) fun _ => hR.bind (hR.ofExcept _) fun id => hR.bind (hR.ofExcept _) fun _ =>
    hR.bind (hR.resolveDuplicate _ _) fun _ => hR.bind (hR.ofExcept _) fun changes =>
      ite (hR.pure _) <| hR.bind (hR.update _) fun _ =>
        hR.bind (hR.recordIfActive _ (changedAt_updateRecords r id _ changes ctx)) fun _ => hR.pure _

theorem createOrOverwrite (e : E) : (r.createOrOverwrite e ctx).Moves R := by
  refine hR.bind (hR.storedVersion? e) fun found => ?_
  cases found with
  | some existing => exact hR.overwrite existing e
  | none => exact hR.bind (hR.ofExcept _) fun _ => hR.createNew e

theorem importOver (existing incoming : E) (force : Bool) : (r.importOver existing incoming ctx force).Moves R :=
  hR.bind (hR.ofExcept _) fun id => hR.bind (hR.ofExcept _) fun _ => hR.bind (hR.ofExcept _) fun changes =>
    ite (hR.pure _) <| hR.bind (hR.resolveDuplicate _ _) fun _ => hR.bind (hR.update _) fun _ =>
      hR.bind (hR.recordIfActive _ (changedAt_updateRecords r id _ changes ctx)) fun _ => hR.pure _

theorem importRow (force : Bool) (e : E) : (r.importRow ctx force e).Moves R := by
  refine hR.bind (hR.planImport e) fun plan => ?_
  cases plan with
  | create e => exact hR.bind (hR.createNew e) fun _ => hR.pure _
  | replace stale e => exact hR.bind (hR.delete _) fun _ => hR.bind (hR.createNew e) fun _ => hR.pure _
  | overwrite existing incoming => exact hR.importOver existing incoming force

theorem bulkImport (es : List E) (force : Bool) : (r.bulkImport es ctx force).Moves R := by
  -- the source that a row is recorded with is not its time
  have hsource : r.BuiltBySteps (·.changedAt = (ctx.withSource .imported).timestamp) R := hR
  exact hR.bind (hR.ofExcept _) fun _ => .mapM hR.refl hR.trans (hsource.importRow force) es

theorem applyPatch (existing requested : E) (properties : List String) :
    (r.applyPatch existing requested properties ctx).Moves R :=
  hR.bind (hR.ofExcept _) fun id => hR.bind (hR.ofExcept _) fun _ => hR.bind (hR.ofExcept _) fun _ =>
    hR.bind (hR.resolveDuplicate _ _) fun _ => hR.bind (hR.ofExcept _) fun changes =>
      ite (hR.pure _) <| hR.bind (hR.ofExcept _) fun _ => hR.bind (hR.updateFields _ _) fun _ =>
        hR.bind (hR.recordIfActive _ (changedAt_updateRecords r id _ changes ctx)) fun _ => hR.pure _

theorem patch {find : Action E} (hfind : find.Moves R) (requested : E) (properties : List String) :
    (r.patch find requested properties ctx).Moves R :=
  hR.bind (hR.ofExcept _) fun _ => hR.bind hfind fun existing => hR.applyPatch existing requested properties

theorem softDeleteById (id : Uuid) : (r.softDeleteById id ctx).Moves R :=
  hR.bind (hR.read _) fun _ => ite (hR.pure _) <| hR.bind (hR.updateFields _ _) fun _ =>
    hR.bind (hR.record (List.forall_mem_singleton.2 rfl)) fun _ => hR.read _

theorem deleteById (id : Uuid) : (r.deleteById id ctx).Moves R :=
  hR.bind (hR.read _) fun _ => hR.bind (hR.delete _) fun _ =>
    hR.recordIfActive _ (List.forall_mem_singleton.2 rfl)

end BuiltBySteps

end Repository

end Dossier
