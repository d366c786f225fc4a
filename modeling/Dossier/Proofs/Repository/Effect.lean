/-
The effects that operations are made of. Whatever an operation does, and wherever it stops, the
state it leaves is reached by a few effects, each of which comes with what was checked before it.
Invariants of all operations are proved for one effect at a time.
-/
import Dossier.Proofs.Repository.Import
import Dossier.Proofs.Repository.Patch
import Mathlib.Logic.Relation

namespace Dossier

/-- What a call has to do with: the identifiers that it names for new entities, the entities that it
hands in, and whether it patches many. -/
structure Scope (E : Type) where
  named : List Uuid
  given : E → Prop
  many : Prop

/-- The scope of anything that names no other identifiers. -/
def Scope.free {E : Type} (named : List Uuid) : Scope E := ⟨named, fun _ => True, True⟩

namespace Repository

variable {E : Type} [Entity E] {r : Repository E} {e c existing requested : E} {properties : List String}
  {ctx : AuditContext} {scope : Scope E} {s t u : State}

/-- One effect of a call. -/
inductive Effect (r : Repository E) (scope : Scope E) (s : State) : State → Prop
  | draws (n : Nat) : Effect r scope s (s.drawing n)
  | counts (counters : List (String × Int64)) : Effect r scope s (s.withStore { s.store with counters })
  | drops (id : Uuid) : Effect r scope s (s.withStore (s.store.dropRow (Stored.collection E) id))
  /-- A new entity is added after duplicates have made way. -/
  | creates {e c : E} {cleared : Store} {id : Uuid} {n : Nat} (counters : List (String × Int64))
      (hg : scope.given e) (hc : Cleared r e (Stored.id? e) s.store cleared)
      (hd : Dressed e c) (hi : Stored.id? c = some id)
      (ho : ∀ own, Stored.id? e = some own → own = id)
      (hn : (cleared.collection (Stored.collection E)).contains id = false)
      (hid : id ∈ scope.named ∧ n = 0 ∨ id = s.ids.stream s.ids.drawn ∧ n = 1) :
      Effect r scope s ((s.drawing n).withStore
        (Store.addRows { cleared with counters } (Stored.collection E) [(id, Stored.toValue c)]))
  /-- A stored entity gets a new version after duplicates have made way. -/
  | replaces {existing incoming updated : E} {own id : Uuid} {cleared : Store} (ctx : AuditContext)
      (hg : scope.given incoming) (ho : Stored.id? existing = some own)
      (hv : r.overwritten existing incoming = .ok updated ∨ r.merged existing incoming = .ok updated)
      (hc : Cleared r updated (some own) s.store cleared) (hi : Stored.id? updated = some id) :
      Effect r scope s (s.withStore
        (cleared.putRow (Stored.collection E) id (Stored.toValue (Entity.stamp ctx false updated))))
  /-- Properties of a stored entity are set after duplicates have made way. -/
  | patches {existing requested updated : E} {properties : List String} {own : Uuid} {cleared : Store}
      {changes : List PropertyChange} {values : Document} {row : Row}
      (hg : scope.given requested) (hr : row ∈ s.store.rows (Stored.collection E))
      (he : Stored.ofValue? row.doc = some existing)
      (hv : r.PatchedVersion existing requested properties own updated)
      (hc : Cleared r updated (some own) s.store cleared)
      (hd : r.changes existing updated (some properties) = .ok changes)
      (hl : r.registry.readAll updated (changes.map (·.property)) = .ok values) :
      Effect r scope s (s.withStore (r.patchRow own values cleared))
  | patchesMany {requested : E} {properties : List String} {values : Document} (filter : Expr)
      (hm : scope.many) (hg : scope.given requested) (hl : r.registry.readAll requested properties = .ok values) :
      Effect r scope s (s.withStore (s.store.reviseRows (Stored.collection E) (Store.fieldsSet filter values)))
  | deactivates {id : Uuid} {existing : E} (hg : r.entities.get? id s.store = .ok (some existing)) :
      Effect r scope s (s.withStore (r.deactivateRow id s.store))
  | logs {records : List ChangeRecord} {t : State} (hr : r.Recorded records s t) : Effect r scope s t

/-- Any number of effects, one after the other. -/
abbrev Effects (r : Repository E) (scope : Scope E) : State → State → Prop :=
  Relation.ReflTransGen (Effect r scope)

theorem Effects.ofCleared {own : Option Uuid} {cleared : Store} (h : Cleared r e own s.store cleared) :
    Effects r scope s (s.withStore cleared) := by
  rcases h.eq_or_drop with rfl | ⟨id, rfl⟩
  · exact .refl
  · exact .single (.drops id)

theorem Effects.ofRefused {records : List ChangeRecord} (h : r.Refused records s t) : Effects r scope s t := by
  rw [h.left]; exact .single (.draws _)

/-! ## Creating -/

theorem Slugged.frame (h : Slugged r e s c t) : ∃ counters, t = s.withStore { s.store with counters } := by
  cases h with
  | kept h => exact ⟨s.store.counters, rfl⟩
  | given hp hn hs =>
    obtain ⟨-, -, rfl⟩ := Store.nextInSequence_ok hs
    exact ⟨_, rfl⟩

theorem Slugged.id_eq [LawfulEntity E] (h : Slugged r e s c t) : Stored.id? c = Stored.id? e := by
  cases h with
  | kept h => rfl
  | given hp hn hs => exact LawfulEntity.id_withSlug ..

theorem Identified.frame {id : Uuid} (h : Identified e s c id t) : ∃ n, t = s.drawing n ∧
    (Stored.id? e = some id ∧ n = 0 ∨ Stored.id? e = none ∧ id = s.ids.stream s.ids.drawn ∧ n = 1) := by
  cases h with
  | kept h => exact ⟨0, rfl, Or.inl ⟨h, rfl⟩⟩
  | given h => exact ⟨1, rfl, Or.inr ⟨h, rfl, rfl⟩⟩

theorem Identified.store_eq {id : Uuid} (h : Identified e s c id t) : t.store = s.store := by
  obtain ⟨n, rfl, -⟩ := h.frame
  rfl

/-- Giving a slug and an identifier touches no rows. -/
theorem Identified.rows_eq {cleared : Store} {slugged identified : E} {id : Uuid} {v : State}
    (hi : Identified slugged u identified id v) (hs : Slugged r e (s.withStore cleared) slugged u) (name : String) :
    v.store.rows name = cleared.rows name := by
  obtain ⟨counters, rfl⟩ := hs.frame
  rw [hi.store_eq]
  rfl

theorem Effects.ofIdentifying {cleared : Store} {slugged identified : E} {id : Uuid} {v : State}
    (hc : Cleared r e (Stored.id? e) s.store cleared) (hs : Slugged r e (s.withStore cleared) slugged u)
    (hi : Identified slugged u identified id v) : Effects r scope s v := by
  obtain ⟨counters, rfl⟩ := hs.frame
  obtain ⟨n, rfl, -⟩ := hi.frame
  exact ((ofCleared hc).tail (.counts counters)).tail (.draws n)

section
variable [LawfulEntity E]

/-- The effect of adding an entity that has got a slug and an identifier. -/
theorem Effect.ofIdentified (ctx : AuditContext) {cleared : Store} {slugged identified : E} {id : Uuid} {v : State}
    (hc : Cleared r e (Stored.id? e) s.store cleared) (hs : Slugged r e (s.withStore cleared) slugged u)
    (hi : Identified slugged u identified id v)
    (hn : (v.store.collection (Stored.collection E)).contains id = false) (hg : scope.given e)
    (hm : id ∈ (Stored.id? e).toList → id ∈ scope.named) :
    Effect r scope s (v.withStore (v.store.addRows (Stored.collection E)
      [(id, Stored.toValue (Entity.stamp ctx true identified))])) := by
  obtain ⟨counters, rfl⟩ := hs.frame
  obtain ⟨n, rfl, hid⟩ := hi.frame
  rw [hs.id_eq] at hid
  refine .creates (e := e) counters hg hc (.stamp _ _ (hs.dressed.identified hi)) ?_ ?_ hn ?_
  · rw [LawfulEntity.id_stamp, hi.id_eq]
  · intro own ho
    rcases hid with ⟨he, -⟩ | ⟨he, -⟩
    · rw [ho] at he; cases he; rfl
    · rw [ho] at he; cases he
  · rcases hid with ⟨he, rfl⟩ | ⟨-, rfl, rfl⟩
    · exact Or.inl ⟨hm (by rw [he]; exact List.mem_singleton_self _), rfl⟩
    · exact Or.inr ⟨rfl, rfl⟩

theorem Created.effects (h : Created r e ctx s c t) (hg : scope.given e)
    (hm : (Stored.id? e).toList ⊆ scope.named) :
    Effects r scope s t := by
  cases h with
  | intro hc hs hi hn hr =>
    exact (Relation.ReflTransGen.single (.ofIdentified ctx hc hs hi hn hg (@hm _))).tail (.logs hr)

theorem CreateFailed.effects (h : CreateFailed r e ctx s t) (hg : scope.given e)
    (hm : (Stored.id? e).toList ⊆ scope.named) :
    Effects r scope s t := by
  cases h with
  | exhausted hc hn => exact .ofCleared hc
  | taken hc hs hi hin => exact .ofIdentifying hc hs hi
  | refused hc hs hi hn hr =>
    exact (Relation.ReflTransGen.single (.ofIdentified ctx hc hs hi hn hg (@hm _))).trans (Effects.ofRefused hr)

/-! ## New versions -/

variable {existing updated incoming : E} {own : Uuid} {cleared : Store} {changes : List PropertyChange}

theorem Written.effects (hg : scope.given incoming) (ho : Stored.id? existing = some own)
    (hv : r.overwritten existing incoming = .ok updated ∨ r.merged existing incoming = .ok updated)
    (hc : Cleared r updated (some own) s.store cleared)
    (h : Written r (Entity.stamp ctx false updated) own changes ctx (s.withStore cleared) t) :
    Effects r scope s t := by
  cases h with
  | intro hi hin hr =>
    rw [LawfulEntity.id_stamp] at hi
    exact (Relation.ReflTransGen.single (.replaces ctx hg ho hv hc hi)).tail (.logs hr)

theorem WriteFailed.effects (hg : scope.given incoming) (ho : Stored.id? existing = some own)
    (hv : r.overwritten existing incoming = .ok updated ∨ r.merged existing incoming = .ok updated)
    (hc : Cleared r updated (some own) s.store cleared)
    (h : WriteFailed r (Entity.stamp ctx false updated) own changes ctx (s.withStore cleared) t) :
    Effects r scope s t := by
  cases h with
  | missing h => exact .ofCleared hc
  | refused hi hin hr =>
    rw [LawfulEntity.id_stamp] at hi
    exact (Relation.ReflTransGen.single (.replaces ctx hg ho hv hc hi)).trans (Effects.ofRefused hr)

theorem createOrOverwrite_effects (hw : s.store.WF) (hg : scope.given e)
    (hm : (Stored.id? e).toList ⊆ scope.named) :
    Effects r scope s ((r.createOrOverwrite e ctx).leaves s) := by
  cases hx : r.createOrOverwrite e ctx s with
  | ok c t =>
    rw [Action.leaves_ok hx]
    cases createOrOverwrite_ok hw hx with
    | created hv hn h => exact h.effects hg hm
    | overwritten hi hx h =>
      cases h with
      | same hv hc hd => exact .ofCleared hc
      | changed hv hc hd hne hwr => exact hwr.effects hg hv.own_eq (Or.inl hv.version) hc
  | error fault t =>
    rw [Action.leaves_error hx]
    rcases createOrOverwrite_error hw hx with ⟨rfl, -⟩ | h
    · exact .refl
    cases h with
    | creating hv hn h => exact h.effects hg hm
    | overwriting hi hx h =>
      cases h with
      | unrendered hv hc hd => exact .ofCleared hc
      | unwritten hv hc hd hwr => exact hwr.effects hg hv.own_eq (Or.inl hv.version) hc

theorem importRow_effects {force : Bool} (hw : s.store.WF) (hg : scope.given e)
    (hm : (Stored.id? e).toList ⊆ scope.named) :
    Effects r scope s ((r.importRow ctx force e).leaves s) := by
  cases hx : r.importRow ctx force e s with
  | ok result t =>
    rw [Action.leaves_ok hx]
    cases importRow_ok hw hx with
    | created hp h => exact h.effects hg hm
    | replaced hp h => exact (h.effects hg hm).head (.drops _)
    | merged hp h =>
      cases h with
      | ignored hv hf => exact .refl
      | updated hv hne hc hwr => exact hwr.effects hg hv.own_eq (Or.inr hv.version) hc
  | error fault t =>
    rw [Action.leaves_error hx]
    rcases importRow_error hw hx with rfl | h
    · exact .refl
    cases h with
    | creating hp h => exact h.effects hg hm
    | replacing hp h =>
      rcases h with rfl | h
      · exact .single (.drops _)
      · exact (h.effects hg hm).head (.drops _)
    | merging hp h =>
      cases h with
      | unwritten hv hc hwr => exact hwr.effects hg hv.own_eq (Or.inr hv.version) hc

end

/-! ## Patches and deletions -/

theorem patch_effects {find : Action E} (hf : r.Finds find) (hw : s.store.WF) (hg : scope.given requested) :
    Effects r scope s ((r.patch find requested properties ctx).leaves s) := by
  cases hx : r.patch find requested properties ctx s with
  | ok c t =>
    rw [Action.leaves_ok hx]
    obtain ⟨existing, row, -, hr, he, h⟩ := patch_ok hf hw hx
    cases h with
    | same hv hc hd => exact .ofCleared hc
    | changed hv hc hd hne hl hrec =>
      exact (Relation.ReflTransGen.single (.patches hg hr he hv hc hd hl)).tail (.logs hrec)
  | error fault t =>
    rw [Action.leaves_error hx]
    rcases patch_error hf hw hx with rfl | ⟨existing, row, -, hr, he, h⟩
    · exact .refl
    cases h with
    | unrendered hv hc hd => exact .ofCleared hc
    | unread hv hc hd hl => exact .ofCleared hc
    | refused hv hc hd hl hrec =>
      exact (Relation.ReflTransGen.single (.patches hg hr he hv hc hd hl)).trans (Effects.ofRefused hrec)

theorem patchMany_effects {filter : Expr} (hw : s.store.WF) (hm : scope.many) (hg : scope.given requested) :
    Effects r scope s ((r.patchMany filter requested properties).leaves s) := by
  cases hx : r.patchMany filter requested properties s with
  | ok n t =>
    rw [Action.leaves_ok hx]
    obtain ⟨values, hl, rfl⟩ := patchMany_ok hw hx
    exact .single (.patchesMany filter hm hg hl)
  | error fault t =>
    rw [Action.leaves_error hx, patchMany_error hx]

theorem softDeleteById_effects {id : Uuid} (hw : s.store.WF) :
    Effects r scope s ((r.softDeleteById id ctx).leaves s) := by
  cases hx : r.softDeleteById id ctx s with
  | ok c t =>
    rw [Action.leaves_ok hx]
    cases softDeleteById_ok hw hx with
    | inactive hg ha => exact .refl
    | active hg ha hr hc => exact (Relation.ReflTransGen.single (.deactivates hg)).tail (.logs hr)
  | error fault t =>
    rw [Action.leaves_error hx]
    rcases softDeleteById_error hw hx with rfl | h
    · exact .refl
    cases h with
    | refused hg ha hr => exact (Relation.ReflTransGen.single (.deactivates hg)).trans (Effects.ofRefused hr)
    | unread hg ha hr hc => exact (Relation.ReflTransGen.single (.deactivates hg)).tail (.logs hr)

theorem deleteById_effects {id : Uuid} : Effects r scope s ((r.deleteById id ctx).leaves s) := by
  cases hx : r.deleteById id ctx s with
  | ok u t =>
    rw [Action.leaves_ok hx]
    cases deleteById_ok hx with
    | intro hg hr => exact (Relation.ReflTransGen.single (.drops id)).tail (.logs hr)
  | error fault t =>
    rw [Action.leaves_error hx]
    rcases deleteById_error hx with rfl | ⟨existing, hg, hr⟩
    · exact .refl
    · exact (Relation.ReflTransGen.single (.drops id)).trans (Effects.ofRefused hr)

end Repository

end Dossier
