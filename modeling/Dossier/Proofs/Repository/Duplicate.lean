/-
Making way for an entity. The check for duplicates looks at the first document that satisfies the
filter and at no other: it leaves the store alone or drops the row of one inactive entity.
-/
import Dossier.Proofs.Entity.Set
import Dossier.Repository.Duplicate

namespace Dossier.Repository

variable {E : Type} [Entity E] {r : Repository E} {e : E} {own : Option Uuid} {s t : State}

/-- The store that the check for duplicates leaves when it succeeds. -/
inductive Cleared (r : Repository E) (e : E) (own : Option Uuid) (store : Store) : Store → Prop
  /-- There is nothing by which the entity could be a duplicate. -/
  | unkeyed (hf : r.duplicateFilter? e own = none) : Cleared r e own store store
  | unmatched {filter : Expr} (hf : r.duplicateFilter? e own = some filter)
      (hm : r.entities.find? filter store = .ok none) : Cleared r e own store store
  | retired {filter : Expr} {stale : E} {id : Uuid} (hf : r.duplicateFilter? e own = some filter)
      (hm : r.entities.find? filter store = .ok (some stale)) (hi : Stored.id? stale = some id)
      (ha : Entity.isActive stale = false) (hc : (store.collection (Stored.collection E)).contains id = true) :
      Cleared r e own store (store.dropRow (Stored.collection E) id)

/-- Who would make way for an entity. -/
def retired? (r : Repository E) (e : E) (own : Option Uuid) (store : Store) : Option Uuid :=
  match r.duplicateFilter? e own with
  | none => none
  | some filter =>
    match r.entities.find? filter store with
    | .ok (some stale) => if Entity.isActive stale then none else Stored.id? stale
    | _ => none

/-- The store that the check leaves is known beforehand. -/
theorem Cleared.eq_elim {store cleared : Store} (h : Cleared r e own store cleared) :
    cleared = (r.retired? e own store).elim store (store.dropRow (Stored.collection E)) := by
  unfold retired?
  cases h with
  | unkeyed hf => rw [hf]; rfl
  | unmatched hf hm => rw [hf]; dsimp only; rw [hm]; rfl
  | retired hf hm hi ha hc =>
    rw [hf]
    dsimp only
    rw [hm]
    dsimp only
    rw [ha, if_neg Bool.false_ne_true, hi]
    rfl

/-- Nobody is there who would make way. -/
def Barred (r : Repository E) (e : E) (own : Option Uuid) (store : Store) : Prop :=
  ∀ gone, r.retired? e own store = some gone → (store.collection (Stored.collection E)).contains gone = false

theorem resolveDuplicate_ok {u : Unit} (h : r.resolveDuplicate e own s = .ok u t) :
    Cleared r e own s.store t.store ∧ t.ids = s.ids := by
  unfold resolveDuplicate at h
  cases hf : r.duplicateFilter? e own with
  | none =>
    rw [hf] at h
    obtain ⟨-, rfl⟩ := Action.pure_ok h
    exact ⟨.unkeyed hf, rfl⟩
  | some filter =>
    rw [hf] at h
    obtain ⟨found, hm, h⟩ := Action.bind_read_ok h
    cases found with
    | none =>
      obtain ⟨-, rfl⟩ := Action.pure_ok h
      exact ⟨.unmatched hf hm, rfl⟩
    | some stale =>
      obtain ⟨id, hi, h⟩ := Action.bind_ofExcept_ok h
      by_cases ha : Entity.isActive stale = true
      · rw [if_pos ha] at h; cases h
      · rw [if_neg ha] at h
        obtain ⟨hc, rfl⟩ := DocumentSet.delete_ok h
        exact ⟨.retired hf hm (Stored.requireId_ok hi) (by simpa using ha) hc, rfl⟩

theorem resolveDuplicate_error {fault : Fault} (h : r.resolveDuplicate e own s = .error fault t) :
    t = s ∧ r.Barred e own s.store := by
  unfold resolveDuplicate at h
  unfold Barred retired?
  cases hf : r.duplicateFilter? e own with
  | none => rw [hf] at h; cases h
  | some filter =>
    rw [hf] at h
    dsimp only
    rcases Action.bind_error h with h | ⟨found, u, hm, h⟩
    · obtain ⟨hm, rfl⟩ := Action.read_error h
      exact ⟨rfl, by rw [hm]; exact nofun⟩
    obtain ⟨hm, rfl⟩ := Action.read_ok hm
    rw [hm]
    cases found with
    | none => cases h
    | some stale =>
      dsimp only
      rcases Action.bind_ofExcept_error h with ⟨hi, rfl⟩ | ⟨id, hi, h⟩
      · refine ⟨rfl, fun gone hg => ?_⟩
        split at hg
        · cases hg
        · rw [Stored.requireId_of_id hg] at hi; cases hi
      by_cases ha : Entity.isActive stale = true
      · rw [if_pos ha] at h ⊢
        exact ⟨(Action.throw_error h).2, nofun⟩
      · rw [if_neg ha] at h ⊢
        obtain ⟨rfl, hc⟩ := DocumentSet.delete_error h
        refine ⟨rfl, fun gone hg => ?_⟩
        rw [Stored.requireId_ok hi] at hg
        cases hg
        exact hc

theorem bind_resolveDuplicate_ok {α : Type} {f : Unit → Action α} {a : α}
    (h : (r.resolveDuplicate e own >>= f) s = .ok a t) :
    ∃ cleared, Cleared r e own s.store cleared ∧ f () (s.withStore cleared) = .ok a t := by
  obtain ⟨_, u, hd, h⟩ := Action.bind_ok h
  obtain ⟨hc, hids⟩ := resolveDuplicate_ok hd
  rw [State.withStore_of_ids hids] at h
  exact ⟨u.store, hc, h⟩

theorem bind_resolveDuplicate_error {α : Type} {f : Unit → Action α} {fault : Fault}
    (h : (r.resolveDuplicate e own >>= f) s = .error fault t) : t = s ∧ r.Barred e own s.store ∨
      ∃ cleared, Cleared r e own s.store cleared ∧ f () (s.withStore cleared) = .error fault t := by
  rcases Action.bind_error h with h | ⟨_, u, hd, h⟩
  · exact Or.inl (resolveDuplicate_error h)
  obtain ⟨hc, hids⟩ := resolveDuplicate_ok hd
  rw [State.withStore_of_ids hids] at h
  exact Or.inr ⟨u.store, hc, h⟩

/-- At most one row goes. -/
theorem Cleared.eq_or_drop {store cleared : Store} (h : Cleared r e own store cleared) :
    cleared = store ∨ ∃ id, cleared = store.dropRow (Stored.collection E) id := by
  cases h with
  | unkeyed => exact Or.inl rfl
  | unmatched => exact Or.inl rfl
  | retired => exact Or.inr ⟨_, rfl⟩

theorem Cleared.mem_rows {store cleared : Store} (h : Cleared r e own store cleared) (hw : store.WF) {row : Row}
    (hr : row ∈ cleared.rows (Stored.collection E)) : row ∈ store.rows (Stored.collection E) := by
  rcases h.eq_or_drop with rfl | ⟨id, rfl⟩
  · exact hr
  · exact hw.mem_of_dropRow hr

theorem Cleared.wf {store cleared : Store} (h : Cleared r e own store cleared) (hw : store.WF) : cleared.WF := by
  rcases h.eq_or_drop with rfl | ⟨id, rfl⟩
  · exact hw
  · exact hw.dropRow _ id

theorem Cleared.contains {store cleared : Store} {name : String} {id : Uuid} (h : Cleared r e own store cleared)
    (hw : store.WF) (hc : (cleared.collection name).contains id = true) :
    (store.collection name).contains id = true := by
  rcases h.eq_or_drop with rfl | ⟨gone, rfl⟩
  · exact hc
  rw [Store.collection_dropRow] at hc
  split at hc
  · rename_i hn
    subst hn
    rw [(hw _).contains_remove, Bool.and_eq_true] at hc
    exact hc.1
  · exact hc

end Dossier.Repository
