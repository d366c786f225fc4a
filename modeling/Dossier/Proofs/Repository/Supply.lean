/-
The supply of identifiers only moves forward: whatever an operation does and wherever it stops, it
has taken identifiers from the supply in order and put none back.
-/
import Dossier.Proofs.Repository.Sound
import Dossier.Proofs.Repository.Steps

namespace Dossier

/-- An action that takes identifiers in order and puts none back. -/
def Action.Advances {α : Type} (x : Action α) : Prop := ∀ s : State, ∃ n, (x.leaves s).ids = s.ids.advance n

theorem IdSupply.advance_trans {ids ids' ids'' : IdSupply} (h : ∃ m, ids' = ids.advance m)
    (h' : ∃ n, ids'' = ids'.advance n) : ∃ k, ids'' = ids.advance k := by
  obtain ⟨m, rfl⟩ := h
  obtain ⟨n, rfl⟩ := h'
  exact ⟨m + n, ids.advance_advance m n⟩

theorem Action.Advances.mapM {α β : Type} {f : α → Action β} (hf : ∀ a, (f a).Advances) (as : List α) :
    (as.mapM f).Advances :=
  Moves.mapM (R := fun s t => ∃ n, t.ids = s.ids.advance n) (fun _ => ⟨0, rfl⟩)
    (fun _ _ _ => IdSupply.advance_trans) hf as

namespace Repository

variable {E : Type} [Entity E] (r : Repository E)

/-- The steps of operations move the supply forward. -/
theorem supply_builtBySteps (loggable : ChangeRecord → Prop) :
    r.BuiltBySteps loggable fun s t => ∃ n, t.ids = s.ids.advance n where
  refl _ := ⟨0, rfl⟩
  trans _ _ _ := IdSupply.advance_trans
  draw _ n := ⟨n, rfl⟩
  change _ _ _ := ⟨0, rfl⟩
  log := by
    intro s t records _ hr
    rw [hr.left]
    unfold recorded
    split
    · exact ⟨0, rfl⟩
    · exact ⟨records.length, rfl⟩

theorem advances_importRow (e : E) (ctx : AuditContext) (force : Bool) : (r.importRow ctx force e).Advances :=
  (supply_builtBySteps r _).importRow force e

end Repository

end Dossier
