/-
Deletion: for good, or by taking the activity flag away.
-/
import Dossier.Repository.Basic

namespace Dossier.Repository

variable {E : Type} [Entity E]

/-- The change that a soft deletion makes to the activity field. -/
def deactivation (activeField : String) : PropertyChange :=
  ⟨activeField, some (toString true), some (toString false)⟩

/-- Marks an entity inactive and records it as a deletion; an inactive one is left alone. -/
def softDeleteById (r : Repository E) (id : Uuid) (ctx : AuditContext) : Action E := do
  let existing ← r.getById id
  if !Entity.isActive existing then return existing
  let field := r.config.activeField
  let _ ← r.entities.updateFields (r.byId id) [(field, .boolean false)]
  r.record [.ofProperty (Stored.collection E) id (Entity.slug? existing) .delete
    (deactivation field) ctx]
  r.getById id

/-- Removes an entity and records the deletion of an active one. -/
def deleteById (r : Repository E) (id : Uuid) (ctx : AuditContext) : Action Unit := do
  let existing ← r.getById id
  r.entities.delete [id]
  r.recordIfActive existing
    [.ofEntity (Stored.collection E) id (Entity.slug? existing) .delete ctx]

end Dossier.Repository
