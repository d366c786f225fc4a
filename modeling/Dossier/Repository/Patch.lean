/-
Patches: named properties of a stored entity are set to those of a requested one.
-/
import Dossier.Repository.Duplicate

namespace Dossier.Repository

variable {E : Type} [Entity E]

/-- Sets properties of a stored entity, writes those that change, and records the changes. -/
def applyPatch (r : Repository E) (existing requested : E) (properties : List String)
    (ctx : AuditContext) : Action E := do
  let id ← Action.ofExcept (Stored.requireId "patch" existing)
  let updated ← Action.ofExcept (r.registry.copyAll properties requested existing)
  Action.ofExcept (Entity.validate updated)
  r.resolveDuplicate updated (some id)
  let changes ← Action.ofExcept (r.changes existing updated (some properties))
  if changes.isEmpty then return existing
  let values ← Action.ofExcept (r.registry.readAll updated (changes.map (·.property)))
  let _ ← r.entities.updateFields (r.byId id) values
  r.recordIfActive updated (r.updateRecords id (Entity.slug? updated) changes ctx)
  return updated

/-- Patches the entity that `find` yields. The names are checked first. -/
def patch (r : Repository E) (find : Action E) (requested : E) (properties : List String)
    (ctx : AuditContext) : Action E := do
  Action.ofExcept (r.registry.validate properties)
  let existing ← find
  r.applyPatch existing requested properties ctx

def patchById (r : Repository E) (id : Uuid) (requested : E) (properties : List String)
    (ctx : AuditContext) : Action E :=
  r.patch (r.getById id) requested properties ctx

def patchBySlug (r : Repository E) (slug : String) (requested : E) (properties : List String)
    (ctx : AuditContext) : Action E :=
  r.patch (r.getBySlug slug) requested properties ctx

def patchByFilter (r : Repository E) (filter : Expr) (requested : E) (properties : List String)
    (ctx : AuditContext) : Action E :=
  r.patch (r.getByFilter filter) requested properties ctx

/-- Sets properties of all entities that satisfy a predicate, without checks and records, and
counts those. -/
def patchMany (r : Repository E) (filter : Expr) (requested : E) (properties : List String) :
    Action Nat := do
  Action.ofExcept (r.registry.validate properties)
  let values ← Action.ofExcept (r.registry.readAll requested properties)
  r.entities.updateFields filter values

end Dossier.Repository
