/-
Saving an entity: as a new one, or over the stored one with the same identifier, whose identity
fields it takes over.
-/
import Dossier.Repository.Duplicate
import Dossier.Repository.Slug

namespace Dossier.Repository

variable {E : Type} [Entity E]

/-- An entity with an identifier, a fresh one if it had none, and that identifier. -/
def withIdentifier (e : E) : Action (E × Uuid) :=
  match Stored.id? e with
  | some id => pure (e, id)
  | none => do
    let id ← Action.freshId
    return (Stored.withId e id, id)

/-- Stores a new entity and records its creation. -/
def createNew (r : Repository E) (e : E) (ctx : AuditContext) : Action E := do
  r.resolveDuplicate e (Stored.id? e)
  let (slugged, _) ← r.assignSlug e
  let (identified, id) ← withIdentifier slugged
  let created := Entity.stamp ctx true identified
  r.entities.insert [created]
  r.recordIfActive created
    [.ofEntity (Stored.collection E) id (Entity.slug? created) .create ctx]
  return created

/-- An incoming document with the identity fields of the stored one. -/
def keepIdentity (identityFields : List String) (stored incoming : Document) : Document :=
  identityFields.foldl
    (fun doc field =>
      match stored.lookup field with
      | some v => Entries.insert field v doc
      | none => Entries.erase field doc)
    incoming

/-- The version that results from an overwrite: the incoming one with the stored identity. -/
def overwritten (r : Repository E) (existing incoming : E) : Except Fault E := do
  let document ← Stored.toDocument incoming
  let stored ← Stored.toDocument existing
  Stored.ofValue (.document (keepIdentity r.config.identityFields stored document))

/-- Puts a new version in the place of a stored entity and records the changes, unless there are
none. -/
def overwrite (r : Repository E) (existing incoming : E) (ctx : AuditContext) : Action E := do
  Action.ofExcept (Entity.validate incoming)
  let id ← Action.ofExcept (Stored.requireId "overwrite" existing)
  let updated ← Action.ofExcept (r.overwritten existing incoming)
  r.resolveDuplicate updated (some id)
  let changes ← Action.ofExcept (r.changes existing updated none)
  if changes.isEmpty then return existing
  let stamped := Entity.stamp ctx false updated
  r.entities.update [stamped]
  r.recordIfActive stamped (r.updateRecords id (Entity.slug? stamped) changes ctx)
  return stamped

/-- The stored entity with the identifier of an entity, if it has one that is stored. -/
def storedVersion? (r : Repository E) (e : E) : Action (Option E) :=
  match Stored.id? e with
  | some id => Action.read (r.entities.get? id)
  | none => pure none

/-- Saves an entity: over the stored one with its identifier if there is one, else as a new one. -/
def createOrOverwrite (r : Repository E) (e : E) (ctx : AuditContext) : Action E := do
  match ← r.storedVersion? e with
  | some existing => r.overwrite existing e ctx
  | none =>
    Action.ofExcept (Entity.validate e)
    r.createNew e ctx

end Dossier.Repository
