/-
Bulk import. Each row creates an entity, replaces an inactive one, or is merged into an active one.
All rows are validated first; after that rows are committed one by one up to the first that fails.
-/
import Dossier.Repository.Save

namespace Dossier

/-- What an import did with a row. -/
inductive ImportOutcome where
  | created
  | updated
  | ignored
  deriving DecidableEq

/-- What an import is going to do with a row. -/
inductive ImportPlan (E : Type) where
  | create (e : E)
  /-- The stored entity with the identifier is inactive and makes way. -/
  | replace (stale : Uuid) (e : E)
  | overwrite (existing incoming : E)

namespace Repository

variable {E : Type} [Entity E]

/-- Decides about a row: by identifier first, then by duplicates. -/
def planImport (r : Repository E) (e : E) : Action (ImportPlan E) := do
  match Stored.id? e, ← r.storedVersion? e with
  | some id, some existing =>
    return if Entity.isActive existing then .overwrite existing e else .replace id e
  | _, _ =>
    match Entity.duplicateFilter? e with
    | none => return .create e
    | some filter =>
      match ← Action.read (r.entities.find? filter) with
      | some existing =>
        return if Entity.isActive existing then .overwrite existing e else .create e
      | none => return .create e

/-- A stored document with the fields of an incoming one, except identity and null. -/
def mergeDocuments (identityFields : List String) (stored incoming : Document) : Document :=
  incoming.foldl
    (fun doc entry =>
      match entry.2 with
      | .null => doc
      | v =>
        if entry.1 == "_id" || identityFields.contains entry.1 then doc
        else Entries.insert entry.1 v doc)
    stored

/-- The version that results from an import: what the incoming one leaves empty stays. -/
def merged (r : Repository E) (existing incoming : E) : Except Fault E := do
  let stored ← Stored.toDocument existing
  let document ← Stored.toDocument incoming
  Stored.ofValue (.document (mergeDocuments r.config.identityFields stored document))

/-- Merges a row into an active entity. Without changes it is left alone, unless forced. -/
def importOver (r : Repository E) (existing incoming : E) (ctx : AuditContext) (force : Bool) :
    Action (E × ImportOutcome) := do
  let id ← Action.ofExcept (Stored.requireId "import" existing)
  let updated ← Action.ofExcept (r.merged existing incoming)
  let changes ← Action.ofExcept (r.changes existing updated none)
  if changes.isEmpty && !force then return (existing, .ignored)
  r.resolveDuplicate updated (some id)
  let stamped := Entity.stamp ctx false updated
  r.entities.update [stamped]
  r.recordIfActive stamped (r.updateRecords id (Entity.slug? stamped) changes ctx)
  return (stamped, .updated)

/-- Carries out the plan for a row. -/
def executeImport (r : Repository E) (ctx : AuditContext) (force : Bool) :
    ImportPlan E → Action (E × ImportOutcome)
  | .create e => do return (← r.createNew e ctx, .created)
  | .replace stale e => do
    r.entities.delete [stale]
    return (← r.createNew e ctx, .created)
  | .overwrite existing incoming => r.importOver existing incoming ctx force

/-- Imports one row. -/
def importRow (r : Repository E) (ctx : AuditContext) (force : Bool) (e : E) :
    Action (E × ImportOutcome) := do
  let plan ← r.planImport e
  r.executeImport ctx force plan

/-- Imports rows in order. -/
def bulkImport (r : Repository E) (es : List E) (ctx : AuditContext) (force : Bool) :
    Action (List (E × ImportOutcome)) := do
  Action.ofExcept (es.forM Entity.validate)
  es.mapM (r.importRow (ctx.withSource .imported) force)

end Repository

end Dossier
