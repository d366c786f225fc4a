/-
Duplicates: another stored entity that stands for the same thing. An active one is in the way, an
inactive one gives way.
-/
import Dossier.Repository.Basic

namespace Dossier.Repository

variable {E : Type} [Entity E]

/-- What a duplicate of an entity satisfies; the entity itself is none. -/
def duplicateFilter? (r : Repository E) (e : E) (own : Option Uuid) : Option Expr :=
  (Entity.duplicateFilter? e).map fun filter =>
    match own with
    | some id => .and [filter, .ne r.config.idField (.uuid id)]
    | none => filter

/-- The key by which a duplicate is reported: its slug, or else its identifier. -/
def duplicateKey (duplicate : E) (id : Uuid) : String := (Entity.slug? duplicate).getD id.text

/-- Makes way for an entity: fails if its first duplicate is active, and removes it otherwise. -/
def resolveDuplicate (r : Repository E) (e : E) (own : Option Uuid) : Action Unit :=
  match r.duplicateFilter? e own with
  | none => pure ()
  | some filter => do
    match ← Action.read (r.entities.find? filter) with
    | none => pure ()
    | some duplicate =>
      let id ← Action.ofExcept (Stored.requireId "duplicate check" duplicate)
      if Entity.isActive duplicate then
        throw (.alreadyExists (duplicateKey duplicate id) (Stored.collection E))
      else r.entities.delete [id]

end Dossier.Repository
