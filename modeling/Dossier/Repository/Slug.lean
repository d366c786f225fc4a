/-
Slugs: a stem from the configuration followed by a number that is drawn from a counter.
-/
import Dossier.Repository.Basic

namespace Dossier.Repository

variable {E : Type} [Entity E]

/-- The counter that numbers the slugs of the repository. -/
def slugCounter (r : Repository E) : String := r.config.sequenceNameOr (Stored.collection E)

/-- The slug with a number. -/
def slugText (stem : String) (number : Int) : String := stem ++ toString number

/-- Gives a slug to an entity that needs one, if slugs are configured. The flag tells whether one
was given. -/
def assignSlug (r : Repository E) (e : E) : Action (E × Bool) :=
  match r.config.slugPrefix with
  | none => pure (e, false)
  | some stem =>
    if Entity.needsSlug e then do
      let number ← Action.change (Store.nextInSequence r.slugCounter 1)
      return (Entity.withSlug e (slugText stem number.toInt) number, true)
    else pure (e, false)

/-- Gives consecutive numbers from `number` on to the entities that need a slug. -/
def numberSlugs (stem : String) : Int → List E → List E
  | _, [] => []
  | number, e :: rest =>
    if Entity.needsSlug e then
      Entity.withSlug e (slugText stem number) (Int64.ofInt number) ::
        numberSlugs stem (number + 1) rest
    else e :: numberSlugs stem number rest

/-- Gives slugs to all entities that need one, with numbers reserved as one block, and counts
them. -/
def assignSlugs (r : Repository E) (es : List E) : Action (List E × Nat) :=
  match r.config.slugPrefix with
  | none => pure (es, 0)
  | some stem =>
    let count := es.countP Entity.needsSlug
    if count = 0 then pure (es, 0)
    else do
      let last ← Action.change (Store.nextInSequence r.slugCounter (Int64.ofNat count))
      return (numberSlugs stem (last.toInt - count + 1) es, count)

end Dossier.Repository
