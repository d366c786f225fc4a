/-
Types whose values are kept as documents, and those that a repository manages: entities with an
identifier, a slug, an activity flag and rules of their own.
-/
import Dossier.Audit.Context
import Dossier.Fault
import Dossier.Query.Expr

namespace Dossier

/-- A type whose values are stored in a collection. -/
class Stored (E : Type) where
  /-- The collection that values of the type belong to. -/
  collection : String
  toValue : E → Value
  ofValue? : Value → Option E
  id? : E → Option Uuid
  withId : E → Uuid → E

namespace Stored

variable {E : Type} [Stored E]

/-- The stored form, which has to be a document. -/
def toDocument (e : E) : Except Fault Document :=
  match toValue e with
  | .document entries => .ok entries
  | other => .error (.serialization (.notADocument (collection E) other.kindName))

/-- Reads the stored form back. -/
def ofValue (v : Value) : Except Fault E :=
  match ofValue? v with
  | some e => .ok e
  | none => .error (.serialization (.unreadable (collection E)))

/-- The identifier, which an operation cannot do without. -/
def requireId (operation : String) (e : E) : Except Fault Uuid :=
  match id? e with
  | some id => .ok id
  | none => .error (.validation (.identifierMissing operation (collection E)))

end Stored

/-- A type of entities. The rules have defaults: always active, no stamps, no duplicates, valid. -/
class Entity (E : Type) extends Stored E where
  slug? : E → Option String
  /-- Sets the slug with the sequence number it was made from. -/
  withSlug : E → String → Int64 → E
  isActive : E → Bool := fun _ => true
  /-- Notes who changed the entity and when; the flag tells whether it was created. -/
  stamp : AuditContext → Bool → E → E := fun _ _ e => e
  /-- What another entity satisfies that stands for the same thing. -/
  duplicateFilter? : E → Option Expr := fun _ => none
  /-- What is wrong with the entity. -/
  violation? : E → Option String := fun _ => none

namespace Entity

variable {E : Type} [Entity E]

/-- Checks the rules of the entity itself. -/
def validate (e : E) : Except Fault Unit :=
  match violation? e with
  | some text => .error (.validation (.rule text))
  | none => .ok ()

/-- Whether a slug is made for the entity: it has neither an identifier nor a slug. -/
def needsSlug (e : E) : Bool :=
  (Stored.id? e).isNone && ((slug? e).getD "").isEmpty

end Entity

end Dossier
