/-
The properties of an entity type that may be named in a patch: how each is read as a value and how
it is copied from one entity to another.
-/
import Dossier.Entity.Basic
import Dossier.Text.Inspect

namespace Dossier

/-- A property of an entity type. -/
structure Property (E : Type) where
  name : String
  read : E → Value
  /-- The second entity with the property of the first. -/
  copy : E → E → E

/-- The properties that may be named. -/
structure Registry (E : Type) where
  properties : List (Property E) := []

namespace Registry

variable {E : Type}

/-- Adds a property at the end, in place of an earlier one of the same name. -/
def register (r : Registry E) (p : Property E) : Registry E :=
  ⟨r.properties.filter (·.name != p.name) ++ [p]⟩

def ofProperties (ps : List (Property E)) : Registry E := ps.foldl register {}

def names (r : Registry E) : List String := r.properties.map (·.name)

def contains (r : Registry E) (name : String) : Bool := r.names.contains name

/-- The inspection form of a registry. -/
def inspect (r : Registry E) : String :=
  Inspect.record "FieldRegistry"
    [("fields", Inspect.bracketed (r.names.map Inspect.quoted))]

variable [Stored E]

/-- The property of a name. -/
def find (r : Registry E) (name : String) : Except Fault (Property E) :=
  match r.properties.find? (·.name == name) with
  | some p => .ok p
  | none => .error (.validation (.unsupportedProperty name (Stored.collection E)))

/-- Whether names may be given in a patch: at least one, and only known ones. -/
def validate (r : Registry E) (names : List String) : Except Fault Unit :=
  if names.isEmpty then .error (.validation (.noPropertyNamed (Stored.collection E)))
  else names.forM fun name => (r.find name).map fun _ => ()

/-- The value of a property. -/
def read (r : Registry E) (e : E) (name : String) : Except Fault Value :=
  (r.find name).map fun p => p.read e

/-- Copies a property from the first entity to the second. -/
def copy (r : Registry E) (name : String) (source target : E) : Except Fault E :=
  (r.find name).map fun p => p.copy source target

/-- Copies several properties in order. -/
def copyAll (r : Registry E) (names : List String) (source target : E) : Except Fault E :=
  names.foldlM (fun e name => r.copy name source e) target

/-- The values of several properties as a document. -/
def readAll (r : Registry E) (e : E) (names : List String) : Except Fault Document :=
  names.foldlM (fun doc name => (r.read e name).map fun v => Entries.insert name v doc) []

end Registry

end Dossier
