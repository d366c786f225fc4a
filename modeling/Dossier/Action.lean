/-
What operations on entities work on: a store, and a supply of fresh identifiers.
-/
import Dossier.Store.Basic

namespace Dossier

/-- A supply of identifiers, given out one after the other. -/
structure IdSupply where
  stream : Nat → Uuid
  /-- How many have been given out. -/
  drawn : Nat := 0

/-- A store with a supply of identifiers. -/
structure State where
  store : Store := {}
  ids : IdSupply

/-- An operation that may change the state, and may fail after having changed it. -/
abbrev Action := EStateM Fault State

namespace Action

variable {α : Type}

/-- Reads from the store. -/
def read (f : Store → Except Fault α) : Action α := fun s =>
  match f s.store with
  | .ok a => .ok a s
  | .error fault => .error fault s

/-- Changes the store. -/
def change (f : StoreChange α) : Action α := fun s =>
  match f s.store with
  | .ok a store => .ok a { s with store }
  | .error fault store => .error fault { s with store }

/-- A result that does not hang on the state. -/
def ofExcept (r : Except Fault α) : Action α := fun s =>
  match r with
  | .ok a => .ok a s
  | .error fault => .error fault s

/-- Takes the next identifier from the supply. -/
def freshId : Action Uuid := fun s =>
  .ok (s.ids.stream s.ids.drawn) { s with ids := { s.ids with drawn := s.ids.drawn + 1 } }

end Action

end Dossier
