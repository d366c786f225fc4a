/-
A collection of the store seen as a set of values of one type.
-/
import Dossier.Action
import Dossier.Entity.Basic
import Dossier.Page

namespace Dossier

/-- A collection whose documents are values of the type `E`. -/
structure DocumentSet (E : Type) where
  name : String

namespace DocumentSet

variable {E : Type} [Stored E]

/-- The collection that the type names as its own. -/
def own (E : Type) [Stored E] : DocumentSet E := ⟨Stored.collection E⟩

/-- Reads stored values, up to the first that is not of the type. -/
def readAll (values : List Value) : Except Fault (List E) := values.mapM Stored.ofValue

/-- Values with the identifiers they are stored under. -/
def withIds (operation : String) (es : List E) : Except Fault (List (Uuid × Value)) :=
  es.mapM fun e => (Stored.requireId operation e).map fun id => (id, Stored.toValue e)

/-! ## Reading -/

def get (c : DocumentSet E) (ids : List Uuid) (s : Store) : Except Fault (List E) :=
  readAll (s.getDocuments ids c.name)

def get? (c : DocumentSet E) (id : Uuid) (s : Store) : Except Fault (Option E) :=
  (c.get [id] s).map List.head?

def query (c : DocumentSet E) (q : Query) (s : Store) : Except Fault (List E) :=
  s.queryDocuments q c.name >>= readAll

/-- The first value that satisfies a predicate. -/
def find? (c : DocumentSet E) (filter : Expr) (s : Store) : Except Fault (Option E) :=
  (c.query { filter := some filter, limit := some 1 } s).map List.head?

def count (c : DocumentSet E) (filter : Option Expr) (s : Store) : Except Fault Nat :=
  s.countDocuments filter c.name

/-- One page of the values that satisfy a predicate, in order, with the size of the whole result. -/
def findPage (c : DocumentSet E) (filter : Expr) (sort : List SortKey) (request : PageRequest)
    (s : Store) : Except Fault (Page E) := do
  request.check
  let total ← c.count (some filter) s
  let items ← c.query
    { filter := some filter, sort, offset := some request.offset, limit := some request.size } s
  return Page.ofItems items request total

/-! ## Writing -/

def insert (c : DocumentSet E) (es : List E) : Action Unit := do
  let docs ← Action.ofExcept (withIds "insert" es)
  Action.change (Store.insertDocuments docs c.name)

def update (c : DocumentSet E) (es : List E) : Action Unit := do
  let docs ← Action.ofExcept (withIds "update" es)
  Action.change (Store.updateDocuments docs c.name)

def delete (c : DocumentSet E) (ids : List Uuid) : Action Unit :=
  Action.change (Store.deleteDocuments ids c.name)

def updateFields (c : DocumentSet E) (filter : Expr) (fields : Document) : Action Nat :=
  Action.change (Store.updateFields filter fields c.name)

def remove (c : DocumentSet E) (filter : Expr) : Action Nat :=
  Action.change (Store.removeDocuments filter c.name)

end DocumentSet

end Dossier
