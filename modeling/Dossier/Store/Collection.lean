/-
One collection of documents: rows in the order of insertion, and for each identifier the position
of the row it addresses.
-/
import Dossier.Query.Matching

namespace Dossier

/-- A stored document with its identifier, at a position that no other row ever has. -/
structure Row where
  position : Nat
  id : Uuid
  doc : Value

/-- A collection. Rows are kept in the order of their positions. -/
structure Collection where
  nextPosition : Nat := 0
  positions : List (Uuid × Nat) := []
  rows : List Row := []

namespace Collection

/-- Whether an identifier addresses a row. -/
def contains (c : Collection) (id : Uuid) : Bool := (c.positions.lookup id).isSome

/-- The document that an identifier addresses. -/
def get? (c : Collection) (id : Uuid) : Option Value :=
  (c.positions.lookup id).bind fun position =>
    (c.rows.find? (·.position == position)).map (·.doc)

/-- Appends a row. The identifier addresses the new row from now on. -/
def insert (c : Collection) (id : Uuid) (doc : Value) : Collection where
  nextPosition := c.nextPosition + 1
  positions := c.positions.filter (·.1 != id) ++ [(id, c.nextPosition)]
  rows := c.rows ++ [⟨c.nextPosition, id, doc⟩]

/-- Changes the document of the row that an identifier addresses. -/
def modify (c : Collection) (id : Uuid) (change : Value → Value) : Collection :=
  match c.positions.lookup id with
  | none => c
  | some position =>
    { c with rows := c.rows.map fun row =>
        if row.position = position then { row with doc := change row.doc } else row }

/-- Puts another document into the row that an identifier addresses. -/
def replace (c : Collection) (id : Uuid) (doc : Value) : Collection := c.modify id fun _ => doc

/-- Removes an identifier and the row it addresses. -/
def remove (c : Collection) (id : Uuid) : Collection :=
  match c.positions.lookup id with
  | none => c
  | some position =>
    { c with
      positions := c.positions.filter (·.1 != id)
      rows := c.rows.filter (·.position != position) }

/-- The documents in order. -/
def documents (c : Collection) : List Value := c.rows.map (·.doc)

/-- The rows whose documents satisfy a predicate, in order. -/
def selectRows (filter : Expr) : List Row → Except Fault (List Row)
  | [] => .ok []
  | row :: rest => do
    let holds ← filter.eval row.doc
    let more ← selectRows filter rest
    return if holds then row :: more else more

/-- The rows that a query without order and limits selects. -/
def select (c : Collection) : Option Expr → Except Fault (List Row)
  | some filter => selectRows filter c.rows
  | none => .ok c.rows

/-- The identifiers of the rows whose documents satisfy a predicate. -/
def matchingIds (c : Collection) (filter : Expr) : Except Fault (List Uuid) :=
  (selectRows filter c.rows).map (·.map (·.id))

end Collection

/-- Sorts documents by directives; documents that tie keep their order. -/
def sortDocuments (sort : List SortKey) (docs : List Value) : List Value :=
  docs.mergeSort fun a b => compareDocuments sort a b != .gt

/-- The part of a result from an offset on, up to a limit. -/
def window {α : Type} (offset limit : Option Nat) (items : List α) : List α :=
  let rest := items.drop (offset.getD 0)
  match limit with
  | some n => rest.take n
  | none => rest

namespace Collection

/-- The documents that a query selects: filtered, then sorted, then cut. -/
def query (c : Collection) (q : Query) : Except Fault (List Value) :=
  (c.select q.filter).map fun rows =>
    window q.offset q.limit (sortDocuments q.sort (rows.map (·.doc)))

/-- How many documents satisfy a predicate; without one, how many identifiers there are. -/
def count (c : Collection) : Option Expr → Except Fault Nat
  | some filter => (selectRows filter c.rows).map (·.length)
  | none => .ok c.positions.length

end Collection

end Dossier
