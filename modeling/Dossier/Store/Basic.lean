/-
The in-memory store: collections by name, and counters. Reading yields a result or a fault; writing
also yields the store that is left, which after a fault holds what was done before it.
-/
import Dossier.Bounded
import Dossier.Store.Collection

namespace Dossier

/-- A store. -/
structure Store where
  collections : List (String × Collection) := []
  counters : List (String × Int64) := []

/-- A change to a store. -/
abbrev StoreChange := EStateM Fault Store

namespace Store

/-- The collection of a name, empty when there is none. -/
def collection (s : Store) (name : String) : Collection := (s.collections.lookup name).getD {}

/-- The store with a collection put under a name. -/
def setCollection (s : Store) (name : String) (c : Collection) : Store :=
  { s with collections := Entries.insert name c s.collections }

/-! ## Reading -/

/-- The documents of the given identifiers, in the order asked for; unknown ones are left out. -/
def getDocuments (s : Store) (ids : List Uuid) (name : String) : List Value :=
  ids.filterMap (s.collection name).get?

/-- The documents that a query selects. -/
def queryDocuments (s : Store) (q : Query) (name : String) : Except Fault (List Value) :=
  (s.collection name).query q

/-- How many documents satisfy a predicate. -/
def countDocuments (s : Store) (filter : Option Expr) (name : String) : Except Fault Nat :=
  (s.collection name).count filter

/-- The names of the collections, sorted. -/
def listCollections (s : Store) : List String := Entries.keys (Entries.sorted s.collections)

/-- The value of a counter that has been used. -/
def counter? (s : Store) (name : String) : Option Int64 := s.counters.lookup name

/-! ## Writing -/

/-- Inserts a batch in order, creating the collection. Refused when an identifier is in use before
the batch. -/
def insertDocuments (docs : List (Uuid × Value)) (name : String) : StoreChange Unit := fun s =>
  let c := s.collection name
  match docs.find? fun d => c.contains d.1 with
  | some (id, _) => .error (.alreadyExists id.text name) (s.setCollection name c)
  | none => .ok () (s.setCollection name (docs.foldl (fun c d => c.insert d.1 d.2) c))

/-- Replaces documents in order. Refused when the collection or one of the identifiers is
missing. -/
def updateDocuments (docs : List (Uuid × Value)) (name : String) : StoreChange Unit := fun s =>
  match s.collections.lookup name with
  | none => .error (.collectionNotFound name) s
  | some c =>
    match docs.find? fun d => !c.contains d.1 with
    | some (id, _) => .error (.notFound id.text name) s
    | none => .ok () (s.setCollection name (docs.foldl (fun c d => c.replace d.1 d.2) c))

/-- Removes identifiers one after the other, up to the first that is missing. -/
def removeEach (name : String) : List Uuid → Collection → Option Fault × Collection
  | [], c => (none, c)
  | id :: rest, c =>
    if c.contains id then removeEach name rest (c.remove id)
    else (some (.notFound id.text name), c)

/-- Removes documents. What was removed before a missing identifier stays removed. -/
def deleteDocuments (ids : List Uuid) (name : String) : StoreChange Unit := fun s =>
  match s.collections.lookup name with
  | none => .error (.collectionNotFound name) s
  | some c =>
    match removeEach name ids c with
    | (none, c') => .ok () (s.setCollection name c')
    | (some fault, c') => .error fault (s.setCollection name c')

/-- A document with fields inserted; a value that is no document stays as it is. -/
def withFields (fields : Document) : Value → Value
  | .document entries => .document (Entries.insertAll entries fields)
  | v => v

/-- Sets fields in the documents that satisfy a predicate, and counts those. -/
def updateFields (filter : Expr) (fields : Document) (name : String) : StoreChange Nat := fun s =>
  match s.collections.lookup name with
  | none => .ok 0 s
  | some c =>
    match c.matchingIds filter with
    | .error fault => .error fault s
    | .ok ids =>
      let c' := ids.foldl (fun c id => c.modify id (withFields fields)) c
      .ok ids.length (s.setCollection name c')

/-- Removes the documents that satisfy a predicate, and counts those. -/
def removeDocuments (filter : Expr) (name : String) : StoreChange Nat := fun s =>
  match s.collections.lookup name with
  | none => .ok 0 s
  | some c =>
    match c.matchingIds filter with
    | .error fault => .error fault s
    | .ok ids => .ok ids.length (s.setCollection name (ids.foldl Collection.remove c))

/-- Adds to a counter, which starts at zero, and yields its new value. -/
def advance (counter : String) (delta : Int64) : StoreChange Int64 := fun s =>
  let value := (s.counter? counter).getD 0
  let start := { s with counters := Entries.insert counter value s.counters }
  match Bounded.int64? (value.toInt + delta.toInt) with
  | some next => .ok next { s with counters := Entries.insert counter next s.counters }
  | none => .error (.validation (.counterOverflow counter delta)) start

/-- Makes sure that a collection exists. -/
def createCollection (name : String) : StoreChange Unit := fun s =>
  .ok () (s.setCollection name (s.collection name))

/-- Removes a collection with all its documents. -/
def dropCollection (name : String) : StoreChange Unit := fun s =>
  match s.collections.lookup name with
  | none => .error (.collectionNotFound name) s
  | some _ => .ok () { s with collections := Entries.erase name s.collections }

/-! ## Sequences -/

/-- Reserves a block of numbers from a counter and yields its last one. -/
def nextInSequence (name : String) (increment : Int64) : StoreChange Int64 :=
  if increment.toInt ≤ 0 then throw (.validation (.nonPositiveIncrement increment name))
  else advance name increment

end Store

end Dossier
