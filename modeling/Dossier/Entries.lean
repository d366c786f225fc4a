/-
Ordered entries: a list of keys with values, as documents, collections by name and counters keep
them. Writing an existing key keeps its place and a new key goes last; the key is found by
`List.lookup`.
-/

namespace Dossier.Entries

variable {α β : Type}

/-- The keys in order. -/
def keys (entries : List (String × α)) : List String := entries.map (·.1)

/-- Whether a key has an entry. -/
def contains (key : String) (entries : List (String × α)) : Bool := (entries.lookup key).isSome

/-- Binds a key to a value: in place when the key is there, at the end otherwise. -/
def insert (key : String) (value : α) : List (String × α) → List (String × α)
  | [] => [(key, value)]
  | (k, v) :: rest => if k = key then (key, value) :: rest else (k, v) :: insert key value rest

/-- Removes a key, keeping the order of the others. -/
def erase (key : String) (entries : List (String × α)) : List (String × α) :=
  entries.filter (·.1 != key)

/-- Inserts the second entries into the first, one after the other. -/
def insertAll (entries : List (String × α)) (added : List (String × α)) : List (String × α) :=
  added.foldl (fun es e => insert e.1 e.2 es) entries

/-- Builds entries by inserting one after the other, so that each key occurs once. -/
def ofList (added : List (String × α)) : List (String × α) := insertAll [] added

/-- The entries in the order of their keys. -/
def sorted (entries : List (String × α)) : List (String × α) :=
  entries.mergeSort fun a b => a.1 ≤ b.1

end Dossier.Entries
