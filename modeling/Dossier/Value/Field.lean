/-
Reading typed contents of stored values, which may be in extended notation, and typed fields of
documents.
-/
import Dossier.Value.Extended

namespace Dossier

namespace Value

/-- A stored value as it is read: extended notation is resolved wherever it stands. -/
def read? (v : Value) : Option Value := v.resolve? false

/-- A document, all of it resolved. -/
def document? (v : Value) : Option Document := v.read?.bind entries?

def instant? (v : Value) : Option Int64 :=
  match v.read? with
  | some (dateTime millis) => some millis
  | _ => none

/-- An identifier: as such, as its text, or in extended notation, where it may also be a binary of
plain bytes. -/
def identifier? : Value → Option Uuid
  | string s => Uuid.ofText? s
  | document entries =>
    match read? (document entries) with
    | some (binary subtype bytes) =>
      if subtype = uuidSubtype ∨ subtype = genericSubtype then Uuid.ofBytes? bytes else none
    | _ => none
  | v => v.uuid?

/-- A list of texts. -/
def texts? (v : Value) : Option (List String) := v.items? text?

/-- The name of a constant: as such, or as the only key of a document. -/
def name? : Value → Option String
  | string s => some s
  | document [(s, v)] => v.read?.map fun _ => s
  | _ => none

end Value

namespace Field

variable {α : Type}

/-- A field that has to be there. -/
def required (read : Value → Option α) (key : String) (doc : Document) : Option α :=
  (doc.lookup key).bind read

/-- A field that may be left out or null. -/
def optional (read : Value → Option α) (key : String) (doc : Document) : Option (Option α) :=
  match doc.lookup key with
  | none | some .null => some none
  | some v => (read v).map some

/-- A field that may be left out, with the value it then has. -/
def withDefault (read : Value → Option α) (absent : α) (key : String) (doc : Document) : Option α :=
  match doc.lookup key with
  | some v => read v
  | none => some absent

/-- The entry of a field that is written only when it is there. -/
def written (key : String) (value : Option Value) : Document :=
  match value with
  | some v => [(key, v)]
  | none => []

end Field

end Dossier
