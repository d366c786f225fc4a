/-
Document keys that MongoDB accepts: dots, dollar signs and null characters are written as words.
Restoring turns the words back, the word of the null character first.
-/
import Dossier.Value.Basic

namespace Dossier.Mongo

/-- The word for a character that keys may not contain. -/
def wordFor? : Char → Option String
  | '.' => some "__dot__"
  | '$' => some "__dollar__"
  | '\x00' => some "__null__"
  | _ => none

/-- Writes the characters that keys may not contain as words. -/
def escapeChars (key : List Char) : List Char :=
  key.flatMap fun c =>
    match wordFor? c with
    | some word => word.toList
    | none => [c]

def escapeKey (key : String) : String := String.ofList (escapeChars key.toList)

/-- Replaces a word by a character wherever it occurs, from the left and without overlaps. The
number counts the characters of an occurrence that are still to be skipped. -/
def replaceWord (word : List Char) (c : Char) : Nat → List Char → List Char
  | _, [] => []
  | skip + 1, _ :: rest => replaceWord word c skip rest
  | 0, x :: rest =>
    if word.isPrefixOf (x :: rest) then c :: replaceWord word c (word.length - 1) rest
    else x :: replaceWord word c 0 rest

/-- Turns words back into the characters they stand for. -/
def restoreChars (key : List Char) : List Char :=
  ['\x00', '$', '.'].foldl
    (fun cs c => replaceWord ((wordFor? c).getD "").toList c 0 cs) key

def restoreKey (key : String) : String := String.ofList (restoreChars key.toList)

mutual

/-- Changes the keys of all documents in a value. Of entries that get the same key the last value
stays, in the first place. -/
def mapKeys (f : String → String) : Value → Value
  | .array items => .array (mapKeysItems f items)
  | .document entries => .document (Entries.ofList (mapKeysEntries f entries))
  | v => v

def mapKeysItems (f : String → String) : List Value → List Value
  | [] => []
  | v :: rest => mapKeys f v :: mapKeysItems f rest

def mapKeysEntries (f : String → String) : List (String × Value) → List (String × Value)
  | [] => []
  | (key, v) :: rest => (f key, mapKeys f v) :: mapKeysEntries f rest

end

/-- A value with all keys escaped. -/
def escape (v : Value) : Value := mapKeys escapeKey v

/-- A value with all keys restored. -/
def restore (v : Value) : Value := mapKeys restoreKey v

end Dossier.Mongo
