/-
Strings as they are inspected: in quotes, with escapes for what would not be seen.
-/
import Dossier.Text.Combining
import Dossier.Text.Unseen

namespace Dossier.Inspect

/-- Whether a character is written by its code: it has no shape, or would attach to another one. -/
def isHidden (c : Char) : Bool := isCombining c || isUnseen c

/-- A character inside quotes. -/
def charText (c : Char) : String :=
  match c with
  | '"' => "\\\""
  | '\\' => "\\\\"
  | '\t' => "\\t"
  | '\n' => "\\n"
  | '\r' => "\\r"
  | '\x00' => "\\0"
  | _ =>
    if isHidden c then
      "\\u\x7b" ++ String.ofList (Nat.toDigits 16 c.toNat) ++ "\x7d"
    else c.toString

/-- A string in quotes. -/
def quoted (s : String) : String := "\"" ++ String.join (s.toList.map charText) ++ "\""

/-- Texts in square brackets, separated by commas. -/
def bracketed (items : List String) : String := "[" ++ String.intercalate ", " items ++ "]"

/-- A name with named fields in curly brackets. -/
def record (name : String) (fields : List (String × String)) : String :=
  name ++ " \x7b " ++ String.intercalate ", " (fields.map fun (k, v) => k ++ ": " ++ v) ++ " \x7d"

end Dossier.Inspect
