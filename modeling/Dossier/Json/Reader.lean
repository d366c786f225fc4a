/-
Reading JSON text: characters are grouped into tokens, and tokens into values.
-/
import Dossier.Double.Reading
import Dossier.Json.Basic
import Dossier.Text.Hex

namespace Dossier.Json

/-- A lexical unit: a punctuation mark, or a whole scalar. -/
inductive Token where
  | mark (c : Char)
  | scalar (j : Json)

/-! ## Strings -/

/-- The number of four hexadecimal digits. -/
def codeUnit? (a b c d : Char) : Option Nat := do
  let a ← Hex.digitValue? a
  let b ← Hex.digitValue? b
  let c ← Hex.digitValue? c
  let d ← Hex.digitValue? d
  return ((a * 16 + b) * 16 + c) * 16 + d

/-- The character that an escape of one letter stands for. -/
def escaped? : Char → Option Char
  | '"' => some '"'
  | '\\' => some '\\'
  | '/' => some '/'
  | 'b' => some '\x08'
  | 'f' => some '\x0c'
  | 'n' => some '\n'
  | 'r' => some '\r'
  | 't' => some '\t'
  | _ => none

/-- Whether a unit is the first half of a character outside the basic plane. -/
def isHighHalf (unit : Nat) : Bool := 0xD800 ≤ unit && unit < 0xDC00

/-- Whether a unit is the second half of such a character. -/
def isLowHalf (unit : Nat) : Bool := 0xDC00 ≤ unit && unit < 0xE000

/-- Reads the inside of a string up to the closing quote, collecting characters in reverse. A first
half that waits for its second half is kept aside. -/
def readString (done : List Char) : Option Nat → List Char → Option (String × List Char)
  | none, '"' :: rest => some (String.ofList done.reverse, rest)
  | waiting, '\\' :: 'u' :: a :: b :: c :: d :: rest =>
    match codeUnit? a b c d, waiting with
    | none, _ => none
    | some unit, none =>
      if isHighHalf unit then readString done (some unit) rest
      else if isLowHalf unit then none
      else readString (Char.ofNat unit :: done) none rest
    | some unit, some high =>
      if isLowHalf unit then
        let code := 0x10000 + (high - 0xD800) * 0x400 + (unit - 0xDC00)
        readString (Char.ofNat code :: done) none rest
      else none
  | none, '\\' :: c :: rest =>
    match escaped? c with
    | some e => readString (e :: done) none rest
    | none => none
  | none, c :: rest => if c.toNat < 0x20 then none else readString (c :: done) none rest
  | _, _ => none

/-! ## Numbers and words -/

/-- Reads the characters of a number literal. -/
def number? (literal : List Char) : Option Json :=
  let (negative, digits) :=
    match literal with
    | '-' :: rest => (true, rest)
    | _ => (false, literal)
  if digits.all (fun c => (digitValue? c).isSome) then
    if digits.isEmpty then none
    else
      let magnitude : Int := digitsValue digits
      some (ofIntegerLiteral (if negative then -magnitude else magnitude))
  else
    match digits with
    | c :: _ =>
      if (digitValue? c).isSome then
        (Numeral.read? digits).map fun n => real (n.toDouble negative)
      else none
    | [] => none

def isNumberChar (c : Char) : Bool := c.isDigit || ['-', '+', '.', 'e', 'E'].contains c

def isBlank (c : Char) : Bool := [' ', '\t', '\n', '\r'].contains c

/-- Reads the token at the head of a text, after blanks; `none` in the middle at the end. -/
def nextToken (cs : List Char) : Option (Option (Token × List Char)) :=
  match cs.dropWhile isBlank with
  | [] => some none
  | '"' :: rest => (readString [] none rest).map fun (s, rest) => some (.scalar (string s), rest)
  | 't' :: 'r' :: 'u' :: 'e' :: rest => some (some (.scalar (boolean true), rest))
  | 'f' :: 'a' :: 'l' :: 's' :: 'e' :: rest => some (some (.scalar (boolean false), rest))
  | 'n' :: 'u' :: 'l' :: 'l' :: rest => some (some (.scalar null, rest))
  | c :: rest =>
    if ['\x7b', '\x7d', '[', ']', ',', ':'].contains c then some (some (.mark c, rest))
    else
      let (literal, rest) := (c :: rest).span isNumberChar
      (number? literal).map fun j => some (.scalar j, rest)

/-- All tokens of a text. No text has more tokens than characters. -/
def tokens : Nat → List Char → Option (List Token)
  | 0, cs => if (cs.dropWhile isBlank).isEmpty then some [] else none
  | fuel + 1, cs =>
    match nextToken cs with
    | none => none
    | some none => some []
    | some (some (token, rest)) => (tokens fuel rest).map (token :: ·)

/-! ## Values -/

/-- What is being read at some depth: the items or members read so far, last first. -/
inductive Frame where
  | array (items : List Json)
  | object (members : List (String × Json))
  /-- An object whose next member has this name. -/
  | member (members : List (String × Json)) (key : String)

/-- The state between two tokens: a value may begin, or one has been read. -/
inductive State where
  | expecting (frames : List Frame)
  | read (j : Json) (frames : List Frame)
  /-- A name has been read and its colon has not. -/
  | named (members : List (String × Json)) (key : String) (frames : List Frame)

/-- Puts a value that is complete into the innermost frame. -/
def State.step : State → Token → Option State
  | .expecting (.array [] :: frames), .mark ']' => some (.read (.array []) frames)
  | .expecting (.object [] :: frames), .mark '\x7d' => some (.read (.object []) frames)
  | .expecting (.object members :: frames), .scalar (.string key) =>
    some (.named members key frames)
  | .expecting (.object _ :: _), _ => none
  | .expecting frames, .mark '[' => some (.expecting (.array [] :: frames))
  | .expecting frames, .mark '\x7b' => some (.expecting (.object [] :: frames))
  | .expecting frames, .scalar j => some (.read j frames)
  | .named members key frames, .mark ':' => some (.expecting (.member members key :: frames))
  | .read j (.array items :: frames), .mark ',' => some (.expecting (.array (j :: items) :: frames))
  | .read j (.array items :: frames), .mark ']' =>
    some (.read (.array (j :: items).reverse) frames)
  | .read j (.member members key :: frames), .mark ',' =>
    some (.expecting (.object ((key, j) :: members) :: frames))
  | .read j (.member members key :: frames), .mark '\x7d' =>
    some (.read (.object ((key, j) :: members).reverse) frames)
  | _, _ => none

/-- Reads a text that holds exactly one value. -/
def ofText? (text : String) : Option Json :=
  let cs := text.toList
  match (tokens cs.length cs).bind (·.foldlM State.step (.expecting [])) with
  | some (.read j []) => some j
  | _ => none

end Dossier.Json
