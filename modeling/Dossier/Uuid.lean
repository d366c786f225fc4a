/-
Universally unique identifiers: sixteen bytes, written as hexadecimal digits in groups of
8-4-4-4-12.
-/
import Dossier.Text.Hex

namespace Dossier

/-- An identifier of sixteen bytes. -/
structure Uuid where
  bytes : List UInt8
  size_eq : bytes.length = 16
  deriving DecidableEq

namespace Uuid

/-- The identifier with the given bytes, if there are sixteen. -/
def ofBytes? (bytes : List UInt8) : Option Uuid :=
  if h : bytes.length = 16 then some ⟨bytes, h⟩ else none

/-- The low 128 bits of a number, most significant byte first. -/
def ofNat (n : Nat) : Uuid :=
  ⟨(List.range 16).map fun i => UInt8.ofNat (n >>> (8 * (15 - i))), by simp⟩

/-- The groups of hexadecimal digits joined by hyphens. -/
def text (u : Uuid) : String :=
  let digits := Hex.encode u.bytes
  let group (start size : Nat) := String.ofList ((digits.drop start).take size)
  String.intercalate "-" [group 0 8, group 8 4, group 12 4, group 16 4, group 20 12]

/-- Whether a text has its hyphens exactly where the grouped form has them. -/
def isGrouped (cs : List Char) : Bool :=
  cs.length == 36 &&
    (List.range 36).all fun i => (cs[i]? == some '-') == [8, 13, 18, 23].contains i

/-- Reads the grouped or the plain form of 32 digits. -/
def ofDigits? (cs : List Char) : Option Uuid :=
  if isGrouped cs then Hex.decode? (cs.filter (· != '-')) >>= ofBytes?
  else if cs.length = 32 then Hex.decode? cs >>= ofBytes?
  else none

/-- Reads an identifier: grouped, plain, grouped in curly brackets, or grouped as a URN. -/
def ofText? (s : String) : Option Uuid :=
  match s.toList with
  | '\x7b' :: rest =>
    let inner := rest.dropLast
    if rest.getLast? = some '\x7d' ∧ isGrouped inner then ofDigits? inner else none
  | cs =>
    let scheme := "urn:uuid:".toList
    if scheme.isPrefixOf cs then
      let inner := cs.drop scheme.length
      if isGrouped inner then ofDigits? inner else none
    else ofDigits? cs

end Uuid

end Dossier
