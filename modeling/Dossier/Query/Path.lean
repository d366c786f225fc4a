/-
Dotted paths into values. A name selects the entry of a document. In an array a segment that is a
number selects an item, and any other name is looked up in every document of the array, the results
being gathered into one array.
-/
import Dossier.Bounded
import Dossier.Double.Reading
import Dossier.Value.Basic

namespace Dossier

namespace Path

/-- Splits at the dots. There is always one segment more than there are dots. -/
def splitDots : List Char → List (List Char)
  | [] => [[]]
  | c :: rest =>
    match splitDots rest with
    | [] => [[c]]
    | segment :: more => if c = '.' then [] :: segment :: more else (c :: segment) :: more

/-- The segments of a dotted path. -/
def segments (path : String) : List String := (splitDots path.toList).map String.ofList

/-- The index that a segment stands for: decimal digits, behind an optional plus sign, of a number
of 64 bits. -/
def index? (segment : String) : Option Nat :=
  let digits :=
    match segment.toList with
    | '+' :: rest => rest
    | cs => cs
  if digits ≠ [] ∧ digits.all (fun c => (digitValue? c).isSome) ∧
      digitsValue digits ≤ Bounded.maxNat64
  then some (digitsValue digits)
  else none

/-- What was found in the documents of an array, as one array: found arrays add their items. -/
def gather (found : List Value) : Option Value :=
  match found.flatMap (fun v => match v with | .array items => items | other => [other]) with
  | [] => none
  | items => some (.array items)

end Path

namespace Value

/-- Looks up the segments of a path one after the other. -/
def lookupSegments : List String → Value → Option Value
  | [], v => some v
  | segment :: rest, document entries => (entries.lookup segment).bind (lookupSegments rest)
  | segment :: rest, array items =>
    match Path.index? segment with
    | some i => items[i]?.bind (lookupSegments rest)
    | none =>
      Path.gather <| items.filterMap fun item =>
        item.entries?.bind fun entries => (entries.lookup segment).bind (lookupSegments rest)
  | _ :: _, _ => none

/-- What a dotted path leads to. -/
def lookup (v : Value) (path : String) : Option Value := lookupSegments (Path.segments path) v

end Value

end Dossier
