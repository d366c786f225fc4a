/-
Column filters in JSON, where the member `filterType` names the kind of filter.
-/
import Dossier.Filter.Basic
import Dossier.Json.Extended

namespace Dossier

open Json

/-- Reads an operator; `orEmpty` is as in `Json.name?`. -/
def FilterOperator.ofJson? (orEmpty : Bool) (j : Json) : Option FilterOperator :=
  (j.name? orEmpty).bind ofName?

def Combinator.ofJson? (j : Json) : Option Combinator := (j.name? false).bind ofName?

/-- Reads a condition; only the operator has to be there. -/
def NumberCondition.ofJson? (j : Json) : Option NumberCondition := do
  let operator ← required (FilterOperator.ofJson? false) "type" j
  let operand ← optional double? "filter" j
  let upper ← optional double? "filterTo" j
  return { operator, operand, upper }

/-- Reads two joined conditions, all parts of which have to be there. -/
def NumberFilter.compoundOfJson? (j : Json) : Option NumberFilter := do
  let combinator ← required Combinator.ofJson? "operator" j
  let first ← required NumberCondition.ofJson? "condition1" j
  let second ← required NumberCondition.ofJson? "condition2" j
  return .compound combinator first second

/-- Reads a number filter: the compound form where it is complete, the single form otherwise. -/
def NumberFilter.ofJson? (j : Json) : Option NumberFilter :=
  match compoundOfJson? j with
  | some filter => some filter
  | none => (NumberCondition.ofJson? j).map .single

def DateFilter.ofJson? (j : Json) : Option DateFilter := do
  let operator ← required (FilterOperator.ofJson? true) "type" j
  let lower ← optional int64? "dateFrom" j
  let upper ← optional int64? "dateTo" j
  let exact ← withDefault boolean? false "exactMatch" j
  return { operator, lower, upper, exact }

def BooleanFilter.ofJson? (j : Json) : Option BooleanFilter := do
  let operator ← optional (FilterOperator.ofJson? true) "type" j
  let operand ← required boolean? "filter" j
  return { operator, operand }

def SetFilter.ofJson? (j : Json) : Option SetFilter := do
  let operator ← optional (FilterOperator.ofJson? true) "type" j
  let operands ← withDefault (listOf? value?) [] "values" j
  return { operator, operands }

def ExactFilter.ofJson? (j : Json) : Option ExactFilter := do
  let operator ← optional (FilterOperator.ofJson? true) "type" j
  let operand ← optional value? "filter" j
  return { operator, operand }

/-- Reads a column filter. -/
def ColumnFilter.ofJson? (j : Json) : Option ColumnFilter := do
  match ← required string? "filterType" j with
  | "number" => return .number (← NumberFilter.ofJson? j)
  | "date" => return .date (← DateFilter.ofJson? j)
  | "boolean" => return .boolean (← BooleanFilter.ofJson? j)
  | "set" => return .set (← SetFilter.ofJson? j)
  | "exactMatch" => return .exact (← ExactFilter.ofJson? j)
  | _ => return .unsupported

end Dossier
