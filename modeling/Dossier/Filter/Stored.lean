/-
Column filters as stored values: a document that begins with the kind of the filter, with null for
parts that are left out.
-/
import Dossier.Filter.Basic

namespace Dossier

def FilterOperator.toValue (o : FilterOperator) : Value := .string o.name

def NumberCondition.toEntries (c : NumberCondition) : Document :=
  [("type", c.operator.toValue), ("filter", Value.ofOption (c.operand.map .double)),
    ("filterTo", Value.ofOption (c.upper.map .double))]

def NumberFilter.toEntries : NumberFilter → Document
  | .single condition => condition.toEntries
  | .compound combinator first second =>
    [("operator", .string combinator.name), ("condition1", .document first.toEntries),
      ("condition2", .document second.toEntries)]

def DateFilter.toEntries (f : DateFilter) : Document :=
  [("type", f.operator.toValue), ("dateFrom", Value.ofOption (f.lower.map .int64)),
    ("dateTo", Value.ofOption (f.upper.map .int64)), ("exactMatch", .boolean f.exact)]

/-- The operator of a filter that may leave it out. -/
def optionalOperator (o : Option FilterOperator) : Value :=
  Value.ofOption (o.map FilterOperator.toValue)

def BooleanFilter.toEntries (f : BooleanFilter) : Document :=
  [("type", optionalOperator f.operator), ("filter", .boolean f.operand)]

def SetFilter.toEntries (f : SetFilter) : Document :=
  [("type", optionalOperator f.operator), ("values", .array f.operands)]

def ExactFilter.toEntries (f : ExactFilter) : Document :=
  [("type", optionalOperator f.operator), ("filter", Value.ofOption f.operand)]

/-- The stored form of a column filter. -/
def ColumnFilter.toValue : ColumnFilter → Value
  | .number f => .document (("filterType", .string "number") :: f.toEntries)
  | .date f => .document (("filterType", .string "date") :: f.toEntries)
  | .boolean f => .document (("filterType", .string "boolean") :: f.toEntries)
  | .set f => .document (("filterType", .string "set") :: f.toEntries)
  | .exact f => .document (("filterType", .string "exactMatch") :: f.toEntries)
  | .unsupported => .document [("filterType", .string "unsupported")]

end Dossier
