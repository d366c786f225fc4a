/-
The predicate that a column filter puts on a field. A filter of an unknown kind, and an operator
that makes no sense for the kind of filter, put none.
-/
import Dossier.Filter.Basic
import Dossier.Filter.Day
import Dossier.Query.Expr

namespace Dossier

/-! ## Numbers -/

namespace NumberCondition

/-- A bound of the condition as an operand; it has to be there. -/
def bound (field name : String) (value : Option Double) : Except Fault Value :=
  match value with
  | some x => .ok (.double x)
  | none => .error (.validation (.numberOperandMissing field name))

/-- The predicate of a condition on a number. -/
def predicate (c : NumberCondition) (field : String) : Except Fault Expr :=
  let operand := bound field "filter" c.operand
  match c.operator with
  | .present => .ok (.present field true)
  | .absent => .ok (.present field false)
  | .equals => operand.map (.eq field)
  | .notEqual => operand.map (.ne field)
  | .lessThan => operand.map (.lt field)
  | .lessThanOrEqual => operand.map (.lte field)
  | .greaterThan => operand.map (.gt field)
  | .greaterThanOrEqual => operand.map (.gte field)
  | .inRange => do
    let low ← operand
    let high ← bound field "filterTo" c.upper
    return .and [.gte field low, .lte field high]

end NumberCondition

/-- The predicate of a number filter. Of two conditions at fault the first is reported. -/
def NumberFilter.predicate (f : NumberFilter) (field : String) : Except Fault Expr :=
  match f with
  | .single condition => condition.predicate field
  | .compound combinator first second => do
    let a ← first.predicate field
    let b ← second.predicate field
    match combinator with
    | .and => return .and [a, b]
    | .or => return .or [a, b]

/-! ## Dates -/

namespace DateFilter

/-- A bound of the filter; it has to be there. -/
def bound (field name : String) (value : Option Int64) : Except Fault Int64 :=
  match value with
  | some millis => .ok millis
  | none => .error (.validation (.dateBoundMissing field name))

/-- The interval that a bound stands for: the instant alone, or its day. -/
def span (f : DateFilter) (settings : FilterSettings) (millis : Int64) :
    Except Fault (Int64 × Int64) :=
  if f.exact then .ok (millis, millis) else settings.dayBounds millis

/-- The predicate of a date filter. -/
def predicate (f : DateFilter) (settings : FilterSettings) (field : String) : Except Fault Expr :=
  let lower := bound field "dateFrom" f.lower
  let day := lower >>= f.span settings
  match f.operator with
  | .present => .ok (.present field true)
  | .absent => .ok (.present field false)
  | .equals =>
    if f.exact then lower.map fun m => .eq field (.dateTime m)
    else day.map fun d => .and [.gte field (.dateTime d.1), .lte field (.dateTime d.2)]
  | .notEqual =>
    if f.exact then lower.map fun m => .ne field (.dateTime m)
    else day.map fun d => .or [.lt field (.dateTime d.1), .gt field (.dateTime d.2)]
  | .lessThan => day.map fun d => .lt field (.dateTime d.1)
  | .lessThanOrEqual => day.map fun d => .lte field (.dateTime d.2)
  | .greaterThan => day.map fun d => .gt field (.dateTime d.2)
  | .greaterThanOrEqual => day.map fun d => .gte field (.dateTime d.1)
  | .inRange => do
    let first ← day
    let last ← bound field "dateTo" f.upper >>= f.span settings
    return .and [.gte field (.dateTime first.1), .lte field (.dateTime last.2)]

end DateFilter

/-! ## Booleans, sets and exact matches -/

/-- The predicate of a boolean filter. -/
def BooleanFilter.predicate? (f : BooleanFilter) (field : String) : Option Expr :=
  match f.operator.getD .equals with
  | .equals => some (.eq field (.boolean f.operand))
  | .notEqual => some (.ne field (.boolean f.operand))
  | _ => none

namespace FilterSettings

/-- Whether an operand stands for blank: null, the empty string or the sentinel. -/
def isBlank (settings : FilterSettings) : Value → Bool
  | .null => true
  | .string s => s.isEmpty || s == settings.blankSentinel
  | _ => false

end FilterSettings

namespace SetFilter

/-- Every stored form of nothing: absent, null, the empty string, the empty list. -/
def blank (field : String) : Expr :=
  .or [.present field false, .eq field .null, .eq field (.string ""), .eq field (.array [])]

/-- No stored form of nothing. -/
def notBlank (field : String) : Expr :=
  .and [.present field true, .ne field .null, .ne field (.string ""), .ne field (.array [])]

/-- One clause for the operands that are not blank and one for blank, each if there is need. -/
def clauses (f : SetFilter) (settings : FilterSettings) (ofOperands : List Value → Expr)
    (ofBlank : Expr) : List Expr :=
  let (blanks, operands) := f.operands.partition settings.isBlank
  (if operands.isEmpty then [] else [ofOperands operands]) ++
    (if blanks.isEmpty then [] else [ofBlank])

/-- Nothing for no clause, a single clause itself, and several joined. -/
def joined (join : List Expr → Expr) : List Expr → Option Expr
  | [] => none
  | [clause] => some clause
  | several => some (join several)

/-- The predicate of a set filter. -/
def predicate? (f : SetFilter) (settings : FilterSettings) (field : String) : Option Expr :=
  match f.operator.getD .equals with
  | .equals => joined .or (f.clauses settings (.anyOf field) (blank field))
  | .notEqual => joined .and (f.clauses settings (.noneOf field) (notBlank field))
  | _ => none

end SetFilter

/-- The predicate of an exact-match filter; without an operand it is about null. -/
def ExactFilter.predicate? (f : ExactFilter) (field : String) : Option Expr :=
  let operand := Value.ofOption f.operand
  match f.operator.getD .equals with
  | .equals => some (.eq field operand)
  | .notEqual => some (.ne field operand)
  | .present => some (.present field true)
  | .absent => some (.present field false)
  | _ => none

/-- The predicate that a column filter puts on a field, if any. -/
def ColumnFilter.predicate (settings : FilterSettings) (field : String) :
    ColumnFilter → Except Fault (Option Expr)
  | .number f => (f.predicate field).map some
  | .date f => (f.predicate settings field).map some
  | .boolean f => .ok (f.predicate? field)
  | .set f => .ok (f.predicate? settings field)
  | .exact f => .ok (f.predicate? field)
  | .unsupported => .ok none

end Dossier
