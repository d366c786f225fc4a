/-
Column filters as a data grid describes them: one condition on one field, by the kind of its
values.
-/
import Dossier.Value.Basic

namespace Dossier

/-- The condition that a filter puts on its field. -/
inductive FilterOperator where
  | equals
  | notEqual
  | lessThan
  | lessThanOrEqual
  | greaterThan
  | greaterThanOrEqual
  | inRange
  | present
  | absent
  deriving DecidableEq

/-- How the two conditions of a compound filter are joined. -/
inductive Combinator where
  | and
  | or
  deriving DecidableEq

/-- A condition on a number. -/
structure NumberCondition where
  operator : FilterOperator
  operand : Option Double := none
  /-- The upper end of a range. -/
  upper : Option Double := none
  deriving DecidableEq

/-- One condition on a number, or two. -/
inductive NumberFilter where
  | single (condition : NumberCondition)
  | compound (combinator : Combinator) (first second : NumberCondition)
  deriving DecidableEq

/-- A condition on an instant, with bounds in milliseconds. Unless it is exact, the bounds stand for
whole calendar days. -/
structure DateFilter where
  operator : FilterOperator
  lower : Option Int64 := none
  upper : Option Int64 := none
  exact : Bool := false
  deriving DecidableEq

/-- A condition on a boolean. -/
structure BooleanFilter where
  operator : Option FilterOperator := none
  operand : Bool
  deriving DecidableEq

/-- Membership in a list of values, or exclusion from it. -/
structure SetFilter where
  operator : Option FilterOperator := none
  operands : List Value := []

/-- Equality with one value, or presence. -/
structure ExactFilter where
  operator : Option FilterOperator := none
  operand : Option Value := none

/-- A column filter. A kind of filter that is not known constrains nothing. -/
inductive ColumnFilter where
  | number (filter : NumberFilter)
  | date (filter : DateFilter)
  | boolean (filter : BooleanFilter)
  | set (filter : SetFilter)
  | exact (filter : ExactFilter)
  | unsupported

namespace FilterOperator

/-- The operators in order. -/
def all : List FilterOperator :=
  [equals, notEqual, lessThan, lessThanOrEqual, greaterThan, greaterThanOrEqual, inRange, present,
    absent]

/-- The name of an operator. -/
def name : FilterOperator → String
  | equals => "equals"
  | notEqual => "notEqual"
  | lessThan => "lessThan"
  | lessThanOrEqual => "lessThanOrEqual"
  | greaterThan => "greaterThan"
  | greaterThanOrEqual => "greaterThanOrEqual"
  | inRange => "inRange"
  | present => "exists"
  | absent => "notExists"

/-- Reads an operator by its name; absence has a second one. -/
def ofName? (s : String) : Option FilterOperator :=
  if s = "doesNotExist" then some absent else all.find? (·.name == s)

end FilterOperator

namespace Combinator

def name : Combinator → String
  | and => "AND"
  | or => "OR"

/-- Reads a combinator in upper or lower case. -/
def ofName? : String → Option Combinator
  | "AND" | "and" => some and
  | "OR" | "or" => some or
  | _ => none

end Combinator

end Dossier
