/-
Predicates over documents, sort directives, and the query that puts them together. Field names are
dotted paths into nested documents.
-/
import Dossier.Value.Basic

namespace Dossier

/-- How a field is compared with an operand. -/
inductive Comparison where
  | eq
  | ne
  | gt
  | gte
  | lt
  | lte
  /-- The field, or an element of it, equals one of the operands. -/
  | anyOf
  /-- Neither the field nor an element of it equals one of the operands. -/
  | noneOf
  deriving DecidableEq

/-- A predicate. The empty conjunction holds of every document, the empty disjunction of none. -/
inductive Expr where
  | and (exprs : List Expr)
  | or (exprs : List Expr)
  | not (expr : Expr)
  /-- Whether the field is present is as expected. -/
  | present (field : String) (expected : Bool)
  | field (name : String) (op : Comparison) (operand : Value)

namespace Expr

instance : Inhabited Expr := ⟨and []⟩

def eq (name : String) (operand : Value) : Expr := field name .eq operand

def ne (name : String) (operand : Value) : Expr := field name .ne operand

def gt (name : String) (operand : Value) : Expr := field name .gt operand

def gte (name : String) (operand : Value) : Expr := field name .gte operand

def lt (name : String) (operand : Value) : Expr := field name .lt operand

def lte (name : String) (operand : Value) : Expr := field name .lte operand

def anyOf (name : String) (operands : List Value) : Expr := field name .anyOf (.array operands)

def noneOf (name : String) (operands : List Value) : Expr := field name .noneOf (.array operands)

/-- The predicate that holds of every document. -/
def all : Expr := and []

/-- Conjunction with one more predicate; a conjunction on the left is extended, not nested. -/
def andAlso : Expr → Expr → Expr
  | and exprs, other => and (exprs ++ [other])
  | expr, other => and [expr, other]

/-- Disjunction with one more predicate; a disjunction on the left is extended, not nested. -/
def orElse : Expr → Expr → Expr
  | or exprs, other => or (exprs ++ [other])
  | expr, other => or [expr, other]

/-- Whether a predicate is literally the one that holds of every document. -/
def isAll : Expr → Bool
  | and [] => true
  | _ => false

end Expr

/-- The direction of a sort directive. -/
inductive Direction where
  | ascending
  | descending
  deriving DecidableEq

/-- One sort directive. In a list of them, each breaks the ties of those before it. -/
structure SortKey where
  field : String
  direction : Direction
  deriving DecidableEq

/-- A selection of documents: those that satisfy the filter, in order, from an offset on and at most
as many as the limit. -/
structure Query where
  filter : Option Expr := none
  limit : Option Nat := none
  offset : Option Nat := none
  sort : List SortKey := []

end Dossier
