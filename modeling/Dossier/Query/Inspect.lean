/-
The inspection forms of predicates and queries.
-/
import Dossier.Query.Expr
import Dossier.Value.Inspect

namespace Dossier

open Inspect

def Comparison.inspect : Comparison → String
  | .eq => "Eq"
  | .ne => "Ne"
  | .gt => "Gt"
  | .gte => "Gte"
  | .lt => "Lt"
  | .lte => "Lte"
  | .anyOf => "AnyOf"
  | .noneOf => "NoneOf"

namespace Expr

mutual

/-- The inspection form of a predicate. -/
def inspect : Expr → String
  | and exprs => "And(" ++ bracketed (inspectAll exprs) ++ ")"
  | or exprs => "Or(" ++ bracketed (inspectAll exprs) ++ ")"
  | not expr => "Not(" ++ inspect expr ++ ")"
  | present path expected => "Exists(" ++ quoted path ++ ", " ++ toString expected ++ ")"
  | field name op operand => record "Field"
      [("field", quoted name), ("op", op.inspect), ("value", operand.inspect)]

/-- The inspection forms of several predicates. -/
def inspectAll : List Expr → List String
  | [] => []
  | expr :: rest => inspect expr :: inspectAll rest

end

end Expr

def Direction.inspect : Direction → String
  | .ascending => "Asc"
  | .descending => "Desc"

def SortKey.inspect (key : SortKey) : String :=
  record "Sort" [("field", quoted key.field), ("direction", key.direction.inspect)]

/-- An optional part, shown with the given form. -/
def inspectOption {α : Type} (form : α → String) : Option α → String
  | some a => "Some(" ++ form a ++ ")"
  | none => "None"

/-- The inspection form of a query. -/
def Query.inspect (q : Query) : String :=
  record "Query"
    [("filter", inspectOption Expr.inspect q.filter), ("limit", inspectOption toString q.limit),
      ("offset", inspectOption toString q.offset), ("sort", bracketed (q.sort.map SortKey.inspect))]

end Dossier
