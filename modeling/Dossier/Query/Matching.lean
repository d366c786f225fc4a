/-
Which documents satisfy a predicate, and how documents are ordered by sort directives. A missing
field counts as null for equality, membership and sorting, and satisfies no range comparison.
-/
import Dossier.Fault
import Dossier.Query.Comparand
import Dossier.Query.Expr
import Dossier.Query.Path

namespace Dossier

/-- What comparison sees at a path, null when nothing is there. -/
def Value.comparandAt (v : Value) (path : String) : Comparand :=
  match v.lookup path with
  | some found => .ofValue found
  | none => .null

/-- Whether a field hits one of the operands of a membership test. -/
def hitsAny (field : String) (stored operand : Comparand) : Except Fault Bool :=
  match operand with
  | .array operands => .ok (operands.any stored.hits)
  | _ => .error (.validation (.membershipOperand field))

/-- Compares a field of a document with an operand. -/
def Comparison.test (op : Comparison) (doc : Value) (field : String) (operand : Value) :
    Except Fault Bool :=
  let stored := doc.comparandAt field
  let right := Comparand.ofValue operand
  match op with
  | .eq => .ok (stored.hits right)
  | .ne => .ok (!stored.hits right)
  | .anyOf => hitsAny field stored right
  | .noneOf => (hitsAny field stored right).map (!·)
  | .gt | .gte | .lt | .lte =>
    .ok ((doc.lookup field).isSome && Comparand.satisfies op right stored)

namespace Expr

mutual

/-- Whether a document satisfies a predicate. Conjunctions and disjunctions are decided from the
left and stop as soon as they are. -/
def eval (doc : Value) : Expr → Except Fault Bool
  | and exprs => evalAll doc exprs
  | or exprs => evalAny doc exprs
  | not expr =>
    match eval doc expr with
    | .ok b => .ok (!b)
    | .error fault => .error fault
  | present path expected => .ok ((doc.lookup path).isSome == expected)
  | field name op operand => op.test doc name operand

/-- Whether a document satisfies all predicates. -/
def evalAll (doc : Value) : List Expr → Except Fault Bool
  | [] => .ok true
  | expr :: rest =>
    match eval doc expr with
    | .ok true => evalAll doc rest
    | .ok false => .ok false
    | .error fault => .error fault

/-- Whether a document satisfies one of the predicates. -/
def evalAny (doc : Value) : List Expr → Except Fault Bool
  | [] => .ok false
  | expr :: rest =>
    match eval doc expr with
    | .ok true => .ok true
    | .ok false => evalAny doc rest
    | .error fault => .error fault

end

end Expr

/-- Orders two documents by one directive. -/
def SortKey.compare (key : SortKey) (a b : Value) : Ordering :=
  match key.direction with
  | .ascending => (a.comparandAt key.field).sortCompare (b.comparandAt key.field)
  | .descending => (b.comparandAt key.field).sortCompare (a.comparandAt key.field)

/-- Orders two documents by a list of directives, each breaking the ties of those before it. -/
def compareDocuments : List SortKey → Value → Value → Ordering
  | [], _, _ => .eq
  | key :: rest, a, b => (key.compare a b).then (compareDocuments rest a b)

end Dossier
