/-
Predicates as filter documents of MongoDB, and sort directives as sort documents.
-/
import Dossier.Fault
import Dossier.Mongo.Escape
import Dossier.Query.Expr

namespace Dossier.Mongo

/-- The operator of a comparison. -/
def operatorName : Comparison → String
  | .eq => "$eq"
  | .ne => "$ne"
  | .gt => "$gt"
  | .gte => "$gte"
  | .lt => "$lt"
  | .lte => "$lte"
  | .anyOf => "$in"
  | .noneOf => "$nin"

/-- Whether a comparison tests membership in a list. -/
def isMembership : Comparison → Bool
  | .anyOf | .noneOf => true
  | _ => false

def isArray : Value → Bool
  | .array _ => true
  | _ => false

/-- The condition on one field. Keys inside the operand are escaped. -/
def fieldCondition (name : String) (op : Comparison) (operand : Value) : Except Fault Document :=
  let escaped := escape operand
  if isMembership op && !isArray escaped then .error (.validation (.membershipForm name))
  else .ok [(name, .document [(operatorName op, escaped)])]

mutual

/-- The filter document of a predicate. The empty document holds of everything, so a denial of it
stands for the empty disjunction. -/
def filterDocument : Expr → Except Fault Document
  | .and [] => .ok []
  | .and exprs => (filterDocuments exprs).map fun docs => [("$and", .array docs)]
  | .or [] => .ok [("$nor", .array [.document []])]
  | .or exprs => (filterDocuments exprs).map fun docs => [("$or", .array docs)]
  | .not expr => (filterDocument expr).map fun doc => [("$nor", .array [.document doc])]
  | .present name expected => .ok [(name, .document [("$exists", .boolean expected)])]
  | .field name op operand => fieldCondition name op operand

/-- The filter documents of several predicates, as values. -/
def filterDocuments : List Expr → Except Fault (List Value)
  | [] => .ok []
  | expr :: rest => do
    let doc ← filterDocument expr
    let docs ← filterDocuments rest
    return .document doc :: docs

end

/-- The sort document of directives. A repeated field keeps its first place and takes its last
direction. -/
def sortDocument (sort : List SortKey) : Document :=
  Entries.ofList <| sort.map fun key =>
    (key.field, .int32 (match key.direction with | .ascending => 1 | .descending => -1))

end Dossier.Mongo
