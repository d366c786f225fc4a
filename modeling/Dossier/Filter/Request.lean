/-
Filter requests of a data grid and their compilation into one predicate and one ordering.
-/
import Dossier.Config
import Dossier.Filter.Json
import Dossier.Filter.Predicate
import Dossier.Filter.Stored
import Dossier.Page

namespace Dossier

/-- A request for one page of the entities that satisfy all its column filters. -/
structure FilterRequest where
  page : Int64 := 0
  size : Int64 := 20
  /-- One filter per field, in the order of the field names. -/
  filters : List (String × ColumnFilter) := []
  sort : List SortKey := []
  /-- Accept dotted paths into filterable fields. -/
  deep : Bool := false

/-- A predicate and an ordering. -/
structure CompiledQuery where
  filter : Expr
  sort : List SortKey

namespace FilterRequest

open Json

/-- Reads one filter per member, in the order of the names. -/
def filtersOfJson? (j : Json) : Option (List (String × ColumnFilter)) := do
  let members ← j.members?
  let filters ← members.mapM fun (field, m) => (ColumnFilter.ofJson? m).map (field, ·)
  return Entries.sorted (Entries.ofList filters)

/-- Reads a request; every member may be left out. -/
def ofJson? (j : Json) : Option FilterRequest := do
  let _ ← j.members?
  let page ← withDefault int64? 0 "page" j
  let size ← withDefault int64? 20 "size" j
  let filters ← withDefault filtersOfJson? [] "filters" j
  let sort ← withDefault (listOf? SortKey.ofJson?) [] "sort" j
  let deep ← withDefault boolean? false "deepFilter" j
  return { page, size, filters, sort, deep }

/-- A request as a stored value. -/
def toValue (r : FilterRequest) : Value :=
  .document
    [("page", .int64 r.page), ("size", .int64 r.size),
      ("filters", .document (r.filters.map fun (field, f) => (field, f.toValue))),
      ("sort", .array (r.sort.map SortKey.toValue)), ("deepFilter", .boolean r.deep)]

def pageRequest (r : FilterRequest) : Except Fault PageRequest := PageRequest.ofSigned r.page r.size

end FilterRequest

/-! ## Compilation -/

/-- Keeps the first directive of each field. -/
def dedupSort : List SortKey → List SortKey
  | [] => []
  | key :: rest => key :: (dedupSort rest).filter (·.field != key.field)

namespace Config

/-- The directives to sort by: those given, or the configured ones when none are, with the first
directive of each field. -/
def ordering (c : Config) (sort : List SortKey) : List SortKey :=
  dedupSort (if sort.isEmpty then c.defaultSort else sort)

/-- The clause that one filter adds, if any. -/
def clause (c : Config) (deep : Bool) (field : String) (filter : ColumnFilter) :
    Except Fault (Option Expr) :=
  if c.isFilterable field deep then filter.predicate c.filterSettings field
  else .error (.validation (.notFilterable field))

/-- The clauses of all filters, in order. The first fault ends it. -/
def clauses (c : Config) (deep : Bool) : List (String × ColumnFilter) → Except Fault (List Expr)
  | [] => .ok []
  | (field, filter) :: rest => do
    let clause ← c.clause deep field filter
    let more ← clauses c deep rest
    return clause.toList ++ more

/-- One predicate for all filters, with the ordering. -/
def compile (c : Config) (filters : List (String × ColumnFilter)) (sort : List SortKey)
    (deep : Bool) : Except Fault CompiledQuery :=
  (c.clauses deep filters).map fun exprs => ⟨.and exprs, c.ordering sort⟩

/-- Compiles a request, checking its page parameters first. -/
def compileRequest (c : Config) (r : FilterRequest) : Except Fault (CompiledQuery × PageRequest) :=
  do
    let page ← r.pageRequest
    let compiled ← c.compile r.filters r.sort r.deep
    return (compiled, page)

end Config

end Dossier
