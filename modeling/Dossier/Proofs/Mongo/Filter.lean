/-
The meaning of filter documents. They are read on their own, without the predicates that they were made from: every
entry has to be matched, a key that begins with a dollar sign joins filter documents, and any other key names a field
with conditions on it. The filter document of a predicate can be read, and it matches the documents that satisfy the
predicate.
-/
import Dossier.Mongo.Filter
import Dossier.Proofs.Mongo.Escape
import Dossier.Proofs.Query.Evaluation

namespace Dossier.Mongo

/-! ## Reading filter documents -/

/-- Whether a key is written as the name of an operator. -/
def isOperator (key : String) : Bool := key.toList.head? == some '$'

/-- The comparison that an operator stands for. -/
def comparison? : String → Option Comparison
  | "$eq" => some .eq
  | "$ne" => some .ne
  | "$gt" => some .gt
  | "$gte" => some .gte
  | "$lt" => some .lt
  | "$lte" => some .lte
  | "$in" => some .anyOf
  | "$nin" => some .noneOf
  | _ => none

/-- What an operator makes of the results of the filter documents that it joins. -/
def connective? : String → Option (List Bool → Bool)
  | "$and" => some fun results => results.all id
  | "$or" => some fun results => results.any id
  | "$nor" => some fun results => !results.any id
  | _ => none

/-- Whether a field of a document meets a condition. -/
def meets? (doc : Value) (field operator : String) (operand : Value) : Option Bool :=
  match operator, operand with
  | "$exists", .boolean expected => some ((doc.lookup field).isSome == expected)
  | _, _ => (comparison? operator).bind fun op => (op.test doc field operand).toOption

mutual

/-- Whether a document matches all entries of a filter document, so that the empty filter document matches
everything. There is no answer where an entry has no meaning. -/
def matches? (doc : Value) : Document → Option Bool
  | [] => some true
  | (key, v) :: rest => do
    let first ← matchesClause? doc key v
    let others ← matches? doc rest
    return first && others

/-- Whether a document matches one entry: an operator with the filter documents that it joins, or a field with
conditions that all have to be met. Neither may be without any. -/
def matchesClause? (doc : Value) (key : String) : Value → Option Bool
  | .array [] => none
  | .array filters => do
    let join ← connective? key
    let results ← matchesEach? doc filters
    return join results
  | .document [] => none
  | .document conditions =>
    if isOperator key then none
    else (conditions.mapM fun c => meets? doc key c.1 c.2).map (·.all id)
  | _ => none

/-- Which of several filter documents a document matches. -/
def matchesEach? (doc : Value) : List Value → Option (List Bool)
  | [] => some []
  | .document filter :: rest => do
    let first ← matches? doc filter
    let others ← matchesEach? doc rest
    return first :: others
  | _ :: _ => none

end

/-- An operator is never read as a field. -/
example (doc : Value) : matches? doc [("$and", .document [("$eq", .null)])] = none := rfl

variable {doc v operand : Value} {d filter : Document} {filters : List Value} {results : List Bool} {b : Bool}
  {key name : String}

/-- A filter document with one entry has the meaning of that entry. -/
theorem matches?_singleton (h : matchesClause? doc key v = some b) : matches? doc [(key, v)] = some b := by
  rw [matches?, h]
  simp [matches?]

theorem matchesClause?_array {join : List Bool → Bool} (hkey : connective? key = some join)
    (h : matchesEach? doc filters = some results) (hne : results ≠ []) :
    matchesClause? doc key (.array filters) = some (join results) := by
  cases filters with
  | nil => cases h; exact (hne rfl).elim
  | cons first rest =>
    rw [matchesClause?, hkey, h]
    · rfl
    · exact List.cons_ne_nil _ _

theorem matchesClause?_document {operator : String} (hkey : isOperator key = false)
    (h : meets? doc key operator v = some b) : matchesClause? doc key (.document [(operator, v)]) = some b := by
  rw [matchesClause?, hkey]
  · simp [h]
  · exact List.cons_ne_nil _ _

theorem matchesEach?_singleton (h : matches? doc filter = some b) :
    matchesEach? doc [.document filter] = some [b] := by
  rw [matchesEach?, h]
  rfl

theorem meets?_operatorName (op : Comparison) (h : op.test doc name operand = .ok b) :
    meets? doc name (operatorName op) operand = some b := by
  cases op <;> simp [meets?, operatorName, comparison?, h, Except.toOption]

/-! ## Which predicates have a filter document -/

variable {e : Expr} {exprs : List Expr} {op : Comparison}

theorem filterDocument_and_ok (h : filterDocument (.and exprs) = .ok d) : exprs = [] ∧ d = [] ∨
    ∃ filters, exprs ≠ [] ∧ filterDocuments exprs = .ok filters ∧ d = [("$and", .array filters)] := by
  cases exprs with
  | nil => cases h; exact .inl ⟨rfl, rfl⟩
  | cons e exprs =>
    obtain ⟨filters, hf, rfl⟩ := except_map_ok h
    exact .inr ⟨filters, List.cons_ne_nil _ _, hf, rfl⟩

theorem filterDocument_or_ok (h : filterDocument (.or exprs) = .ok d) :
    exprs = [] ∧ d = [("$nor", .array [.document []])] ∨
      ∃ filters, exprs ≠ [] ∧ filterDocuments exprs = .ok filters ∧ d = [("$or", .array filters)] := by
  cases exprs with
  | nil => cases h; exact .inl ⟨rfl, rfl⟩
  | cons e exprs =>
    obtain ⟨filters, hf, rfl⟩ := except_map_ok h
    exact .inr ⟨filters, List.cons_ne_nil _ _, hf, rfl⟩

theorem filterDocument_not_ok (h : filterDocument (.not e) = .ok d) :
    ∃ filter, filterDocument e = .ok filter ∧ d = [("$nor", .array [.document filter])] := by
  obtain ⟨filter, hf, rfl⟩ := except_map_ok h
  exact ⟨filter, hf, rfl⟩

theorem isArray_escape (v : Value) : isArray (escape v) = isArray v := by
  cases v <;> rfl

theorem fieldCondition_eq_ok_iff : fieldCondition name op operand = .ok d ↔
    (isMembership op = true → isArray operand = true) ∧
      d = [(name, .document [(operatorName op, escape operand)])] := by
  rw [← isArray_escape operand]
  unfold fieldCondition
  simp only
  split
  · rename_i h
    simp_all
  · rename_i h
    have hop : isMembership op = true → isArray (escape operand) = true := by simpa using h
    rw [and_iff_right hop, Except.ok.injEq, eq_comm]

theorem wellFormed_field_iff :
    (Expr.field name op operand).WellFormed ↔ (isMembership op = true → isArray operand = true) := by
  constructor
  · intro h
    cases h with
    | compares _ _ hop => cases op <;> simp_all [isMembership]
    | anyOf => exact fun _ => rfl
    | noneOf => exact fun _ => rfl
  · intro h
    cases hop : isMembership op with
    | false => exact .compares name operand (by constructor <;> rintro rfl <;> cases hop)
    | true =>
      cases operand with
      | array operands =>
        cases op with
        | anyOf => exact .anyOf name operands
        | noneOf => exact .noneOf name operands
        | _ => cases hop
      | _ => cases h hop

theorem filterDocuments_run (h : ∀ e ∈ exprs, ∃ d, filterDocument e = .ok d) :
    ∃ filters, filterDocuments exprs = .ok filters := by
  induction exprs with
  | nil => exact ⟨[], rfl⟩
  | cons e exprs ih =>
    rw [List.forall_mem_cons] at h
    obtain ⟨⟨d, hd⟩, hrest⟩ := h
    obtain ⟨filters, hf⟩ := ih hrest
    refine ⟨.document d :: filters, ?_⟩
    rw [filterDocuments, hd, hf]
    rfl

mutual

theorem wellFormed_of_filterDocument : ∀ {e : Expr} {d : Document}, filterDocument e = .ok d → e.WellFormed
  | .and exprs, d, h => by
    obtain ⟨rfl, -⟩ | ⟨filters, -, hf, -⟩ := filterDocument_and_ok h
    · exact .and fun _ he => absurd he List.not_mem_nil
    · exact .and (forall_wellFormed_of_filterDocuments hf)
  | .or exprs, d, h => by
    obtain ⟨rfl, -⟩ | ⟨filters, -, hf, -⟩ := filterDocument_or_ok h
    · exact .or fun _ he => absurd he List.not_mem_nil
    · exact .or (forall_wellFormed_of_filterDocuments hf)
  | .not e, d, h => by
    obtain ⟨filter, hf, -⟩ := filterDocument_not_ok h
    exact .not (wellFormed_of_filterDocument hf)
  | .present name expected, d, h => .present name expected
  | .field name op operand, d, h => wellFormed_field_iff.2 (fieldCondition_eq_ok_iff.1 h).1

theorem forall_wellFormed_of_filterDocuments : ∀ {exprs : List Expr} {filters : List Value},
    filterDocuments exprs = .ok filters → ∀ e ∈ exprs, e.WellFormed
  | [], _, _ => fun _ he => absurd he List.not_mem_nil
  | e :: exprs, filters, h => by
    obtain ⟨d, hd, h⟩ := except_bind_ok h
    obtain ⟨rest, hrest, -⟩ := except_bind_ok h
    exact List.forall_mem_cons.2 ⟨wellFormed_of_filterDocument hd, forall_wellFormed_of_filterDocuments hrest⟩

end

theorem filterDocument_of_wellFormed (h : e.WellFormed) : ∃ d, filterDocument e = .ok d := by
  induction h with
  | @and exprs _ ih =>
    obtain ⟨filters, hf⟩ := filterDocuments_run ih
    cases exprs with
    | nil => exact ⟨_, rfl⟩
    | cons e exprs => exact ⟨_, congrArg (Except.map _) hf⟩
  | @or exprs _ ih =>
    obtain ⟨filters, hf⟩ := filterDocuments_run ih
    cases exprs with
    | nil => exact ⟨_, rfl⟩
    | cons e exprs => exact ⟨_, congrArg (Except.map _) hf⟩
  | not _ ih =>
    obtain ⟨filter, hf⟩ := ih
    exact ⟨_, congrArg (Except.map _) hf⟩
  | present name expected => exact ⟨_, rfl⟩
  | compares name operand hop =>
    have hform := wellFormed_field_iff.1 (.compares name operand hop)
    exact ⟨_, fieldCondition_eq_ok_iff.2 ⟨hform, rfl⟩⟩
  | anyOf name operands => exact ⟨_, rfl⟩
  | noneOf name operands => exact ⟨_, rfl⟩

/-! ## What a filter document matches -/

/-- A predicate that names no field as operators are named, and whose operands are values that bind each key once,
as documents do, and have no special characters in their keys. -/
inductive Unreserved : Expr → Prop
  | and {exprs : List Expr} (h : ∀ e ∈ exprs, Unreserved e) : Unreserved (.and exprs)
  | or {exprs : List Expr} (h : ∀ e ∈ exprs, Unreserved e) : Unreserved (.or exprs)
  | not {e : Expr} (h : Unreserved e) : Unreserved (.not e)
  | present {name : String} (expected : Bool) (hname : isOperator name = false) :
    Unreserved (.present name expected)
  | field {name : String} {op : Comparison} {operand : Value} (hname : isOperator name = false)
    (hv : operand.WellKeyed) (hkeys : ∀ key ∈ operand.keysWithin, ∀ c ∈ key.toList, c ∉ specials) :
    Unreserved (.field name op operand)

theorem matchesEach?_filterDocuments (h : filterDocuments exprs = .ok filters)
    (hexprs : ∀ e ∈ exprs, ∀ {d}, filterDocument e = .ok d → matches? doc d = some (e.holds doc)) :
    matchesEach? doc filters = some (exprs.map (·.holds doc)) := by
  induction exprs generalizing filters with
  | nil => cases h; rfl
  | cons e exprs ih =>
    rw [List.forall_mem_cons] at hexprs
    obtain ⟨d, hd, h⟩ := except_bind_ok h
    obtain ⟨rest, hrest, h⟩ := except_bind_ok h
    cases h
    rw [matchesEach?, hexprs.1 hd, ih hrest hexprs.2]
    rfl

/-- The filter document of a predicate matches the documents that satisfy the predicate. -/
theorem matches?_filterDocument (h : Unreserved e) (hd : filterDocument e = .ok d) (doc : Value) :
    matches? doc d = some (e.holds doc) := by
  induction h generalizing d with
  | @and exprs _ ih =>
    obtain ⟨rfl, rfl⟩ | ⟨filters, hne, hf, rfl⟩ := filterDocument_and_ok hd
    · rfl
    · have hdecides := fun e he => (forall_wellFormed_of_filterDocuments hf e he).decides doc
      have heach := matchesEach?_filterDocuments hf ih
      rw [matches?_singleton (matchesClause?_array rfl heach (by simpa using hne)),
        Expr.holds_of_eval (Expr.eval_and hdecides), List.all_map]
      rfl
  | @or exprs _ ih =>
    obtain ⟨rfl, rfl⟩ | ⟨filters, hne, hf, rfl⟩ := filterDocument_or_ok hd
    · rfl
    · have hdecides := fun e he => (forall_wellFormed_of_filterDocuments hf e he).decides doc
      have heach := matchesEach?_filterDocuments hf ih
      rw [matches?_singleton (matchesClause?_array rfl heach (by simpa using hne)),
        Expr.holds_of_eval (Expr.eval_or hdecides), List.any_map]
      rfl
  | not _ ih =>
    obtain ⟨filter, hf, rfl⟩ := filterDocument_not_ok hd
    have heach := matchesEach?_singleton (ih hf)
    rw [matches?_singleton (matchesClause?_array rfl heach (List.cons_ne_nil _ _)),
      Expr.holds_of_eval (Expr.eval_not ((wellFormed_of_filterDocument hf).decides doc))]
    simp
  | @present name expected hname =>
    cases hd
    exact matches?_singleton (matchesClause?_document hname rfl)
  | @field name op operand hname hv hkeys =>
    have hdecides := (wellFormed_of_filterDocument hd).decides doc
    obtain ⟨-, rfl⟩ := fieldCondition_eq_ok_iff.1 hd
    rw [escape_eq_self hv hkeys]
    exact matches?_singleton (matchesClause?_document hname (meets?_operatorName op hdecides.eval))

/-- A predicate has a filter document if and only if each of its membership tests has an array to search, and the
filter document then matches exactly the documents that satisfy the predicate. -/
theorem filterDocument_meaning (h : Unreserved e) :
    ((∃ d, filterDocument e = .ok d) ↔ e.WellFormed) ∧
      ∀ d, filterDocument e = .ok d → ∀ doc, ∃ b, e.eval doc = .ok b ∧ matches? doc d = some b := by
  refine ⟨⟨fun ⟨_, hd⟩ => wellFormed_of_filterDocument hd, filterDocument_of_wellFormed⟩, fun d hd doc => ?_⟩
  exact ⟨e.holds doc, ((wellFormed_of_filterDocument hd).decides doc).eval, matches?_filterDocument h hd doc⟩

/-- Denied denials, empty connectives inside others, a membership test and a document as operand. -/
theorem filterDocument_meaning_nested :
    let e : Expr := .and [.not (.not (.and [])), .not (.or []), .or [.anyOf "status" [.string "open"],
      .present "status" false], .ne "cost" (.document [("eur", .int32 10)])]
    Unreserved e ∧ ∃ d, filterDocument e = .ok d ∧ ∀ doc, ∃ b, e.eval doc = .ok b ∧ matches? doc d = some b := by
  intro e
  have hkeys : ∀ key ∈ (Value.document [("eur", .int32 10)]).keysWithin, ∀ c ∈ key.toList, c ∉ specials := by
    simp [Value.keysWithin, Value.keysWithinEntries, specials]
  have hcost : Unreserved (.ne "cost" (.document [("eur", .int32 10)])) :=
    .field (by decide) (.document (by decide) (List.forall_mem_singleton.2 (.scalar rfl))) hkeys
  have hopen : Unreserved (.anyOf "status" [.string "open"]) :=
    .field (by decide) (.array (List.forall_mem_singleton.2 (.scalar rfl))) (by decide)
  have hstatus : Unreserved (.or [.anyOf "status" [.string "open"], .present "status" false]) :=
    .or (List.forall_mem_cons.2 ⟨hopen, List.forall_mem_singleton.2 (.present false (by decide))⟩)
  have hempty : ∀ e ∈ ([] : List Expr), Unreserved e := fun _ he => absurd he List.not_mem_nil
  have he : Unreserved e := .and (List.forall_mem_cons.2 ⟨.not (.not (.and hempty)), List.forall_mem_cons.2
    ⟨.not (.or hempty), List.forall_mem_cons.2 ⟨hstatus, List.forall_mem_singleton.2 hcost⟩⟩⟩)
  have hd : filterDocument e = .ok [("$and", .array [
      .document [("$nor", .array [.document [("$nor", .array [.document []])]])],
      .document [("$nor", .array [.document [("$nor", .array [.document []])]])],
      .document [("$or", .array [.document [("status", .document [("$in", .array [.string "open"])])],
        .document [("status", .document [("$exists", .boolean false)])]])],
      .document [("cost", .document [("$ne", .document [("eur", .int32 10)])])]])] := rfl
  exact ⟨he, _, hd, (filterDocument_meaning he).2 _ hd⟩

end Dossier.Mongo
