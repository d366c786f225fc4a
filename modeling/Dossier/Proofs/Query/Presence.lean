/-
Null and nothing. A field that is null and a field that is not there are told apart only by asking whether the field is
there, or by comparing it with null by order. No other predicate sees the difference, neither in its result nor in its
fault, and no order of documents does.
-/
import Dossier.Proofs.Filter.Membership
import Dossier.Proofs.Filter.Date

namespace Dossier

/-! ## Documents that read alike -/

namespace Value

variable {a b : Value} {es fs : Document}

/-- Values that have the same at every path, if null is read where nothing is. -/
def Alike (a b : Value) : Prop := ∀ path, a.atPath path = b.atPath path

theorem Alike.refl (a : Value) : a.Alike a := fun _ => rfl

theorem Alike.comparandAt (h : a.Alike b) (path : String) : a.comparandAt path = b.comparandAt path := by
  rw [comparandAt_eq, comparandAt_eq, h path]

/-- Nothing is found behind null, as nothing is found behind a field that is not there. -/
theorem getD_lookupSegments (rest : List String) (v : Option Value) :
    (v.bind (lookupSegments rest)).getD .null = (lookupSegments rest (v.getD .null)).getD .null := by
  cases v with
  | some v => rfl
  | none => cases rest <;> rfl

/-- Documents read alike if they do so entry by entry. -/
theorem alike_of_entries (h : ∀ key, (es.lookup key).getD .null = (fs.lookup key).getD .null) :
    (Value.document es).Alike (.document fs) := by
  intro path
  obtain ⟨first, rest, hs⟩ := List.exists_cons_of_ne_nil (Path.segments_ne_nil path)
  unfold atPath Value.lookup
  rw [hs, lookupSegments, lookupSegments, getD_lookupSegments, getD_lookupSegments, h first]

/-- Leaving out an entry that is null leaves a document that reads alike. -/
theorem alike_erase {key : String} (h : es.lookup key = some .null) :
    (Value.document es).Alike (.document (Entries.erase key es)) := by
  apply alike_of_entries
  intro name
  rw [Entries.lookup_erase]
  by_cases hname : name = key
  · rw [if_pos hname, hname, h]
    rfl
  · rw [if_neg hname]

end Value

/-! ## Predicates -/

namespace Expr

variable {a b operand : Value} {e : Expr} {exprs : List Expr} {field : String} {op : Comparison}

/-- A range comparison with anything but null passes over fields that are null. -/
theorem satisfies_null (hn : operand.isNothing = false) : Comparand.satisfies op (.ofValue operand) .null = false := by
  cases operand <;> first | rfl | cases hn

/-- So it makes no difference that fields are passed over that are not there. -/
theorem eval_range_something (hop : op.IsRange) (hn : operand.isNothing = false) (doc : Value) :
    (Expr.field field op operand).eval doc =
      .ok (Comparand.satisfies op (.ofValue operand) (doc.comparandAt field)) := by
  rw [eval_range hop, Value.comparandAt]
  cases doc.lookup field with
  | none => rw [satisfies_null hn]; rfl
  | some v => rfl

/-- A predicate that never asks whether a field is there, and never compares one by order with null or undefined. -/
inductive Oblivious : Expr → Prop
  | and {exprs : List Expr} (h : ∀ e ∈ exprs, Oblivious e) : Oblivious (.and exprs)
  | or {exprs : List Expr} (h : ∀ e ∈ exprs, Oblivious e) : Oblivious (.or exprs)
  | not {e : Expr} (h : Oblivious e) : Oblivious (.not e)
  | field {op : Comparison} {operand : Value} (name : String) (h : op.IsRange → operand.isNothing = false) :
    Oblivious (.field name op operand)

theorem eval_field_congr (hab : a.Alike b) (h : op.IsRange → operand.isNothing = false) :
    (Expr.field field op operand).eval a = (Expr.field field op operand).eval b := by
  have hat := hab.comparandAt field
  have hrange : op.IsRange → (Expr.field field op operand).eval a = (Expr.field field op operand).eval b := by
    intro hop
    rw [eval_range_something hop (h hop), eval_range_something hop (h hop), hat]
  cases op with
  | gt => exact hrange .gt
  | gte => exact hrange .gte
  | lt => exact hrange .lt
  | lte => exact hrange .lte
  | _ => simp only [Expr.eval, Comparison.test, hat]

theorem evalAll_congr (h : ∀ e ∈ exprs, e.eval a = e.eval b) : evalAll a exprs = evalAll b exprs := by
  induction exprs with
  | nil => rfl
  | cons e exprs ih =>
    rw [List.forall_mem_cons] at h
    rw [evalAll, evalAll, h.1, ih h.2]

theorem evalAny_congr (h : ∀ e ∈ exprs, e.eval a = e.eval b) : evalAny a exprs = evalAny b exprs := by
  induction exprs with
  | nil => rfl
  | cons e exprs ih =>
    rw [List.forall_mem_cons] at h
    rw [evalAny, evalAny, h.1, ih h.2]

/-- Documents that read alike have the same results and the same faults. -/
theorem Oblivious.eval_congr (h : e.Oblivious) (hab : a.Alike b) : e.eval a = e.eval b := by
  induction h with
  | and _ ih => exact evalAll_congr ih
  | or _ ih => exact evalAny_congr ih
  | not _ ih => rw [Expr.eval, Expr.eval, ih]
  | field name h => exact eval_field_congr hab h

end Expr

/-! ## The order of documents -/

variable {a b c d : Value}

theorem SortKey.compare_congr (hab : a.Alike b) (hcd : c.Alike d) (key : SortKey) :
    key.compare a c = key.compare b d := by
  unfold SortKey.compare
  rw [hab.comparandAt, hcd.comparandAt]

theorem compareDocuments_congr (hab : a.Alike b) (hcd : c.Alike d) (sort : List SortKey) :
    compareDocuments sort a c = compareDocuments sort b d := by
  induction sort with
  | nil => rfl
  | cons key rest ih => rw [compareDocuments, compareDocuments, key.compare_congr hab hcd, ih]

/-! ## Leaving out null -/

/-- A document with an entry that is null and the document without this entry have the same results and the same faults
under every predicate that does not ask for the difference, and the same place among all documents. -/
theorem Value.null_unseen {entries : Document} {key : String} (h : entries.lookup key = some .null) :
    (∀ e : Expr, e.Oblivious → e.eval (.document entries) = e.eval (.document (Entries.erase key entries))) ∧
    ∀ (sort : List SortKey) (other : Value),
      compareDocuments sort (.document entries) other =
          compareDocuments sort (.document (Entries.erase key entries)) other ∧
        compareDocuments sort other (.document entries) =
          compareDocuments sort other (.document (Entries.erase key entries)) := by
  have halike := alike_erase h
  refine ⟨fun e he => he.eval_congr halike, fun sort other => ⟨?_, ?_⟩⟩
  · exact compareDocuments_congr halike (.refl other) sort
  · exact compareDocuments_congr (.refl other) halike sort

/-- A customer whose city is null: paths that end at the city and paths through it, and a fault after two clauses that
hold. -/
theorem Value.null_unseen_city :
    let entries : Document := [("city", .null), ("age", .int32 3)]
    let e : Expr := .and [.or [.gt "city" (.string "A"), .anyOf "city" [.null]], .not (.ne "city.zip" .null),
      .field "city" .noneOf (.string "Oslo")]
    let sort : List SortKey := [⟨"city", .descending⟩, ⟨"age", .ascending⟩]
    entries.lookup "city" = some .null ∧ e.Oblivious ∧
    e.eval (.document entries) = .error (.validation (.membershipOperand "city")) ∧
    e.eval (.document (Entries.erase "city" entries)) = .error (.validation (.membershipOperand "city")) ∧
    compareDocuments sort (.document (Entries.erase "city" entries)) (.document [("city", .string "Oslo")]) =
      compareDocuments sort (.document entries) (.document [("city", .string "Oslo")]) := by
  intro entries e sort
  have hgt : (Expr.gt "city" (.string "A")).Oblivious := .field _ fun _ => rfl
  have hany : (Expr.anyOf "city" [.null]).Oblivious := .field _ fun hop => nomatch hop
  have hne : (Expr.ne "city.zip" .null).Oblivious := .field _ fun hop => nomatch hop
  have hnone : (Expr.field "city" .noneOf (.string "Oslo")).Oblivious := .field _ fun _ => rfl
  have he : e.Oblivious := .and (List.forall_mem_cons.2
    ⟨.or (List.forall_mem_cons.2 ⟨hgt, List.forall_mem_singleton.2 hany⟩),
      List.forall_mem_cons.2 ⟨.not hne, List.forall_mem_singleton.2 hnone⟩⟩)
  have hfault : e.eval (.document entries) = .error (.validation (.membershipOperand "city")) := rfl
  obtain ⟨heval, hcompare⟩ := null_unseen (show entries.lookup "city" = some .null from rfl)
  exact ⟨rfl, he, hfault, (heval e he).symm.trans hfault, (hcompare sort _).1.symm⟩

/-- The two ways to ask for the difference: whether the field is there, and whether it is at least null. -/
example : (Expr.present "city" true).eval (.document [("city", .null)]) = .ok true ∧
    (Expr.present "city" true).eval (.document []) = .ok false ∧
    (Expr.gte "city" .null).eval (.document [("city", .null)]) = .ok true ∧
    (Expr.gte "city" .null).eval (.document []) = .ok false := ⟨rfl, rfl, rfl, rfl⟩

end Dossier
