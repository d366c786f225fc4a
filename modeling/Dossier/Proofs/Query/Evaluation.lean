/-
Predicates that are decided for every document. Only a membership test whose operand is no array can fail, so a
predicate in which every membership test has an array to search always yields an answer, and conjunctions and
disjunctions of such predicates are the conjunctions and disjunctions of the answers.
-/
import Dossier.Proofs.Query.Field

namespace Dossier.Expr

variable {exprs : List Expr} {expr : Expr} {doc : Value}

/-! ## Lists of predicates -/

theorem evalAll_of_decides : ∀ {exprs : List Expr}, (∀ e ∈ exprs, e.Decides doc) →
    evalAll doc exprs = .ok (exprs.all (·.holds doc))
  | [], _ => rfl
  | e :: rest, h => by
    rw [List.forall_mem_cons] at h
    rw [evalAll, h.1.eval, List.all_cons]
    cases e.holds doc with
    | true => exact evalAll_of_decides h.2
    | false => rfl

theorem evalAny_of_decides : ∀ {exprs : List Expr}, (∀ e ∈ exprs, e.Decides doc) →
    evalAny doc exprs = .ok (exprs.any (·.holds doc))
  | [], _ => rfl
  | e :: rest, h => by
    rw [List.forall_mem_cons] at h
    rw [evalAny, h.1.eval, List.any_cons]
    cases e.holds doc with
    | true => rfl
    | false => exact evalAny_of_decides h.2

theorem eval_and (h : ∀ e ∈ exprs, e.Decides doc) : (and exprs).eval doc = .ok (exprs.all (·.holds doc)) :=
  evalAll_of_decides h

theorem eval_or (h : ∀ e ∈ exprs, e.Decides doc) : (or exprs).eval doc = .ok (exprs.any (·.holds doc)) :=
  evalAny_of_decides h

theorem eval_not (h : expr.Decides doc) : (not expr).eval doc = .ok (!expr.holds doc) := by
  rw [Expr.eval, h.eval]

/-- One more predicate at the end, also when the ones before are decided without asking all of them. -/
theorem evalAll_append {b : Bool} (h : expr.Decides doc) : ∀ {exprs : List Expr}, evalAll doc exprs = .ok b →
    evalAll doc (exprs ++ [expr]) = .ok (b && expr.holds doc)
  | [], hb => by
    cases hb
    rw [List.nil_append, evalAll_of_decides (List.forall_mem_singleton.2 h), List.all_cons, List.all_nil, Bool.and_true,
      Bool.true_and]
  | e :: rest, hb => by
    rw [List.cons_append, evalAll]
    rw [evalAll] at hb
    cases he : e.eval doc with
    | error fault => rw [he] at hb; cases hb
    | ok holds =>
      rw [he] at hb
      cases holds with
      | true => exact evalAll_append h hb
      | false => cases hb; rfl

theorem eval_andAlso {filter : Expr} (hf : filter.Decides doc) (h : expr.Decides doc) :
    (filter.andAlso expr).eval doc = .ok (filter.holds doc && expr.holds doc) := by
  cases filter with
  | and exprs => exact evalAll_append h hf.eval
  | _ => exact eval_and_pair hf.eval h.eval

/-! ## Well-formed predicates -/

/-- In a well-formed predicate every membership test, however deep, has an array to search. -/
inductive WellFormed : Expr → Prop
  | and {exprs : List Expr} (h : ∀ e ∈ exprs, WellFormed e) : WellFormed (.and exprs)
  | or {exprs : List Expr} (h : ∀ e ∈ exprs, WellFormed e) : WellFormed (.or exprs)
  | not {expr : Expr} (h : WellFormed expr) : WellFormed (.not expr)
  | present (path : String) (expected : Bool) : WellFormed (.present path expected)
  | compares {op : Comparison} (name : String) (operand : Value) (h : op ≠ .anyOf ∧ op ≠ .noneOf) :
    WellFormed (.field name op operand)
  | anyOf (name : String) (operands : List Value) : WellFormed (.anyOf name operands)
  | noneOf (name : String) (operands : List Value) : WellFormed (.noneOf name operands)

theorem WellFormed.decides (h : expr.WellFormed) (doc : Value) : expr.Decides doc := by
  induction h with
  | and _ ih => exact ⟨_, eval_and ih⟩
  | or _ ih => exact ⟨_, eval_or ih⟩
  | not _ ih => exact ⟨_, eval_not ih⟩
  | present path expected => exact ⟨_, rfl⟩
  | compares name operand hop =>
    rename_i op
    obtain ⟨hany, hnone⟩ := hop
    cases op with
    | anyOf => exact (hany rfl).elim
    | noneOf => exact (hnone rfl).elim
    | _ => exact ⟨_, rfl⟩
  | anyOf name operands => exact ⟨_, rfl⟩
  | noneOf name operands => exact ⟨_, rfl⟩

theorem WellFormed.holds_and (h : (Expr.and exprs).WellFormed) (doc : Value) :
    (Expr.and exprs).holds doc = exprs.all (·.holds doc) := by
  cases h with
  | and h => exact holds_of_eval (eval_and fun e he => (h e he).decides doc)

theorem WellFormed.holds_or (h : (Expr.or exprs).WellFormed) (doc : Value) :
    (Expr.or exprs).holds doc = exprs.any (·.holds doc) := by
  cases h with
  | or h => exact holds_of_eval (eval_or fun e he => (h e he).decides doc)

end Dossier.Expr
