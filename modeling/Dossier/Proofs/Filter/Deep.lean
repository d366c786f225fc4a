/-
Deep filtering. With it a request may filter every path into a listed field, but a listed name is then looked up by what
stands before its first dot as well: a listed path into a field that is not listed itself can be filtered without deep
filtering only. Of such paths apart deep filtering accepts all that is accepted without it, and compiles it to the same.
-/
import Dossier.Filter.Request
import Dossier.Proofs.Action

namespace Dossier.Config

variable {c : Config} {field : String} {filters : List (String × ColumnFilter)} {sort : List SortKey}
  {r : FilterRequest}

/-- A listed path into a field that is not listed. -/
def Stranded (c : Config) (field : String) : Prop :=
  field ∈ c.filterableFields ∧ topField field ∉ c.filterableFields

instance (c : Config) (field : String) : Decidable (c.Stranded field) := inferInstanceAs (Decidable (_ ∧ _))

theorem isFilterable_iff (c : Config) (field : String) (deep : Bool) : c.isFilterable field deep = true ↔
    c.filterableFields = [] ∨ (if deep then topField field else field) ∈ c.filterableFields := by
  unfold isFilterable
  rw [Bool.or_eq_true, List.isEmpty_iff, List.contains_iff_mem]

/-- What can be filtered without deep filtering can be filtered with it, stranded paths apart. -/
theorem isFilterable_deep_iff (h : c.isFilterable field false = true) :
    c.isFilterable field true = true ↔ ¬ c.Stranded field := by
  rw [isFilterable_iff] at h ⊢
  unfold Stranded
  rcases h with hall | hm
  · simp [hall]
  · have hne : c.filterableFields ≠ [] := List.ne_nil_of_mem hm
    simp_all

theorem clause_deep {filter : ColumnFilter} {own : Option Expr} (h : c.clause false field filter = .ok own) :
    c.clause true field filter = if c.Stranded field then .error (.validation (.notFilterable field)) else .ok own := by
  unfold clause at h ⊢
  split at h
  · rename_i hflat
    by_cases hs : c.Stranded field
    · rw [if_pos hs, if_neg fun hdeep => (isFilterable_deep_iff hflat).1 hdeep hs]
    · rw [if_neg hs, if_pos ((isFilterable_deep_iff hflat).2 hs), h]
  · cases h

/-- The stranded path that deep filtering refuses a request for, the first among its filters. -/
def stranded? (c : Config) (filters : List (String × ColumnFilter)) : Option String :=
  (filters.map Prod.fst).find? fun field => decide (c.Stranded field)

theorem stranded?_eq_none_iff : c.stranded? filters = none ↔ ∀ f ∈ filters, ¬ c.Stranded f.1 := by
  simp [stranded?]

theorem clauses_deep : ∀ {filters : List (String × ColumnFilter)} {exprs : List Expr},
    c.clauses false filters = .ok exprs → c.clauses true filters =
      match c.stranded? filters with
      | some field => .error (.validation (.notFilterable field))
      | none => .ok exprs
  | [], _, h => h
  | (field, filter) :: rest, exprs, h => by
    obtain ⟨own, ho, h⟩ := except_bind_ok h
    obtain ⟨more, hm, h⟩ := except_bind_ok h
    cases h
    unfold clauses stranded?
    rw [clause_deep ho, clauses_deep hm, List.map_cons]
    by_cases hs : c.Stranded field
    · rw [if_pos hs, List.find?_cons_of_pos (by simpa using hs)]
      rfl
    · rw [if_neg hs, List.find?_cons_of_neg (by simpa using hs)]
      unfold stranded?
      cases (rest.map Prod.fst).find? fun field => decide (c.Stranded field) <;> rfl

/-- A request that compiles without deep filtering compiles with it to the same, unless it filters a stranded path:
then it is refused for the first one. -/
theorem compileRequest_deep {compiled : CompiledQuery × PageRequest}
    (h : c.compileRequest { r with deep := false } = .ok compiled) :
    c.compileRequest { r with deep := true } =
      match c.stranded? r.filters with
      | some field => .error (.validation (.notFilterable field))
      | none => .ok compiled := by
  obtain ⟨page, hpage, h⟩ := except_bind_ok h
  obtain ⟨q, hq, h⟩ := except_bind_ok h
  cases h
  obtain ⟨exprs, he, rfl⟩ := except_map_ok hq
  have hpage' : FilterRequest.pageRequest { r with deep := true } = .ok page := hpage
  unfold compileRequest compile
  rw [hpage', clauses_deep he]
  dsimp only
  cases c.stranded? r.filters <;> rfl

/-- Deep filtering accepts the names and the requests that are accepted without it, and compiles these to the same, if
and only if they are not about a stranded path; for all names and requests it does so if and only if no path is stranded
in the configuration. -/
theorem deep_widens_iff (c : Config) :
    (∀ field, c.isFilterable field false = true → (c.isFilterable field true = true ↔ ¬ c.Stranded field)) ∧
    (∀ (r : FilterRequest) compiled, c.compileRequest { r with deep := false } = .ok compiled →
      (c.compileRequest { r with deep := true } = .ok compiled ↔ ∀ f ∈ r.filters, ¬ c.Stranded f.1)) ∧
    ((∀ (r : FilterRequest) compiled, c.compileRequest { r with deep := false } = .ok compiled →
      c.compileRequest { r with deep := true } = .ok compiled) ↔ ∀ field, ¬ c.Stranded field) := by
  have hrequest : ∀ (r : FilterRequest) compiled, c.compileRequest { r with deep := false } = .ok compiled →
      (c.compileRequest { r with deep := true } = .ok compiled ↔ ∀ f ∈ r.filters, ¬ c.Stranded f.1) := by
    intro r compiled h
    rw [compileRequest_deep h, ← stranded?_eq_none_iff]
    cases c.stranded? r.filters <;> simp
  refine ⟨fun field h => isFilterable_deep_iff h, hrequest, fun h field hs => ?_, fun h r compiled hr => ?_⟩
  · -- a filter that puts no predicate on the field
    let r : FilterRequest := { filters := [(field, .unsupported)] }
    have hflat : c.isFilterable field false = true := (c.isFilterable_iff field false).2 (.inr hs.1)
    have hr : c.compileRequest { r with deep := false } = .ok (⟨.all, c.ordering []⟩, {}) := by
      have hclause : c.clause false field .unsupported = .ok none := if_pos hflat
      have hclauses : c.clauses false [(field, .unsupported)] = .ok [] := by
        unfold clauses
        rw [hclause]
        rfl
      unfold compileRequest compile
      dsimp only [r]
      rw [hclauses]
      rfl
    exact (hrequest r _ hr).1 (h r _ hr) _ (List.mem_singleton_self _) hs
  · exact (hrequest r compiled hr).2 fun f _ => h f.1

/-- A listed path into a field that is not listed is filterable, but not deep. -/
theorem not_deep_widens : ¬ ∀ (c : Config) (field : String),
    c.isFilterable field false = true → c.isFilterable field true = true := by
  intro h
  have hdeep := h { filterableFields := ["address.city"] } "address.city" (by decide)
  exact absurd hdeep (by decide)

end Dossier.Config
