/-
Compiling column filters. Every predicate that a filter puts on a field is well-formed, so that a compiled request is
decided for every document; and the documents that satisfy a request are those that satisfy each of its filters alone.
-/
import Dossier.Filter.Request
import Dossier.Proofs.Query.Evaluation

namespace Dossier

/-! ## Predicates of filters -/

theorem wellFormed_of_map {α : Type} {x : Except Fault α} {f : α → Expr} {e : Expr} (h : x.map f = .ok e)
    (hf : ∀ a, (f a).WellFormed) : e.WellFormed := by
  obtain ⟨a, -, rfl⟩ := except_map_ok h
  exact hf a

theorem Expr.WellFormed.and_pair {a b : Expr} (ha : a.WellFormed) (hb : b.WellFormed) : (Expr.and [a, b]).WellFormed :=
  .and (by simp [ha, hb])

theorem Expr.WellFormed.or_pair {a b : Expr} (ha : a.WellFormed) (hb : b.WellFormed) : (Expr.or [a, b]).WellFormed :=
  .or (by simp [ha, hb])

theorem NumberCondition.wellFormed {c : NumberCondition} {field : String} {e : Expr}
    (h : c.predicate field = .ok e) : e.WellFormed := by
  unfold predicate at h
  cases hop : c.operator with
  | present => rw [hop] at h; cases h; exact .present ..
  | absent => rw [hop] at h; cases h; exact .present ..
  | inRange =>
    rw [hop] at h
    obtain ⟨low, -, h⟩ := except_bind_ok h
    obtain ⟨high, -, h⟩ := except_bind_ok h
    cases h
    exact .and_pair (.compares field low ⟨by decide, by decide⟩) (.compares field high ⟨by decide, by decide⟩)
  | _ =>
    rw [hop] at h
    exact wellFormed_of_map h fun operand => .compares field operand ⟨by decide, by decide⟩

theorem NumberFilter.wellFormed {f : NumberFilter} {field : String} {e : Expr} (h : f.predicate field = .ok e) :
    e.WellFormed := by
  cases f with
  | single condition => exact NumberCondition.wellFormed h
  | compound combinator first second =>
    obtain ⟨a, ha, h⟩ := except_bind_ok h
    obtain ⟨b, hb, h⟩ := except_bind_ok h
    cases combinator with
    | and => cases h; exact .and_pair (NumberCondition.wellFormed ha) (NumberCondition.wellFormed hb)
    | or => cases h; exact .or_pair (NumberCondition.wellFormed ha) (NumberCondition.wellFormed hb)

theorem DateFilter.wellFormed {f : DateFilter} {settings : FilterSettings} {field : String} {e : Expr}
    (h : f.predicate settings field = .ok e) : e.WellFormed := by
  have hcompares (op : Comparison) (millis : Int64) (hop : op ≠ .anyOf ∧ op ≠ .noneOf) :
      (Expr.field field op (.dateTime millis)).WellFormed := .compares field _ hop
  unfold predicate at h
  cases hop : f.operator with
  | present => rw [hop] at h; cases h; exact .present ..
  | absent => rw [hop] at h; cases h; exact .present ..
  | equals =>
    rw [hop] at h
    dsimp only at h
    split at h
    · exact wellFormed_of_map h fun m => hcompares .eq m ⟨by decide, by decide⟩
    · exact wellFormed_of_map h fun d =>
        .and_pair (hcompares .gte d.1 ⟨by decide, by decide⟩) (hcompares .lte d.2 ⟨by decide, by decide⟩)
  | notEqual =>
    rw [hop] at h
    dsimp only at h
    split at h
    · exact wellFormed_of_map h fun m => hcompares .ne m ⟨by decide, by decide⟩
    · exact wellFormed_of_map h fun d =>
        .or_pair (hcompares .lt d.1 ⟨by decide, by decide⟩) (hcompares .gt d.2 ⟨by decide, by decide⟩)
  | inRange =>
    rw [hop] at h
    obtain ⟨first, -, h⟩ := except_bind_ok h
    obtain ⟨last, -, h⟩ := except_bind_ok h
    cases h
    exact .and_pair (hcompares .gte first.1 ⟨by decide, by decide⟩) (hcompares .lte last.2 ⟨by decide, by decide⟩)
  | _ =>
    rw [hop] at h
    exact wellFormed_of_map h fun d => hcompares _ _ ⟨by decide, by decide⟩

theorem BooleanFilter.wellFormed {f : BooleanFilter} {field : String} {e : Expr} (h : f.predicate? field = some e) :
    e.WellFormed := by
  unfold predicate? at h
  split at h
  · cases h; exact .compares field _ ⟨by decide, by decide⟩
  · cases h; exact .compares field _ ⟨by decide, by decide⟩
  · cases h

theorem SetFilter.blank_wellFormed (field : String) : (blank field).WellFormed := by
  have heq (v : Value) : (Expr.eq field v).WellFormed := .compares field v ⟨by decide, by decide⟩
  refine .or ?_
  simp [heq, Expr.WellFormed.present]

theorem SetFilter.notBlank_wellFormed (field : String) : (notBlank field).WellFormed := by
  have hne (v : Value) : (Expr.ne field v).WellFormed := .compares field v ⟨by decide, by decide⟩
  refine .and ?_
  simp [hne, Expr.WellFormed.present]

theorem SetFilter.joined_wellFormed {join : List Expr → Expr} {clauses : List Expr} {e : Expr}
    (hjoin : (∀ clause ∈ clauses, clause.WellFormed) → (join clauses).WellFormed)
    (hc : ∀ clause ∈ clauses, clause.WellFormed) (h : joined join clauses = some e) : e.WellFormed := by
  unfold joined at h
  split at h
  · cases h
  · cases h; exact hc e (List.mem_singleton_self e)
  · cases h; exact hjoin hc

theorem SetFilter.mem_clauses {f : SetFilter} {settings : FilterSettings} {ofOperands : List Value → Expr}
    {ofBlank clause : Expr} (h : clause ∈ f.clauses settings ofOperands ofBlank) :
    (∃ operands, clause = ofOperands operands) ∨ clause = ofBlank := by
  unfold clauses at h
  dsimp only at h
  rcases List.mem_append.1 h with h | h
  · split at h
    · cases h
    · exact Or.inl ⟨_, List.mem_singleton.1 h⟩
  · split at h
    · cases h
    · exact Or.inr (List.mem_singleton.1 h)

theorem SetFilter.wellFormed {f : SetFilter} {settings : FilterSettings} {field : String} {e : Expr}
    (h : f.predicate? settings field = some e) : e.WellFormed := by
  unfold predicate? at h
  split at h
  · refine joined_wellFormed .or (fun clause hm => ?_) h
    rcases mem_clauses hm with ⟨operands, rfl⟩ | rfl
    · exact .anyOf field operands
    · exact blank_wellFormed field
  · refine joined_wellFormed .and (fun clause hm => ?_) h
    rcases mem_clauses hm with ⟨operands, rfl⟩ | rfl
    · exact .noneOf field operands
    · exact notBlank_wellFormed field
  · cases h

theorem ExactFilter.wellFormed {f : ExactFilter} {field : String} {e : Expr} (h : f.predicate? field = some e) :
    e.WellFormed := by
  unfold predicate? at h
  dsimp only at h
  split at h
  · cases h; exact .compares field _ ⟨by decide, by decide⟩
  · cases h; exact .compares field _ ⟨by decide, by decide⟩
  · cases h; exact .present ..
  · cases h; exact .present ..
  · cases h

theorem ColumnFilter.wellFormed {f : ColumnFilter} {settings : FilterSettings} {field : String} {e : Expr}
    (h : f.predicate settings field = .ok (some e)) : e.WellFormed := by
  cases f with
  | number f =>
    obtain ⟨e', he, heq⟩ := except_map_ok h
    cases heq
    exact NumberFilter.wellFormed he
  | date f =>
    obtain ⟨e', he, heq⟩ := except_map_ok h
    cases heq
    exact DateFilter.wellFormed he
  | boolean f => exact BooleanFilter.wellFormed (Except.ok.inj h)
  | set f => exact SetFilter.wellFormed (Except.ok.inj h)
  | exact f => exact ExactFilter.wellFormed (Except.ok.inj h)
  | unsupported => cases h

/-! ## Clauses of a request -/

namespace Config

variable {c : Config} {deep : Bool} {filters : List (String × ColumnFilter)} {sort : List SortKey} {doc : Value}

theorem clause_wellFormed {field : String} {filter : ColumnFilter} {e : Expr}
    (h : c.clause deep field filter = .ok (some e)) : e.WellFormed := by
  unfold clause at h
  split at h
  · exact ColumnFilter.wellFormed h
  · cases h

/-- All filters have their clauses if each has its own. -/
theorem clauses_isOk : ∀ {filters : List (String × ColumnFilter)},
    (∃ exprs, c.clauses deep filters = .ok exprs) ↔ ∀ f ∈ filters, ∃ own, c.clause deep f.1 f.2 = .ok own
  | [] => ⟨fun _ f hf => absurd hf List.not_mem_nil, fun _ => ⟨[], rfl⟩⟩
  | (field, filter) :: rest => by
    rw [List.forall_mem_cons, ← clauses_isOk]
    constructor
    · rintro ⟨exprs, h⟩
      obtain ⟨own, ho, h⟩ := except_bind_ok h
      obtain ⟨more, hm, -⟩ := except_bind_ok h
      exact ⟨⟨own, ho⟩, more, hm⟩
    · rintro ⟨⟨own, ho⟩, more, hm⟩
      refine ⟨own.toList ++ more, ?_⟩
      dsimp only at ho
      rw [clauses, ho, hm]
      rfl

/-- The clauses of a request are those of its filters. -/
theorem mem_clauses : ∀ {filters : List (String × ColumnFilter)} {exprs : List Expr},
    c.clauses deep filters = .ok exprs →
      ∀ e, e ∈ exprs ↔ ∃ f ∈ filters, c.clause deep f.1 f.2 = .ok (some e)
  | [], _, h, e => by cases h; simp
  | (field, filter) :: rest, exprs, h, e => by
    obtain ⟨own, ho, h⟩ := except_bind_ok h
    obtain ⟨more, hm, h⟩ := except_bind_ok h
    cases h
    rw [List.mem_append, mem_clauses hm, List.exists_mem_cons_iff, ho, Except.ok.injEq, Option.mem_toList]

theorem compile_ok {q : CompiledQuery} (h : c.compile filters sort deep = .ok q) :
    ∃ exprs, c.clauses deep filters = .ok exprs ∧ q.filter = .and exprs := by
  obtain ⟨exprs, he, rfl⟩ := except_map_ok h
  exact ⟨exprs, he, rfl⟩

theorem compile_isOk : (∃ q, c.compile filters sort deep = .ok q) ↔
    ∀ f ∈ filters, ∃ own, c.clause deep f.1 f.2 = .ok own := by
  rw [← clauses_isOk]
  constructor
  · rintro ⟨q, h⟩
    obtain ⟨exprs, he, -⟩ := compile_ok h
    exact ⟨exprs, he⟩
  · rintro ⟨exprs, he⟩
    exact ⟨_, by rw [compile, he]; rfl⟩

/-- A compiled request is decided for every document, and a document satisfies it if it satisfies every clause. -/
theorem compile_eval {q : CompiledQuery} (h : c.compile filters sort deep = .ok q) (doc : Value) :
    q.filter.Decides doc ∧ (q.filter.eval doc = .ok true ↔
      ∀ f ∈ filters, ∀ e, c.clause deep f.1 f.2 = .ok (some e) → e.holds doc = true) := by
  obtain ⟨exprs, he, hq⟩ := compile_ok h
  have hmem := mem_clauses he
  have hdecides : ∀ e ∈ exprs, e.Decides doc := by
    intro e hm
    obtain ⟨f, -, hf⟩ := (hmem e).1 hm
    exact (clause_wellFormed hf).decides doc
  rw [hq]
  refine ⟨⟨_, Expr.eval_and hdecides⟩, ?_⟩
  rw [Expr.eval_and hdecides, Except.ok.injEq, List.all_eq_true]
  constructor
  · intro hall f hf e hfe
    exact hall e ((hmem e).2 ⟨f, hf, hfe⟩)
  · intro hall e hm
    obtain ⟨f, hf, hfe⟩ := (hmem e).1 hm
    exact hall f hf e hfe

/-- A request compiles if each of its filters does on its own. Then it is decided for every document, and the
documents that satisfy it are those that satisfy the request of every single filter; so fewer filters select no fewer
documents, and no filter selects all. -/
theorem compile_intersection (c : Config) (filters : List (String × ColumnFilter)) (sort : List SortKey) (deep : Bool) :
    ((∃ q, c.compile filters sort deep = .ok q) ↔ ∀ f ∈ filters, ∃ q, c.compile [f] sort deep = .ok q) ∧
    (∀ q, c.compile filters sort deep = .ok q →
      (∀ doc, q.filter.Decides doc ∧ (q.filter.eval doc = .ok true ↔
        ∀ f ∈ filters, ∃ own, c.compile [f] sort deep = .ok own ∧ own.filter.eval doc = .ok true)) ∧
      ∀ fewer, fewer ⊆ filters → ∃ less, c.compile fewer sort deep = .ok less ∧
        ∀ doc, q.filter.eval doc = .ok true → less.filter.eval doc = .ok true) ∧
    ∃ q, c.compile [] sort deep = .ok q ∧ ∀ doc, q.filter.eval doc = .ok true := by
  have hsingle : (∃ q, c.compile filters sort deep = .ok q) ↔ ∀ f ∈ filters, ∃ q, c.compile [f] sort deep = .ok q := by
    simp only [compile_isOk, List.forall_mem_singleton]
  refine ⟨hsingle, fun q hq => ⟨fun doc => ?_, fun fewer hsub => ?_⟩, _, rfl, fun _ => rfl⟩
  · obtain ⟨hdecides, hiff⟩ := compile_eval hq doc
    refine ⟨hdecides, hiff.trans (forall₂_congr fun f hf => ?_)⟩
    obtain ⟨own, hown⟩ := hsingle.1 ⟨q, hq⟩ f hf
    have hone := (compile_eval hown doc).2
    rw [List.forall_mem_singleton] at hone
    rw [← hone]
    constructor
    · intro h
      exact ⟨own, hown, h⟩
    · rintro ⟨own', hown', h⟩
      rw [hown] at hown'
      cases hown'
      exact h
  · have hfewer : ∀ f ∈ fewer, ∃ own, c.clause deep f.1 f.2 = .ok own := fun f hf => compile_isOk.1 ⟨q, hq⟩ f (hsub hf)
    obtain ⟨less, hless⟩ := compile_isOk.2 hfewer
    refine ⟨less, hless, fun doc hdoc => ?_⟩
    rw [(compile_eval hq doc).2] at hdoc
    rw [(compile_eval hless doc).2]
    intro f hf
    exact hdoc f (hsub hf)

end Config

end Dossier
