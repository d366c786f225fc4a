/-
Stored integers of 64 bits in comparisons. Numbers are compared as doubles, so integers are compared after rounding to
53 binary digits. All comparisons of two integers, and the order of documents by them, are exact unless the integers
differ and are rounded to the same number, which happens to no two integers up to 2 ^ 53.
-/
import Dossier.Proofs.Double.Rounding
import Dossier.Proofs.Query.Sorting
import Dossier.Proofs.Query.Ties

namespace Dossier

open Double

variable {doc other operand v : Value} {path : String} {x y : Double} {o : Ordering} {a b : Int64}

/-- A document compares with an operand at a path, and with another document that has the operand there, as an order
result says. -/
structure Compares (path : String) (doc other operand : Value) (o : Ordering) : Prop where
  eq : (Expr.eq path operand).eval doc = .ok (o == .eq)
  lt : (Expr.lt path operand).eval doc = .ok (o == .lt)
  lte : (Expr.lte path operand).eval doc = .ok (o != .gt)
  gt : (Expr.gt path operand).eval doc = .ok (o == .gt)
  gte : (Expr.gte path operand).eval doc = .ok (o != .lt)
  anyOf : ∀ before after, (Expr.anyOf path (before ++ operand :: after)).eval doc =
    .ok ((Expr.anyOf path (before ++ after)).holds doc || o == .eq)
  ascending : compareDocuments [⟨path, .ascending⟩] doc other = o
  descending : compareDocuments [⟨path, .descending⟩] doc other = o.swap

/-! ## Numbers -/

theorem comparandAt_of_lookup (hd : doc.lookup path = some v) : doc.comparandAt path = .ofValue v := by
  unfold Value.comparandAt
  rw [hd]

section numbers

variable (hd : doc.lookup path = some v) (hv : Comparand.ofValue v = .number x)
  (hop : Comparand.ofValue operand = .number y) (h : x.compare? y = some o)

include h in
theorem numEq_of_compare : x.numEq y = (o == .eq) := by
  have hiff := Comparand.compare?_number_eq_iff x y
  rw [h, Option.some_inj] at hiff
  rw [Bool.eq_iff_iff, ← hiff, beq_iff_eq]

include hd hv hop h in
theorem hits_number : (doc.comparandAt path).hits (.ofValue operand) = (o == .eq) := by
  rw [comparandAt_of_lookup hd, hv, hop, ← numEq_of_compare h]
  exact Bool.or_false _

include hd hv hop h in
theorem eval_range_number {op : Comparison} (hrange : op.IsRange) :
    (Expr.field path op operand).eval doc = .ok (Comparand.admits op o) := by
  have horder : Comparand.inOrder op (.number x) (.number y) = Comparand.admits op o := by
    have hcompare : Comparand.compare? (.number x) (.number y) = some o := h
    unfold Comparand.inOrder
    rw [hcompare]
  rw [Expr.eval_range hrange, comparandAt_of_lookup hd, hd, hv, hop, ← horder]
  rfl

include h in
theorem sortCompare_number : Comparand.sortCompare (.number x) (.number y) = o := by
  have hcompare : Comparand.compare? (.number x) (.number y) = some o := h
  rw [Comparand.sortCompare_parts, hcompare]
  simp [Comparand.rank, Comparand.items, Comparand.sortCompareItems]

include hd hv hop h in
/-- Numbers compare by the order of doubles. -/
theorem compares_numbers (ho : other.lookup path = some operand) : Compares path doc other operand o where
  eq := by rw [Expr.eval_eq, hits_number hd hv hop h]
  lt := eval_range_number hd hv hop h .lt
  lte := eval_range_number hd hv hop h .lte
  gt := eval_range_number hd hv hop h .gt
  gte := eval_range_number hd hv hop h .gte
  anyOf before after := by
    rw [Expr.holds_of_eval (Expr.eval_anyOf ..), Expr.eval_anyOf, List.any_append, List.any_cons, List.any_append,
      hits_number hd hv hop h]
    ac_rfl
  ascending := by
    change ((doc.comparandAt path).sortCompare (other.comparandAt path)).then .eq = o
    rw [comparandAt_of_lookup hd, comparandAt_of_lookup ho, hv, hop, sortCompare_number h, Ordering.then_eq]
  descending := by
    change ((other.comparandAt path).sortCompare (doc.comparandAt path)).then .eq = o.swap
    rw [comparandAt_of_lookup hd, comparandAt_of_lookup ho, hv, hop, Comparand.sortCompare_swap, sortCompare_number h,
      Ordering.then_eq]

end numbers

/-! ## Integers -/

/-- No two order results stand for the same answers. -/
theorem Compares.unique {o' : Ordering} (h : Compares path doc other operand o)
    (h' : Compares path doc other operand o') : o = o' := h.ascending.symm.trans h'.ascending

theorem natAbs_toInt_le (a : Int64) : a.toInt.natAbs ≤ 2 ^ 63 := by
  have := Int64.le_toInt a
  have := Int64.toInt_lt a
  omega

theorem natAbs_toInt32_le (a : Int32) : a.toInt.natAbs ≤ 2 ^ 63 := by
  have := Int32.le_toInt a
  have := Int32.toInt_lt a
  omega

theorem compares_rounded (hd : doc.lookup path = some (.int64 a)) (ho : other.lookup path = some (.int64 b)) :
    Compares path doc other (.int64 b) (compare (rounded a.toInt) (rounded b.toInt)) :=
  compares_numbers hd rfl rfl (compare?_ofInt (natAbs_toInt_le a) (natAbs_toInt_le b)) ho

/-- Rounding keeps the order result unless it makes different integers tie. -/
theorem compare_rounded_iff (i j : Int) :
    compare (rounded i) (rounded j) = compare i j ↔ (rounded i = rounded j → i = j) := by
  have hmono {i j : Int} (h : i < j) : rounded i ≤ rounded j := rounded_mono h.le
  rcases Int.lt_trichotomy i j with h | h | h
  · have := hmono h
    rw [Int.compare_eq_lt.2 h, Int.compare_eq_lt]
    omega
  · simp [h]
  · have := hmono h
    rw [Int.compare_eq_gt.2 h, Int.compare_eq_gt]
    omega

/-- Two stored integers compare as the numbers to which they are rounded, which are never in the opposite order. That is
how the integers themselves compare if and only if they are the same or are rounded to different numbers, and so
whenever both are within 2 ^ 53 of zero. -/
theorem int64_compares (hd : doc.lookup path = some (.int64 a)) (ho : other.lookup path = some (.int64 b)) :
    Compares path doc other (.int64 b) (compare (rounded a.toInt) (rounded b.toInt)) ∧
    (a ≤ b → rounded a.toInt ≤ rounded b.toInt) ∧
    (Compares path doc other (.int64 b) (compare a.toInt b.toInt) ↔ (rounded a.toInt = rounded b.toInt → a = b)) ∧
    (a.toInt.natAbs ≤ 2 ^ 53 → b.toInt.natAbs ≤ 2 ^ 53 →
      Compares path doc other (.int64 b) (compare a.toInt b.toInt)) := by
  have hrounded := compares_rounded hd ho
  have hexact : Compares path doc other (.int64 b) (compare a.toInt b.toInt) ↔
      (rounded a.toInt = rounded b.toInt → a = b) := by
    rw [← Int64.toInt_inj, ← compare_rounded_iff]
    exact ⟨hrounded.unique, fun he => he ▸ hrounded⟩
  refine ⟨hrounded, fun h => rounded_mono (Int64.le_iff_toInt_le.1 h), hexact, fun ha hb => hexact.2 fun he => ?_⟩
  rwa [rounded_eq_self ha, rounded_eq_self hb, Int64.toInt_inj] at he

/-- The least integer that is not compared as it is. -/
def oddInteger : Int64 := 9007199254740993

/-- It ties with its even neighbour, and compares with a smaller one as it should. -/
theorem int64_compares_odd :
    let doc : Value := .document [("n", .int64 oddInteger)]
    let tied : Value := .document [("n", .int64 9007199254740992)]
    let less : Value := .document [("n", .int64 9007199254740991)]
    doc.lookup "n" = some (.int64 oddInteger) ∧ tied.lookup "n" = some (.int64 9007199254740992) ∧
    Compares "n" doc tied (.int64 9007199254740992) .eq ∧ Compares "n" doc less (.int64 9007199254740991) .gt ∧
    Compares "n" tied less (.int64 9007199254740991) .gt := by
  intro doc tied less
  have hdoc : doc.lookup "n" = some (.int64 oddInteger) := rfl
  have htied : tied.lookup "n" = some (.int64 9007199254740992) := rfl
  have hless : less.lookup "n" = some (.int64 9007199254740991) := rfl
  exact ⟨hdoc, htied, (int64_compares hdoc htied).1, (int64_compares hdoc hless).2.2.1.2 (by decide),
    (int64_compares htied hless).2.2.2 (by decide) (by decide)⟩

/-- Different integers tie. -/
theorem not_int64_compares_exactly : ¬ ∀ (doc other : Value) (a b : Int64), doc.lookup "n" = some (.int64 a) →
    other.lookup "n" = some (.int64 b) → Compares "n" doc other (.int64 b) (compare a.toInt b.toInt) := by
  intro h
  have hexact := h (.document [("n", .int64 oddInteger)]) (.document [("n", .int64 9007199254740992)]) _ _ rfl rfl
  exact absurd ((compares_rounded rfl rfl).unique hexact) (by decide)

end Dossier
