/-
Ranges over arrays that hold no arrays, such as arrays of numbers or of instants. A range is asked for by one comparison
for each of its ends, and each comparison looks for an element of the array on its own. So an array passes if every end
is met by some element, which need not be one and the same: elements on both sides of a range pass although none is
inside.
-/
import Dossier.Proofs.Filter.Date
import Dossier.Proofs.Filter.Membership
import Dossier.Value.Scalar

namespace Dossier

/-! ## What the end of a range asks of a value -/

namespace Value

/-- A value that is no array. -/
def IsSingle (v : Value) : Prop := ∀ items, v ≠ array items

/-- Whether a value is a number that compares with a bound as asked. NaN compares with nothing. -/
def meetsNumber (op : Comparison) (bound : Double) (v : Value) : Bool :=
  v.number?.any fun x => !x.isNaN && !bound.isNaN && op.ofInstants x.rank bound.rank

/-- Whether a value is an instant of which something holds. -/
def meetsInstant (p : Int → Bool) : Value → Bool
  | dateTime t => p t.toInt
  | _ => false

end Value

namespace Comparand

variable {op : Comparison}

theorem inOrder_number (hop : op.IsRange) (bound : Double) (v : Value) :
    inOrder op (.ofValue v) (.number bound) = v.meetsNumber op bound := by
  have hnumber (x : Double) : inOrder op (.number x) (.number bound) =
      (!x.isNaN && !bound.isNaN && op.ofInstants x.rank bound.rank) := by
    have hcompare : compare? (.number x) (.number bound) =
        if x.isNaN || bound.isNaN then none else some (compare x.rank bound.rank) := rfl
    unfold inOrder
    rw [hcompare]
    cases x.isNaN with
    | true => rfl
    | false =>
      cases bound.isNaN with
      | true => rfl
      | false => exact hop.admits_compare x.rank bound.rank
  cases v with
  | int32 i => exact hnumber _
  | int64 i => exact hnumber _
  | double x => exact hnumber x
  | _ => rfl

theorem inOrder_instant (hop : op.IsRange) (bound : Int64) (v : Value) :
    inOrder op (.ofValue v) (.instant bound) = v.meetsInstant (op.ofInstants · bound.toInt) := by
  cases v with
  | dateTime t => exact hop.admits_compare t.toInt bound.toInt
  | _ => rfl

theorem same_instant (bound : Int64) (v : Value) :
    same (.ofValue v) (.instant bound) = v.meetsInstant (· == bound.toInt) := by
  cases v with
  | dateTime t =>
    have hiff : (t == bound) = (t.toInt == bound.toInt) := by
      rw [Bool.eq_iff_iff, beq_iff_eq, beq_iff_eq, Int64.toInt_inj]
    exact hiff
  | _ => rfl

/-- A value that is no array is compared itself. -/
theorem satisfies_single {v : Value} (hv : v.IsSingle) (operand : Comparand) :
    satisfies op operand (.ofValue v) = inOrder op (.ofValue v) operand := by
  cases v with
  | array items => exact (hv items rfl).elim
  | _ => rfl

theorem anySatisfies_ofItems (operand : Comparand) : ∀ {items : List Value}, (∀ v ∈ items, v.IsSingle) →
    anySatisfies op operand (ofItems items) = items.any fun v => inOrder op (.ofValue v) operand
  | [], _ => rfl
  | v :: items, h => by
    rw [List.forall_mem_cons] at h
    rw [ofItems, anySatisfies, satisfies_single h.1, anySatisfies_ofItems operand h.2, List.any_cons]

theorem hits_single {v : Value} (hv : v.IsSingle) (operand : Comparand) :
    (ofValue v).hits operand = same (.ofValue v) operand := by
  cases v with
  | array items => exact (hv items rfl).elim
  | _ => exact Bool.or_false _

end Comparand

/-! ## Predicates that ask several things of a field -/

namespace Expr

variable {field : String} {op : Comparison} {e e' : Expr} {ends ends' : List (Value → Bool)}

/-- A predicate that asks for several ends. A field that is no array has to meet all of them; in an array that holds no
arrays some element has to meet each. -/
structure Asks (field : String) (ends : List (Value → Bool)) (e : Expr) : Prop where
  single : ∀ doc v, doc.lookup field = some v → v.IsSingle → e.eval doc = .ok (ends.all fun meets => meets v)
  array : ∀ doc items, doc.lookup field = some (.array items) → (∀ v ∈ items, v.IsSingle) →
    e.eval doc = .ok (ends.all fun meets => items.any meets)

theorem Asks.and_pair (h : e.Asks field ends) (h' : e'.Asks field ends') :
    (and [e, e']).Asks field (ends ++ ends') where
  single doc v hl hv := by rw [eval_and_pair (h.single doc v hl hv) (h'.single doc v hl hv), List.all_append]
  array doc items hl hi := by
    rw [eval_and_pair (h.array doc items hl hi) (h'.array doc items hl hi), List.all_append]

theorem asks_range (hop : op.IsRange) {operand : Value} (ho : operand.IsSingle) {meets : Value → Bool}
    (hm : ∀ v, Comparand.inOrder op (.ofValue v) (.ofValue operand) = meets v) :
    (Expr.field field op operand).Asks field [meets] where
  single doc v hl hv := by
    rw [eval_range hop, Value.comparandAt, hl]
    simp [Comparand.satisfies_single hv, hm]
  array doc items hl hi := by
    -- an operand that is an array would be compared with the array as a whole
    have harray : (Comparand.ofValue operand).isArray = false := by
      cases operand with
      | array items => exact (ho items rfl).elim
      | _ => rfl
    rw [eval_range hop, Value.comparandAt, hl]
    dsimp only [Comparand.ofValue]
    rw [Comparand.satisfies, if_neg (by simp [harray]), Comparand.anySatisfies_ofItems _ hi]
    simp [hm]

theorem asks_number (hop : op.IsRange) (bound : Double) :
    (Expr.field field op (.double bound)).Asks field [Value.meetsNumber op bound] :=
  asks_range hop (fun _ => Value.noConfusion) (Comparand.inOrder_number hop bound)

theorem asks_instant (hop : op.IsRange) (bound : Int64) {p : Int → Bool} (hp : ∀ t, op.ofInstants t bound.toInt = p t) :
    (Expr.field field op (.dateTime bound)).Asks field [Value.meetsInstant p] :=
  asks_range hop (fun _ => Value.noConfusion) fun v =>
    (Comparand.inOrder_instant hop bound v).trans (congrArg v.meetsInstant (funext hp))

/-- Equality with an instant has but one end. -/
theorem asks_eq_instant (bound : Int64) :
    (Expr.eq field (.dateTime bound)).Asks field [Value.meetsInstant (· == bound.toInt)] where
  single doc v hl hv := by
    rw [eval_eq, Value.comparandAt, hl]
    dsimp only
    rw [Comparand.hits_single hv]
    simp [Comparand.ofValue, Comparand.same_instant]
  array doc items hl hi := by
    rw [eval_eq, Value.comparandAt, hl]
    simp [Comparand.ofValue, Comparand.hits, Comparand.same, Comparand.same_instant, Function.comp_def]

end Expr

/-! ## Range filters -/

/-- The operators that ask for a range, with one end or two. -/
def FilterOperator.IsRange (op : FilterOperator) : Prop :=
  op ∈ [FilterOperator.lessThan, .lessThanOrEqual, .greaterThan, .greaterThanOrEqual, .inRange]

/-- The ends of the range that a condition asks for. -/
def NumberCondition.ends (c : NumberCondition) : List (Value → Bool) :=
  match c.operator, c.operand, c.upper with
  | .lessThan, some bound, _ => [Value.meetsNumber .lt bound]
  | .lessThanOrEqual, some bound, _ => [Value.meetsNumber .lte bound]
  | .greaterThan, some bound, _ => [Value.meetsNumber .gt bound]
  | .greaterThanOrEqual, some bound, _ => [Value.meetsNumber .gte bound]
  | .inRange, some low, some high => [Value.meetsNumber .gte low, Value.meetsNumber .lte high]
  | _, _, _ => []

theorem NumberCondition.asks {c : NumberCondition} (hc : c.operator.IsRange) {field : String} {e : Expr}
    (h : c.predicate field = .ok e) : e.Asks field c.ends := by
  obtain ⟨op, operand, upper⟩ := c
  unfold predicate bound at h
  simp only [FilterOperator.IsRange, List.mem_cons, List.not_mem_nil, or_false] at hc
  cases operand with
  | none => rcases hc with rfl | rfl | rfl | rfl | rfl <;> cases h
  | some low =>
    rcases hc with rfl | rfl | rfl | rfl | rfl
    · cases h; exact Expr.asks_number .lt low
    · cases h; exact Expr.asks_number .lte low
    · cases h; exact Expr.asks_number .gt low
    · cases h; exact Expr.asks_number .gte low
    · cases upper with
      | none => cases h
      | some high => cases h; exact (Expr.asks_number .gte low).and_pair (Expr.asks_number .lte high)

namespace DateFilter

variable {f : DateFilter} {settings : FilterSettings} {field : String} {e : Expr}

/-- Where a filter sees an instant: at its day, or at the instant itself if the filter is exact. -/
def place (f : DateFilter) (settings : FilterSettings) (millis : Int) : Int :=
  if f.exact then millis else settings.dayOf millis

/-- The ends of the range that a filter asks for. Equality of days asks for the first and the last instant of a day. -/
def ends (f : DateFilter) (settings : FilterSettings) : List (Value → Bool) :=
  let place := f.place settings
  match f.operator, f.lower, f.upper with
  | .equals, some m, _ =>
    if f.exact then [Value.meetsInstant (· == m.toInt)]
    else [Value.meetsInstant (place m.toInt ≤ place ·), Value.meetsInstant (place · ≤ place m.toInt)]
  | .inRange, some m, some n =>
    [Value.meetsInstant (place m.toInt ≤ place ·), Value.meetsInstant (place · ≤ place n.toInt)]
  | _, _, _ => []

theorem place_le_iff {m : Int64} {d : Int64 × Int64} (h : f.span settings m = .ok d) (t : Int) :
    (f.place settings m.toInt ≤ f.place settings t ↔ d.1.toInt ≤ t) ∧
      (f.place settings t ≤ f.place settings m.toInt ↔ t ≤ d.2.toInt) := by
  unfold place
  cases hx : f.exact with
  | true =>
    unfold span at h
    rw [hx] at h
    cases h
    exact ⟨Iff.rfl, Iff.rfl⟩
  | false =>
    have hd := span_ok hx h
    rw [hd.first_eq, hd.last_eq]
    exact ⟨FilterSettings.le_dayOf_iff, FilterSettings.dayOf_le_iff⟩

theorem asks_from {m : Int64} {d : Int64 × Int64} (h : f.span settings m = .ok d) :
    (Expr.gte field (.dateTime d.1)).Asks field [Value.meetsInstant (f.place settings m.toInt ≤ f.place settings ·)] :=
  Expr.asks_instant .gte d.1 fun t => decide_eq_decide.2 (place_le_iff h t).1.symm

theorem asks_until {m : Int64} {d : Int64 × Int64} (h : f.span settings m = .ok d) :
    (Expr.lte field (.dateTime d.2)).Asks field [Value.meetsInstant (f.place settings · ≤ f.place settings m.toInt)] :=
  Expr.asks_instant .lte d.2 fun t => decide_eq_decide.2 (place_le_iff h t).2.symm

theorem asks (hf : f.operator = .equals ∨ f.operator = .inRange) (h : f.predicate settings field = .ok e) :
    e.Asks field (f.ends settings) := by
  unfold predicate at h
  unfold ends
  cases hl : f.lower with
  | none =>
    rcases hf with hop | hop <;> rw [hop, hl] at h
    · cases hx : f.exact <;> rw [hx] at h <;> cases h
    · cases h
  | some m =>
    rcases hf with hop | hop <;> rw [hop, hl] at h <;> rw [hop]
    · cases hx : f.exact with
      | true =>
        rw [hx] at h
        cases h
        exact Expr.asks_eq_instant m
      | false =>
        rw [hx] at h
        obtain ⟨d, hd, rfl⟩ := except_map_ok h
        exact (asks_from hd).and_pair (asks_until hd)
    · obtain ⟨d, hd, h⟩ := except_bind_ok h
      cases hu : f.upper with
      | none => rw [hu] at h; cases h
      | some n =>
        rw [hu] at h
        obtain ⟨d', hd', h⟩ := except_bind_ok h
        cases h
        exact (asks_from hd).and_pair (asks_until hd')

end DateFilter

namespace ColumnFilter

/-- The filters that ask for a range: of numbers, by one condition or by two that have to hold, or of instants. -/
inductive IsRange : ColumnFilter → Prop
  | number {c : NumberCondition} (h : c.operator.IsRange) : IsRange (.number (.single c))
  | numbers {a b : NumberCondition} (ha : a.operator.IsRange) (hb : b.operator.IsRange) :
    IsRange (.number (.compound .and a b))
  | date {f : DateFilter} (h : f.operator = .equals ∨ f.operator = .inRange) : IsRange (.date f)

/-- The ends of the range that a filter asks for. -/
def ends (settings : FilterSettings) : ColumnFilter → List (Value → Bool)
  | .number (.single c) => c.ends
  | .number (.compound .and a b) => a.ends ++ b.ends
  | .date f => f.ends settings
  | _ => []

theorem asks {f : ColumnFilter} (hf : f.IsRange) {settings : FilterSettings} {field : String} {e : Expr}
    (h : f.predicate settings field = .ok (some e)) : e.Asks field (f.ends settings) := by
  cases hf with
  | number hc =>
    obtain ⟨e', he, heq⟩ := except_map_ok h
    cases heq
    exact NumberCondition.asks hc he
  | numbers ha hb =>
    obtain ⟨e', he, heq⟩ := except_map_ok h
    cases heq
    obtain ⟨a, hpa, he⟩ := except_bind_ok he
    obtain ⟨b, hpb, he⟩ := except_bind_ok he
    cases he
    exact (NumberCondition.asks ha hpa).and_pair (NumberCondition.asks hb hpb)
  | date hd =>
    obtain ⟨e', he, heq⟩ := except_map_ok h
    cases heq
    exact DateFilter.asks hd he

/-- Whether the predicate of a range filter holds is told by the ends: a value that is no array has to meet all of
them, while in an array that holds no arrays each end has to be met by some element, not necessarily by the same one.
An element that meets all ends is enough, and it is needed if there is but one end. -/
theorem range_over_array {f : ColumnFilter} (hf : f.IsRange) {settings : FilterSettings} {field : String} {e : Expr}
    (h : f.predicate settings field = .ok (some e)) :
    (∀ doc v, doc.lookup field = some v → v.IsSingle →
      e.eval doc = .ok ((f.ends settings).all fun meets => meets v)) ∧
    ∀ doc items, doc.lookup field = some (.array items) → (∀ v ∈ items, v.IsSingle) →
      e.eval doc = .ok ((f.ends settings).all fun meets => items.any meets) ∧
      ((∃ v ∈ items, ∀ meets ∈ f.ends settings, meets v = true) → e.eval doc = .ok true) ∧
      ((f.ends settings).length = 1 → e.eval doc = .ok true →
        ∃ v ∈ items, ∀ meets ∈ f.ends settings, meets v = true) := by
  have hasks := asks hf h
  refine ⟨hasks.single, fun doc items hl hi => ?_⟩
  have heval := hasks.array doc items hl hi
  refine ⟨heval, fun ⟨v, hv, hall⟩ => ?_, fun hone hpass => ?_⟩
  · rw [heval, Except.ok.injEq, List.all_eq_true]
    exact fun meets hm => List.any_eq_true.2 ⟨v, hv, hall meets hm⟩
  · obtain ⟨meets, hends⟩ := List.length_eq_one_iff.1 hone
    rw [heval, hends, List.all_cons, List.all_nil, Bool.and_true, Except.ok.injEq] at hpass
    obtain ⟨v, hv, hmeets⟩ := List.any_eq_true.1 hpass
    exact ⟨v, hv, by rw [hends]; exact List.forall_mem_singleton.2 hmeets⟩

/-- The first day of 1970. -/
def firstOf1970 : ColumnFilter := .date { operator := .equals, lower := some 0 }

/-- The last instant of the day before and the first one of the day after pass as that day together, but not alone. -/
theorem range_over_array_around : ∃ e, firstOf1970.predicate {} "seen" = .ok (some e) ∧
    e.eval (.document [("seen", .array [.dateTime (-1), .dateTime 86400000])]) = .ok true ∧
    e.eval (.document [("seen", .dateTime (-1))]) = .ok false ∧
    e.eval (.document [("seen", .dateTime 86400000)]) = .ok false := by
  have hp : firstOf1970.predicate {} "seen" = .ok (some _) := rfl
  have hinstant (t : Int64) : (Value.dateTime t).IsSingle := fun _ => Value.noConfusion
  have hboth : ∀ v ∈ [Value.dateTime (-1), .dateTime 86400000], v.IsSingle :=
    List.forall_mem_cons.2 ⟨hinstant _, List.forall_mem_singleton.2 (hinstant _)⟩
  obtain ⟨hsingle, harray⟩ := range_over_array (.date (Or.inl rfl)) hp
  exact ⟨_, hp, (harray _ _ rfl hboth).1.trans (by decide), (hsingle _ _ rfl (hinstant _)).trans (by decide),
    (hsingle _ _ rfl (hinstant _)).trans (by decide)⟩

/-- A number below a range and one above it pass as well, so a number inside is not needed. -/
theorem not_range_over_array_inside : ¬ ∀ (low high : Double) (settings : FilterSettings) (field : String) (e : Expr),
    predicate settings field (.number (.single { operator := .inRange, operand := some low, upper := some high })) =
        .ok (some e) →
      ∀ doc items, doc.lookup field = some (.array items) → (∀ v ∈ items, v.number?.isSome) →
        (e.eval doc = .ok true ↔ ∃ v ∈ items, v.meetsNumber .gte low = true ∧ v.meetsNumber .lte high = true) := by
  intro h
  have hiff := h (.ofInt 10) (.ofInt 20) {} "value" _ rfl (.document [("value", .array [.int32 0, .int32 100])]) _ rfl
    (by decide)
  revert hiff
  decide

end ColumnFilter

end Dossier
